/-
  MesonDisplay.Helper.KnownProps — no atomic request with an unknown property.

  A property of the table that a connector does not have keeps the id 0.  A
  client sets the value for every HDMI connector, whatever the ids are, and the
  next commit adds each value that is pending.

  Main results:
    * `known_adds_of_known_sets` — where clients set only what every HDMI
      connector has, no commit adds the id 0.
-/
import MesonDisplay.Helper.MessageFrame
import MesonDisplay.Helper.PropIds
import MesonDisplay.Lib.Runs

namespace MesonDisplay.Helper

open MesonDisplay.LinkedList
open MesonDisplay.Runs
open MesonDisplay.Json (jsonText)

/-! ## §1. Calls. -/

/-- libdrm: the id of a property is not 0. -/
structure KmsDrm extends Drm where
  nonZero : ∀ id props, objectProperties id = some props → ∀ e ∈ props, e.1 ≠ 0

/-- A call about a connector, a request that sets properties, or a commit. -/
inductive AtomicCall where
  | append (drm : KmsDrm) (mallocOk : Bool) (connector : Option Nat)
  | update (drm : KmsDrm) (mallocOk : Bool) (oldConnector newConnector : Option Nat)
  | delete (connector : Option Nat)
  | setProperties (env : MessageEnv) (value : Json)
  | commit (drm : KmsDrm) (atomicAdd : Nat → Int)

/-- The object of a request that sets properties. -/
def setPropertiesRequest (value : Json) : Json :=
  .object [("cmd", .string "set connector range properties"), ("value", value)]

def AtomicCall.helperCall : AtomicCall → HelperCall
  | .append drm mallocOk connector => .appendConnector drm.toDrm mallocOk connector
  | .update drm mallocOk old new => .updateConnector drm.toDrm mallocOk old new
  | .delete connector => .deleteConnector connector
  | .setProperties env value => .message env (setPropertiesRequest value)
  | .commit drm atomicAdd => .atomicReqAddProp drm.toDrm atomicAdd

/-- A call that returns. -/
def atomicStep (jc : JsonC) (s : HelperState) (call : AtomicCall) : Option HelperState :=
  (call.helperCall.run jc s).toOption

/-- A commit does not call `drmModeAtomicAddProperty` with the id 0. -/
def AddsKnown (s : HelperState) : AtomicCall → Prop
  | .commit drm atomicAdd =>
      match helpAtomicReqAddProp drm.toDrm atomicAdd s.atomicModesetEnable s.connectorList with
      | .error _ => True
      | .ok (_, adds, _) => ∀ a ∈ adds, a.propId ≠ 0
  | _ => True

/-- Every listed HDMI connector has the properties that the request sets. -/
def SetsKnown (jc : JsonC) (s : HelperState) : AtomicCall → Prop
  | .setProperties env (.object fs) =>
      ∀ f ∈ fs, ∀ i ∈ propertyIndex f.1, (jc.getInt64 f.2).2 = 0 →
        ∀ n ∈ connectorNodes s.connectorList, isHdmiConnector env.drm n = true →
          ∀ p ∈ n.props[i]?, p.propId ≠ 0
  | _ => True

instance (s : HelperState) (call : AtomicCall) : Decidable (AddsKnown s call) := by
  unfold AddsKnown
  split
  · split <;> infer_instance
  · infer_instance

instance (jc : JsonC) (s : HelperState) (call : AtomicCall) :
    Decidable (SetsKnown jc s call) := by
  unfold SetsKnown
  split <;> infer_instance

/-! ## §2. One node. -/

/-- What is pending has an id. -/
def PendingKnown (n : ConnectorNode) : Prop :=
  ∀ p ∈ n.props, p.needChange = true → p.propId ≠ 0

theorem recordPropId_known {name : String} {propId : Nat} (hid : propId ≠ 0)
    {props props' : List DrmPropertyInfo}
    (hprops : ∀ p ∈ props, p.needChange = true → p.propId ≠ 0)
    (hrun : recordPropId name propId props = .ok props') :
    ∀ p ∈ props', p.needChange = true → p.propId ≠ 0 := by
  rw [recordPropId_eq name propId hrun]
  cases firstPart name props with
  | none => exact hprops
  | some k =>
      intro p hp hchange
      rcases mem_modify hp with hp | ⟨q, -, rfl⟩
      · exact hprops p hp hchange
      · exact hid

theorem recordPropIds_known {drm : Drm} (ids : List (Nat × Nat)) (hids : ∀ e ∈ ids, e.1 ≠ 0) :
    ∀ {props props' : List DrmPropertyInfo},
      (∀ p ∈ props, p.needChange = true → p.propId ≠ 0) →
      recordPropIds drm ids props = .ok props' →
      ∀ p ∈ props', p.needChange = true → p.propId ≠ 0 := by
  induction ids with
  | nil =>
      intro props props' hprops hrun
      obtain rfl := Except.ok.inj hrun
      exact hprops
  | cons e ids ih =>
      intro props props' hprops hrun
      obtain ⟨propId, value⟩ := e
      obtain ⟨hid, hrest⟩ := List.forall_mem_cons.mp hids
      unfold recordPropIds at hrun
      cases hname : drm.property propId with
      | none =>
          simp only [hname] at hrun
          exact ih hrest hprops hrun
      | some name =>
          simp only [hname] at hrun
          obtain ⟨props₁, hfirst, hlast⟩ := bind_eq_ok.mp hrun
          exact ih hrest (recordPropId_known hid hprops hfirst) hlast

/-- An update of the ids gives ids that are not 0. -/
theorem stable_pendingKnown (drm : KmsDrm) : Stable drm.toDrm PendingKnown where
  table := by
    intro c
    show ∀ p ∈ connectorProps, p.needChange = true → p.propId ≠ 0
    decide
  ids := by
    intro n n' hn hrun
    unfold updateConnectorProps at hrun
    cases hc : n.data with
    | none =>
        simp only [hc] at hrun
        exact absurd hrun (by simp)
    | some c =>
        simp only [hc] at hrun
        cases hids : drm.objectProperties (drm.connector c).connectorId with
        | none =>
            simp only [hids] at hrun
            obtain rfl := Except.ok.inj hrun
            exact hn
        | some ids =>
            simp only [hids] at hrun
            obtain ⟨props, hprops, hnode⟩ := bind_eq_ok.mp hrun
            obtain rfl := Except.ok.inj hnode
            exact recordPropIds_known ids (drm.nonZero _ ids hids) hn hprops
  hole := fun _ hn => hn

/-- The node is safe for requests that set the properties in `I`. -/
structure SafeFor (drm : Drm) (I : Nat → Prop) (n : ConnectorNode) : Prop where
  pending : PendingKnown n
  ids : ∀ i, I i → isHdmiConnector drm n = true → ∀ p ∈ n.props[i]?, p.propId ≠ 0

theorem safeFor_setNode {drm : Drm} {I : Nat → Prop} {i : Nat} (value : Nat) (hi : I i)
    {n : ConnectorNode} (hn : SafeFor drm I n) : SafeFor drm I (setNode drm i value n) := by
  unfold setNode
  by_cases hhdmi : isHdmiConnector drm n = true
  · rw [if_pos hhdmi]
    refine ⟨?_, ?_⟩
    · intro p hp hchange
      rcases mem_modify hp with hp | ⟨q, hq, rfl⟩
      · exact hn.pending p hp hchange
      -- the property that is set has an id
      · exact hn.ids i hi hhdmi q hq
    · intro j hj _ p hp
      change (n.props.modify i _)[j]? = some p at hp
      rw [List.getElem?_modify] at hp
      obtain ⟨q, hq, rfl⟩ := Option.map_eq_some_iff.mp hp
      have hid := hn.ids j hj hhdmi q hq
      by_cases hij : i = j
      · rw [if_pos hij]
        exact hid
      · rw [if_neg hij]
        exact hid
  · rw [if_neg hhdmi]
    exact hn

/-- A commit leaves nothing pending for a connector. -/
theorem pendingKnown_commitNode {n : ConnectorNode} (hn : PendingKnown n) :
    PendingKnown (commitNode n) := by
  unfold commitNode
  by_cases hused : n.data.isSome = true
  · rw [if_pos hused]
    intro p hp hchange
    obtain ⟨q, -, rfl⟩ := List.mem_map.mp hp
    exact absurd hchange (by simp)
  · rw [if_neg hused]
    exact hn

/-- What a commit adds for a node. -/
theorem nodeAdds_known {drm : Drm} {n : ConnectorNode} (hn : PendingKnown n) :
    ∀ a ∈ nodeAdds drm n, a.propId ≠ 0 := by
  intro a ha
  unfold nodeAdds at ha
  cases hc : n.data with
  | none =>
      rw [hc] at ha
      exact absurd ha List.not_mem_nil
  | some c =>
      simp only [hc] at ha
      obtain ⟨p, hp, hadd⟩ := List.mem_filterMap.mp ha
      obtain ⟨v, hv, rfl⟩ := Option.map_eq_some_iff.mp hadd
      unfold DrmPropertyInfo.pending at hv
      by_cases hchange : p.needChange = true
      · exact hn p hp hchange
      · rw [if_neg hchange] at hv
        exact absurd hv (by simp)

/-! ## §3. One call. -/

/-- The list is well formed, and so is every node. -/
def AllNodes (Q : ConnectorNode → Prop) (s : HelperState) : Prop :=
  ∃ es t, ConnectorsOk s.connectorList es t ∧ Every Q es

section Step

variable {jc : JsonC} {s s' : HelperState}

theorem allNodes_iff {Q : ConnectorNode → Prop} {es : List (Entry ConnectorNode)}
    {t : Entry ConnectorNode} (hok : ConnectorsOk s.connectorList es t) :
    (∀ n ∈ connectorNodes s.connectorList, Q n) ↔ Every Q es := by
  have hnodes : connectorNodes s.connectorList = dataOf es := hok.linked.readData_eq
  rw [hnodes]
  rfl

/-- One member of the request. -/
theorem allNodes_setRangeProperty {env : MessageEnv} {I : Nat → Prop} {name : String}
    {jsonValue : Json}
    (hI : ∀ i ∈ propertyIndex name, (jc.getInt64 jsonValue).2 = 0 → I i)
    (hs : AllNodes (SafeFor env.drm I) s)
    (hrun : setRangeProperty jc env s name jsonValue = .ok s') :
    AllNodes (SafeFor env.drm I) s' := by
  rcases setRangeProperty_cases hrun with rfl | ⟨i, u, -, hi, herrno, hloop⟩
  · exact hs
  · unfold lockedLoop at hloop
    obtain ⟨⟨h', u', pos⟩, hfor, hstate⟩ := bind_eq_ok.mp hloop
    obtain ⟨rfl, -⟩ := Prod.mk.inj (Except.ok.inj hstate)
    obtain ⟨es, t, hlist, hall⟩ := hs
    -- the loop stores to the property of every HDMI connector
    have hbody := setRangeBody_eq env.drm (propertyIndex_lt hi)
      ((jc.getInt64 jsonValue).1 % 2 ^ 64).toNat
    obtain ⟨es', hlist', hall'⟩ := forEachConnector_keeps
      (fun s n n' l hn hb => by
        obtain ⟨m, l', hb', hm⟩ := setRangeBody_named env.drm i _ s n hn
        rw [hb'] at hb
        obtain ⟨rfl, -⟩ := Prod.mk.inj (Except.ok.inj hb)
        exact hm)
      (fun s n n' l hn hb => by
        rw [hbody s n] at hb
        obtain ⟨rfl, -⟩ := Prod.mk.inj (Except.ok.inj hb)
        exact safeFor_setNode _ (hI i hi herrno) hn)
      hlist hall hfor
    exact ⟨es', t, hlist', hall'⟩

/-- All members. -/
theorem allNodes_setRangeProperties {env : MessageEnv} {I : Nat → Prop}
    (fs : List (String × Json))
    (hI : ∀ f ∈ fs, ∀ i ∈ propertyIndex f.1, (jc.getInt64 f.2).2 = 0 → I i) :
    ∀ {s : HelperState}, AllNodes (SafeFor env.drm I) s →
      setRangeProperties jc env s fs = .ok s' → AllNodes (SafeFor env.drm I) s' := by
  induction fs with
  | nil =>
      intro s hs hrun
      obtain rfl := Except.ok.inj hrun
      exact hs
  | cons f fs ih =>
      intro s hs hrun
      obtain ⟨name, jsonValue⟩ := f
      obtain ⟨hfirst, hrest⟩ := List.forall_mem_cons.mp hI
      unfold setRangeProperties at hrun
      obtain ⟨s₁, hset, hruns⟩ := bind_eq_ok.mp hrun
      exact ih hrest (allNodes_setRangeProperty hfirst hs hset) hruns

theorem mMessageHandle_setProperties (env : MessageEnv) (value : Json) :
    mMessageHandle jc env s (setPropertiesRequest value)
      = handleSetRangeProperties jc env s value := by
  have hget : jc.getString (.string "set connector range properties")
      = some "set connector range properties" := JsonC.getString_string (by decide)
  exact mMessageHandle_setRange env hget

/-- **A request** that sets what the HDMI connectors have. -/
theorem allNodes_setProperties {env : MessageEnv} {value : Json}
    (hs : AllNodes PendingKnown s) (hknown : SetsKnown jc s (.setProperties env value))
    (hrun : atomicStep jc s (.setProperties env value) = some s') : AllNodes PendingKnown s' := by
  simp only [atomicStep, AtomicCall.helperCall, HelperCall.run, mMessageHandle_setProperties]
    at hrun
  cases value with
  | null =>
      obtain rfl := Option.some.inj hrun
      exact hs
  | object fs =>
      cases hset : setRangeProperties jc env s fs with
      | error e => simp [handleSetRangeProperties, hset, Except.toOption] at hrun
      | ok s₁ =>
          simp only [handleSetRangeProperties, hset, ok_bind] at hrun
          obtain rfl := Option.some.inj hrun
          -- the properties that are set
          obtain ⟨es, t, hok, hall⟩ := hs
          have hsafe : AllNodes (SafeFor env.drm fun i =>
              ∃ f ∈ fs, i ∈ propertyIndex f.1 ∧ (jc.getInt64 f.2).2 = 0) s := by
            refine ⟨es, t, hok, ?_⟩
            rw [← allNodes_iff hok] at hall ⊢
            intro n hn
            refine ⟨hall n hn, ?_⟩
            rintro i ⟨f, hf, hi, herrno⟩ hhdmi
            exact hknown f hf i hi herrno n hn hhdmi
          obtain ⟨es', t', hok', hall'⟩ := allNodes_setRangeProperties fs
            (fun f hf i hi herrno => ⟨f, hf, hi, herrno⟩) hsafe hset
          exact ⟨es', t', hok', fun n hn => (hall' n hn).pending⟩
  | _ => simp [handleSetRangeProperties, Except.toOption] at hrun

/-- **One call.** -/
theorem allNodes_step (hs : AllNodes PendingKnown s) {call : AtomicCall}
    (hknown : SetsKnown jc s call) (hrun : atomicStep jc s call = some s') :
    AllNodes PendingKnown s' := by
  cases call with
  | setProperties env value => exact allNodes_setProperties hs hknown hrun
  | append drm mallocOk connector =>
      obtain ⟨es, t, hok, hall⟩ := hs
      obtain ⟨h, hcall, rfl⟩ := toOption_bind hrun
      exact connectorsOk_append (stable_pendingKnown drm) hok hall hcall
  | update drm mallocOk old new =>
      obtain ⟨es, t, hok, hall⟩ := hs
      obtain ⟨h, hcall, rfl⟩ := toOption_bind hrun
      exact connectorsOk_update (stable_pendingKnown drm) hok hall hcall
  | delete connector =>
      obtain ⟨es, t, hok, hall⟩ := hs
      obtain ⟨h, hcall, rfl⟩ := toOption_bind hrun
      exact connectorsOk_delete (fun _ hn => hn) hok hall hcall
  | commit drm atomicAdd =>
      obtain ⟨es, t, hok, hall⟩ := hs
      obtain ⟨⟨h, r⟩, hcall, rfl⟩ := toOption_bind hrun
      cases henable : s.atomicModesetEnable with
      | false =>
          rw [henable] at hcall
          exact absurd hcall (by simp [helpAtomicReqAddProp])
      | true =>
          obtain ⟨h₁, es₁, ret, hcommit, hok₁, hdata⟩ :=
            atomicReqAddProp_returns drm.toDrm atomicAdd hok
          rw [henable, hcommit] at hcall
          obtain ⟨rfl, -⟩ := Prod.mk.inj (Except.ok.inj hcall)
          refine ⟨es₁, t, hok₁, ?_⟩
          unfold Every
          rw [hdata]
          intro m hm
          obtain ⟨n, hn, rfl⟩ := List.mem_map.mp hm
          exact pendingKnown_commitNode (hall n hn)

/-- What a commit adds in such a state. -/
theorem addsKnown_of_allNodes (hs : AllNodes PendingKnown s) (call : AtomicCall) :
    AddsKnown s call := by
  cases call with
  | commit drm atomicAdd =>
      obtain ⟨es, t, hok, hall⟩ := hs
      unfold AddsKnown
      cases henable : s.atomicModesetEnable with
      | false => exact trivial
      | true =>
          obtain ⟨h', es', ret, hrun, -, -⟩ := atomicReqAddProp_returns drm.toDrm atomicAdd hok
          simp only [hrun]
          intro a ha
          obtain ⟨n, hn, hadd⟩ := List.mem_flatMap.mp ha
          exact nodeAdds_known (hall n hn) a hadd
  | _ => exact trivial

theorem allNodes_init (Q : ConnectorNode → Prop) (atomicModesetEnable : Bool) :
    AllNodes Q (.init atomicModesetEnable) :=
  ⟨[], _, connectorsOk_init, fun _ hn => absurd hn List.not_mem_nil⟩

end Step

/-! ## §4. Runs. -/

/-- **No unknown property.**  In a run in which clients set a property only
while every listed HDMI connector has an id for it, no commit calls
`drmModeAtomicAddProperty` with the id 0. -/
theorem known_adds_of_known_sets (jc : JsonC) (atomicModesetEnable : Bool)
    (calls : List AtomicCall)
    (hknown : Meets (atomicStep jc) (SetsKnown jc) (.init atomicModesetEnable) calls) :
    Meets (atomicStep jc) AddsKnown (.init atomicModesetEnable) calls :=
  meets_of_meets (I := AllNodes PendingKnown) (fun _ call hs _ => addsKnown_of_allNodes hs call)
    (fun _ _ _ hs hknown hrun => allNodes_step hs hknown hrun) calls
    (allNodes_init PendingKnown atomicModesetEnable) hknown

/-- The connector 30, whose properties have these names. -/
def kmsNamed (names : Nat → Option String) : KmsDrm where
  toDrm := drmNamed names
  nonZero := by
    intro id props hprops
    change (if id = 30 then some [(7, 1), (8, 10), (9, 0)] else none) = some props at hprops
    by_cases hid : id = 30
    · rw [if_pos hid] at hprops
      obtain rfl := Option.some.inj hprops
      decide
    · rw [if_neg hid] at hprops
      exact absurd hprops (by simp)

/-- The connector is appended, a client sets its color depth, and the value is
committed. -/
def setColorDepthRun (names : Nat → Option String) : List AtomicCall :=
  [.append (kmsNamed names) true (some 0),
    .setProperties ⟨drmNamed names, true⟩ (.object [("Color Depth", .int 8)]),
    .commit (kmsNamed names) fun _ => 1]

theorem known_adds_of_known_sets_color_depth :
    Meets (atomicStep jsonText) AddsKnown (.init true) (setColorDepthRun tableNames) :=
  known_adds_of_known_sets jsonText true (setColorDepthRun tableNames) (by decide +kernel)

/-- Only the content protection can be set. -/
def protectionOnly : Nat → Option String
  | 7 => some "Content Protection"
  | _ => none

/-- The property that the connector does not have is added with the id 0. -/
theorem unknown_color_depth_added :
    ¬ Meets (atomicStep jsonText) AddsKnown (.init true) (setColorDepthRun protectionOnly) ∧
      ((run (atomicStep jsonText) (.init true) ((setColorDepthRun protectionOnly).take 2)).bind
        fun s => (helpAtomicReqAddProp (drmNamed protectionOnly) (fun _ => 1)
          s.atomicModesetEnable s.connectorList).toOption.map fun r => r.2.1)
        = some [⟨30, 0, 8⟩] := by
  constructor <;> decide +kernel

end MesonDisplay.Helper
