/-
  MesonDisplay.Helper.PendingProps — from the request to the atomic commit.

  A client sets a property of the connectors by its name.  The value stays in
  the nodes of the list until the compositor builds its next atomic request,
  which takes it over.  Connectors come and go in between.

  Main results:
    * `commit_adds_last_set` — a commit adds, for every listed HDMI connector
      and every property, the value set last, if it was set since the commit
      before and since the connector was appended.
-/
import MesonDisplay.Helper.Requests
import MesonDisplay.Lib.Runs
import Mathlib.Data.List.Nodup

namespace MesonDisplay.Helper

open MesonDisplay.LinkedList
open MesonDisplay.Runs
open MesonDisplay.Json (jsonText jsonText_readsObjects jsonText_getsInts)

/-! ## §1. Calls. -/

/-- What libdrm and the allocator answer during a call. -/
structure CallAnswers where
  objectProperties : Nat → Option (List (Nat × Nat))
  property : Nat → Option String
  allocOk : Bool

/-- The answers, with the objects behind the connectors. -/
def CallAnswers.drm (answers : CallAnswers) (connector : Nat → DrmModeConnector) : Drm :=
  ⟨connector, answers.objectProperties, answers.property⟩

/-- A set request, a call about a connector, or a commit. -/
inductive RegisterCall where
  | set (answers : CallAnswers) (request : PropertyRequest)
  | append (answers : CallAnswers) (connector : Nat)
  | delete (connector : Nat)
  | commit (answers : CallAnswers) (atomicAdd : Nat → Int)

/-- The call of the helper.  A request reaches it as it was read from the
connection. -/
def RegisterCall.helperCall (jc : JsonC) (connector : Nat → DrmModeConnector) :
    RegisterCall → HelperCall
  | .set answers request =>
      .message ⟨answers.drm connector, answers.allocOk⟩ (jc.received request.object)
  | .append answers c => .appendConnector (answers.drm connector) answers.allocOk (some c)
  | .delete c => .deleteConnector (some c)
  | .commit answers atomicAdd => .atomicReqAddProp (answers.drm connector) atomicAdd

/-- A call that returns. -/
def registerStep (jc : JsonC) (connector : Nat → DrmModeConnector) (s : HelperState)
    (call : RegisterCall) : Option HelperState :=
  ((call.helperCall jc connector).run jc s).toOption

/-- The memory that the call needs is there. -/
def RegisterCall.allocates : RegisterCall → Prop
  | .append answers _ => answers.allocOk = true
  | _ => True

/-- The type of a connector, from its object. -/
def isHdmiType (connector : Nat → DrmModeConnector) (c : Nat) : Bool :=
  (connector c).connectorType = drmModeConnectorHdmia
    ∨ (connector c).connectorType = drmModeConnectorHdmib

/-! ## §2. What a history says. -/

/-- The connectors that are listed after the calls, in the order of their
appending.  The last call comes first. -/
def connectorsAfter : List RegisterCall → List Nat
  | [] => []
  | .append _ c :: past =>
      if c ∈ connectorsAfter past then connectorsAfter past else connectorsAfter past ++ [c]
  | .delete c :: past => (connectorsAfter past).erase c
  | .set _ _ :: past => connectorsAfter past
  | .commit _ _ :: past => connectorsAfter past

/-- The value of the last set of the property number `p` while the connector was
listed, since the last commit and since the connector was appended to the list.
The last call comes first. -/
def lastSet (c p : Nat) : List RegisterCall → Option Nat
  | [] => none
  | .commit _ _ :: _ => none
  | .append _ d :: past =>
      if d = c ∧ c ∉ connectorsAfter past then none else lastSet c p past
  | .delete _ :: past => lastSet c p past
  | .set _ request :: past =>
      if propertyIndex request.name = some p ∧ c ∈ connectorsAfter past then some request.value
      else lastSet c p past

/-- The values that are due for a connector, property by property. -/
def dueValues (hdmi : Nat → Bool) (c : Nat) (past : List RegisterCall) : List (Option Nat) :=
  (List.range connectorProps.length).map fun p => if hdmi c then lastSet c p past else none

/-- The cells say what the history says. -/
structure Follows (hdmi : Nat → Bool) (cells : List ConnectorCell) (past : List RegisterCall) :
    Prop where
  connectors : connectorsOf cells = connectorsAfter past
  nodup : (connectorsOf cells).Nodup
  pending : ∀ x ∈ cells, ∀ c, x.connector = some c → x.pending = dueValues hdmi c past

theorem follows_nil (hdmi : Nat → Bool) : Follows hdmi [] [] where
  connectors := rfl
  nodup := List.nodup_nil
  pending := fun _ hx => absurd hx List.not_mem_nil

/-! ## §3. One call. -/

section Step

variable {hdmi : Nat → Bool} {cells : List ConnectorCell} {past : List RegisterCall}

theorem dueValues_length (hdmi : Nat → Bool) (c : Nat) (past : List RegisterCall) :
    (dueValues hdmi c past).length = connectorProps.length := by
  unfold dueValues
  rw [List.length_map, List.length_range]

theorem dueValues_congr {c : Nat} {past' : List RegisterCall}
    (h : ∀ p, lastSet c p past' = lastSet c p past) :
    dueValues hdmi c past' = dueValues hdmi c past := by
  unfold dueValues
  simp only [h]

theorem dueValues_none {c : Nat} (h : ∀ p, lastSet c p past = none) :
    dueValues hdmi c past = nothingPending := by
  unfold dueValues
  simp only [h, ite_self]
  rfl

theorem follows_append (answers : CallAnswers) (d : Nat) (hf : Follows hdmi cells past) :
    Follows hdmi (appendConnector d cells) (.append answers d :: past) := by
  have hconn : connectorsOf (appendConnector d cells)
      = connectorsAfter (.append answers d :: past) := by
    rw [connectorsOf_append, hf.connectors]
    rfl
  have hkeep : ∀ c, ¬ (d = c ∧ c ∉ connectorsAfter past) → ∀ p,
      lastSet c p (.append answers d :: past) = lastSet c p past := fun c h p => if_neg h
  unfold appendConnector at hconn ⊢
  by_cases hlisted : listed d cells = true
  · rw [if_pos hlisted] at hconn ⊢
    have hmem : d ∈ connectorsAfter past := hf.connectors ▸ listed_iff.mp hlisted
    refine ⟨hconn, hf.nodup, ?_⟩
    intro x hx c hc
    rw [hf.pending x hx c hc, dueValues_congr (hkeep c ?_)]
    intro h
    exact h.2 (h.1 ▸ hmem)
  · rw [if_neg hlisted] at hconn ⊢
    have hnot : d ∉ connectorsOf cells := fun h => hlisted (listed_iff.mpr h)
    refine ⟨hconn, ?_, ?_⟩
    · rw [hconn]
      show (if d ∈ connectorsAfter past then connectorsAfter past
        else connectorsAfter past ++ [d]).Nodup
      rw [← hf.connectors, if_neg hnot, ← List.concat_eq_append]
      exact List.Nodup.concat hnot hf.nodup
    · intro x hx c hc
      rcases List.mem_append.mp hx with hx | hx
      · -- a connector of the list is not the new one
        have hmem : c ∈ connectorsOf cells := List.mem_filterMap.mpr ⟨x, hx, hc⟩
        rw [hf.pending x hx c hc, dueValues_congr (hkeep c ?_)]
        intro h
        exact hnot (h.1 ▸ hmem)
      · obtain rfl := List.mem_singleton.mp hx
        obtain rfl : d = c := Option.some.inj hc
        rw [dueValues_none]
        intro p
        exact if_pos ⟨rfl, hf.connectors ▸ hnot⟩

theorem mem_deleteConnector {d : Nat} {x : ConnectorCell}
    (hx : x ∈ deleteConnector d cells) : x ∈ cells ∨ x.connector = none := by
  cases cells with
  | nil => exact absurd hx List.not_mem_nil
  | cons y ys =>
      rw [deleteConnector] at hx
      by_cases hy : y.holds d = true
      · rw [if_pos hy] at hx
        rcases List.mem_cons.mp hx with rfl | hx
        · exact .inr rfl
        · exact .inl (List.mem_cons_of_mem _ hx)
      · rw [if_neg hy] at hx
        rcases List.mem_cons.mp hx with rfl | hx
        · exact .inl List.mem_cons_self
        · exact .inl (List.mem_cons_of_mem _ (List.mem_of_mem_eraseP hx))

theorem follows_delete (d : Nat) (hf : Follows hdmi cells past) :
    Follows hdmi (deleteConnector d cells) (.delete d :: past) where
  connectors := by
    rw [connectorsOf_delete, hf.connectors]
    rfl
  nodup := by
    rw [connectorsOf_delete]
    exact hf.nodup.erase d
  pending := by
    intro x hx c hc
    rcases mem_deleteConnector hx with hx | hnone
    · rw [hf.pending x hx c hc]
      rfl
    · rw [hnone] at hc
      exact absurd hc (by simp)

theorem connectorsOf_map {f : ConnectorCell → ConnectorCell}
    (hf : ∀ x, (f x).connector = x.connector) (cells : List ConnectorCell) :
    connectorsOf (cells.map f) = connectorsOf cells := by
  unfold connectorsOf
  rw [List.filterMap_map]
  simp only [Function.comp_def, hf]

theorem connectorsOf_setPending (hdmi : Nat → Bool) (i value : Nat)
    (cells : List ConnectorCell) :
    connectorsOf (setPending hdmi i value cells) = connectorsOf cells := by
  apply connectorsOf_map
  intro x
  by_cases hx : x.isHdmi hdmi = true
  · rw [if_pos hx]
  · rw [if_neg hx]

theorem connectorsOf_commitPending (cells : List ConnectorCell) :
    connectorsOf (commitPending cells) = connectorsOf cells := by
  apply connectorsOf_map
  intro x
  by_cases hx : x.connector.isSome = true
  · rw [if_pos hx]
  · rw [if_neg hx]

/-- A set of the property number `i` is the last one from now on. -/
theorem dueValues_set {answers : CallAnswers} {request : PropertyRequest} {i c : Nat}
    (hi : propertyIndex request.name = some i) (hc : c ∈ connectorsAfter past)
    (hhdmi : hdmi c = true) :
    dueValues hdmi c (.set answers request :: past)
      = (dueValues hdmi c past).set i (some request.value) := by
  unfold dueValues
  apply List.ext_getElem?
  intro p
  rw [List.getElem?_set, List.length_map, List.length_range, List.getElem?_map,
    List.getElem?_map]
  have hlt := propertyIndex_lt hi
  by_cases hp : p < connectorProps.length
  · rw [List.getElem?_range hp]
    simp only [Option.map_some, if_pos hhdmi, lastSet, hi, hc, and_true]
    by_cases hip : i = p
    · subst hip
      simp [hp]
    · simp [hip]
  · rw [List.getElem?_eq_none (by rw [List.length_range]; omega)]
    simp
    omega

theorem follows_set (answers : CallAnswers) (request : PropertyRequest)
    (hf : Follows hdmi cells past) :
    Follows hdmi (setNamed hdmi request.name request.value cells)
      (.set answers request :: past) := by
  unfold setNamed
  cases hi : propertyIndex request.name with
  | none =>
      refine ⟨hf.connectors, hf.nodup, ?_⟩
      intro x hx c hc
      rw [hf.pending x hx c hc]
      apply (dueValues_congr _).symm
      intro p
      exact if_neg (fun h => absurd (hi.symm.trans h.1) (by simp))
  | some i =>
      have hconn := connectorsOf_setPending hdmi i request.value cells
      refine ⟨hconn.trans hf.connectors, hconn.symm ▸ hf.nodup, ?_⟩
      intro x hx c hc
      obtain ⟨y, hy, rfl⟩ := List.mem_map.mp hx
      have hyc : y.connector = some c := by
        by_cases hhdmi : y.isHdmi hdmi = true
        · rwa [if_pos hhdmi] at hc
        · rwa [if_neg hhdmi] at hc
      have hmem : c ∈ connectorsAfter past :=
        hf.connectors ▸ List.mem_filterMap.mpr ⟨y, hy, hyc⟩
      have hkind : y.isHdmi hdmi = hdmi c := by
        unfold ConnectorCell.isHdmi
        rw [hyc]
        rfl
      rw [hkind]
      by_cases hhdmi : hdmi c = true
      · rw [if_pos hhdmi, dueValues_set hi hmem hhdmi, ← hf.pending y hy c hyc]
      · rw [if_neg hhdmi, hf.pending y hy c hyc]
        unfold dueValues
        simp only [if_neg hhdmi]

theorem follows_commit (answers : CallAnswers) (atomicAdd : Nat → Int)
    (hf : Follows hdmi cells past) :
    Follows hdmi (commitPending cells) (.commit answers atomicAdd :: past) where
  connectors := (connectorsOf_commitPending cells).trans hf.connectors
  nodup := (connectorsOf_commitPending cells).symm ▸ hf.nodup
  pending := by
    intro x hx c hc
    obtain ⟨y, hy, rfl⟩ := List.mem_map.mp hx
    rw [dueValues_none (fun p => rfl)]
    have hyc : y.connector = some c := by
      by_cases hused : y.connector.isSome = true
      · rwa [if_pos hused] at hc
      · rwa [if_neg hused] at hc
    rw [if_pos (by rw [hyc]; rfl), hf.pending y hy c hyc]
    unfold dueValues
    rw [List.map_map]
    rfl

/-! ## §4. Runs. -/

/-- The state behind a history. -/
structure StateAfter (connector : Nat → DrmModeConnector) (s : HelperState)
    (past : List RegisterCall) : Prop where
  atomic : s.atomicModesetEnable = true
  cells : ∃ cells, Represents s.connectorList cells ∧
    Follows (isHdmiType connector) cells past

/-- Where the memory is missing, `help_append_connector` returns only if it
needs none. -/
theorem append_withMemory {drm : Drm} {mallocOk : Bool} {c : Option Nat} {h h' : ConnectorHeap}
    (hrun : helpAppendConnector drm mallocOk c h = .ok h') :
    helpAppendConnector drm true c h = .ok h' := by
  cases mallocOk with
  | true => exact hrun
  | false =>
      unfold helpAppendConnector at hrun ⊢
      obtain ⟨⟨h₁, exist, current⟩, hsearch, hrun⟩ := bind_eq_ok.mp hrun
      simp only [hsearch, ok_bind]
      cases exist with
      | true => exact hrun
      | false =>
          obtain ⟨h₂, hnew, -⟩ := bind_eq_ok.mp hrun
          unfold appendNew at hnew
          obtain ⟨n, -, hnew⟩ := bind_eq_ok.mp hnew
          by_cases hdata : n.data.data ≠ none
          · rw [if_pos hdata] at hnew
            exact absurd hnew (by simp)
          · rw [if_neg hdata, if_pos Bool.false_ne_true] at hnew
            exact absurd hnew (by simp)

variable {jc : JsonC} {connector : Nat → DrmModeConnector} {s : HelperState}

/-- **One call** leads from the state behind a history to the state behind the
history with the call. -/
theorem stateAfter_step (hr : jc.ReadsObjects) (hg : jc.GetsInts) (call : RegisterCall)
    (hs : StateAfter connector s past) :
    (∀ s', registerStep jc connector s call = some s' →
      StateAfter connector s' (call :: past)) ∧
    (call.allocates → ∃ s', registerStep jc connector s call = some s') := by
  obtain ⟨hatomic, cells, hrep, hf⟩ := hs
  unfold registerStep
  cases call with
  | set answers request =>
      obtain ⟨s₁, hrun, henable, hrep'⟩ := handle_setConnectorProperties hr hg
        ⟨answers.drm connector, answers.allocOk⟩ request hrep
      -- the handler returns, whatever libdrm answers
      have hcall : (RegisterCall.helperCall jc connector (.set answers request)).run jc s
          = .ok s₁ := by
        simp only [RegisterCall.helperCall, HelperCall.run, hrun, ok_bind]
      rw [hcall]
      refine ⟨?_, fun _ => ⟨s₁, rfl⟩⟩
      intro s' hs'
      obtain rfl := Option.some.inj hs'
      exact ⟨henable.trans hatomic, _, hrep', follows_set answers request hf⟩
  | append answers d =>
      obtain ⟨h', hrun, hrep'⟩ := represents_append (answers.drm connector) d hrep
      refine ⟨?_, ?_⟩
      · -- the call returned, so its node was allocated
        intro s' hs'
        obtain ⟨h₁, hcall, rfl⟩ := toOption_bind hs'
        rw [append_withMemory hcall] at hrun
        obtain rfl := Except.ok.inj hrun
        exact ⟨hatomic, _, hrep', follows_append answers d hf⟩
      · intro halloc
        have halloc' : answers.allocOk = true := halloc
        simp only [RegisterCall.helperCall, HelperCall.run, halloc', hrun, ok_bind]
        exact ⟨_, rfl⟩
  | delete d =>
      obtain ⟨h', hrun, hrep'⟩ := represents_delete d hrep
      simp only [RegisterCall.helperCall, HelperCall.run, hrun, ok_bind]
      refine ⟨?_, fun _ => ⟨_, rfl⟩⟩
      intro s' hs'
      obtain rfl := Option.some.inj hs'
      exact ⟨hatomic, _, hrep', follows_delete d hf⟩
  | commit answers atomicAdd =>
      obtain ⟨h', ret, hrun, hrep'⟩ :=
        represents_commit (answers.drm connector) atomicAdd hrep
      simp only [RegisterCall.helperCall, HelperCall.run, hatomic, hrun, ok_bind]
      refine ⟨?_, fun _ => ⟨_, rfl⟩⟩
      intro s' hs'
      obtain rfl := Option.some.inj hs'
      exact ⟨rfl, _, hrep', follows_commit answers atomicAdd hf⟩

/-- Call after call. -/
theorem stateAfter_run (hr : jc.ReadsObjects) (hg : jc.GetsInts) (calls : List RegisterCall) :
    ∀ {s : HelperState} {past : List RegisterCall}, StateAfter connector s past →
      (∀ s', run (registerStep jc connector) s calls = some s' →
        StateAfter connector s' (calls.reverse ++ past)) ∧
      ((∀ call ∈ calls, call.allocates) →
        ∃ s', run (registerStep jc connector) s calls = some s') := by
  induction calls with
  | nil =>
      intro s past hs
      refine ⟨?_, fun _ => ⟨s, rfl⟩⟩
      intro s' hs'
      obtain rfl := Option.some.inj hs'
      exact hs
  | cons call calls ih =>
      intro s past hs
      obtain ⟨hnext, hreturns⟩ := stateAfter_step hr hg call hs
      refine ⟨?_, ?_⟩
      · intro s' hs'
        obtain ⟨s₁, hstep, hrest⟩ := run_cons_some hs'
        rw [List.reverse_cons, List.append_assoc]
        exact (ih (hnext s₁ hstep)).1 s' hrest
      · intro halloc
        rw [List.forall_mem_cons] at halloc
        obtain ⟨s₁, hstep⟩ := hreturns halloc.1
        rw [run_cons hstep]
        exact (ih (hnext s₁ hstep)).2 halloc.2

theorem stateAfter_init (connector : Nat → DrmModeConnector) :
    StateAfter connector (.init true) [] where
  atomic := rfl
  cells := ⟨[], represents_init, follows_nil _⟩

/-! ## §5. Commits. -/

/-- The id that the node of a connector has for the property number `p`. -/
def propIdOf (h : ConnectorHeap) (c p : Nat) : Nat :=
  match (connectorNodes h).find? (fun n => n.data = some c) with
  | none => 0
  | some n => (n.props.map DrmPropertyInfo.propId).getD p 0

/-- The value that is due for the property number `p` of a connector. -/
def dueValue (connector : Nat → DrmModeConnector) (past : List RegisterCall) (c p : Nat) :
    Option Nat :=
  if isHdmiType connector c then lastSet c p past else none

/-- One add for every listed connector and every property with a value that is
due. -/
def dueAdds (connector : Nat → DrmModeConnector) (h : ConnectorHeap)
    (past : List RegisterCall) : List AtomicAdd :=
  (connectorsAfter past).flatMap fun c =>
    (List.range connectorProps.length).filterMap fun p =>
      (dueValue connector past c p).map fun value =>
        ⟨(connector c).connectorId, propIdOf h c p, value⟩

theorem filterMap_range {α β : Type} (f : α → Option β) (l : List α) :
    l.filterMap f = (List.range l.length).filterMap (fun i => l[i]?.bind f) := by
  induction l with
  | nil => rfl
  | cons x xs ih =>
      rw [List.length_cons, List.range_succ_eq_map, List.filterMap_cons, List.filterMap_cons,
        List.filterMap_map, ih]
      rfl

/-- The node of a connector is found, where no other node has it. -/
theorem find?_node {ns : List ConnectorNode} {n : ConnectorNode} {c : Nat}
    (hnd : (ns.filterMap ConnectorNode.data).Nodup) (hn : n ∈ ns) (hc : n.data = some c) :
    ns.find? (fun m => m.data = some c) = some n := by
  obtain ⟨l, r, rfl⟩ := List.append_of_mem hn
  rw [List.filterMap_append, List.filterMap_cons_some hc] at hnd
  obtain ⟨-, -, hdisjoint⟩ := List.nodup_append.mp hnd
  rw [List.find?_eq_some_iff_append]
  refine ⟨by simp [hc], l, r, rfl, ?_⟩
  intro m hm
  have hne : m.data ≠ some c := by
    intro hmc
    exact hdisjoint c (List.mem_filterMap.mpr ⟨m, hm, hmc⟩) c List.mem_cons_self rfl
  simp [hne]

/-- What a commit adds for a node. -/
theorem nodeAdds_eq {answers : CallAnswers} {h : ConnectorHeap}
    (hrep : Represents h cells) (hf : Follows (isHdmiType connector) cells past)
    {n : ConnectorNode} (hn : n ∈ connectorNodes h) {c : Nat} (hc : n.data = some c) :
    nodeAdds (answers.drm connector) n
      = (List.range connectorProps.length).filterMap fun p =>
          (dueValue connector past c p).map fun value =>
            ⟨(connector c).connectorId, propIdOf h c p, value⟩ := by
  obtain ⟨htable, hcells⟩ := hrep.nodes
  have hnd : ((connectorNodes h).filterMap ConnectorNode.data).Nodup := by
    have hset := hf.nodup
    rwa [← hcells, connectorsOf, List.filterMap_map] at hset
  have hpending : n.props.map DrmPropertyInfo.pending
      = dueValues (isHdmiType connector) c past :=
    hf.pending (cellOf n) (hcells ▸ List.mem_map_of_mem hn) c hc
  have hlen : n.props.length = connectorProps.length := by
    have h := congrArg List.length hpending
    rwa [List.length_map, dueValues_length] at h
  have hid : ∀ p, propIdOf h c p = (n.props.map DrmPropertyInfo.propId).getD p 0 := by
    intro p
    unfold propIdOf
    rw [find?_node hnd hn hc]
  unfold nodeAdds
  simp only [hc]
  unfold propAdds
  rw [filterMap_range, hlen]
  apply List.filterMap_congr
  intro p hp
  have hlt : p < n.props.length := by
    rw [hlen]
    exact List.mem_range.mp hp
  -- the value of the property is the one that is due
  have hvalue : (n.props[p]).pending = dueValue connector past c p := by
    have h := congrArg (fun l => l[p]?) hpending
    simp only [List.getElem?_map, List.getElem?_eq_getElem hlt, Option.map_some] at h
    unfold dueValues at h
    rw [List.getElem?_map, List.getElem?_range (List.mem_range.mp hp)] at h
    exact Option.some.inj h
  rw [List.getElem?_eq_getElem hlt, hid, ← hvalue]
  simp [hlt]
  rfl

theorem flatMap_filterMap {α β γ : Type} (f : α → Option β) (g : β → List γ) (l : List α) :
    (l.filterMap f).flatMap g = l.flatMap fun x => (f x).elim [] g := by
  induction l with
  | nil => rfl
  | cons x xs ih =>
      cases hx : f x with
      | none => rw [List.filterMap_cons_none hx, ih, List.flatMap_cons, hx, Option.elim_none,
          List.nil_append]
      | some y => rw [List.filterMap_cons_some hx, List.flatMap_cons, ih, List.flatMap_cons, hx,
          Option.elim_some]

/-- What a commit adds. -/
theorem commitAdds_eq {answers : CallAnswers} {h : ConnectorHeap}
    (hrep : Represents h cells) (hf : Follows (isHdmiType connector) cells past) :
    commitAdds (answers.drm connector) h = dueAdds connector h past := by
  have hconn : connectorsAfter past = (connectorNodes h).filterMap ConnectorNode.data := by
    rw [← hf.connectors, ← hrep.nodes.2, connectorsOf, List.filterMap_map]
    rfl
  unfold commitAdds dueAdds
  rw [hconn, flatMap_filterMap]
  apply List.flatMap_congr
  intro n hn
  cases hc : n.data with
  | none => simp [nodeAdds, hc]
  | some c => exact nodeAdds_eq hrep hf hn hc

/-- One commit in such a state. -/
theorem StateAfter.commit (h : StateAfter connector s past) (answers : CallAnswers)
    (atomicAdd : Nat → Int) :
    ∃ h' ret, helpAtomicReqAddProp (answers.drm connector) atomicAdd s.atomicModesetEnable
        s.connectorList
      = .ok (h', dueAdds connector s.connectorList past, ret) := by
  obtain ⟨cells, hrep, hfollows⟩ := h.cells
  obtain ⟨h', ret, hcommit, -⟩ := represents_commit (answers.drm connector) atomicAdd hrep
  rw [commitAdds_eq hrep hfollows] at hcommit
  exact ⟨h', ret, h.atomic.symm ▸ hcommit⟩

/-- **The last set counts, and once.**  Calls that all return, and then a
commit: it adds one property for each value that is due, and nothing else.  The
connectors it goes through are the listed ones, each once.  The calls do return
if the allocations succeed. -/
theorem commit_adds_last_set (hr : jc.ReadsObjects) (hg : jc.GetsInts)
    (connector : Nat → DrmModeConnector) (calls : List RegisterCall) :
    (∀ s, run (registerStep jc connector) (.init true) calls = some s →
      (connectorsAfter calls.reverse).Nodup ∧
      ∀ (answers : CallAnswers) (atomicAdd : Nat → Int), ∃ h' ret,
        helpAtomicReqAddProp (answers.drm connector) atomicAdd s.atomicModesetEnable
            s.connectorList
          = .ok (h', dueAdds connector s.connectorList calls.reverse, ret)) ∧
    ((∀ call ∈ calls, call.allocates) →
      ∃ s, run (registerStep jc connector) (.init true) calls = some s) := by
  obtain ⟨hstate, hreturns⟩ := stateAfter_run hr hg calls (stateAfter_init connector)
  refine ⟨?_, hreturns⟩
  intro s hrun
  have hs := hstate s hrun
  rw [List.append_nil] at hs
  obtain ⟨cells, -, hfollows⟩ := hs.cells
  exact ⟨hfollows.connectors ▸ hfollows.nodup, hs.commit⟩

end Step

/-- An HDMI connector whose id is 100. -/
def hdmiConnector (_ : Nat) : DrmModeConnector :=
  ⟨100, 1, drmModeConnectorHdmia, 0, 0, 0, [], [], []⟩

/-- libdrm knows no property. -/
def CallAnswers.silent : CallAnswers := ⟨fun _ => none, fun _ => none, true⟩

def colorDepth (value : Nat) (h : value < 2 ^ 64) : PropertyRequest :=
  ⟨"Color Depth", value, by decide, h⟩

/-- A connector is appended, and its color depth is set twice. -/
def colorDepthTwice : List RegisterCall :=
  [.append .silent 5, .set .silent (colorDepth 8 (by decide)),
    .set .silent (colorDepth 10 (by decide))]

/-- The commit adds the second value. -/
theorem color_depth_set_twice :
    ∃ s, run (registerStep jsonText hdmiConnector) (.init true) colorDepthTwice = some s ∧
      ∃ h' ret, helpAtomicReqAddProp (CallAnswers.silent.drm hdmiConnector) (fun _ => 1)
          s.atomicModesetEnable s.connectorList
        = .ok (h', [⟨100, propIdOf s.connectorList 5 1, 10⟩], ret) := by
  obtain ⟨hadds, hreturns⟩ := commit_adds_last_set jsonText_readsObjects jsonText_getsInts
    hdmiConnector colorDepthTwice
  obtain ⟨s, hrun⟩ := hreturns (by simp [colorDepthTwice, RegisterCall.allocates,
    CallAnswers.silent])
  obtain ⟨-, hcommit⟩ := hadds s hrun
  have hdue : dueAdds hdmiConnector s.connectorList colorDepthTwice.reverse
      = [⟨100, propIdOf s.connectorList 5 1, 10⟩] := rfl
  refine ⟨s, hrun, ?_⟩
  rw [← hdue]
  exact hcommit .silent (fun _ => 1)

end MesonDisplay.Helper
