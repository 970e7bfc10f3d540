/-
  MesonDisplay.Helper.PendingHistory — the connectors and their pending values,
  over whole histories.

  The list of connectors is written by the compositor, which adds, replaces and
  removes connectors and takes the pending values into its atomic requests, and
  by clients, whose requests set values.  An abstract machine keeps the list as
  cells: a connector, if there is one, and what is pending for each property.
  All other calls leave the cells alone, those that read the ids of the
  properties again included.

  Main results:
    * `represents_call` — every call of the helper is one step of the machine.
    * `represents_calls` — so behind any calls the list stands for its cells.
    * `Waits.call` — a value waits until something is done to its property or
      its connector.
    * `commitAdds_due` — a commit adds what is pending in the cells.
-/
import MesonDisplay.Helper.ConnectorSet
import MesonDisplay.Helper.PendingProps
import MesonDisplay.Helper.Shown

namespace MesonDisplay.Helper

open MesonDisplay.LinkedList
open MesonDisplay.Runs

/-! ## §1. The machine. -/

/-- The property and the value that a member of a request states. -/
def setting (jc : JsonC) (field : String × Json) : Option (Nat × Nat) :=
  if (jc.getInt64 field.2).2 = 0 then
    (propertyIndex field.1).map (·, ((jc.getInt64 field.2).1 % 2 ^ 64).toNat)
  else none

/-- The values that a request sets, in order. -/
def settings (jc : JsonC) (dataIn : Json) : List (Nat × Nat) :=
  if (dataIn.objectGetEx "cmd").bind jc.getString = some "set connector range properties" then
    match dataIn.objectGet "value" with
    | .object fields => fields.filterMap (setting jc)
    | _ => []
  else []

/-- The cells behind some values for the HDMI connectors. -/
def setAll (hdmi : Nat → Bool) (cells : List ConnectorCell) (values : List (Nat × Nat)) :
    List ConnectorCell :=
  values.foldl (fun cells e => setPending hdmi e.1 e.2 cells) cells

/-- The cells behind a call. -/
def cellsAfterCall (jc : JsonC) (cells : List ConnectorCell) : HelperCall → List ConnectorCell
  | .appendConnector _ _ (some c) => appendConnector c cells
  | .updateConnector _ _ old (some new) => updateConnector old new cells
  | .deleteConnector (some c) => deleteConnector c cells
  | .atomicReqAddProp _ _ => commitPending cells
  | .message env dataIn => setAll (hdmiOf env.drm) cells (settings jc dataIn)
  | _ => cells

/-- The cells behind some calls. -/
def cellsAfter (jc : JsonC) (calls : List HelperCall) : List ConnectorCell :=
  calls.foldl (cellsAfterCall jc) []

/-! ## §2. What leaves the cells alone. -/

section Calls

variable {jc : JsonC} {env : MessageEnv} {s s' : HelperState} {cells : List ConnectorCell}
  {dataIn out : Json} {h h' : ConnectorHeap}

/-- A loop that may read the ids of the properties again, and nothing else. -/
theorem represents_lockedLoop {σ : Type}
    {body : σ → ConnectorNode → Except Fault (ConnectorNode × Loop σ)} {init x : σ}
    (hbody : ∀ x n n' l, Named n ∧ HasTable n → body x n = .ok (n', l) →
      (Named n' ∧ HasTable n') ∧ cellOf n' = cellOf n)
    (hrep : Represents s.connectorList cells) (hrun : lockedLoop body s init = .ok (s', x)) :
    Represents s'.connectorList cells ∧ s'.atomicModesetEnable = s.atomicModesetEnable := by
  obtain ⟨es, t, hok, htable, rfl⟩ := hrep
  obtain ⟨⟨h, x', pos⟩, hloop, hstate⟩ := bind_eq_ok.mp hrun
  obtain ⟨rfl, -⟩ := Prod.mk.inj (Except.ok.inj hstate)
  have hgood : ∀ n ∈ dataOf es, Named n ∧ HasTable n := fun n hn => ⟨hok.named n hn, htable n hn⟩
  refine ⟨?_, rfl⟩
  show Represents h _
  cases hv : visit body init (dataOf es) with
  | error e =>
      have hbad := hok.linked.forEach_error Fault.badPointer (Nat.lt_succ_self _) hv
      unfold forEachConnector at hloop
      rw [show (s.emit .lock).connectorList = s.connectorList from rfl, hbad] at hloop
      exact absurd hloop (by simp)
  | ok r =>
      obtain ⟨ds, x₁, j⟩ := r
      have hkept := visit_keeps (fun x n n' l hn hb => (hbody x n n' l hn hb).1) (dataOf es) hv hgood
      obtain ⟨h₁, es₁, hrun₁, hok₁, hdata, -⟩ :=
        forEachConnector_spec hok rfl hv fun n hn => (hkept n hn).1
      rw [show (s.emit .lock).connectorList = s.connectorList from rfl, hrun₁] at hloop
      obtain ⟨rfl, -⟩ := Prod.mk.inj (Except.ok.inj hloop)
      refine ⟨es₁, t, hok₁, ?_, ?_⟩
      · rw [hdata]
        exact fun n hn => (hkept n hn).2
      · rw [hdata]
        exact visit_view (fun x n n' l hn hb => (hbody x n n' l hn hb).2) (dataOf es) hv hgood

theorem getModesBody_view (drm : Drm) (x : Json) {n n' : ConnectorNode} {l : Loop Json}
    (hn : Named n ∧ HasTable n) (hrun : getModesBody drm x n = .ok (n', l)) :
    (Named n' ∧ HasTable n') ∧ cellOf n' = cellOf n := by
  unfold getModesBody at hrun
  cases hc : n.data with
  | none =>
      simp only [hc] at hrun
      obtain ⟨rfl, -⟩ := Prod.mk.inj (Except.ok.inj hrun)
      exact ⟨hn, rfl⟩
  | some c =>
      obtain ⟨n₁, hids, hnamed, htable, hcell⟩ := updateConnectorProps_cell drm hc hn.1 hn.2
      simp only [hc, dumpConnectorInfo, hids, ok_bind] at hrun
      obtain ⟨rfl, -⟩ := Prod.mk.inj (Except.ok.inj hrun)
      exact ⟨⟨hnamed, htable⟩, hcell⟩

theorem getRangeBody_same (drm : Drm) (name : String) (x : Json) {n n' : ConnectorNode}
    {l : Loop Json} (hrun : getRangeBody drm name x n = .ok (n', l)) : n' = n := by
  unfold getRangeBody at hrun
  cases hc : n.data with
  | none =>
      simp only [hc] at hrun
      exact (Prod.mk.inj (Except.ok.inj hrun)).1.symm
  | some c =>
      simp only [hc] at hrun
      exact (Prod.mk.inj (Except.ok.inj hrun)).1.symm

/-- No step of "set mode" writes the list. -/
theorem taskFrame_connectors : TaskFrame (fun s s' => s'.connectorList = s.connectorList ∧
    s'.atomicModesetEnable = s.atomicModesetEnable) where
  refl := fun _ => ⟨rfl, rfl⟩
  trans := fun h₁ h₂ => ⟨h₂.1.trans h₁.1, h₂.2.trans h₁.2⟩
  emit := fun _ _ => ⟨rfl, rfl⟩
  tasks := fun _ _ => ⟨rfl, rfl⟩
  outputs := by
    intro s s' call hrun
    obtain ⟨r, -, hok⟩ := bind_eq_ok.mp hrun
    obtain rfl := Except.ok.inj hok
    exact ⟨rfl, rfl⟩

/-! ## §3. Requests. -/

theorem setAll_append (hdmi : Nat → Bool) (cells : List ConnectorCell)
    (values values' : List (Nat × Nat)) :
    setAll hdmi cells (values ++ values') = setAll hdmi (setAll hdmi cells values) values' :=
  List.foldl_append ..

/-- One member of a request that sets values. -/
theorem represents_setRangeProperty {field : String × Json}
    (hrep : Represents s.connectorList cells)
    (hrun : setRangeProperty jc env s field.1 field.2 = .ok s') :
    Represents s'.connectorList (setAll (hdmiOf env.drm) cells (setting jc field).toList) ∧
      s'.atomicModesetEnable = s.atomicModesetEnable := by
  unfold setRangeProperty at hrun
  by_cases hempty : field.1 = ""
  · -- no property has the empty name
    have hnone : setting jc field = none := by
      unfold setting
      rw [hempty]
      exact ite_self _
    rw [if_pos hempty] at hrun
    obtain rfl := Except.ok.inj hrun
    rw [hnone]
    exact ⟨hrep, rfl⟩
  · rw [if_neg hempty] at hrun
    unfold setting propertyIndex
    cases hi : connectorProps.findIdx? (fun p => p.name = some field.1) with
    | none =>
        simp only [hi] at hrun
        obtain rfl := Except.ok.inj hrun
        rw [Option.map_none, ite_self]
        exact ⟨hrep, rfl⟩
    | some i =>
        simp only [hi] at hrun
        by_cases herrno : (jc.getInt64 field.2).2 = 0
        · rw [if_neg (not_not.mpr herrno)] at hrun
          rw [if_pos herrno]
          obtain ⟨⟨s₁, u⟩, hloop, hok⟩ := bind_eq_ok.mp hrun
          obtain rfl := Except.ok.inj hok
          obtain ⟨⟨h, u', pos⟩, hfor, hstate⟩ := bind_eq_ok.mp hloop
          obtain ⟨rfl, -⟩ := Prod.mk.inj (Except.ok.inj hstate)
          obtain ⟨h₁, pos₁, hset, hrep'⟩ := represents_set env.drm (propertyIndex_lt hi)
            ((jc.getInt64 field.2).1 % 2 ^ 64).toNat hrep
          rw [show (s.emit .lock).connectorList = s.connectorList from rfl, hset] at hfor
          obtain ⟨rfl, -⟩ := Prod.mk.inj (Except.ok.inj hfor)
          exact ⟨hrep', rfl⟩
        · rw [if_pos herrno] at hrun
          rw [if_neg herrno]
          obtain rfl := Except.ok.inj hrun
          exact ⟨hrep, rfl⟩

/-- All members. -/
theorem represents_setRangeProperties (fields : List (String × Json)) :
    ∀ {s : HelperState} {cells : List ConnectorCell}, Represents s.connectorList cells →
      setRangeProperties jc env s fields = .ok s' →
      Represents s'.connectorList
          (setAll (hdmiOf env.drm) cells (fields.filterMap (setting jc))) ∧
        s'.atomicModesetEnable = s.atomicModesetEnable := by
  induction fields with
  | nil =>
      intro s cells hrep hrun
      obtain rfl := Except.ok.inj hrun
      exact ⟨hrep, rfl⟩
  | cons field fields ih =>
      intro s cells hrep hrun
      obtain ⟨s₁, hset, hrest⟩ := bind_eq_ok.mp hrun
      obtain ⟨hrep₁, henable₁⟩ := represents_setRangeProperty hrep hset
      obtain ⟨hrep', henable'⟩ := ih hrep₁ hrest
      have hvalues : (field :: fields).filterMap (setting jc)
          = (setting jc field).toList ++ fields.filterMap (setting jc) := by
        rw [List.filterMap_cons]
        cases setting jc field <;> rfl
      rw [hvalues, setAll_append]
      exact ⟨hrep', henable'.trans henable₁⟩

/-- A request that sets no values. -/
theorem represents_otherRequest (hrep : Represents s.connectorList cells)
    (hother : (dataIn.objectGetEx "cmd").bind jc.getString
      ≠ some "set connector range properties")
    (hrun : mMessageHandle jc env s dataIn = .ok (s', out)) :
    Represents s'.connectorList cells ∧ s'.atomicModesetEnable = s.atomicModesetEnable := by
  let Kept (r : Except Fault (HelperState × Json)) : Prop :=
    ∀ s' out, r = .ok (s', out) →
      Represents s'.connectorList cells ∧ s'.atomicModesetEnable = s.atomicModesetEnable
  have hsame : ∀ out, Kept (.ok (s, out)) := by
    intro out s' out' h
    obtain ⟨rfl, -⟩ := Prod.mk.inj (Except.ok.inj h)
    exact ⟨hrep, rfl⟩
  have hall : Kept (mMessageHandle jc env s dataIn) := by
    apply mMessageHandle_cases
    case absent => exact fun _ => hsame _
    case null => exact fun _ _ _ _ _ h => absurd h (by simp)
    case command =>
      intro tmp cmd htmp hcmd
      have hsome : (dataIn.objectGetEx "cmd").bind jc.getString = some cmd := by
        rw [htmp, Option.bind_some, hcmd]
      refine ⟨?setMode, ?getModes, ?setRange, ?getRange, ?setUi, ?getInfo, hsame⟩
      case setMode =>
        intro _ s' out h
        obtain ⟨hlist, henable⟩ := handleSetMode_frame taskFrame_connectors h
        exact ⟨hlist ▸ hrep, henable⟩
      case getModes =>
        exact fun _ _ _ h => represents_lockedLoop
          (fun x n n' l hn hb => getModesBody_view env.drm x hn hb) hrep h
      case setRange => exact fun hset => absurd (hset ▸ hsome) hother
      case getRange =>
        intro _ s' out h
        unfold handleGetRangeProperties at h
        split at h
        · exact hsame _ s' out h
        · split_ifs at h with hname
          · exact hsame _ s' out h
          · refine represents_lockedLoop (fun x n n' l hn hb => ?_) hrep h
            obtain rfl := getRangeBody_same env.drm _ x hb
            exact ⟨hn, rfl⟩
      case setUi =>
        intro _ s' out h
        obtain ⟨rfl, -⟩ := Prod.mk.inj (Except.ok.inj h)
        unfold setUiRect
        split
        · exact ⟨hrep, rfl⟩
        · simp only
          split
          · exact ⟨hrep, rfl⟩
          · exact ⟨hrep, rfl⟩
      case getInfo =>
        intro _ s' out h
        unfold handleGetInfo at h
        split_ifs at h with hregistered
        obtain ⟨rfl, -⟩ := Prod.mk.inj (Except.ok.inj h)
        exact ⟨hrep, rfl⟩
  exact hall s' out hrun

/-- **A request** sets the values it states. -/
theorem represents_message (hrep : Represents s.connectorList cells)
    (hrun : mMessageHandle jc env s dataIn = .ok (s', out)) :
    Represents s'.connectorList (setAll (hdmiOf env.drm) cells (settings jc dataIn)) ∧
      s'.atomicModesetEnable = s.atomicModesetEnable := by
  unfold settings
  by_cases hcmd : (dataIn.objectGetEx "cmd").bind jc.getString
      = some "set connector range properties"
  · rw [mMessageHandle_setRange env hcmd] at hrun
    rw [if_pos hcmd]
    unfold handleSetRangeProperties at hrun
    cases hvalue : dataIn.objectGet "value" with
    | null =>
        simp only [hvalue] at hrun ⊢
        obtain ⟨rfl, -⟩ := Prod.mk.inj (Except.ok.inj hrun)
        exact ⟨hrep, rfl⟩
    | object fields =>
        simp only [hvalue] at hrun ⊢
        obtain ⟨s₁, hset, hok⟩ := bind_eq_ok.mp hrun
        obtain ⟨rfl, -⟩ := Prod.mk.inj (Except.ok.inj hok)
        exact represents_setRangeProperties fields hrep hset
    | _ =>
        simp only [hvalue] at hrun
        exact absurd hrun (by simp)
  · rw [if_neg hcmd]
    exact represents_otherRequest hrep hcmd hrun

/-! ## §4. The calls of the compositor. -/

theorem updateConnectorProps_none (drm : Drm) {n : ConnectorNode} (hn : n.data = none) :
    updateConnectorProps drm n = .error .badPointer := by
  unfold updateConnectorProps
  rw [hn]

/-- NULL is not appended: the node it would be found in, or put into, has no
connector to read the properties of. -/
theorem append_null {es : List (Entry ConnectorNode)} {t : Entry ConnectorNode} (drm : Drm)
    (mallocOk : Bool) (hok : ConnectorsOk h es t) :
    helpAppendConnector drm mallocOk none h ≠ .ok h' := by
  intro hrun
  obtain ⟨h₁, es₁, exist, i, hsearch, hok₁, hdata, hexist, hi, hfound, hend⟩ :=
    search_spec none hok
  unfold helpAppendConnector at hrun
  simp only [hsearch, ok_bind] at hrun
  rw [← hdata] at hi hexist
  cases exist with
  | true =>
      obtain ⟨pre, e, post, rfl, hlen, haddr⟩ := Linked.getD_split (hfound rfl) t
      rw [dataOf_split] at hi hexist
      obtain ⟨hc, -⟩ := findIdx_split hexist.symm rfl (by rw [← hi, ← hlen]; simp [dataOf])
      simp only [if_true, haddr, load_eq hok₁.linked.cell, ok_bind,
        updateConnectorProps_none drm (of_decide_eq_true hc)] at hrun
      exact absurd hrun (by simp [error_bind])
  | false =>
      rw [hend rfl, getD_last] at hrun
      simp only [Bool.false_eq_true, if_false] at hrun
      obtain ⟨h₂, hnew, hrest⟩ := bind_eq_ok.mp hrun
      obtain ⟨t', hok₂⟩ := appendNew_spec hok₁ hnew
      have hnull : updateConnectorProps drm ⟨none, connectorProps⟩ = .error .badPointer :=
        updateConnectorProps_none drm rfl
      simp only [load_eq hok₂.linked.cell, ok_bind, hnull] at hrest
      exact absurd hrest (by simp [error_bind])

theorem visit_replace_null (drm : Drm) (old : Nat) (ns : List ConnectorNode) :
    ∀ {ns' updated i}, visit (replaceConnector drm old none) false ns = .ok (ns', updated, i) →
      ns' = ns ∧ updated = false := by
  induction ns with
  | nil =>
      intro ns' updated i hv
      obtain ⟨rfl, rfl, -⟩ : [] = ns' ∧ false = updated ∧ 0 = i := by simpa [visit] using hv
      exact ⟨rfl, rfl⟩
  | cons n ns ih =>
      intro ns' updated i hv
      unfold visit replaceConnector at hv
      by_cases hold : n.data = some old
      · -- the node that is found would take NULL
        simp [hold, updateConnectorProps_none drm (n := ⟨none, connectorProps⟩) rfl,
          error_bind] at hv
      · simp only [if_neg hold] at hv
        cases hrest : visit (replaceConnector drm old none) false ns with
        | error e =>
            unfold replaceConnector at hrest
            simp [hrest] at hv
        | ok r =>
            obtain ⟨ns₁, updated₁, j⟩ := r
            obtain ⟨rfl, rfl⟩ := ih hrest
            unfold replaceConnector at hrest
            simp only [hrest] at hv
            obtain ⟨rfl, rfl, -⟩ : n :: ns₁ = ns' ∧ false = updated ∧ j + 1 = i := by
              simpa using hv
            exact ⟨rfl, rfl⟩

/-- NULL replaces nothing. -/
theorem update_null {es : List (Entry ConnectorNode)} {t : Entry ConnectorNode} (drm : Drm)
    (mallocOk : Bool) (old : Option Nat) (hok : ConnectorsOk h es t) :
    helpUpdateConnector drm mallocOk old none h ≠ .ok h' := by
  intro hrun
  unfold helpUpdateConnector at hrun
  cases old with
  | none => exact append_null drm mallocOk hok hrun
  | some old =>
      cases hv : visit (replaceConnector drm old none) false (dataOf es) with
      | error e =>
          have hbad := hok.linked.forEach_error Fault.badPointer (Nat.lt_succ_self _) hv
          simp only [forEachConnector, hbad, error_bind] at hrun
          exact absurd hrun (by simp)
      | ok r =>
          obtain ⟨ns, updated, i⟩ := r
          obtain ⟨rfl, rfl⟩ := visit_replace_null drm old (dataOf es) hv
          obtain ⟨h₁, es₁, hloop, hok₁, -, -⟩ := forEachConnector_spec hok rfl hv hok.named
          simp only [hloop, ok_bind, Bool.false_eq_true, if_false] at hrun
          exact append_null drm mallocOk hok₁ hrun

/-- Where the memory is missing, `help_update_connector` returns only if it
needs none. -/
theorem update_withMemory {drm : Drm} {mallocOk : Bool} {old new : Option Nat}
    (hrun : helpUpdateConnector drm mallocOk old new h = .ok h') :
    helpUpdateConnector drm true old new h = .ok h' := by
  unfold helpUpdateConnector at hrun ⊢
  cases old with
  | none => exact append_withMemory hrun
  | some old =>
      cases hloop : forEachConnector (replaceConnector drm old new) h false with
      | error f =>
          simp only [hloop, error_bind] at hrun
          exact absurd hrun (by simp)
      | ok r =>
          obtain ⟨h₁, updated, i⟩ := r
          simp only [hloop, ok_bind] at hrun ⊢
          cases updated with
          | true => exact hrun
          | false => exact append_withMemory hrun

/-- Appending; NULL does not return. -/
theorem represents_appendCall {drm : Drm} {mallocOk : Bool} {connector : Option Nat}
    (hrep : Represents h cells)
    (hcall : helpAppendConnector drm mallocOk connector h = .ok h') :
    Represents h' (cellsAfterCall jc cells (.appendConnector drm mallocOk connector)) := by
  cases connector with
  | none =>
      obtain ⟨es, t, hok, -, -⟩ := hrep
      exact absurd hcall (append_null drm mallocOk hok)
  | some c =>
      obtain ⟨h₁, happend, hrep'⟩ := represents_append drm c hrep
      rw [append_withMemory hcall] at happend
      obtain rfl := Except.ok.inj happend
      exact hrep'

/-- Replacing; by NULL it does not return. -/
theorem represents_updateCall {drm : Drm} {mallocOk : Bool} {old new : Option Nat}
    (hrep : Represents h cells)
    (hcall : helpUpdateConnector drm mallocOk old new h = .ok h') :
    Represents h' (cellsAfterCall jc cells (.updateConnector drm mallocOk old new)) := by
  cases new with
  | none =>
      obtain ⟨es, t, hok, -, -⟩ := hrep
      exact absurd hcall (update_null drm mallocOk old hok)
  | some c =>
      obtain ⟨h₁, hupdate, hrep'⟩ := represents_update drm old c hrep
      rw [update_withMemory hcall] at hupdate
      obtain rfl := Except.ok.inj hupdate
      exact hrep'

/-- Deleting; NULL is in no node. -/
theorem represents_deleteCall {connector : Option Nat} (hrep : Represents h cells)
    (hcall : helpDeleteConnector connector h = .ok h') :
    Represents h' (cellsAfterCall jc cells (.deleteConnector connector)) := by
  cases connector with
  | none =>
      obtain rfl := Except.ok.inj hcall
      exact hrep
  | some c =>
      obtain ⟨h₁, hdelete, hrep'⟩ := represents_delete c hrep
      rw [hcall] at hdelete
      obtain rfl := Except.ok.inj hdelete
      exact hrep'

/-- **One call** that returns is one step of the machine. -/
theorem represents_call (hrep : Represents s.connectorList cells) (call : HelperCall)
    (hrun : call.run jc s = .ok s') :
    Represents s'.connectorList (cellsAfterCall jc cells call) ∧
      s'.atomicModesetEnable = s.atomicModesetEnable := by
  cases call with
  | appendConnector drm mallocOk connector =>
      obtain ⟨h, hcall, hend⟩ := bind_eq_ok.mp hrun
      obtain rfl := Except.ok.inj hend
      exact ⟨represents_appendCall hrep hcall, rfl⟩
  | updateConnector drm mallocOk old new =>
      obtain ⟨h, hcall, hend⟩ := bind_eq_ok.mp hrun
      obtain rfl := Except.ok.inj hend
      exact ⟨represents_updateCall hrep hcall, rfl⟩
  | deleteConnector connector =>
      obtain ⟨h, hcall, hend⟩ := bind_eq_ok.mp hrun
      obtain rfl := Except.ok.inj hend
      exact ⟨represents_deleteCall hrep hcall, rfl⟩
  | atomicReqAddProp drm atomicAdd =>
      obtain ⟨⟨h, r⟩, hcall, hend⟩ := bind_eq_ok.mp hrun
      obtain rfl := Except.ok.inj hend
      cases henable : s.atomicModesetEnable with
      | false =>
          rw [henable] at hcall
          exact absurd hcall (by simp [helpAtomicReqAddProp])
      | true =>
          obtain ⟨h₁, ret, hcommit, hrep'⟩ := represents_commit drm atomicAdd hrep
          rw [henable, hcommit] at hcall
          obtain ⟨rfl, -⟩ := Prod.mk.inj (Except.ok.inj hcall)
          exact ⟨hrep', rfl⟩
  | setSwitchModeFunction ctx registered =>
      obtain rfl := Except.ok.inj hrun
      exact ⟨hrep, rfl⟩
  | setForceRefreshFunction registered =>
      obtain rfl := Except.ok.inj hrun
      exact ⟨hrep, rfl⟩
  | setPrintinfoFunction registered =>
      obtain rfl := Except.ok.inj hrun
      exact ⟨hrep, rfl⟩
  | updateUiLogicSizeInfo w h =>
      obtain rfl := Except.ok.inj hrun
      unfold helpUpdateUiLogicSizeInfo
      split
      · exact ⟨hrep, rfl⟩
      · exact ⟨hrep, rfl⟩
  | updateDisplayModeInfo mode =>
      obtain rfl := Except.ok.inj hrun
      exact ⟨hrep, rfl⟩
  | doRepaintCycleCompleted =>
      obtain ⟨hlist, henable⟩ := repaintLoop_frame taskFrame_connectors maxTaskNum hrun
      exact ⟨hlist ▸ hrep, henable⟩
  | updataCompositorOutput callocOk older newer =>
      obtain ⟨h, -, hend⟩ := bind_eq_ok.mp hrun
      obtain rfl := Except.ok.inj hend
      exact ⟨hrep, rfl⟩
  | switchCompositorOutput output enable =>
      obtain ⟨h, -, hend⟩ := bind_eq_ok.mp hrun
      obtain rfl := Except.ok.inj hend
      exact ⟨hrep, rfl⟩
  | message env dataIn =>
      obtain ⟨⟨s₁, out⟩, hmessage, hend⟩ := bind_eq_ok.mp hrun
      obtain rfl := Except.ok.inj hend
      exact represents_message hrep hmessage

/-- **Call after call.** -/
theorem represents_calls (calls : List HelperCall) : ∀ {s : HelperState} {cells : List ConnectorCell},
    Represents s.connectorList cells → run (callStep jc) s calls = some s' →
    Represents s'.connectorList (calls.foldl (cellsAfterCall jc) cells) ∧
      s'.atomicModesetEnable = s.atomicModesetEnable := by
  induction calls with
  | nil =>
      intro s cells hrep hrun
      obtain rfl := Option.some.inj hrun
      exact ⟨hrep, rfl⟩
  | cons call calls ih =>
      intro s cells hrep hrun
      obtain ⟨s₁, hstep, hrest⟩ := run_cons_some hrun
      obtain ⟨hrep₁, henable₁⟩ := represents_call hrep call (callStep_eq_some.mp hstep)
      obtain ⟨hrep', henable'⟩ := ih hrep₁ hrest
      exact ⟨hrep', henable'.trans henable₁⟩

end Calls

/-! ## §5. A value that waits. -/

/-- A call that leaves the property number `p` of the connector `c` alone. -/
def Leaves (jc : JsonC) (c p : Nat) : HelperCall → Prop
  | .updateConnector _ _ old new => old ≠ some c ∧ new ≠ some c
  | .deleteConnector connector => connector ≠ some c
  | .atomicReqAddProp _ _ => False
  | .message _ dataIn => ∀ e ∈ settings jc dataIn, e.1 ≠ p
  | _ => True

/-- The connector is listed, and the value is pending wherever it is. -/
structure Waits (c p value : Nat) (cells : List ConnectorCell) : Prop where
  listed : c ∈ connectorsOf cells
  pending : ∀ x ∈ cells, x.connector = some c → x.pending[p]? = some (some value)

section Waiting

variable {jc : JsonC} {hdmi : Nat → Bool} {c p value : Nat} {cells : List ConnectorCell}
  {h : ConnectorHeap}

/-- A request makes a value wait. -/
theorem waits_set (hrep : Represents h cells) (hc : c ∈ connectorsOf cells)
    (hhdmi : hdmi c = true) (hp : p < connectorProps.length) :
    Waits c p value (setPending hdmi p value cells) where
  listed := (connectorsOf_setPending hdmi p value cells).symm ▸ hc
  pending := by
    intro x hx hxc
    obtain ⟨y, hy, rfl⟩ := List.mem_map.mp hx
    have hyc : y.connector = some c := by
      by_cases hy' : y.isHdmi hdmi = true
      · rwa [if_pos hy'] at hxc
      · rwa [if_neg hy'] at hxc
    have hyhdmi : y.isHdmi hdmi = true := by
      unfold ConnectorCell.isHdmi
      rw [hyc]
      exact hhdmi
    -- the node has the whole table
    have hlen : p < y.pending.length := by
      obtain ⟨htable, hcells⟩ := hrep.nodes
      rw [← hcells] at hy
      obtain ⟨n, hn, rfl⟩ := List.mem_map.mp hy
      have hused : n.data ≠ none := by
        rw [show n.data = some c from hyc]
        simp
      have hnames := congrArg List.length (htable n hn hused)
      rw [List.length_map, List.length_map] at hnames
      show p < (n.props.map DrmPropertyInfo.pending).length
      rw [List.length_map, hnames]
      exact hp
    rw [if_pos hyhdmi]
    exact List.getElem?_set_self hlen

theorem Waits.setPending {i value' : Nat} (hw : Waits c p value cells) (hi : i ≠ p) :
    Waits c p value (setPending hdmi i value' cells) where
  listed := (connectorsOf_setPending hdmi i value' cells).symm ▸ hw.listed
  pending := by
    intro x hx hxc
    obtain ⟨y, hy, rfl⟩ := List.mem_map.mp hx
    by_cases hyhdmi : y.isHdmi hdmi = true
    · rw [if_pos hyhdmi] at hxc ⊢
      rw [List.getElem?_set_ne hi]
      exact hw.pending y hy hxc
    · rw [if_neg hyhdmi] at hxc ⊢
      exact hw.pending y hy hxc

theorem Waits.setAll {values : List (Nat × Nat)} (hw : Waits c p value cells)
    (hvalues : ∀ e ∈ values, e.1 ≠ p) : Waits c p value (setAll hdmi cells values) := by
  induction values generalizing cells with
  | nil => exact hw
  | cons e values ih =>
      obtain ⟨he, hrest⟩ := List.forall_mem_cons.mp hvalues
      exact ih (hw.setPending he) hrest

/-- A connector that is not listed is appended in a cell of its own. -/
theorem Waits.append (hw : Waits c p value cells) (d : Nat) :
    Waits c p value (appendConnector d cells) := by
  unfold appendConnector
  by_cases hlisted : Helper.listed d cells = true
  · rw [if_pos hlisted]
    exact hw
  · rw [if_neg hlisted]
    have hne : d ≠ c := fun heq => hlisted (listed_iff.mpr (heq ▸ hw.listed))
    refine ⟨?_, ?_⟩
    · unfold connectorsOf
      rw [List.filterMap_append]
      exact List.mem_append_left _ hw.listed
    · intro x hx hxc
      rcases List.mem_append.mp hx with hx | hx
      · exact hw.pending x hx hxc
      · obtain rfl := List.mem_singleton.mp hx
        exact absurd (Option.some.inj hxc) hne

/-- Another connector stays listed. -/
theorem mem_replace_of_ne {old new : Nat} {l : List Nat} (hc : c ∈ l) (hold : old ≠ c) :
    c ∈ l.replace old new := by
  obtain ⟨i, hi⟩ := List.mem_iff_getElem?.mp hc
  have hne : l[i]? ≠ some old := by
    rw [hi]
    exact fun heq => hold (Option.some.inj heq).symm
  exact List.mem_of_getElem? ((List.getElem?_replace_of_ne hne).trans hi)

theorem Waits.update {old : Option Nat} {new : Nat} (hw : Waits c p value cells)
    (hold : old ≠ some c) (hnew : new ≠ c) : Waits c p value (updateConnector old new cells) := by
  unfold updateConnector
  cases old with
  | none => exact hw.append new
  | some old =>
      cases hlisted : Helper.listed old cells with
      | false =>
          simp only [hlisted, Bool.false_eq_true, if_false]
          exact hw.append new
      | true =>
          simp only [hlisted, if_true]
          refine ⟨?_, ?_⟩
          · rw [connectorsOf_replaceFirst]
            exact mem_replace_of_ne hw.listed fun heq => hold (congrArg some heq)
          · intro x hx hxc
            rcases mem_replaceFirst hx with hx | hx
            · exact hw.pending x hx hxc
            · exact absurd (Option.some.inj (hx.symm.trans hxc)) hnew

theorem Waits.delete {d : Nat} (hw : Waits c p value cells) (hd : d ≠ c) :
    Waits c p value (deleteConnector d cells) where
  listed := by
    rw [connectorsOf_delete]
    exact (List.mem_erase_of_ne hd.symm).mpr hw.listed
  pending := by
    intro x hx hxc
    rcases mem_deleteConnector hx with hx | hnone
    · exact hw.pending x hx hxc
    · rw [hnone] at hxc
      exact absurd hxc (by simp)

/-- **One call.**  The value keeps waiting. -/
theorem Waits.call (hw : Waits c p value cells) {call : HelperCall}
    (hleaves : Leaves jc c p call) : Waits c p value (cellsAfterCall jc cells call) := by
  cases call with
  | appendConnector drm mallocOk connector =>
      cases connector with
      | none => exact hw
      | some d => exact hw.append d
  | updateConnector drm mallocOk old new =>
      cases new with
      | none => exact hw
      | some d => exact hw.update hleaves.1 fun heq => hleaves.2 (congrArg some heq)
  | deleteConnector connector =>
      cases connector with
      | none => exact hw
      | some d => exact hw.delete fun heq => hleaves (congrArg some heq)
  | atomicReqAddProp drm atomicAdd => exact hleaves.elim
  | message env dataIn => exact hw.setAll hleaves
  | _ => exact hw

theorem Waits.calls {calls : List HelperCall} (hw : Waits c p value cells)
    (hleaves : ∀ call ∈ calls, Leaves jc c p call) :
    Waits c p value (calls.foldl (cellsAfterCall jc) cells) := by
  induction calls generalizing cells with
  | nil => exact hw
  | cons call calls ih =>
      obtain ⟨hcall, hrest⟩ := List.forall_mem_cons.mp hleaves
      exact ih (hw.call hcall) hrest

/-! ## §6. The commit. -/

/-- What is due: the id of the connector and the value, in the order of the
cells. -/
def dueFor (drm : Drm) (cells : List ConnectorCell) : List (Nat × Nat) :=
  cells.flatMap fun x => x.connector.elim [] fun c =>
    x.pending.reduceOption.map fun value => ((drm.connector c).connectorId, value)

/-- **A commit adds what is due**, and nothing else. -/
theorem commitAdds_due (drm : Drm) (hrep : Represents h cells) :
    (commitAdds drm h).map (fun a => (a.connectorId, a.value)) = dueFor drm cells := by
  obtain ⟨-, hcells⟩ := hrep.nodes
  unfold commitAdds dueFor
  rw [← hcells, List.map_flatMap, List.flatMap_map]
  apply List.flatMap_congr
  intro n _
  unfold nodeAdds cellOf
  cases n.data with
  | none => rfl
  | some c =>
      have hvalues : ∀ values : List (Option Nat), values.reduceOption = values.filterMap id :=
        fun _ => rfl
      simp only [Option.elim_some, propAdds, hvalues, List.filterMap_map, List.map_filterMap,
        Option.map_map, Function.comp_def, id_eq]

/-- A value that waits is among it. -/
theorem Waits.added (drm : Drm) (hrep : Represents h cells) (hw : Waits c p value cells) :
    ⟨(drm.connector c).connectorId, propIdOf h c p, value⟩ ∈ commitAdds drm h := by
  obtain ⟨-, hcells⟩ := hrep.nodes
  obtain ⟨x, hx, hxc⟩ := List.mem_filterMap.mp hw.listed
  rw [← hcells] at hx
  obtain ⟨m, hm, rfl⟩ := List.mem_map.mp hx
  -- the first node with the connector
  obtain ⟨n, hfind⟩ : ∃ n, (connectorNodes h).find? (fun n => n.data = some c) = some n := by
    refine Option.isSome_iff_exists.mp (List.find?_isSome.mpr ⟨m, hm, ?_⟩)
    exact decide_eq_true hxc
  have hn := List.mem_of_find?_eq_some hfind
  have hnc : n.data = some c := by simpa using List.find?_some hfind
  have hvalue : (n.props.map DrmPropertyInfo.pending)[p]? = some (some value) :=
    hw.pending (cellOf n) (hcells ▸ List.mem_map_of_mem hn) hnc
  rw [List.getElem?_map] at hvalue
  obtain ⟨q, hq, hpending⟩ := Option.map_eq_some_iff.mp hvalue
  have hid : propIdOf h c p = q.propId := by
    unfold propIdOf
    simp only [hfind, List.getD_eq_getElem?_getD, List.getElem?_map, hq, Option.map_some,
      Option.getD_some]
  unfold commitAdds
  refine List.mem_flatMap.mpr ⟨n, hn, ?_⟩
  unfold nodeAdds propAdds
  simp only [hnc]
  refine List.mem_filterMap.mpr ⟨q, List.mem_of_getElem? hq, ?_⟩
  rw [hpending, hid, Option.map_some]

end Waiting

end MesonDisplay.Helper
