/-
  MesonDisplay.Helper.PendingKept — how long a pending value stays pending.

  A value that was set waits in the node of its connector for the next atomic
  request.  It may be overwritten by a later set, and it is done with when
  libdrm has taken it.  `help_atomic_req_add_prop` clears the flag of a value
  that libdrm refused as well, and `help_update_connector` gives the new
  connector a table in which nothing is pending.

  Main results:
    * `pending_stays_iff` — the runs in which no value is lost.
-/
import MesonDisplay.Helper.ConnectorSet
import MesonDisplay.Helper.PendingProps
import Mathlib.Data.List.Range

namespace MesonDisplay.Helper

open MesonDisplay.LinkedList
open MesonDisplay.Runs
open MesonDisplay.Json (jsonText jsonText_readsObjects jsonText_getsInts)

/-! ## §1. Calls. -/

/-- A set request, the replacement of a connector, or a commit. -/
inductive PropertyCall where
  | set (answers : CallAnswers) (request : PropertyRequest)
  | update (answers : CallAnswers) (oldConnector newConnector : Nat)
  | commit (answers : CallAnswers) (atomicAdd : Nat → Int)

def PropertyCall.helperCall (jc : JsonC) (connector : Nat → DrmModeConnector) :
    PropertyCall → HelperCall
  | .set answers request =>
      .message ⟨answers.drm connector, answers.allocOk⟩ (jc.received request.object)
  | .update answers old new =>
      .updateConnector (answers.drm connector) answers.allocOk (some old) (some new)
  | .commit answers atomicAdd => .atomicReqAddProp (answers.drm connector) atomicAdd

/-- A listed connector is replaced by an object with the same `connector_id`. -/
def PropertyCall.Possible (connector : Nat → DrmModeConnector) (s : HelperState) :
    PropertyCall → Prop
  | .update _ old new => ConnectorListed s.connectorList old ∧
      (connector old).connectorId = (connector new).connectorId
  | _ => True

instance (connector : Nat → DrmModeConnector) (s : HelperState) (call : PropertyCall) :
    Decidable (call.Possible connector s) := by
  unfold PropertyCall.Possible
  split <;> infer_instance

/-- A call that is possible and returns. -/
def propertyStep (jc : JsonC) (connector : Nat → DrmModeConnector) (s : HelperState)
    (call : PropertyCall) : Option HelperState :=
  if call.Possible connector s then ((call.helperCall jc connector).run jc s).toOption else none

/-! ## §2. What is pending. -/

/-- The value that is pending for the property number `p` of the connector
number `k` of the list.  No call of these runs moves a node. -/
def pendingAt (h : ConnectorHeap) (k p : Nat) : Option Nat :=
  match (connectorNodes h)[k]? with
  | none => none
  | some n => if n.data = none then none else (n.props[p]?).bind DrmPropertyInfo.pending

/-- The same, in the cells. -/
def pendingIn (cells : List ConnectorCell) (k p : Nat) : Option Nat :=
  match cells[k]? with
  | none => none
  | some x => if x.connector = none then none else (x.pending[p]?).join

theorem pendingAt_eq {h : ConnectorHeap} {cells : List ConnectorCell}
    (hrep : Represents h cells) (k p : Nat) : pendingAt h k p = pendingIn cells k p := by
  unfold pendingAt pendingIn
  rw [← hrep.nodes.2, List.getElem?_map]
  cases (connectorNodes h)[k]? with
  | none => rfl
  | some n =>
      show (if n.data = none then none else (n.props[p]?).bind DrmPropertyInfo.pending)
        = if n.data = none then none else ((n.props.map DrmPropertyInfo.pending)[p]?).join
      rw [List.getElem?_map]
      cases hp : n.props[p]? with
      | none => simp
      | some q => simp

/-- The properties with a pending value, in the order in which a commit adds
them. -/
def pendingKeys (h : ConnectorHeap) : List (Nat × Nat) :=
  (List.range (connectorNodes h).length).flatMap fun k =>
    ((List.range connectorProps.length).filter fun p => (pendingAt h k p).isSome).map (k, ·)

/-- The add for the property succeeds. -/
def AddSucceeds (atomicAdd : Nat → Int) (h : ConnectorHeap) (k p : Nat) : Prop :=
  ∃ i, (pendingKeys h)[i]? = some (k, p) ∧ 0 < atomicAdd i

/-- The call overwrites the value of the property, or has it taken over. -/
def Settles (k p : Nat) (s : HelperState) : PropertyCall → Prop
  | .set _ request => propertyIndex request.name = some p
  | .update _ _ _ => False
  | .commit _ atomicAdd => AddSucceeds atomicAdd s.connectorList k p

/-- Throughout the run a pending value stays pending until it is overwritten or
taken over. -/
def PendingStays (jc : JsonC) (connector : Nat → DrmModeConnector) (s : HelperState)
    (calls : List PropertyCall) : Prop :=
  ∀ pre mid post s₁ s₂, calls = pre ++ mid ++ post →
    run (propertyStep jc connector) s pre = some s₁ →
    run (propertyStep jc connector) s₁ mid = some s₂ →
    ∀ k p v, pendingAt s₁.connectorList k p = some v →
      pendingAt s₂.connectorList k p = some v ∨
        Occurs (propertyStep jc connector) (Settles k p) s₁ mid

/-! ## §3. When a call loses nothing. -/

/-- Nothing is pending for the first node with the connector. -/
def NothingPendingFor (h : ConnectorHeap) (c : Nat) : Prop :=
  ∀ n, (connectorNodes h).find? (fun n => n.data = some c) = some n →
    ∀ q ∈ n.props, q.needChange = false

/-- Every add of a commit succeeds; a connector that is replaced has nothing
pending. -/
def LosesNothing (connector : Nat → DrmModeConnector) (s : HelperState) :
    PropertyCall → Prop
  | .set _ _ => True
  | .update answers old new => (PropertyCall.update answers old new).Possible connector s →
      NothingPendingFor s.connectorList old
  | .commit answers atomicAdd =>
      ∀ i, i < (commitAdds (answers.drm connector) s.connectorList).length → 0 < atomicAdd i

/-! ## §4. The calls on the cells. -/

section Cells

variable {cells : List ConnectorCell}

theorem pendingIn_setPending (hdmi : Nat → Bool) {i p : Nat} (value k : Nat) (hip : i ≠ p)
    (cells : List ConnectorCell) :
    pendingIn (setPending hdmi i value cells) k p = pendingIn cells k p := by
  unfold pendingIn setPending
  rw [List.getElem?_map]
  cases cells[k]? with
  | none => rfl
  | some x =>
      by_cases hx : x.isHdmi hdmi = true
      · simp [hx, hip]
      · simp [hx]

theorem pendingIn_setNamed (hdmi : Nat → Bool) {name : String} {p : Nat} (value k : Nat)
    (hne : propertyIndex name ≠ some p) (cells : List ConnectorCell) :
    pendingIn (setNamed hdmi name value cells) k p = pendingIn cells k p := by
  unfold setNamed
  cases hi : propertyIndex name with
  | none => rfl
  | some i =>
      refine pendingIn_setPending hdmi value k ?_ cells
      intro hip
      exact hne (by rw [hi, hip])

theorem pendingIn_commit (k p : Nat) (cells : List ConnectorCell) :
    pendingIn (commitPending cells) k p = none := by
  unfold pendingIn commitPending
  rw [List.getElem?_map]
  cases cells[k]? with
  | none => rfl
  | some x =>
      cases hx : x.connector with
      | none => simp [hx]
      | some c =>
          simp only [Option.map_some, hx, Option.isSome_some, if_true]
          rw [List.getElem?_map]
          cases x.pending[p]? with
          | none => rfl
          | some v => rfl

theorem nothingPending_join (p : Nat) : (nothingPending[p]?).join = none := by
  have hall : ∀ x ∈ nothingPending, x = none := by decide
  cases hp : nothingPending[p]? with
  | none => rfl
  | some x => exact hall x (List.mem_of_getElem? hp)

/-- Where the old connector was nothing is pending any more; the rest stays. -/
theorem pendingIn_replaceFirst (old new k p : Nat) (hlisted : listed old cells = true) :
    pendingIn (replaceFirst old new cells) k p
      = if k = cells.findIdx (·.holds old) then none else pendingIn cells k p := by
  induction cells generalizing k with
  | nil => exact absurd hlisted (by simp [listed])
  | cons x xs ih =>
      unfold replaceFirst
      rw [List.findIdx_cons]
      by_cases hx : x.holds old = true
      · rw [if_pos hx, hx]
        cases k with
        | zero => simp [pendingIn, nothingPending_join]
        | succ k => simp [pendingIn]
      · rw [if_neg hx]
        have hxs : listed old xs = true := by simpa [listed, hx] using hlisted
        cases k with
        | zero => simp [pendingIn, hx]
        | succ k =>
            have hcons : ∀ ys, pendingIn (x :: ys) (k + 1) p = pendingIn ys k p := fun ys => rfl
            rw [hcons, hcons, ih k hxs]
            simp [hx]

end Cells

/-! ## §5. The adds of a commit. -/

/-- The add of a property. -/
def addAt (drm : Drm) (h : ConnectorHeap) (k p : Nat) : AtomicAdd :=
  match (connectorNodes h)[k]? with
  | none => ⟨0, 0, 0⟩
  | some n =>
      match n.data, n.props[p]? with
      | some c, some q => ⟨(drm.connector c).connectorId, q.propId, q.newValue⟩
      | _, _ => ⟨0, 0, 0⟩

theorem flatMap_range {α β : Type} (g : α → List β) (l : List α) :
    l.flatMap g = (List.range l.length).flatMap (fun k => (l[k]?).elim [] g) := by
  induction l with
  | nil => rfl
  | cons x xs ih =>
      rw [List.length_cons, List.range_succ_eq_map, List.flatMap_cons, List.flatMap_cons,
        List.flatMap_map, ih]
      rfl

section Keys

variable {h : ConnectorHeap} {cells : List ConnectorCell}

theorem props_length {n : ConnectorNode} (hrep : Represents h cells)
    (hn : n ∈ connectorNodes h) (hused : n.data ≠ none) :
    n.props.length = connectorProps.length := by
  have hnames := congrArg List.length (hrep.nodes.1 n hn hused)
  rwa [List.length_map, List.length_map] at hnames

/-- The adds of a commit are those of the pending properties, in order. -/
theorem commitAdds_eq_keys (drm : Drm) (hrep : Represents h cells) :
    commitAdds drm h = (pendingKeys h).map fun key => addAt drm h key.1 key.2 := by
  unfold commitAdds pendingKeys
  rw [flatMap_range, List.map_flatMap]
  apply List.flatMap_congr
  intro k hk
  have hlt := List.mem_range.mp hk
  obtain ⟨n, hget⟩ : ∃ n, (connectorNodes h)[k]? = some n :=
    ⟨_, List.getElem?_eq_getElem hlt⟩
  have hn := List.mem_of_getElem? hget
  rw [List.map_map, hget, Option.elim_some]
  unfold nodeAdds
  cases hc : n.data with
  | none =>
      have hnone : ∀ p, pendingAt h k p = none := by
        intro p
        unfold pendingAt
        simp [hget, hc]
      simp [hnone]
  | some c =>
      have hused : n.data ≠ none := by
        rw [hc]
        simp
      simp only
      unfold propAdds
      rw [filterMap_range, props_length hrep hn hused, ← List.filterMap_eq_map,
        List.filterMap_filter]
      apply List.filterMap_congr
      intro p hp
      have hp' : p < n.props.length := by
        rw [props_length hrep hn hused]
        exact List.mem_range.mp hp
      have hpending : pendingAt h k p = (n.props[p]).pending := by
        unfold pendingAt
        simp [hget, hc, List.getElem?_eq_getElem hp']
      rw [List.getElem?_eq_getElem hp', Option.bind_some, hpending]
      unfold DrmPropertyInfo.pending
      by_cases hchange : (n.props[p]).needChange = true
      · simp [hchange, addAt, hget, hc, List.getElem?_eq_getElem hp']
      · simp [hchange]

theorem mem_pendingKeys (hrep : Represents h cells) {k p : Nat} :
    (k, p) ∈ pendingKeys h ↔ ∃ v, pendingAt h k p = some v := by
  unfold pendingKeys
  rw [List.mem_flatMap]
  constructor
  · intro hmem
    obtain ⟨k', -, hk'⟩ := hmem
    obtain ⟨p', hp', heq⟩ := List.mem_map.mp hk'
    obtain ⟨rfl, rfl⟩ := Prod.mk.inj heq
    exact Option.isSome_iff_exists.mp (List.mem_filter.mp hp').2
  · intro hpending
    obtain ⟨v, hv⟩ := hpending
    have hv' := hv
    unfold pendingAt at hv'
    cases hget : (connectorNodes h)[k]? with
    | none =>
        rw [hget] at hv'
        exact absurd hv' (by simp)
    | some n =>
        simp only [hget] at hv'
        by_cases hused : n.data = none
        · rw [if_pos hused] at hv'
          exact absurd hv' (by simp)
        · rw [if_neg hused] at hv'
          obtain ⟨q, hq, -⟩ := Option.bind_eq_some_iff.mp hv'
          have hk := (List.getElem?_eq_some_iff.mp hget).1
          have hp := (List.getElem?_eq_some_iff.mp hq).1
          rw [props_length hrep (List.mem_of_getElem? hget) hused] at hp
          refine ⟨k, List.mem_range.mpr hk, List.mem_map.mpr ⟨p, ?_, rfl⟩⟩
          rw [List.mem_filter, hv]
          exact ⟨List.mem_range.mpr hp, rfl⟩

theorem pendingKeys_nodup (h : ConnectorHeap) : (pendingKeys h).Nodup := by
  unfold pendingKeys
  rw [List.nodup_flatMap]
  refine ⟨?_, ?_⟩
  · intro k _
    refine List.Nodup.map ?_ (List.nodup_range.filter _)
    intro p p' heq
    exact (Prod.mk.inj heq).2
  · refine List.nodup_range.imp ?_
    intro k k' hne key hk hk'
    obtain ⟨p, -, rfl⟩ := List.mem_map.mp hk
    obtain ⟨p', -, heq⟩ := List.mem_map.mp hk'
    exact hne (Prod.mk.inj heq).1.symm

/-- Every pending value has its add, so all are taken over if and only if every
add succeeds. -/
theorem all_taken_iff (drm : Drm) (atomicAdd : Nat → Int) (hrep : Represents h cells) :
    (∀ k p v, pendingAt h k p = some v → AddSucceeds atomicAdd h k p)
      ↔ ∀ i, i < (commitAdds drm h).length → 0 < atomicAdd i := by
  rw [commitAdds_eq_keys drm hrep, List.length_map]
  constructor
  · intro hall i hi
    obtain ⟨v, hv⟩ := (mem_pendingKeys hrep).mp (List.getElem_mem hi)
    obtain ⟨j, hj, hpos⟩ := hall _ _ v hv
    obtain ⟨hlt, hget⟩ := List.getElem?_eq_some_iff.mp hj
    obtain rfl : j = i := (List.Nodup.getElem_inj_iff (pendingKeys_nodup h)).mp hget
    exact hpos
  · intro hall k p v hv
    obtain ⟨i, hi⟩ := List.mem_iff_getElem?.mp ((mem_pendingKeys hrep).mpr ⟨v, hv⟩)
    exact ⟨i, hi, hall i (List.getElem?_eq_some_iff.mp hi).1⟩

end Keys

/-! ## §6. One call. -/

/-- The states of the runs. -/
def PendingState (s : HelperState) : Prop :=
  s.atomicModesetEnable = true ∧ ∃ cells, Represents s.connectorList cells

/-- Between the two states no pending value is lost. -/
def KeepsValues (s : HelperState) (call : PropertyCall) (s' : HelperState) : Prop :=
  ∀ k p v, pendingAt s.connectorList k p = some v →
    pendingAt s'.connectorList k p = some v ∨ Settles k p s call

section Step

variable {jc : JsonC} {connector : Nat → DrmModeConnector} {s : HelperState}

/-- The node at the place of the old connector. -/
theorem nothingPendingFor_iff {h : ConnectorHeap} {cells : List ConnectorCell} {old : Nat}
    (hrep : Represents h cells) (hlisted : listed old cells = true) :
    NothingPendingFor h old ↔ ∀ p, pendingAt h (cells.findIdx (·.holds old)) p = none := by
  have hcells := hrep.nodes.2
  have hidx : cells.findIdx (·.holds old)
      = (connectorNodes h).findIdx (fun n => n.data = some old) := by
    rw [← hcells, List.findIdx_map]
    rfl
  have hany : ∃ n ∈ connectorNodes h, decide (n.data = some old) = true := by
    rw [← hcells, listed_map_cellOf] at hlisted
    exact List.any_eq_true.mp hlisted
  have hlt := List.findIdx_lt_length_of_exists hany
  obtain ⟨n, hget⟩ : ∃ n, (connectorNodes h)[(connectorNodes h).findIdx
      (fun n => n.data = some old)]? = some n := ⟨_, List.getElem?_eq_getElem hlt⟩
  have hfind : (connectorNodes h).find? (fun n => n.data = some old) = some n := by
    rw [List.find?_eq_getElem?_findIdx]
    exact hget
  have hold : n.data = some old := by
    have hsome := List.find?_some hfind
    simpa using hsome
  have hat : ∀ p, pendingAt h (cells.findIdx (·.holds old)) p
      = (n.props[p]?).bind DrmPropertyInfo.pending := by
    intro p
    unfold pendingAt
    rw [hidx]
    simp [hget, hold]
  unfold NothingPendingFor
  simp only [hfind, hat, Option.some.injEq, forall_eq']
  constructor
  · intro hall p
    cases hq : n.props[p]? with
    | none => rfl
    | some q => simp [DrmPropertyInfo.pending, hall q (List.mem_of_getElem? hq)]
  · intro hall q hq
    obtain ⟨p, hp⟩ := List.mem_iff_getElem?.mp hq
    have hnone := hall p
    rw [hp] at hnone
    simpa [DrmPropertyInfo.pending] using hnone

/-- **One call** that is possible returns, and it loses no value if and only if
it meets the condition. -/
theorem propertyStep_spec (hr : jc.ReadsObjects) (hg : jc.GetsInts) (call : PropertyCall)
    (hs : PendingState s) (hpossible : call.Possible connector s) :
    ∃ s', propertyStep jc connector s call = some s' ∧ PendingState s' ∧
      (KeepsValues s call s' ↔ LosesNothing connector s call) := by
  obtain ⟨hatomic, cells, hrep⟩ := hs
  unfold propertyStep
  rw [if_pos hpossible]
  cases call with
  | set answers request =>
      obtain ⟨s', hrun, henable, hrep'⟩ := handle_setConnectorProperties hr hg
        ⟨answers.drm connector, answers.allocOk⟩ request hrep
      simp only [PropertyCall.helperCall, HelperCall.run, hrun, ok_bind]
      refine ⟨s', rfl, ⟨henable.trans hatomic, _, hrep'⟩, iff_of_true ?_ trivial⟩
      intro k p v hv
      by_cases hp : propertyIndex request.name = some p
      · exact .inr hp
      · rw [pendingAt_eq hrep', pendingIn_setNamed _ _ _ hp, ← pendingAt_eq hrep]
        exact .inl hv
  | update answers old new =>
      -- the node gets the table of a new connector: what was pending there is lost
      have hlisted : listed old cells = true :=
        listed_iff.mpr ((connectorListed_iff hrep old).mp hpossible.1)
      obtain ⟨h', hrun, hrep'⟩ :=
        represents_replace (answers.drm connector) answers.allocOk new hlisted hrep
      simp only [PropertyCall.helperCall, HelperCall.run, hrun, ok_bind]
      refine ⟨_, rfl, ⟨hatomic, _, hrep'⟩, ?_⟩
      show _ ↔ ((PropertyCall.update answers old new).Possible connector s →
        NothingPendingFor s.connectorList old)
      rw [nothingPendingFor_iff hrep hlisted]
      unfold KeepsValues
      simp only [pendingAt_eq hrep', pendingIn_replaceFirst old new _ _ hlisted,
        ← pendingAt_eq hrep, Settles, or_false]
      constructor
      · intro hkeeps _ p
        cases hv : pendingAt s.connectorList (cells.findIdx (·.holds old)) p with
        | none => rfl
        | some v =>
            have hkept := hkeeps _ p v hv
            rw [if_pos rfl] at hkept
            exact absurd hkept (by simp)
      · intro hnothing k p v hv
        by_cases hk : k = cells.findIdx (·.holds old)
        · rw [hk, hnothing hpossible p] at hv
          exact absurd hv (by simp)
        · rw [if_neg hk]
          exact hv
  | commit answers atomicAdd =>
      obtain ⟨h', ret, hrun, hrep'⟩ :=
        represents_commit (answers.drm connector) atomicAdd hrep
      simp only [PropertyCall.helperCall, HelperCall.run, hatomic, hrun, ok_bind]
      refine ⟨_, rfl, ⟨rfl, _, hrep'⟩, ?_⟩
      show _ ↔ ∀ i, i < (commitAdds (answers.drm connector) s.connectorList).length →
        0 < atomicAdd i
      -- behind the commit nothing is pending, whatever libdrm answered
      rw [← all_taken_iff _ _ hrep]
      unfold KeepsValues
      simp only [pendingAt_eq hrep', pendingIn_commit, Settles, reduceCtorEq, false_or]

/-! ## §7. Runs. -/

theorem pendingStays_cons {s₁ : HelperState} {call : PropertyCall} {calls : List PropertyCall}
    (hstep : propertyStep jc connector s call = some s₁)
    (hstays : PendingStays jc connector s (call :: calls)) :
    KeepsValues s call s₁ ∧ PendingStays jc connector s₁ calls := by
  refine ⟨?_, ?_⟩
  · intro k p v hv
    have hone : run (propertyStep jc connector) s [call] = some s₁ := by
      rw [run_cons hstep]
      rfl
    rcases hstays [] [call] calls s s₁ rfl rfl hone k p v hv with hkept | hocc
    · exact .inl hkept
    · rw [occurs_cons hstep] at hocc
      rcases hocc with hsettles | hnil
      · exact .inr hsettles
      · exact absurd hnil (fun h => h)
  · intro pre mid post s₂ s₃ hcalls hpre hmid
    refine hstays (call :: pre) mid post s₂ s₃ (by rw [hcalls]; simp) ?_ hmid
    rw [run_cons hstep]
    exact hpre

theorem meets_of_pendingStays (hr : jc.ReadsObjects) (hg : jc.GetsInts)
    (calls : List PropertyCall) : ∀ {s : HelperState}, PendingState s →
      PendingStays jc connector s calls →
      Meets (propertyStep jc connector) (LosesNothing connector) s calls := by
  induction calls with
  | nil => exact fun _ _ => trivial
  | cons call calls ih =>
      intro s hs hstays
      by_cases hpossible : call.Possible connector s
      · obtain ⟨s₁, hstep, hs₁, hiff⟩ := propertyStep_spec hr hg call hs hpossible
        obtain ⟨hkeeps, hrest⟩ := pendingStays_cons hstep hstays
        exact (meets_cons hstep).mpr ⟨hiff.mp hkeeps, ih hs₁ hrest⟩
      · -- only the replacement of a connector may be impossible
        have hstep : propertyStep jc connector s call = none := if_neg hpossible
        unfold Meets
        rw [hstep]
        refine ⟨?_, trivial⟩
        cases call with
        | set answers request => trivial
        | update answers old new => exact fun h => absurd h hpossible
        | commit answers atomicAdd => exact absurd trivial hpossible

/-- A run keeps the states, and in each of them the condition. -/
theorem keeps_of_meets (hr : jc.ReadsObjects) (hg : jc.GetsInts) (k p v : Nat)
    (calls : List PropertyCall) : ∀ {s : HelperState}, PendingState s →
      Meets (propertyStep jc connector) (LosesNothing connector) s calls →
      Meets (propertyStep jc connector) (fun s call => pendingAt s.connectorList k p = some v →
        ∀ s', propertyStep jc connector s call = some s' →
          pendingAt s'.connectorList k p = some v ∨ Settles k p s call) s calls := by
  induction calls with
  | nil => exact fun _ _ => trivial
  | cons call calls ih =>
      intro s hs hmeets
      by_cases hpossible : call.Possible connector s
      · obtain ⟨s₁, hstep, hs₁, hiff⟩ := propertyStep_spec hr hg call hs hpossible
        obtain ⟨hloses, hrest⟩ := (meets_cons hstep).mp hmeets
        rw [meets_cons hstep]
        refine ⟨?_, ih hs₁ hrest⟩
        intro hv s' hs'
        obtain rfl := Option.some.inj (hstep.symm.trans hs')
        exact hiff.mpr hloses k p v hv
      · have hstep : propertyStep jc connector s call = none := if_neg hpossible
        unfold Meets
        rw [hstep]
        refine ⟨?_, trivial⟩
        intro _ s' hs'
        exact absurd hs' (by simp)

/-- From any state of the runs. -/
theorem pendingStays_iff (hr : jc.ReadsObjects) (hg : jc.GetsInts)
    (calls : List PropertyCall) (hs : PendingState s) :
    PendingStays jc connector s calls
      ↔ Meets (propertyStep jc connector) (LosesNothing connector) s calls := by
  refine ⟨meets_of_pendingStays hr hg calls hs, ?_⟩
  intro hmeets pre mid post s₁ s₂ hcalls hpre hmid k p v hv
  have hkeeps := keeps_of_meets hr hg k p v calls hs hmeets
  rw [hcalls, List.append_assoc, meets_append hpre, meets_append hmid] at hkeeps
  exact run_until mid hkeeps.2.1 hv hmid

/-- **When no update is lost.**  From the state that any calls lead to, every
run of sets, replacements and commits keeps its pending values, until they are
overwritten or taken over, if and only if every add of its commits succeeds and
no connector is replaced while something is pending for it. -/
theorem pending_stays_iff (hr : jc.ReadsObjects) (hg : jc.GetsInts)
    (connector : Nat → DrmModeConnector) (before : List RegisterCall)
    (calls : List PropertyCall) :
    ∀ s, run (registerStep jc connector) (.init true) before = some s →
      (PendingStays jc connector s calls
        ↔ Meets (propertyStep jc connector) (LosesNothing connector) s calls) := by
  intro s hrun
  have hs := (stateAfter_run hr hg before (stateAfter_init connector)).1 s hrun
  obtain ⟨hatomic, cells, hrep, -⟩ := hs
  exact pendingStays_iff hr hg calls ⟨hatomic, cells, hrep⟩

end Step

/-! ### A color depth that is pending -/

instance (h : ConnectorHeap) (c : Nat) : Decidable (NothingPendingFor h c) :=
  match hfind : (connectorNodes h).find? (fun n => n.data = some c) with
  | none => .isTrue (fun n hn => absurd (hfind.symm.trans hn) (by simp))
  | some n =>
      decidable_of_iff (∀ q ∈ n.props, q.needChange = false) (by
        unfold NothingPendingFor
        simp [hfind])

instance (connector : Nat → DrmModeConnector) (s : HelperState) (call : PropertyCall) :
    Decidable (LosesNothing connector s call) := by
  unfold LosesNothing
  split <;> infer_instance

theorem ten_lt_two_pow : 10 < 2 ^ 64 := by decide

/-- A connector is appended, and its color depth is set. -/
def colorDepthPending : List RegisterCall :=
  [.append .silent 5, .set .silent (colorDepth 10 ten_lt_two_pow)]

/-- A commit that libdrm accepts loses nothing. -/
theorem accepted_commit_keeps :
    ∃ s, run (registerStep jsonText hdmiConnector) (.init true) colorDepthPending = some s ∧
      PendingStays jsonText hdmiConnector s [.commit .silent (fun _ => 1)] := by
  obtain ⟨s, hrun⟩ := (stateAfter_run jsonText_readsObjects jsonText_getsInts
    colorDepthPending (stateAfter_init hdmiConnector)).2
    (by simp [colorDepthPending, RegisterCall.allocates, CallAnswers.silent])
  refine ⟨s, hrun, ?_⟩
  rw [pending_stays_iff jsonText_readsObjects jsonText_getsInts hdmiConnector
    colorDepthPending _ s hrun]
  refine ⟨?_, ?_⟩
  · intro i _
    show (0 : Int) < 1
    decide
  · split <;> trivial

/-- A commit that libdrm refuses loses the value, and so does the replacement of
the connector. -/
theorem pending_value_lost :
    ∃ s, run (registerStep jsonText hdmiConnector) (.init true) colorDepthPending = some s ∧
      ¬ PendingStays jsonText hdmiConnector s [.commit .silent (fun _ => -1)] ∧
      ¬ PendingStays jsonText hdmiConnector s [.update .silent 5 6] := by
  have hstate := stateAfter_run jsonText_readsObjects jsonText_getsInts colorDepthPending
    (stateAfter_init hdmiConnector)
  obtain ⟨s, hrun⟩ := hstate.2
    (by simp [colorDepthPending, RegisterCall.allocates, CallAnswers.silent])
  obtain ⟨hatomic, cells, hrep, -⟩ := hstate.1 s hrun
  have hs : PendingState s := ⟨hatomic, cells, hrep⟩
  have hmeets : ∀ calls, (run (registerStep jsonText hdmiConnector) (.init true)
      colorDepthPending).map (fun s => decide (Meets (propertyStep jsonText hdmiConnector)
        (LosesNothing hdmiConnector) s calls)) = some false →
      ¬ PendingStays jsonText hdmiConnector s calls := by
    intro calls hfalse
    rw [hrun, Option.map_some] at hfalse
    rw [pendingStays_iff jsonText_readsObjects jsonText_getsInts calls hs]
    exact of_decide_eq_false (Option.some.inj hfalse)
  exact ⟨s, hrun, hmeets _ (by decide +kernel), hmeets _ (by decide +kernel)⟩

end MesonDisplay.Helper
