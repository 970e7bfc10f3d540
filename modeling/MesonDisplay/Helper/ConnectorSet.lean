/-
  MesonDisplay.Helper.ConnectorSet — the shape of the list of connectors.

  Three calls of the compositor change `global_connector_list`: a connector is
  appended, replaced by another one, or deleted.  The list stays well formed
  over every sequence of them.  It stays a set, in which every connector has
  one node, as long as no connector is replaced by one that is listed already.

  Main results:
    * `connector_list_well_formed` — every call returns, and leaves a doubly
      linked list with an empty last node and no hole behind the head.
    * `connectors_form_set_iff` — when the list is a set throughout a run.
-/
import MesonDisplay.Helper.ConnectorCells
import MesonDisplay.Lib.Runs
import Mathlib.Data.List.Nodup
import Mathlib.Data.List.Pairwise

namespace MesonDisplay.Helper

open MesonDisplay.LinkedList
open MesonDisplay.Runs

/-! ## §1. Calls. -/

/-- A call about connectors that are not NULL; `old_connector` may be. -/
inductive ConnectorCall where
  | append (drm : Drm) (connector : Nat)
  | update (drm : Drm) (oldConnector : Option Nat) (newConnector : Nat)
  | delete (connector : Nat)

/-- The call, with allocations that succeed. -/
def ConnectorCall.run (h : ConnectorHeap) : ConnectorCall → Except Fault ConnectorHeap
  | .append drm connector => helpAppendConnector drm true (some connector) h
  | .update drm old new => helpUpdateConnector drm true old (some new) h
  | .delete connector => helpDeleteConnector (some connector) h

/-- A call that returns. -/
def connectorStep (h : ConnectorHeap) (call : ConnectorCall) : Option ConnectorHeap :=
  (call.run h).toOption

/-- What a call does to the cells. -/
def ConnectorCall.cells (cells : List ConnectorCell) : ConnectorCall → List ConnectorCell
  | .append _ connector => appendConnector connector cells
  | .update _ old new => updateConnector old new cells
  | .delete connector => deleteConnector connector cells

theorem represents_step {h : ConnectorHeap} {cells : List ConnectorCell} (call : ConnectorCall)
    (hr : Represents h cells) :
    ∃ h', connectorStep h call = some h' ∧ Represents h' (call.cells cells) := by
  unfold connectorStep
  cases call with
  | append drm c =>
      obtain ⟨h', hrun, hr'⟩ := represents_append drm c hr
      exact ⟨h', by simp [ConnectorCall.run, hrun, Except.toOption], hr'⟩
  | update drm old new =>
      obtain ⟨h', hrun, hr'⟩ := represents_update drm old new hr
      exact ⟨h', by simp [ConnectorCall.run, hrun, Except.toOption], hr'⟩
  | delete c =>
      obtain ⟨h', hrun, hr'⟩ := represents_delete c hr
      exact ⟨h', by simp [ConnectorCall.run, hrun, Except.toOption], hr'⟩

/-! ## §2. Well-formed lists. -/

/-- The nodes at the addresses `as` are a doubly linked list from
`global_connector_list` on.  The last one is empty, and the head is the only
other one that may be. -/
structure WellFormed (h : ConnectorHeap) (as : List Nat) : Prop where
  linked : DoublyLinked h globalConnectorList as
  last : ∀ a n, as.getLast? = some a → h.cell a = some n → n.data.data = none
  used : ∀ i a n, 0 < i → i + 1 < as.length → as[i]? = some a → h.cell a = some n →
    n.data.data ≠ none

/-- No cell behind the head is a hole. -/
def NoHole (cells : List ConnectorCell) : Prop := ∀ x ∈ cells.tail, x.connector ≠ none

theorem noHole_append (c : Nat) {cells : List ConnectorCell} (hn : NoHole cells) :
    NoHole (appendConnector c cells) := by
  unfold appendConnector
  by_cases hlisted : listed c cells = true
  · rw [if_pos hlisted]
    exact hn
  · rw [if_neg hlisted]
    intro x hx
    cases cells with
    | nil => exact absurd hx (by simp)
    | cons y ys =>
        rw [List.cons_append, List.tail_cons] at hx
        rcases List.mem_append.mp hx with hx | hx
        · exact hn x hx
        · obtain rfl := List.mem_singleton.mp hx
          simp

theorem mem_replaceFirst {old new : Nat} {cells : List ConnectorCell} {x : ConnectorCell}
    (hx : x ∈ replaceFirst old new cells) : x ∈ cells ∨ x.connector = some new := by
  induction cells with
  | nil => exact absurd hx (by simp [replaceFirst])
  | cons y ys ih =>
      unfold replaceFirst at hx
      by_cases hy : y.holds old = true
      · rw [if_pos hy] at hx
        rcases List.mem_cons.mp hx with rfl | hx
        · exact .inr rfl
        · exact .inl (List.mem_cons_of_mem _ hx)
      · rw [if_neg hy] at hx
        rcases List.mem_cons.mp hx with rfl | hx
        · exact .inl List.mem_cons_self
        · rcases ih hx with hmem | hnew
          · exact .inl (List.mem_cons_of_mem _ hmem)
          · exact .inr hnew

theorem noHole_replaceFirst (old new : Nat) {cells : List ConnectorCell} (hn : NoHole cells) :
    NoHole (replaceFirst old new cells) := by
  cases cells with
  | nil => exact hn
  | cons y ys =>
      unfold replaceFirst
      by_cases hy : y.holds old = true
      · rw [if_pos hy]
        exact hn
      · rw [if_neg hy]
        intro x hx
        rcases mem_replaceFirst hx with hmem | hnew
        · exact hn x hmem
        · rw [hnew]
          simp

theorem noHole_delete (c : Nat) {cells : List ConnectorCell} (hn : NoHole cells) :
    NoHole (deleteConnector c cells) := by
  cases cells with
  | nil => exact hn
  | cons y ys =>
      rw [deleteConnector]
      by_cases hy : y.holds c = true
      · rw [if_pos hy]
        exact hn
      · rw [if_neg hy]
        exact fun x hx => hn x (List.mem_of_mem_eraseP hx)

theorem noHole_call (call : ConnectorCall) {cells : List ConnectorCell} (hn : NoHole cells) :
    NoHole (call.cells cells) := by
  cases call with
  | append drm c => exact noHole_append c hn
  | delete c => exact noHole_delete c hn
  | update drm old new =>
      show NoHole (updateConnector old new cells)
      unfold updateConnector
      cases old with
      | none => exact noHole_append new hn
      | some old =>
          by_cases hlisted : listed old cells = true
          · simp only [if_pos hlisted]
            exact noHole_replaceFirst old new hn
          · simp only [if_neg hlisted]
            exact noHole_append new hn

theorem wellFormed_of_represents {h : ConnectorHeap} {cells : List ConnectorCell}
    (hr : Represents h cells) (hn : NoHole cells) : ∃ as, WellFormed h as := by
  obtain ⟨es, t, hok, -, rfl⟩ := hr
  have hlen : (addrs (es ++ [t])).length = es.length + 1 := by
    unfold addrs
    simp
  refine ⟨addrs (es ++ [t]), hok.linked.doublyLinked, ?_, ?_⟩
  · intro a n ha hn'
    obtain rfl : t.addr = a := by simpa [addrs] using ha
    rw [hok.linked.last_cell] at hn'
    rw [← Option.some.inj hn']
    exact hok.tail
  · intro i a n hi hlast ha hn'
    obtain ⟨e, he, -, hcell⟩ := hok.linked.entry ha
    rw [hcell] at hn'
    rw [← Option.some.inj hn']
    -- the node is one of `es`, and not the first
    rw [List.getElem?_append_left (by omega)] at he
    obtain ⟨i, rfl⟩ := Nat.exists_eq_succ_of_ne_zero (Nat.ne_of_gt hi)
    cases es with
    | nil => exact absurd he (by simp)
    | cons e₀ es =>
        rw [List.getElem?_cons_succ] at he
        exact hn (cellOf e.data) (List.mem_map_of_mem
          (List.mem_map_of_mem (List.mem_of_getElem? he)))

/-- Call after call. -/
theorem represents_run (calls : List ConnectorCall) {h : ConnectorHeap}
    {cells : List ConnectorCell} (hr : Represents h cells) (hn : NoHole cells) :
    ∃ h', run connectorStep h calls = some h' ∧
      ∃ cells', Represents h' cells' ∧ NoHole cells' := by
  refine run_total (I := fun h => ∃ cells, Represents h cells ∧ NoHole cells) ?_ calls
    ⟨cells, hr, hn⟩
  intro h call hI
  obtain ⟨cells, hr, hn⟩ := hI
  obtain ⟨h₁, hstep, hr₁⟩ := represents_step call hr
  exact ⟨h₁, hstep, _, hr₁, noHole_call call hn⟩

/-- **The list stays well formed.**  Every call of every sequence returns, so
no assert() fires, and the list it leaves is well formed. -/
theorem connector_list_well_formed (calls : List ConnectorCall) :
    ∃ h as, run connectorStep connectorHeapInit calls = some h ∧ WellFormed h as := by
  obtain ⟨h, hrun, cells, hr, hn⟩ := represents_run calls represents_init
    (fun _ hx => absurd hx List.not_mem_nil)
  obtain ⟨as, hw⟩ := wellFormed_of_represents hr hn
  exact ⟨h, as, hrun, hw⟩

/-! ## §3. Sets. -/

/-- A node of the list holds the connector. -/
def HeldAt (h : ConnectorHeap) (a c : Nat) : Prop :=
  Reach h globalConnectorList a ∧ ∃ n, h.cell a = some n ∧ n.data.data = some c

/-- No connector is held by two nodes. -/
def IsSet (h : ConnectorHeap) : Prop := ∀ a b c, HeldAt h a c → HeldAt h b c → a = b

/-- `help_delete_connector` returns, and no node holds the connector any more. -/
def DeletesAll (h : ConnectorHeap) : Prop :=
  ∀ c, ∃ h', connectorStep h (.delete c) = some h' ∧ ∀ a, ¬ HeldAt h' a c

/-- The nodes that hold a connector are entries. -/
theorem heldAt_iff {h : ConnectorHeap} {es : List (Entry ConnectorNode)}
    {t : Entry ConnectorNode} (hok : ConnectorsOk h es t) {a c : Nat} :
    HeldAt h a c ↔ ∃ e ∈ es, e.addr = a ∧ e.data.data = some c := by
  constructor
  · intro hheld
    obtain ⟨hreach, n, hn, hc⟩ := hheld
    obtain ⟨pre, e, post, hsplit, haddr, hcell⟩ := hok.linked.split_of_reach hreach
    rw [hcell] at hn
    obtain rfl := Option.some.inj hn
    have he : e ∈ es ++ [t] := by
      rw [hsplit]
      simp
    rcases List.mem_append.mp he with he | he
    · exact ⟨e, he, haddr, hc⟩
    -- the last node holds none
    · obtain rfl := List.mem_singleton.mp he
      have htail := hok.tail
      change e.data.data = some c at hc
      rw [htail] at hc
      exact absurd hc (by simp)
  · intro hentry
    obtain ⟨e, he, rfl, hc⟩ := hentry
    obtain ⟨pre, post, rfl⟩ := List.append_of_mem he
    have hsplit : (pre ++ e :: post) ++ [t] = pre ++ e :: (post ++ [t]) := by simp
    exact ⟨hok.linked.reach_of_split pre hsplit, _, hok.linked.cell, hc⟩

theorem connectorsOf_dataOf (es : List (Entry ConnectorNode)) :
    connectorsOf ((dataOf es).map cellOf) = es.filterMap (fun e => e.data.data) := by
  unfold connectorsOf dataOf
  rw [List.map_map, List.filterMap_map]
  rfl

theorem isSet_iff {h : ConnectorHeap} {cells : List ConnectorCell} (hr : Represents h cells) :
    IsSet h ↔ (connectorsOf cells).Nodup := by
  obtain ⟨es, t, hok, -, rfl⟩ := hr
  have hnd := hok.linked.nodup
  unfold addrs at hnd
  rw [List.map_append] at hnd
  have haddr : es.Pairwise (fun e e' => e.addr ≠ e'.addr) :=
    List.pairwise_map.mp (List.nodup_append.mp hnd).1
  rw [connectorsOf_dataOf, List.Nodup, List.pairwise_filterMap]
  constructor
  · intro hset
    -- different entries have different addresses, so they hold different connectors
    refine haddr.imp_of_mem ?_
    intro e e' he he' hne c hc c' hc' hcc
    subst hcc
    exact hne (hset _ _ c ((heldAt_iff hok).mpr ⟨e, he, rfl, hc⟩)
      ((heldAt_iff hok).mpr ⟨e', he', rfl, hc'⟩))
  · intro hpair a b c ha hb
    obtain ⟨e, he, rfl, hc⟩ := (heldAt_iff hok).mp ha
    obtain ⟨e', he', rfl, hc'⟩ := (heldAt_iff hok).mp hb
    by_contra hne
    have hsymm : Std.Symm (fun x y : Entry ConnectorNode =>
        ∀ c, x.data.data = some c → ∀ c', y.data.data = some c' → c ≠ c') :=
      ⟨fun x y h c hy c' hx hcc => h c' hx c hy hcc.symm⟩
    exact hpair.forall he he' (fun h => hne (by rw [h])) c hc c hc' rfl

/-! ## §4. What the calls keep. -/

theorem nodup_replace_iff {l : List Nat} {a b : Nat} (hl : l.Nodup) (ha : a ∈ l) :
    (l.replace a b).Nodup ↔ (b ∈ l → a = b) := by
  obtain ⟨l₁, l₂, rfl, hnot⟩ := List.eq_append_cons_of_mem ha
  rw [List.replace_append_right hnot, List.replace_cons_self, List.nodup_middle,
    List.nodup_cons]
  obtain ⟨ha', hrest⟩ := List.nodup_cons.mp (List.nodup_middle.mp hl)
  constructor
  · intro h hb
    rcases List.mem_append.mp hb with hb | hb
    · exact absurd (List.mem_append_left _ hb) h.1
    · rcases List.mem_cons.mp hb with rfl | hb
      · rfl
      · exact absurd (List.mem_append_right _ hb) h.1
  · intro h
    refine ⟨fun hb => ?_, hrest⟩
    have hb' : b ∈ l₁ ++ a :: l₂ := by
      rcases List.mem_append.mp hb with hb | hb
      · exact List.mem_append_left _ hb
      · exact List.mem_append_right _ (List.mem_cons_of_mem _ hb)
    obtain rfl := h hb'
    exact ha' hb

/-- The list names the connector. -/
def ConnectorListed (h : ConnectorHeap) (c : Nat) : Prop :=
  ∃ n ∈ connectorNodes h, n.data = some c

/-- The call replaces no connector by another one that is listed. -/
def KeepsSet (h : ConnectorHeap) : ConnectorCall → Prop
  | .update _ (some old) new => ConnectorListed h old → ConnectorListed h new → old = new
  | _ => True

instance (h : ConnectorHeap) (c : Nat) : Decidable (ConnectorListed h c) :=
  inferInstanceAs (Decidable (∃ n ∈ connectorNodes h, n.data = some c))

instance (h : ConnectorHeap) (call : ConnectorCall) : Decidable (KeepsSet h call) := by
  unfold KeepsSet
  split <;> infer_instance

theorem connectorListed_iff {h : ConnectorHeap} {cells : List ConnectorCell}
    (hr : Represents h cells) (c : Nat) : ConnectorListed h c ↔ c ∈ connectorsOf cells := by
  rw [← hr.nodes.2]
  unfold ConnectorListed connectorsOf
  rw [List.filterMap_map, List.mem_filterMap]
  rfl

/-- **One call** leaves a set if and only if it meets the condition. -/
theorem nodup_call_iff {h : ConnectorHeap} {cells : List ConnectorCell} (call : ConnectorCall)
    (hr : Represents h cells) (hset : (connectorsOf cells).Nodup) :
    (connectorsOf (call.cells cells)).Nodup ↔ KeepsSet h call := by
  have happend : ∀ c, (connectorsOf (appendConnector c cells)).Nodup := by
    intro c
    rw [connectorsOf_append]
    by_cases hc : c ∈ connectorsOf cells
    · rw [if_pos hc]
      exact hset
    · rw [if_neg hc, ← List.concat_eq_append]
      exact List.Nodup.concat hc hset
  cases call with
  | append drm c => exact iff_of_true (happend c) trivial
  | delete c =>
      refine iff_of_true ?_ trivial
      show (connectorsOf (deleteConnector c cells)).Nodup
      rw [connectorsOf_delete]
      exact hset.erase c
  | update drm old new =>
      show (connectorsOf (updateConnector old new cells)).Nodup ↔ _
      cases old with
      | none => exact iff_of_true (happend new) trivial
      | some old =>
          show (connectorsOf (if listed old cells then replaceFirst old new cells
              else appendConnector new cells)).Nodup ↔
            (ConnectorListed h old → ConnectorListed h new → old = new)
          rw [connectorListed_iff hr, connectorListed_iff hr]
          by_cases hold : old ∈ connectorsOf cells
          · simp only [if_pos (listed_iff.mpr hold), connectorsOf_replaceFirst]
            rw [nodup_replace_iff hset hold]
            exact ⟨fun h _ => h, fun h => h hold⟩
          · simp only [if_neg (fun h => hold (listed_iff.mp h))]
            exact iff_of_true (happend new) (fun h => absurd h hold)

theorem deletesAll_of_set {h : ConnectorHeap} {cells : List ConnectorCell}
    (hr : Represents h cells) (hset : (connectorsOf cells).Nodup) : DeletesAll h := by
  intro c
  obtain ⟨h', hstep, hr'⟩ := represents_step (.delete c) hr
  refine ⟨h', hstep, ?_⟩
  intro a hheld
  have hmem : c ∈ connectorsOf (deleteConnector c cells) := by
    obtain ⟨es, t, hok, -, hcells⟩ := hr'
    obtain ⟨e, he, -, hc⟩ := (heldAt_iff hok).mp hheld
    change (dataOf es).map cellOf = deleteConnector c cells at hcells
    rw [← hcells, connectorsOf_dataOf, List.mem_filterMap]
    exact ⟨e, he, hc⟩
  rw [connectorsOf_delete] at hmem
  exact hset.not_mem_erase hmem

/-! ## §5. Runs. -/

/-- In every state of the run the list is a set, and deleting from it really
removes. -/
def SetThroughout (h : ConnectorHeap) (calls : List ConnectorCall) : Prop :=
  ∀ pre post, calls = pre ++ post →
    ∃ h', run connectorStep h pre = some h' ∧ IsSet h' ∧ DeletesAll h'

/-- Every call returns, so only the states count. -/
theorem setThroughout_eq (calls : List ConnectorCall) {h : ConnectorHeap}
    {cells : List ConnectorCell} (hr : Represents h cells) :
    SetThroughout h calls
      ↔ Throughout connectorStep (fun h => IsSet h ∧ DeletesAll h) h calls := by
  constructor
  · intro hall pre post h' hcalls hrun
    obtain ⟨h₁, hrun₁, hset⟩ := hall pre post hcalls
    obtain rfl := Option.some.inj (hrun₁.symm.trans hrun)
    exact hset
  · intro hall pre post hcalls
    obtain ⟨h', hrun, -⟩ := run_total (I := fun h => ∃ cells, Represents h cells)
      (fun h call hI => by
        obtain ⟨cells, hr⟩ := hI
        obtain ⟨h₁, hstep, hr₁⟩ := represents_step call hr
        exact ⟨h₁, hstep, _, hr₁⟩) pre ⟨cells, hr⟩
    exact ⟨h', hrun, hall pre post h' hcalls hrun⟩

/-- From a set on. -/
theorem setThroughout_iff (calls : List ConnectorCall) {h : ConnectorHeap}
    {cells : List ConnectorCell} (hr : Represents h cells) (hset : (connectorsOf cells).Nodup) :
    SetThroughout h calls ↔ Meets connectorStep KeepsSet h calls := by
  rw [setThroughout_eq calls hr]
  refine throughout_iff
    (I := fun h => ∃ cells, Represents h cells ∧ (connectorsOf cells).Nodup) ?_ ?_ ?_ calls
    ⟨cells, hr, hset⟩
  · intro h hI
    obtain ⟨cells, hr, hset⟩ := hI
    exact ⟨(isSet_iff hr).mpr hset, deletesAll_of_set hr hset⟩
  · intro h call hI hstuck
    obtain ⟨cells, hr, -⟩ := hI
    obtain ⟨h₁, hstep, -⟩ := represents_step call hr
    exact absurd (hstuck.symm.trans hstep) (by simp)
  · intro h call h₁ hI hstep
    obtain ⟨cells, hr, hset⟩ := hI
    obtain ⟨h₂, hstep₂, hr₁⟩ := represents_step call hr
    obtain rfl := Option.some.inj (hstep₂.symm.trans hstep)
    have hiff := nodup_call_iff call hr hset
    by_cases hset₁ : (connectorsOf (call.cells cells)).Nodup
    · exact .inl ⟨hiff.mp hset₁, _, hr₁, hset₁⟩
    -- the call leaves two nodes with one connector
    · exact .inr ⟨fun h => hset₁ (hiff.mpr h), fun h => hset₁ ((isSet_iff hr₁).mp h.1)⟩

/-- **When the list is a set.**  In every run of calls, starting with the empty
list, every call returns, no connector is held by two nodes and a deleted one
by none, if and only if no call replaces a listed connector by another listed
one. -/
theorem connectors_form_set_iff (calls : List ConnectorCall) :
    SetThroughout connectorHeapInit calls
      ↔ Meets connectorStep KeepsSet connectorHeapInit calls :=
  setThroughout_iff calls represents_init List.nodup_nil

/-- libdrm reports nothing. -/
def drmSilent : Drm :=
  ⟨fun _ => ⟨0, 0, 0, 0, 0, 0, [], [], []⟩, fun _ => none, fun _ => none⟩

/-- Two connectors are appended and the first is replaced by the second, which
now has two nodes; one of them stays when it is deleted. -/
theorem replaced_by_listed :
    ¬ SetThroughout connectorHeapInit [.append drmSilent 10, .append drmSilent 20,
      .update drmSilent (some 10) 20] ∧
    (run connectorStep connectorHeapInit [.append drmSilent 10, .append drmSilent 20,
      .update drmSilent (some 10) 20, .delete 20]).any (fun h => ConnectorListed h 20) := by
  refine ⟨?_, by decide +kernel⟩
  rw [setThroughout_iff _ represents_init List.nodup_nil]
  decide +kernel

end MesonDisplay.Helper
