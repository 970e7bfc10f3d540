/-
  MesonDisplay.Helper.OutputLinks — the links of the output list.

  The list that `g_output_list` starts is described by its nodes, in order
  (`Linked`).  Each phase of `help_updata_compositor_output` is followed on
  that description: the search changes data only, appending adds a node with
  the right `prev` pointer, shrinking repairs the `prev` pointers around the
  nodes it frees.  The last phase does not: it moves the last node into the
  head and frees it, but the `prev` pointer of the node behind it stays.

  Main results:
    * `helpUpdata_spec` — what one update does to the nodes.
    * `well_linked_unless_vacated` — in a run whose updates do not vacate the
      head every node is live and every `prev` pointer is right.
    * `vacated_head_not_wellLinked` — an update that vacates the head leaves a
      `prev` pointer into freed memory.
-/
import MesonDisplay.Helper.OutputCells

namespace MesonDisplay.Helper

open MesonDisplay.LinkedList

/-- The list of outputs. -/
abbrev OutputsLinked (dangling : Nat → Prop) (h : OutputHeap)
    (es : List (Entry OutputNode)) (t : Entry OutputNode) : Prop :=
  Linked gOutputList dangling h es t

/-! ## §1. Finding the position. -/

section Phases

variable {dangling : Nat → Prop} {h : OutputHeap} {es : List (Entry OutputNode)}
  {t : Entry OutputNode} {older newer : Option Nat}

/-- One of the loops. -/
theorem forEachOutput_spec {σ : Type}
    {body : σ → OutputNode → Except Fault (OutputNode × Loop σ)} {s s' : σ}
    {cells ds : List OutputNode} {i : Nat} (hl : OutputsLinked dangling h es t)
    (hcells : dataOf es = cells) (hv : visit body s cells = .ok (ds, s', i)) :
    ∃ h' es', forEachOutput body h s = .ok (h', s', (addrs (es ++ [t])).getD i 0) ∧
      OutputsLinked dangling h' es' t ∧ dataOf es' = ds ∧ addrs es' = addrs es ∧
      SameNodes h h' (addrs es) := by
  subst hcells
  obtain ⟨h', hrun, hl', hsame⟩ := hl.forEach Fault.badPointer (Nat.lt_succ_self _) hv
  have hlen : ds.length = es.length := by
    have hcount := (visit_length hv).1
    unfold dataOf at hcount
    rwa [List.length_map] at hcount
  exact ⟨h', withData es ds, hrun, hl', dataOf_withData es ds hlen,
    addrs_withData es ds hlen, hsame⟩

/-- **The position.**  The loops blank the duplicates of `newer` and stop at the
cell that `newer` is put into; at the last node if there is none. -/
theorem findPosition_spec (older newer : Option Nat) (hl : OutputsLinked dangling h es t) :
    ∃ h' es' v, findPosition older newer h = .ok (h', v, (addrs (es ++ [t])).getD
        ((targetCell older newer (dataOf es)).getD (dataOf es).length) 0) ∧
      OutputsLinked dangling h' es' t ∧ addrs es' = addrs es ∧
      dataOf es' = blankOthers newer (usedCell older newer (dataOf es)) (dataOf es) ∧
      v.updated = (targetCell older newer (dataOf es)).isSome ∧
      SameNodes h h' (addrs es) := by
  -- the first loop changes nothing
  obtain ⟨h₁, es₁, hrun₁, hl₁, hdata₁, haddr₁, hsame₁⟩ := forEachOutput_spec hl rfl
    (visit_searchOlder older newer (dataOf es) ⟨false, 0, 0⟩)
  -- the second one knows the cell to use
  obtain ⟨v₁, hv₁⟩ : ∃ v, v = { foundAt ⟨false, 0, 0⟩
      (findOutput (soughtOutput older newer) (dataOf es)) (dataOf es).length
        with index := 0 } := ⟨_, rfl⟩
  have hused : usedFrom newer v₁ (dataOf es) = usedCell older newer (dataOf es) := by
    rw [hv₁]
    unfold usedFrom usedCell foundAt
    cases findOutput (soughtOutput older newer) (dataOf es) with
    | some j => simp
    | none => simp
  have hvisit₂ := visit_removeSame newer (dataOf es) v₁
  rw [hused] at hvisit₂
  have hindex : v₁.index = 0 := by
    rw [hv₁]
  rw [hindex] at hvisit₂
  obtain ⟨h₂, es₂, hrun₂, hl₂, hdata₂, haddr₂, hsame₂⟩ :=
    forEachOutput_spec hl₁ hdata₁ hvisit₂
  have haddr : addrs (es₂ ++ [t]) = addrs (es ++ [t]) := by
    rw [addrs_append, addrs_append, haddr₂, haddr₁]
  have hsame₁₂ : SameNodes h h₂ (addrs es) := hsame₁.trans (haddr₁ ▸ hsame₂)
  subst hv₁
  unfold findPosition
  simp only [hrun₁, hrun₂, ok_bind]
  cases hu : usedCell older newer (dataOf es) with
  | some j =>
      have htarget : targetCell older newer (dataOf es) = some j := by
        unfold targetCell
        rw [hu]
        rfl
      rw [hu] at hdata₂
      have hj := usedCell_lt hu
      have hvisit₃ := visit_seekPosition_updated
        (blankFrom newer (some j) 0 (dataOf es)) ⟨true, j, 0⟩ rfl (Nat.zero_le _)
        (show j - 0 < _ by
          rw [blankFrom_length]
          omega)
      obtain ⟨h₃, es₃, hrun₃, hl₃, hdata₃, haddr₃, hsame₃⟩ :=
        forEachOutput_spec hl₂ hdata₂ hvisit₃
      refine ⟨h₃, es₃, ⟨true, j, j⟩, ?_, hl₃, ?_, ?_, ?_, ?_⟩
      · rw [htarget, ← haddr]
        exact hrun₃
      · rw [haddr₃, haddr₂, haddr₁]
      · rw [hdata₃]
        rfl
      · rw [htarget]
        rfl
      · exact hsame₁₂.trans (haddr₁ ▸ haddr₂ ▸ hsame₃)
  | none =>
      have htarget : targetCell older newer (dataOf es) = findOutput none (dataOf es) := by
        unfold targetCell
        rw [hu]
        rfl
      have hkeep := blankOthers_of_unused hu
      rw [hu] at hdata₂ hkeep
      have hdata₂' : dataOf es₂ = dataOf es := hdata₂.trans hkeep
      have hvisit₃ := visit_seekPosition (dataOf es) ⟨false,
        (foundAt ⟨false, 0, 0⟩ (findOutput (soughtOutput older newer) (dataOf es))
          (dataOf es).length).updateIndex, 0⟩ rfl
      obtain ⟨h₃, es₃, hrun₃, hl₃, hdata₃, haddr₃, hsame₃⟩ :=
        forEachOutput_spec hl₂ hdata₂' hvisit₃
      rw [haddr, ← htarget] at hrun₃
      refine ⟨h₃, es₃, _, hrun₃, hl₃, ?_, ?_, ?_, ?_⟩
      · rw [haddr₃, haddr₂, haddr₁]
      · rw [hdata₃]
        exact hkeep.symm
      · unfold foundAt
        cases targetCell older newer (dataOf es) <;> rfl
      · exact hsame₁₂.trans (haddr₁ ▸ haddr₂ ▸ hsame₃)

/-! ## §2. Appending. -/

theorem appendEmpty_fails (hl : OutputsLinked dangling h es t) :
    appendEmpty false h t.addr = .ok none := by
  unfold appendEmpty
  rw [load_eq hl.last_cell]
  rfl

/-- The old last node gets a successor, which is the new last node. -/
theorem appendEmpty_spec (hl : OutputsLinked dangling h es t) :
    ∃ h', appendEmpty true h t.addr = .ok (some h') ∧
      OutputsLinked dangling h' (es ++ [t]) ⟨h.fresh, some t.addr, .zero⟩ := by
  have hcell := hl.last_cell
  have hne : t.addr ≠ h.fresh := Nat.ne_of_lt (Heap.lt_fresh hcell)
  have halloc : (h.alloc ⟨none, none, OutputNode.zero⟩).cell t.addr
      = some ⟨t.prev, none, t.data⟩ := by
    rw [Heap.alloc_cell_ne h hne, hcell]
  -- the three stores, one after the other
  obtain ⟨h₁, hh₁⟩ : ∃ h₁, h₁ = (h.alloc ⟨none, none, OutputNode.zero⟩).update t.addr
      (fun n => { n with next := some h.fresh }) := ⟨_, rfl⟩
  have hnew₁ : h₁.cell h.fresh = some ⟨none, none, .zero⟩ := by
    rw [hh₁, Heap.update_cell_ne _ hne.symm, Heap.alloc_cell_fresh]
  obtain ⟨h₂, hh₂⟩ : ∃ h₂, h₂ = h₁.update h.fresh
      (fun n => { n with prev := some t.addr }) := ⟨_, rfl⟩
  have hnew₂ : h₂.cell h.fresh = some ⟨some t.addr, none, .zero⟩ := by
    rw [hh₂, Heap.update_cell_self hnew₁]
  refine ⟨h₂.update h.fresh (fun n => { n with next := none }), ?_, ?_⟩
  · unfold appendEmpty
    simp only [load_eq hcell, ok_bind, ne_eq, not_true_eq_false, if_false, if_true,
      modify_eq halloc, ← hh₁, modify_eq hnew₁, ← hh₂, modify_eq hnew₂]
  · have hold : ∀ a, a ≠ h.fresh → (h₂.update h.fresh (fun n => { n with next := none })).cell a
        = h₁.cell a := by
      intro a ha
      rw [Heap.update_cell_ne _ ha, hh₂, Heap.update_cell_ne _ ha]
    refine hl.append ?_ ?_ ?_ ?_
    · rw [Heap.update_fresh, hh₂, Heap.update_fresh, hh₁]
      rfl
    · intro a hat haf
      rw [hold a haf, hh₁, Heap.update_cell_ne _ hat, Heap.alloc_cell_ne h haf]
    · rw [hold _ hne, hh₁, Heap.update_cell_self halloc]
    · rw [Heap.update_cell_self hnew₂]

/-! ## §3. Shrinking. -/

/-- A node that is not taken out. -/
theorem shrinkLoop_keep {fuel current lastElement : Nat} {n : Node OutputNode}
    (hn : h.cell current = some n)
    (hkeep : ¬ (n.data.data = none ∧ current ≠ gOutputList ∧ n.next ≠ none)) :
    shrinkLoop (fuel + 1) h (some current) lastElement
      = shrinkLoop fuel h n.next (if n.next ≠ none then current else lastElement) := by
  rw [shrinkLoop, load_eq hn]
  simp only [ok_bind, if_neg hkeep]

/-- An empty node with a right `prev` pointer is taken out. -/
theorem shrinkLoop_remove (fuel lastElement : Nat) {p e : Entry OutputNode}
    {rest pre : List (Entry OutputNode)}
    (hl : OutputsLinked dangling h (pre ++ p :: e :: rest) t) (hprev : e.prev = some p.addr)
    (hempty : e.data.data = none) (hhead : e.addr ≠ gOutputList) :
    ∃ h' rest' t', shrinkLoop (fuel + 1) h (some e.addr) lastElement
        = shrinkLoop fuel h' (firstAddr (rest' ++ [t']) none) lastElement ∧
      OutputsLinked dangling h' (pre ++ p :: rest') t' ∧
      dataOf rest' = dataOf rest ∧ t'.data = t.data := by
  obtain ⟨f, rest', t', h₁, h₂, h₃, hcell, hs₁, hs₂, hs₃, hl', hf', hdata, htail⟩ :=
    hl.unlink_stores Fault.badPointer hprev
  refine ⟨h₃, rest', t', ?_, hl', hdata, htail⟩
  have hremove : e.data.data = none ∧ e.addr ≠ gOutputList ∧ some f ≠ none :=
    ⟨hempty, hhead, by simp⟩
  rw [shrinkLoop, load_eq hcell]
  simp only [ok_bind, if_pos hremove, deref, hs₁, hs₂, hs₃, load_eq hl'.cell]

/-- An empty node whose `prev` pointer leads to a freed node. -/
theorem shrinkLoop_dangling {fuel lastElement a : Nat} {n : Node OutputNode}
    {e : Nat} (hn : h.cell e = some n) (hprev : n.prev = some a) (hfreed : h.Freed a)
    (hremove : n.data.data = none ∧ e ≠ gOutputList ∧ n.next ≠ none) :
    shrinkLoop (fuel + 1) h (some e) lastElement = .error .badPointer := by
  obtain ⟨next, hnext⟩ := Option.ne_none_iff_exists'.mp hremove.2.2
  rw [shrinkLoop, load_eq hn]
  simp only [ok_bind, if_pos hremove]
  simp only [ok_bind, deref, hprev, hnext, modify_freed hfreed.2, error_bind]

/-- **The shrink loop** behind the node `p`: the empty nodes are taken out, and
`last_element` is the last one of the others.  It fails only on a `prev`
pointer into freed memory. -/
theorem shrinkLoop_spec (ds : List OutputNode) :
    ∀ (fuel : Nat) (h : OutputHeap) (pre rest : List (Entry OutputNode))
      (p t : Entry OutputNode) (lastElement : Nat),
      OutputsLinked dangling h (pre ++ p :: rest) t → dataOf rest = ds →
      ds.length + 2 ≤ fuel →
      ((∃ a, dangling a) ∧
        shrinkLoop fuel h (firstAddr (rest ++ [t]) none) lastElement = .error .badPointer) ∨
      ∃ h' kept t' last', shrinkLoop fuel h (firstAddr (rest ++ [t]) none) lastElement
          = .ok (h', last') ∧
        OutputsLinked dangling h' (pre ++ p :: kept) t' ∧
        dataOf kept = ds.filter (fun n => n.data ≠ none) ∧ t'.data = t.data ∧
        lastAddr (some lastElement) kept = some last' := by
  induction ds with
  | nil =>
      intro fuel h pre rest p t lastElement hl hds hfuel
      obtain rfl : rest = [] := List.map_eq_nil_iff.mp hds
      obtain ⟨fuel, rfl⟩ : ∃ k, fuel = k + 2 := ⟨fuel - 2, by omega⟩
      refine .inr ⟨h, [], t, lastElement, ?_, hl, rfl, rfl, rfl⟩
      show shrinkLoop (fuel + 1 + 1) h (some t.addr) lastElement = _
      rw [shrinkLoop_keep hl.last_cell (by simp)]
      rfl
  | cons d ds ih =>
      intro fuel h pre rest p t lastElement hl hds hfuel
      rw [List.length_cons] at hfuel
      obtain ⟨fuel, rfl⟩ : ∃ k, fuel = k + 1 := ⟨fuel - 1, by omega⟩
      cases rest with
      | nil => exact absurd hds (by simp [dataOf])
      | cons e rest =>
          obtain ⟨hd, hds'⟩ : e.data = d ∧ dataOf rest = ds := by
            simpa [dataOf] using hds
          have hhead := hl.ne_head
          have hl₁ : OutputsLinked dangling h ((pre ++ [p]) ++ e :: rest) t := by
            simpa using hl
          have hnext : firstAddr (rest ++ [t]) none ≠ none := by
            cases rest <;> simp
          show ((∃ a, dangling a) ∧
              shrinkLoop (fuel + 1) h (some e.addr) lastElement = .error .badPointer) ∨
            ∃ h' kept t' last', shrinkLoop (fuel + 1) h (some e.addr) lastElement
              = .ok (h', last') ∧ _
          -- the head is never taken out, and neither is the last node
          by_cases hempty : d.data = none
          · -- the node is taken out
            rcases hl.prev_eq with hprev | ⟨a, hprev, ha⟩
            · obtain ⟨h₁, rest₁, t₁, hrun, hl', hdata, htail⟩ :=
                shrinkLoop_remove fuel lastElement hl hprev (hd ▸ hempty) hhead
              rw [hrun, List.filter_cons_of_neg (by simp [hempty])]
              rcases ih fuel h₁ pre rest₁ p t₁ lastElement hl' (hdata.trans hds')
                (by omega) with hbad | ⟨h₂, kept, t₂, last', hrest, hl₂, hkept, ht₂, hlast⟩
              · exact .inl hbad
              · exact .inr ⟨h₂, kept, t₂, last', hrest, hl₂, hkept, ht₂.trans htail,
                  hlast⟩
            · exact .inl ⟨⟨a, ha⟩, shrinkLoop_dangling hl₁.cell hprev (hl.freed a ha)
                ⟨hd ▸ hempty, hhead, hnext⟩⟩
          · -- the node stays
            have hkeep : ¬ (e.data.data = none ∧ e.addr ≠ gOutputList ∧
                firstAddr (rest ++ [t]) none ≠ none) := fun hn => hempty (hd ▸ hn.1)
            rw [shrinkLoop_keep hl₁.cell hkeep, if_pos hnext,
              List.filter_cons_of_pos (by simp [hempty])]
            rcases ih fuel h (pre ++ [p]) rest e t e.addr hl₁ hds' (by omega) with
              hbad | ⟨h₂, kept, t₂, last', hrest, hl₂, hkept, ht₂, hlast⟩
            · exact .inl hbad
            · refine .inr ⟨h₂, e :: kept, t₂, last', hrest, by simpa using hl₂, ?_, ht₂,
                hlast⟩
              show e.data :: dataOf kept = _
              rw [hkept, hd]

/-- The whole loop, from the head. -/
theorem shrink_spec (hl : OutputsLinked dangling h es t) :
    ((∃ a, dangling a) ∧
      shrinkLoop (h.fresh + 1) h (some gOutputList) gOutputList = .error .badPointer) ∨
    ∃ h' es' t' last', shrinkLoop (h.fresh + 1) h (some gOutputList) gOutputList
        = .ok (h', last') ∧
      OutputsLinked dangling h' es' t' ∧ dataOf es' = shrinkCells (dataOf es) ∧
      t'.data = t.data ∧ lastAddr (some gOutputList) es' = some last' := by
  have hlen := chain_length_le hl.chain hl.nodup
  cases es with
  -- an empty list: the loop looks at the last node and ends
  | nil =>
      obtain ⟨-, hcell⟩ := hl.only_cell
      refine .inr ⟨h, [], t, gOutputList, ?_, hl, rfl, rfl, rfl⟩
      obtain ⟨k, hk⟩ : ∃ k, h.fresh = k + 1 := ⟨h.fresh - 1, by
        rw [List.nil_append, List.length_singleton] at hlen
        omega⟩
      rw [hk, shrinkLoop_keep hcell (by simp)]
      rfl
  | cons x rest =>
      obtain ⟨hx, hcell⟩ := hl.head_cell
      have hnext : firstAddr (rest ++ [t]) none ≠ none := by
        cases rest <;> simp
      -- the head is never taken out
      rw [shrinkLoop_keep hcell (fun hn => hn.2.1 rfl), if_pos hnext]
      have hfuel : (dataOf rest).length + 2 ≤ h.fresh := by
        unfold dataOf
        rw [List.length_map]
        rw [List.length_append, List.length_cons, List.length_singleton] at hlen
        omega
      rcases shrinkLoop_spec (dataOf rest) h.fresh h [] rest x t gOutputList hl rfl hfuel with
        hbad | ⟨h', kept, t', last', hrun, hl', hkept, ht', hlast⟩
      · exact .inl hbad
      · refine .inr ⟨h', x :: kept, t', last', hrun, hl', ?_, ht', ?_⟩
        · show x.data :: dataOf kept = shrinkCells (x.data :: dataOf rest)
          rw [hkept]
          rfl
        · show lastAddr (some x.addr) kept = some last'
          rw [hx, hlast]

/-! ## §4. Moving the last node into the head. -/

theorem swapLast_stays {lastElement : Nat} (hl : OutputsLinked dangling h es t)
    (hlast : lastAddr (some gOutputList) es = some lastElement)
    (hswap : ¬ Swaps (dataOf es)) : swapLast h lastElement = .ok h := by
  unfold swapLast
  cases es with
  | nil =>
      obtain ⟨-, hcell⟩ := hl.only_cell
      obtain rfl : gOutputList = lastElement := by simpa [lastAddr] using hlast
      rw [load_eq hcell]
      simp
  | cons x rest =>
      obtain ⟨hx, hcell⟩ := hl.head_cell
      rw [load_eq hcell]
      cases rest with
      | nil =>
          obtain rfl : gOutputList = lastElement := by
            simpa [lastAddr, hx] using hlast
          simp
      | cons y rest =>
          have hfull : x.data.data ≠ none := hswap
          simp [hfull]

/-- The heap after the stores of the swap. -/
def swappedHeap (h : OutputHeap) (p l : Nat) (next : Option Nat) (q : Option Nat)
    (output : Option Nat) : OutputHeap :=
  ((((h.update p (fun n => { n with next := q })).update l
    (fun n => { n with next := next })).update l (fun n => { n with prev := none })).update
      gOutputList (fun n =>
        { prev := none, next := next, data := { n.data with data := output } })).free l

theorem swappedHeap_freed {p l a : Nat} {next q output : Option Nat} (hl : l < h.fresh)
    (ha : h.Freed a ∨ a = l) : (swappedHeap h p l next q output).Freed a := by
  by_cases hal : a = l
  · rw [hal]
    exact ⟨hl, if_pos rfl⟩
  · obtain ⟨hlt, hnone⟩ : h.Freed a := ha.resolve_right hal
    refine ⟨hlt, ?_⟩
    unfold swappedHeap
    rw [Heap.free_cell_ne _ hal]
    simp only [Heap.update_cell_eq_none]
    exact hnone

section Swap

variable {x l p : Entry OutputNode} {init ini : List (Entry OutputNode)}

/-- The nodes before `l`, once the one before it points to `t`. -/
theorem unlinked_chain (hini : x :: init = ini ++ [p])
    (hl : OutputsLinked dangling h (x :: (init ++ [l])) t) :
    Chain (h.update p.addr (fun n => { n with next := some t.addr })) (x :: init)
      (some t.addr) := by
  have hsplit : x :: (init ++ [l]) ++ [t] = (ini ++ [p]) ++ l :: [t] := by
    rw [← hini]
    simp
  have hc := hl.chain
  have hnd := hl.nodup
  rw [hsplit, chain_append_iff] at hc
  rw [hsplit, addrs_append, List.nodup_append, addrs_append, List.nodup_append] at hnd
  have hp : p.addr ∉ addrs ini := fun hmem => hnd.1.2.2 p.addr hmem p.addr (by simp) rfl
  rw [hini]
  exact chain_set_next hp (some t.addr) hc.1

/-- The nodes of the swap are different. -/
theorem swap_addrs (hl : OutputsLinked dangling h (x :: (init ++ [l])) t) :
    x.addr ∉ addrs init ∧ l.addr ∉ addrs (x :: init) ∧ t.addr ∉ addrs (x :: init) ∧
      t.addr ≠ l.addr := by
  have hnd := hl.nodup
  have hsplit : x :: (init ++ [l]) ++ [t] = (x :: init) ++ [l, t] := by simp
  rw [hsplit, addrs_append, List.nodup_append] at hnd
  obtain ⟨hleft, hright, hdisj⟩ := hnd
  refine ⟨(List.nodup_cons.mp hleft).1, ?_, ?_, ?_⟩
  · exact fun hmem => hdisj l.addr hmem l.addr (by simp) rfl
  · exact fun hmem => hdisj t.addr hmem t.addr (by simp) rfl
  · intro heq
    rw [addrs_cons, List.nodup_cons] at hright
    exact hright.1 (by simp [heq])

/-- The list without the node `l`, its output in the head. -/
theorem swapped_chain (hini : x :: init = ini ++ [p])
    (hl : OutputsLinked dangling h (x :: (init ++ [l])) t) :
    Chain (swappedHeap h p.addr l.addr (firstAddr init (some t.addr)) (some t.addr)
        l.data.data)
      (⟨gOutputList, none, ⟨l.data.data, x.data.enable⟩⟩ :: init ++ [t]) none := by
  obtain ⟨hx, -⟩ := hl.head_cell
  obtain ⟨hxinit, hlx, htx, htl⟩ := swap_addrs hl
  obtain ⟨hhead, hinit⟩ := unlinked_chain hini hl
  have htp : t.addr ≠ p.addr := by
    intro heq
    apply htx
    rw [hini, heq]
    simp
  rw [hx] at hhead hxinit
  rw [addrs_cons, List.mem_cons, not_or, hx] at hlx htx
  unfold swappedHeap
  rw [chain_append_iff]
  -- the head, the nodes between, and the last node
  refine ⟨⟨?_, ?_⟩, ?_, trivial⟩
  · rw [Heap.free_cell_ne _ (Ne.symm hlx.1)]
    have hhead' := hhead
    rw [← Heap.update_cell_ne _ (Ne.symm hlx.1)
        (fun n => { n with next := firstAddr init (some t.addr) }),
      ← Heap.update_cell_ne _ (Ne.symm hlx.1) (fun n => { n with prev := none })] at hhead'
    rw [Heap.update_cell_self hhead']
    rfl
  · exact chain_free hlx.2 (chain_update hxinit _ (chain_update hlx.2 _
      (chain_update hlx.2 _ hinit)))
  · rw [Heap.free_cell_ne _ htl, Heap.update_cell_ne _ htx.1, Heap.update_cell_ne _ htl,
      Heap.update_cell_ne _ htl, Heap.update_cell_ne _ htp, hl.last_cell]
    rfl

/-- The stores of the source make that heap. -/
theorem swapLast_eq (hini : x :: init = ini ++ [p])
    (hl : OutputsLinked dangling h (x :: (init ++ [l])) t) (hx : x.data.data = none)
    (hprev : l.prev = some p.addr) :
    swapLast h l.addr
      = .ok (swappedHeap h p.addr l.addr (firstAddr init (some t.addr)) (some t.addr)
          l.data.data) := by
  obtain ⟨-, hhead⟩ := hl.head_cell
  obtain ⟨-, hlx, -, -⟩ := swap_addrs hl
  have hl₁ : OutputsLinked dangling h ((x :: init) ++ l :: []) t := hl
  have hl₂ : OutputsLinked dangling h (ini ++ p :: [l]) t := by
    have hsplit : x :: (init ++ [l]) = ini ++ p :: [l] := by
      rw [← List.cons_append, hini]
      simp
    rwa [← hsplit]
  have hlp : l.addr ≠ p.addr := by
    intro heq
    apply hlx
    rw [hini, heq]
    simp
  have hlg : l.addr ≠ gOutputList := hl₂.ne_head
  have hlast : h.cell l.addr = some ⟨l.prev, some t.addr, l.data⟩ := hl₁.cell
  obtain ⟨hhead₁, -⟩ := unlinked_chain hini hl
  rw [hl.head_cell.1] at hhead₁
  -- the heaps between the stores, as far as the next store looks at them
  obtain ⟨h₁, hh₁⟩ : ∃ h₁, h₁ = h.update p.addr (fun n => { n with next := some t.addr }) :=
    ⟨_, rfl⟩
  rw [← hh₁] at hhead₁
  have hlast₁ : h₁.cell l.addr = some ⟨l.prev, some t.addr, l.data⟩ := by
    rw [hh₁, Heap.update_cell_ne _ hlp, hlast]
  obtain ⟨h₂, hh₂⟩ : ∃ h₂, h₂ = h₁.update l.addr
      (fun n => { n with next := firstAddr init (some t.addr) }) := ⟨_, rfl⟩
  have hlast₂ : h₂.cell l.addr
      = some ⟨l.prev, firstAddr init (some t.addr), l.data⟩ := by
    rw [hh₂, Heap.update_cell_self hlast₁]
  obtain ⟨h₃, hh₃⟩ : ∃ h₃, h₃ = h₂.update l.addr (fun n => { n with prev := none }) :=
    ⟨_, rfl⟩
  have hlast₃ : h₃.cell l.addr = some ⟨none, firstAddr init (some t.addr), l.data⟩ := by
    rw [hh₃, Heap.update_cell_self hlast₂]
  have hhead₃ : h₃.cell gOutputList = h₁.cell gOutputList := by
    rw [hh₃, Heap.update_cell_ne _ hlg.symm, hh₂, Heap.update_cell_ne _ hlg.symm]
  rw [hhead₁] at hhead₃
  have hlast₄ := hlast₃
  rw [← Heap.update_cell_ne _ hlg (fun n =>
    { prev := none, next := firstAddr init (some t.addr),
      data := { n.data with data := l.data.data } })] at hlast₄
  unfold swapLast
  simp only [load_eq hhead, ok_bind, hx, true_and, ne_eq, hlg, not_false_eq_true, if_true,
    load_eq hlast, deref, hprev, modify_eq hl₂.cell, ← hh₁, load_eq hhead₁,
    modify_eq hlast₁, ← hh₂, modify_eq hlast₂, ← hh₃, load_eq hlast₃, modify_eq hhead₃,
    release_eq hlast₄]
  rw [hh₃, hh₂, hh₁]
  rfl

/-- **The swap.**  The last node is moved into the head and freed; the `prev`
pointer of the node behind it still leads there. -/
theorem swapLast_swaps (hl : OutputsLinked dangling h (x :: (init ++ [l])) t)
    (hx : x.data.data = none) :
    ((∃ a, dangling a) ∧ swapLast h l.addr = .error .badPointer) ∨
    ∃ h', swapLast h l.addr = .ok h' ∧
      OutputsLinked (fun a => dangling a ∨ a = l.addr) h'
        (⟨gOutputList, none, ⟨l.data.data, x.data.enable⟩⟩ :: init) t ∧
      ∃ a, t.prev = some a ∧ h'.Freed a := by
  obtain ⟨ini, p, hini⟩ : ∃ ini p, x :: init = ini ++ [p] :=
    ⟨_, _, (List.dropLast_append_getLast (List.cons_ne_nil x init)).symm⟩
  have hl₁ : OutputsLinked dangling h ((x :: init) ++ l :: []) t := hl
  have hl₂ : OutputsLinked dangling h (ini ++ p :: [l]) t := by
    have hsplit : x :: (init ++ [l]) = ini ++ p :: [l] := by
      rw [← List.cons_append, hini]
      simp
    rwa [← hsplit]
  have hlive := Heap.lt_fresh hl₁.cell
  -- everything up to `l`, then `l` and the end
  have hsplit : x :: (init ++ [l]) ++ [t] = (x :: init) ++ [l, t] := by simp
  have hnd := hl.nodup
  have hback := hl.back
  rw [hsplit] at hnd hback
  rw [backLinks_append_iff] at hback
  obtain ⟨⟨-, hinit⟩, -, ht, -⟩ := hback
  rcases hl₂.prev_eq with hprev | ⟨a, hprev, ha⟩
  · -- the pointer of `l` is right
    refine .inr ⟨_, swapLast_eq hini hl hx hprev, ?_, ?_⟩
    · refine ⟨swapped_chain hini hl, ?_, rfl, ?_, ?_⟩
      · refine List.Nodup.sublist ?_ hnd
        rw [addrs_append, addrs_append, addrs_cons x, hl.head_cell.1]
        exact List.Sublist.append_left (List.sublist_cons_self _ _) _
      · rw [backLinks_append_iff]
        refine ⟨⟨.inl rfl, ?_⟩, ?_, trivial⟩
        · show BackLinks _ (some gOutputList) init
          rw [hl.head_cell.1] at hinit
          exact backLinks_mono (fun a ha => .inl ha) hinit
        · rcases ht with ht | ⟨a, hta, ha⟩
          · exact .inr ⟨l.addr, ht, .inr rfl⟩
          · exact .inr ⟨a, hta, .inl ha⟩
      · intro a ha
        exact swappedHeap_freed hlive (ha.imp_left (hl.freed a))
    · rcases ht with ht | ⟨a, hta, ha⟩
      · exact ⟨l.addr, ht, swappedHeap_freed hlive (.inr rfl)⟩
      · exact ⟨a, hta, swappedHeap_freed hlive (.inl (hl.freed a ha))⟩
  · -- it leads to a freed node, which is followed
    refine .inl ⟨⟨a, ha⟩, ?_⟩
    have hlg : l.addr ≠ gOutputList := hl₂.ne_head
    unfold swapLast
    simp only [load_eq hl.head_cell.2, ok_bind, hx, true_and, ne_eq, hlg,
      not_false_eq_true, if_true, load_eq hl₁.cell, deref, hprev,
      modify_freed (hl.freed a ha).2, error_bind]

end Swap

/-! ## §5. One update. -/

/-- `newer` is put into its place. -/
theorem place_spec (callocOk : Bool) (older newer : Option Nat)
    (hl : OutputsLinked dangling h es t) :
    ∃ h₁ v current, findPosition older newer h = .ok (h₁, v, current) ∧
      ((callocOk = false ∧ NeedsNode older newer (dataOf es) ∧
          appendIfNeeded callocOk newer h₁ v current = .ok none ∧
          ∃ es₁, OutputsLinked dangling h₁ es₁ t ∧ addrs es₁ = addrs es ∧
            dataOf es₁ = dataOf es) ∨
        ¬ (callocOk = false ∧ NeedsNode older newer (dataOf es)) ∧
        ∃ h₂ n es₂ t₂, appendIfNeeded callocOk newer h₁ v current = .ok (some h₂) ∧
          h₂.cell current = some n ∧
          OutputsLinked dangling (h₂.update current (fun n => { n with data := ⟨newer, false⟩ }))
            es₂ t₂ ∧
          dataOf es₂ = placeNewer older newer (dataOf es) ∧
          (t₂.data = t.data ∨ t₂.data = .zero)) := by
  obtain ⟨h₁, es₁, v, hrun, hl₁, haddr, hdata, hv, -⟩ := findPosition_spec older newer hl
  refine ⟨h₁, v, _, hrun, ?_⟩
  have haddr' : addrs (es ++ [t]) = addrs (es₁ ++ [t]) := by
    rw [addrs_append, addrs_append, haddr]
  have hlen : es₁.length = (dataOf es).length := by
    have hlen := congrArg List.length hdata
    unfold blankOthers at hlen
    rw [blankFrom_length] at hlen
    unfold dataOf at hlen ⊢
    rwa [List.length_map] at hlen
  unfold appendIfNeeded
  rw [haddr']
  cases htarget : targetCell older newer (dataOf es) with
  | some i =>
      -- a cell of the list
      have hi := targetCell_lt htarget
      rw [htarget] at hv
      obtain ⟨es₂, n, hn, -, hl₂, hdata₂⟩ := hl₁.set_getD (i := i) (by omega) ⟨newer, false⟩
      refine .inr ⟨?_, h₁, n, es₂, t, ?_, hn, hl₂, ?_, .inl rfl⟩
      · intro hneed
        rw [hneed.2.1] at htarget
        exact absurd htarget (by simp)
      · rw [if_neg]
        intro hno
        exact hno.1 hv
      · rw [hdata₂, hdata]
        unfold placeNewer
        simp only [htarget]
  | none =>
      -- the last node
      have hpos : (addrs (es₁ ++ [t])).getD ((none : Option Nat).getD (dataOf es).length) 0
          = t.addr := by
        rw [addrs_append, Option.getD_none, ← hlen]
        have hcount : es₁.length = (addrs es₁).length := by
          unfold addrs
          rw [List.length_map]
        rw [hcount]
        simp
      have hup : v.updated = false := by
        rw [hv, htarget]
        rfl
      have hkeep : blankOthers newer (usedCell older newer (dataOf es)) (dataOf es)
          = dataOf es := by
        unfold targetCell at htarget
        exact blankOthers_of_unused (Option.or_eq_none_iff.mp htarget).1
      rw [hkeep] at hdata
      rw [hpos]
      have hplace : placeNewer older newer (dataOf es)
          = if newer = none then dataOf es else dataOf es ++ [⟨newer, false⟩] := by
        unfold placeNewer
        simp only [htarget, hkeep]
      rw [hplace]
      by_cases hnewer : newer = none
      · refine .inr ⟨fun hneed => hneed.2.2 hnewer, h₁, _, es₁,
          { t with data := ⟨newer, false⟩ }, ?_, hl₁.last_cell, hl₁.set_last _, ?_, .inr ?_⟩
        · rw [if_neg (fun hno => hno.2 hnewer)]
        · rw [if_pos hnewer, hdata]
        · show (⟨newer, false⟩ : OutputNode) = .zero
          rw [hnewer]
          rfl
      · have hcond : ¬ v.updated = true ∧ newer ≠ none := ⟨by rw [hup]; simp, hnewer⟩
        rw [if_pos hcond, if_neg hnewer]
        cases callocOk with
        | false =>
            exact .inl ⟨rfl, ⟨htarget, hnewer⟩, appendEmpty_fails hl₁, es₁, hl₁, haddr, hdata⟩
        | true =>
            obtain ⟨h₂, happend, hl₂⟩ := appendEmpty_spec hl₁
            have hl₂' : OutputsLinked dangling h₂ (es₁ ++ t :: []) _ := hl₂
            refine .inr ⟨fun hneed => absurd hneed.1 (by simp), h₂, _,
              es₁ ++ [{ t with data := ⟨newer, false⟩ }], _, happend, hl₂'.cell,
              hl₂'.set_data _, ?_, .inr rfl⟩
            rw [dataOf_append, hdata]
            rfl

theorem exists_last_of_swaps {cells : List OutputNode} (hs : Swaps cells)
    (hdata : dataOf es = cells) :
    ∃ x init l, es = x :: (init ++ [l]) ∧ x.data.data = none := by
  subst hdata
  cases es with
  | nil => exact hs.elim
  | cons x rest =>
      cases rest with
      | nil => exact hs.elim
      | cons y rest =>
          refine ⟨x, (y :: rest).dropLast, (y :: rest).getLast (List.cons_ne_nil y rest), ?_,
            hs⟩
          rw [List.dropLast_append_getLast]

/-- **One update.**  On a list whose cells are tidy it does what `updateCells`
says, unless a node cannot be had.  It fails only on a `prev` pointer into freed
memory, and leaves one only if the head is vacated. -/
theorem helpUpdata_spec (callocOk : Bool) (older newer : Option Nat)
    (hl : OutputsLinked dangling h es t) (htidy : Tidy (dataOf es)) :
    ((∃ a, dangling a) ∧
      helpUpdataCompositorOutput callocOk older newer h = .error .badPointer) ∨
    ∃ h' dangling' es' t', helpUpdataCompositorOutput callocOk older newer h = .ok h' ∧
      OutputsLinked dangling' h' es' t' ∧ (t'.data = t.data ∨ t'.data = .zero) ∧
      (AllocFails callocOk older newer (dataOf es) →
        addrs es' = addrs es ∧ dataOf es' = dataOf es ∧ t' = t) ∧
      (¬ AllocFails callocOk older newer (dataOf es) →
        dataOf es' = updateCells older newer (dataOf es)) ∧
      (¬ VacatesHead older newer (dataOf es) → dangling' = dangling) ∧
      (callocOk = true → VacatesHead older newer (dataOf es) →
        es' ≠ [] ∧ ∃ a, t'.prev = some a ∧ h'.Freed a) := by
  by_cases hne : older = newer
  · refine .inr ⟨h, dangling, es, t, ?_, hl, .inl rfl, fun hf => absurd hne hf.1,
      fun _ => ?_, fun _ => rfl, ?_⟩
    · unfold helpUpdataCompositorOutput
      rw [if_pos hne]
    · unfold updateCells
      rw [if_pos hne]
    · intro _ hv
      cases hes : dataOf es with
      | nil =>
          rw [hes] at hv
          exact hv.elim
      | cons x rest =>
          rw [hes] at hv
          exact absurd hne hv.1
  · unfold helpUpdataCompositorOutput
    rw [if_neg hne]
    obtain ⟨h₁, v, current, hfind, hcases⟩ := place_spec callocOk older newer hl
    simp only [hfind, ok_bind]
    rcases hcases with ⟨hcalloc, hneed, happend, es₁, hl₁, haddr₁, hdata₁⟩ |
      ⟨hplaced, h₂, n, es₂, t₂, happend, hn, hl₂, hdata₂, ht₂⟩
    · -- no memory: nothing has changed
      refine .inr ⟨h₁, dangling, es₁, t, ?_, hl₁, .inl rfl,
        fun _ => ⟨haddr₁, hdata₁, rfl⟩, fun hno => absurd ⟨hne, hcalloc, hneed⟩ hno,
        fun _ => rfl, fun h => ?_⟩
      · simp only [happend, ok_bind]
      · rw [hcalloc] at h
        exact absurd h (by simp)
    · simp only [happend, ok_bind, modify_eq hn]
      have hfails : ¬ AllocFails callocOk older newer (dataOf es) := fun h => hplaced h.2
      have hupdate : updateCells older newer (dataOf es)
          = swapCells (shrinkCells (dataOf es₂)) := by
        unfold updateCells
        rw [if_neg hne, hdata₂]
      have hswaps := swaps_iff htidy hne
      rw [← hdata₂] at hswaps
      -- the empty nodes are freed, through a pointer that may dangle
      rcases shrink_spec hl₂ with ⟨hbad, hrun⟩ |
        ⟨h₃, es₃, t₃, last', hrun, hl₃, hdata₃, ht₃, hlast⟩
      · refine .inl ⟨hbad, ?_⟩
        rw [Heap.update_fresh] at hrun
        simp only [Heap.update_fresh, hrun, error_bind]
      · rw [← ht₃] at ht₂
        simp only [Heap.update_fresh] at hrun ⊢
        simp only [hrun, ok_bind]
        by_cases hs : Swaps (shrinkCells (dataOf es₂))
        · obtain ⟨x, init, l, rfl, hx⟩ := exists_last_of_swaps hs hdata₃
          have hlast' : l.addr = last' := by
            rw [← List.cons_append, lastAddr_concat] at hlast
            exact Option.some.inj hlast
          rw [← hlast']
          rcases swapLast_swaps hl₃ hx with hbad | ⟨h₄, hswap, hl₄, hprev⟩
          · exact .inl hbad
          · refine .inr ⟨h₄, _, _, t₃, hswap, hl₄, ht₂, fun hf => absurd hf hfails,
              fun _ => ?_, fun hno => absurd (hswaps.mp hs) hno,
              fun _ _ => ⟨List.cons_ne_nil _ _, hprev⟩⟩
            rw [hupdate, ← hdata₃]
            show _ = swapCells (x.data :: dataOf (init ++ [l]))
            rw [dataOf_append]
            exact (swapCells_of_swaps hx).symm
        -- the head is full, or nothing is behind it
        · have hstay := swapLast_stays hl₃ hlast (hdata₃ ▸ hs)
          refine .inr ⟨h₃, dangling, es₃, t₃, hstay, hl₃, ht₂, fun hf => absurd hf hfails,
            fun _ => ?_, fun _ => rfl, fun _ hv => absurd (hswaps.mpr hv) hs⟩
          rw [hupdate, swapCells_of_not_swaps hs, hdata₃]

end Phases

/-! ## §6. Switching an output. -/

theorem visit_switchEnable (output : Nat) (enable : Bool) (cells : List OutputNode) :
    ∃ i, visit (switchEnable output enable) () cells
      = .ok (switchCells output enable cells, (), i) := by
  induction cells with
  | nil => exact ⟨0, rfl⟩
  | cons n ns ih =>
      obtain ⟨i, hi⟩ := ih
      unfold visit switchEnable switchCells
      by_cases hn : some output = n.data
      · exact ⟨0, by simp only [if_pos hn]⟩
      · refine ⟨i + 1, ?_⟩
        simp only [if_neg hn]
        unfold switchEnable at hi
        rw [hi]

/-! ## §7. Calls and runs. -/

/-- The shape of the list between two calls. -/
structure OutputsOk (dangling : Nat → Prop) (h : OutputHeap) (es : List (Entry OutputNode))
    (t : Entry OutputNode) : Prop where
  linked : OutputsLinked dangling h es t
  tail : t.data = .zero
  tidy : Tidy (dataOf es)
  enabled : EnabledFull (dataOf es)

/-- The outputs listed in the heap, read through the `next` pointers. -/
def outputCells (h : OutputHeap) : List OutputNode := readData h (h.fresh + 1) gOutputList

/-- The call vacates the head of the list it finds. -/
def OutputCall.VacatesHead (c : OutputCall) (h : OutputHeap) : Prop :=
  match c with
  | .updata older newer => Helper.VacatesHead older newer (outputCells h)
  | .switch _ _ => False

theorem outputsOk_init :
    OutputsOk (fun _ => False) outputHeapInit [] ⟨gOutputList, none, .zero⟩ where
  linked :=
    { chain := ⟨rfl, trivial⟩
      nodup := by simp
      first := rfl
      back := ⟨.inl rfl, trivial⟩
      freed := fun _ h => h.elim }
  tail := rfl
  tidy := trivial
  enabled := fun n hn => absurd hn List.not_mem_nil

section Calls

variable {dangling : Nat → Prop} {h : OutputHeap} {es : List (Entry OutputNode)}
  {t : Entry OutputNode}

theorem outputsOk_updata (callocOk : Bool) (older newer : Option Nat)
    (hok : OutputsOk dangling h es t) :
    ((∃ a, dangling a) ∧
      helpUpdataCompositorOutput callocOk older newer h = .error .badPointer) ∨
    ∃ h' dangling' es' t', helpUpdataCompositorOutput callocOk older newer h = .ok h' ∧
      OutputsOk dangling' h' es' t' ∧
      (¬ VacatesHead older newer (dataOf es) → dangling' = dangling) ∧
      (callocOk = true → VacatesHead older newer (dataOf es) →
        es' ≠ [] ∧ ∃ a, t'.prev = some a ∧ h'.Freed a) := by
  rcases helpUpdata_spec callocOk older newer hok.linked hok.tidy with
    hbad | ⟨h', dangling', es', t', hrun, hl', ht', hfailed, hdone, hkeep, hvacate⟩
  · exact .inl hbad
  · refine .inr ⟨h', dangling', es', t', hrun, ⟨hl', ?_, ?_, ?_⟩, hkeep, hvacate⟩
    · rcases ht' with ht' | ht'
      · rw [ht']
        exact hok.tail
      · exact ht'
    · by_cases hf : AllocFails callocOk older newer (dataOf es)
      · rw [(hfailed hf).2.1]
        exact hok.tidy
      · rw [hdone hf]
        exact updateCells_tidy hok.tidy
    · by_cases hf : AllocFails callocOk older newer (dataOf es)
      · rw [(hfailed hf).2.1]
        exact hok.enabled
      · rw [hdone hf]
        exact updateCells_enabledFull hok.enabled

theorem outputsOk_switch (output : Option Nat) (enable : Bool)
    (hok : OutputsOk dangling h es t) :
    ∃ h' es', helpSwitchCompositorOutput output enable h = .ok h' ∧
      OutputsOk dangling h' es' t := by
  cases output with
  | none => exact ⟨h, es, rfl, hok⟩
  | some output =>
      obtain ⟨i, hi⟩ := visit_switchEnable output enable (dataOf es)
      obtain ⟨h', es', hrun, hl', hdata, -, -⟩ := forEachOutput_spec hok.linked rfl hi
      refine ⟨h', es', ?_, hl', hok.tail, ?_, ?_⟩
      · unfold helpSwitchCompositorOutput
        simp only [hrun, ok_bind]
      · rw [hdata]
        exact switchCells_tidy hok.tidy
      · rw [hdata]
        exact switchCells_enabledFull hok.enabled

theorem outputCells_eq (hok : OutputsOk dangling h es t) : outputCells h = dataOf es :=
  hok.linked.readData_eq

/-- **One call.** -/
theorem outputsOk_call (c : OutputCall) (hok : OutputsOk dangling h es t) :
    ((∃ a, dangling a) ∧ c.run h = .error .badPointer) ∨
    ∃ h' dangling' es' t', c.run h = .ok h' ∧ OutputsOk dangling' h' es' t' ∧
      (¬ c.VacatesHead h → dangling' = dangling) ∧
      (c.VacatesHead h → es' ≠ [] ∧ ∃ a, t'.prev = some a ∧ h'.Freed a) := by
  cases c with
  | updata older newer =>
      show (_ ∧ helpUpdataCompositorOutput true older newer h = _) ∨ _
      unfold OutputCall.VacatesHead OutputCall.run
      simp only [outputCells_eq hok]
      rcases outputsOk_updata true older newer hok with
        hbad | ⟨h', dangling', es', t', hrun, hok', hkeep, hvacate⟩
      · exact .inl hbad
      · exact .inr ⟨h', dangling', es', t', hrun, hok', hkeep, hvacate rfl⟩
  | switch output enable =>
      obtain ⟨h', es', hrun, hok'⟩ := outputsOk_switch output enable hok
      exact .inr ⟨h', dangling, es', t, hrun, hok', fun _ => rfl, fun hv => hv.elim⟩

end Calls

/-! ## §8. Well-linked lists. -/

/-- Every node that is reached from `g_output_list` is live, and the one its
`next` pointer leads to points back to it. -/
structure WellLinked (h : OutputHeap) : Prop where
  live : ∀ a, Reach h gOutputList a → ∃ n, h.cell a = some n
  back : ∀ a n m, Reach h gOutputList a → h.cell a = some n → n.next = some m →
    ∃ n', h.cell m = some n' ∧ n'.prev = some a

theorem wellLinked_of_linked {h : OutputHeap} {es : List (Entry OutputNode)}
    {t : Entry OutputNode} (hl : OutputsLinked (fun _ => False) h es t) : WellLinked h where
  live := by
    intro a hr
    obtain ⟨_, _, _, _, _, hcell⟩ := hl.split_of_reach hr
    exact ⟨_, hcell⟩
  back := by
    intro a n m hr hn hnext
    obtain ⟨pre, e, post, hsplit, rfl, hcell⟩ := hl.split_of_reach hr
    rw [hcell] at hn
    obtain rfl := Option.some.inj hn
    cases post with
    | nil => exact absurd hnext (by simp [firstAddr])
    | cons f post =>
        obtain rfl := Option.some.inj hnext
        have hc := hl.chain
        have hback := hl.back
        have hsplit' : es ++ [t] = (pre ++ [e]) ++ f :: post := by
          rw [hsplit]
          simp
        rw [hsplit', chain_append_iff] at hc
        rw [hsplit', backLinks_append_iff, lastAddr_concat] at hback
        refine ⟨_, hc.2.1, ?_⟩
        rcases hback.2.1 with hprev | ⟨_, _, hfalse⟩
        · exact hprev
        · exact hfalse.elim

/-- The last node points into freed memory. -/
theorem not_wellLinked_of_freed {dangling : Nat → Prop} {h : OutputHeap}
    {es : List (Entry OutputNode)} {t : Entry OutputNode}
    (hl : OutputsLinked dangling h es t) (hes : es ≠ [])
    (hfreed : ∃ a, t.prev = some a ∧ h.Freed a) : ¬ WellLinked h := by
  intro hw
  obtain ⟨a, hta, -, hnone⟩ := hfreed
  -- the node before the last one
  have hsplit : es ++ [t] = es.dropLast ++ es.getLast hes :: [t] := by
    conv_lhs => rw [← List.dropLast_append_getLast hes]
    simp
  have hreach := hl.reach_of_split _ hsplit
  have hc := hl.chain
  rw [hsplit, chain_append_iff] at hc
  obtain ⟨n', hn', hprev⟩ := hw.back _ _ t.addr hreach hc.2.1 rfl
  rw [hl.last_cell] at hn'
  obtain rfl := Option.some.inj hn'
  obtain rfl : a = (es.getLast hes).addr := Option.some.inj (hta.symm.trans hprev)
  rw [hc.2.1] at hnone
  exact absurd hnone (by simp)

/-- An update that vacates the head leaves a `prev` pointer into freed
memory. -/
theorem vacated_head_not_wellLinked {h h' : OutputHeap} {es : List (Entry OutputNode)}
    {t : Entry OutputNode} {dangling : Nat → Prop} {c : OutputCall}
    (hok : OutputsOk dangling h es t) (hv : c.VacatesHead h) (hrun : c.run h = .ok h') :
    ¬ WellLinked h' := by
  rcases outputsOk_call c hok with ⟨-, hbad⟩ | ⟨h₁, _, es', t', hrun₁, hok', -, hvacate⟩
  · rw [hbad] at hrun
    exact absurd hrun (by simp)
  · rw [hrun₁] at hrun
    obtain rfl := Except.ok.inj hrun
    obtain ⟨hes, hfreed⟩ := hvacate hv
    exact not_wellLinked_of_freed hok'.linked hes hfreed

/-! ## §9. Runs. -/

/-- No call of the run vacates the head of the list it finds. -/
def KeepsHead : OutputHeap → List OutputCall → Prop
  | _, [] => True
  | h, c :: cs =>
      ¬ c.VacatesHead h ∧
        match c.run h with
        | .ok h' => KeepsHead h' cs
        | .error _ => True

instance (c : OutputCall) (h : OutputHeap) : Decidable (c.VacatesHead h) := by
  cases c with
  | updata older newer =>
      exact inferInstanceAs (Decidable (Helper.VacatesHead older newer (outputCells h)))
  | switch output enable => exact inferInstanceAs (Decidable False)

theorem keepsHead_cons {h h' : OutputHeap} {c : OutputCall} {cs : List OutputCall}
    (hrun : c.run h = .ok h') :
    KeepsHead h (c :: cs) ↔ ¬ c.VacatesHead h ∧ KeepsHead h' cs := by
  rw [KeepsHead, hrun]

theorem keepsHead_cons_error {h : OutputHeap} {c : OutputCall} {cs : List OutputCall}
    {e : Fault} (hrun : c.run h = .error e) :
    KeepsHead h (c :: cs) ↔ ¬ c.VacatesHead h := by
  rw [KeepsHead, hrun]
  exact (and_true _).to_iff

instance instDecidableKeepsHead :
    (h : OutputHeap) → (calls : List OutputCall) → Decidable (KeepsHead h calls)
  | _, [] => inferInstanceAs (Decidable True)
  | h, c :: cs =>
      match hrun : c.run h with
      | .ok h' =>
          have := instDecidableKeepsHead h' cs
          decidable_of_iff _ (keepsHead_cons hrun).symm
      | .error _ => decidable_of_iff _ (keepsHead_cons_error hrun).symm

theorem keepsHead_left (pre : List OutputCall) {post : List OutputCall} :
    ∀ {h : OutputHeap}, KeepsHead h (pre ++ post) → KeepsHead h pre := by
  induction pre with
  | nil => exact fun _ => trivial
  | cons c pre ih =>
      intro h hkeep
      rw [List.cons_append] at hkeep
      cases hrun : c.run h with
      | error e =>
          rw [keepsHead_cons_error hrun] at hkeep ⊢
          exact hkeep
      | ok h' =>
          rw [keepsHead_cons hrun] at hkeep ⊢
          exact ⟨hkeep.1, ih hkeep.2⟩

/-- Call after call, without vacating the head. -/
theorem outputsOk_run (calls : List OutputCall) :
    ∀ {h : OutputHeap} {es : List (Entry OutputNode)} {t : Entry OutputNode},
      OutputsOk (fun _ => False) h es t → KeepsHead h calls →
      ∃ h' es' t', runOutputCalls h calls = .ok h' ∧
        OutputsOk (fun _ => False) h' es' t' := by
  induction calls with
  | nil =>
      intro h es t hok _
      exact ⟨h, es, t, rfl, hok⟩
  | cons c calls ih =>
      intro h es t hok hkeep
      rcases outputsOk_call c hok with ⟨⟨_, hfalse⟩, _⟩ |
        ⟨h₁, dangling₁, es₁, t₁, hrun, hok₁, hsame, -⟩
      · exact hfalse.elim
      · obtain ⟨hfirst, hrest⟩ := (keepsHead_cons hrun).mp hkeep
        rw [hsame hfirst] at hok₁
        obtain ⟨h', es', t', hruns, hok'⟩ := ih hok₁ hrest
        refine ⟨h', es', t', ?_, hok'⟩
        unfold runOutputCalls
        rw [hrun, ok_bind, hruns]

/-- **The list stays well linked** in every run whose calls never vacate the
head: every call returns, and after each one every node is live and every
`prev` pointer is right. -/
theorem well_linked_unless_vacated (calls : List OutputCall)
    (hkeep : KeepsHead outputHeapInit calls) :
    ∀ pre post, calls = pre ++ post →
      ∃ h, runOutputCalls outputHeapInit pre = .ok h ∧ WellLinked h := by
  intro pre post hcalls
  rw [hcalls] at hkeep
  obtain ⟨h, es, t, hrun, hok⟩ := outputsOk_run pre outputsOk_init (keepsHead_left pre hkeep)
  exact ⟨h, hrun, wellLinked_of_linked hok.linked⟩

/-- Two outputs are added, the first is enabled, the second is removed. -/
theorem second_output_removed :
    ∃ h, runOutputCalls outputHeapInit
        [.updata none (some 10), .updata none (some 20), .switch (some 10) true,
          .updata (some 20) none] = .ok h ∧ WellLinked h :=
  well_linked_unless_vacated
    [.updata none (some 10), .updata none (some 20), .switch (some 10) true,
      .updata (some 20) none] (by decide +kernel) _ [] (by simp)

/-- Two outputs are added, the first is removed: the second moves into the head,
and the node behind it points to the freed one. -/
theorem first_output_removed :
    ∃ h, runOutputCalls outputHeapInit [.updata none (some 10), .updata none (some 20),
        .updata (some 10) none] = .ok h ∧
      (h.cell gOutputList).map Node.next = some (some 2) ∧
      (h.cell 2).map Node.prev = some (some 1) ∧ (h.cell 1).isNone ∧ ¬ WellLinked h := by
  have hlinks : (runOutputCalls outputHeapInit [.updata none (some 10),
      .updata none (some 20), .updata (some 10) none]).toOption.map (fun h =>
        ((h.cell gOutputList).map Node.next, (h.cell 2).map Node.prev, (h.cell 1).isNone))
      = some (some (some 2), some (some 1), true) := by
    decide +kernel
  cases hrun : runOutputCalls outputHeapInit [.updata none (some 10), .updata none (some 20),
      .updata (some 10) none] with
  | error f =>
      rw [hrun] at hlinks
      exact absurd hlinks (by simp [Except.toOption])
  | ok h =>
      rw [hrun] at hlinks
      obtain ⟨hhead, htail, hfreed⟩ : (h.cell gOutputList).map Node.next = some (some 2) ∧
          (h.cell 2).map Node.prev = some (some 1) ∧ (h.cell 1).isNone = true := by
        simpa [Except.toOption] using hlinks
      refine ⟨h, rfl, hhead, htail, hfreed, ?_⟩
      intro hw
      obtain ⟨n, hn⟩ := hw.live gOutputList .head
      rw [hn] at hhead
      obtain ⟨n', hn', hprev⟩ := hw.back gOutputList n 2 .head hn (by simpa using hhead)
      rw [hn'] at htail
      have hwrong : n'.prev = some 1 := by simpa using htail
      rw [hprev] at hwrong
      exact absurd hwrong (by decide)

end MesonDisplay.Helper
