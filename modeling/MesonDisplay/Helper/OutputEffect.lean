/-
  MesonDisplay.Helper.OutputEffect — what one update does to the outputs.

  An update takes `older` out of the outputs and puts `newer` in.  On the cells
  this is read off the place of `newer` (`placeNewer_split`); what follows, the
  shrinking and the move of the last node into the head, permutes the outputs.
  The move does not take the enable flag along.

  Main results:
    * `update_effect` — the outputs behind an update, and what a failed
      allocation leaves.
    * `other_flags_kept_iff` — an update keeps the flags of the other outputs
      unless it moves an enabled one into the vacated head.
-/
import Mathlib.Data.List.Nodup
import MesonDisplay.Helper.OutputLinks

namespace MesonDisplay.Helper

open MesonDisplay.LinkedList

/-! ## §1. The place of `newer`. -/

/-- A cell from which `newer` is taken. -/
def blank (newer : Option Nat) (n : OutputNode) : OutputNode :=
  if n.data = newer then .zero else n

theorem blankFrom_append (newer used : Option Nat) (pre post : List OutputNode) :
    ∀ k, blankFrom newer used k (pre ++ post)
      = blankFrom newer used k pre ++ blankFrom newer used (k + pre.length) post := by
  induction pre with
  | nil => exact fun _ => rfl
  | cons n ns ih =>
      intro k
      have hk : k + 1 + ns.length = k + (n :: ns).length := by
        rw [List.length_cons]
        omega
      rw [List.cons_append, blankFrom, blankFrom, List.cons_append, ih, hk]

/-- Where the cell to use is elsewhere, every cell of `newer` is blanked. -/
theorem blankFrom_map {newer used : Option Nat} (cells : List OutputNode) :
    ∀ k, (∀ i, used = some i → i < k ∨ k + cells.length ≤ i) →
      blankFrom newer used k cells = cells.map (blank newer) := by
  induction cells with
  | nil => exact fun _ _ => rfl
  | cons n ns ih =>
      intro k hused
      have hne : used ≠ some k := by
        intro hk
        have hcases := hused k hk
        rw [List.length_cons] at hcases
        omega
      have hrest : ∀ i, used = some i → i < k + 1 ∨ k + 1 + ns.length ≤ i := by
        intro i hi
        have hcases := hused i hi
        rw [List.length_cons] at hcases
        omega
      rw [blankFrom, ih (k + 1) hrest, List.map_cons]
      congr 1
      unfold blank
      by_cases hn : n.data = newer
      · rw [if_pos ⟨hn, hne⟩, if_pos hn]
      · rw [if_neg (fun h => hn h.1), if_neg hn]

theorem blankOthers_split (newer : Option Nat) (pre : List OutputNode) (c : OutputNode)
    (post : List OutputNode) :
    blankOthers newer (some pre.length) (pre ++ c :: post)
      = pre.map (blank newer) ++ c :: post.map (blank newer) := by
  unfold blankOthers
  rw [blankFrom_append, blankFrom, blankFrom_map pre 0, blankFrom_map post, if_neg]
  · simp
  · intro i hi
    obtain rfl := Option.some.inj hi
    omega
  · intro i hi
    obtain rfl := Option.some.inj hi
    omega

theorem map_blank_eq_self {newer : Option Nat} {cells : List OutputNode}
    (hnone : ∀ n ∈ cells, n.data ≠ newer) : cells.map (blank newer) = cells := by
  have hself : ∀ n ∈ cells, blank newer n = n := fun n hn => if_neg (hnone n hn)
  rw [List.map_congr_left hself, List.map_id']

/-- Where a cell is found. -/
theorem findOutput_split {output : Option Nat} {cells : List OutputNode} {i : Nat}
    (hi : findOutput output cells = some i) :
    ∃ pre c post, cells = pre ++ c :: post ∧ pre.length = i ∧ c.data = output := by
  induction cells generalizing i with
  | nil => exact absurd hi (by simp [findOutput_nil])
  | cons n ns ih =>
      rw [findOutput_cons] at hi
      by_cases hn : n.data = output
      · rw [if_pos hn] at hi
        obtain rfl := Option.some.inj hi
        exact ⟨[], n, ns, rfl, rfl, hn⟩
      · rw [if_neg hn] at hi
        obtain ⟨j, hj, rfl⟩ := Option.map_eq_some_iff.mp hi
        obtain ⟨pre, c, post, rfl, rfl, hc⟩ := ih hj
        exact ⟨n :: pre, c, post, rfl, rfl, hc⟩

/-- What the target is: the cell of `older`; or `older` is not listed, and it is
the cell of `newer` or an empty one. -/
def IsTarget (older newer : Option Nat) (cells : List OutputNode) (c : OutputNode) : Prop :=
  c.data = older ∧ older ≠ none ∨
    (c.data = newer ∨ c.data = none) ∧ (older = none ∨ ∀ n ∈ cells, n.data ≠ older)

theorem targetCell_cases {older newer : Option Nat} {cells : List OutputNode} {i : Nat}
    (hi : targetCell older newer cells = some i) :
    ∃ pre c post, cells = pre ++ c :: post ∧ pre.length = i ∧ IsTarget older newer cells c := by
  unfold targetCell usedCell at hi
  cases hs : findOutput (soughtOutput older newer) cells with
  | some j =>
      rw [hs] at hi
      obtain rfl : j = i := by simpa using hi
      obtain ⟨pre, c, post, hcells, hlen, hc⟩ := findOutput_split hs
      refine ⟨pre, c, post, hcells, hlen, ?_⟩
      unfold soughtOutput at hc
      by_cases ho : older = none
      · rw [if_pos ho] at hc
        exact .inr ⟨.inl hc, .inl ho⟩
      · rw [if_neg ho] at hc
        exact .inl ⟨hc, ho⟩
  | none =>
      have hold : older = none ∨ ∀ n ∈ cells, n.data ≠ older := by
        by_cases ho : older = none
        · exact .inl ho
        · unfold soughtOutput at hs
          rw [if_neg ho] at hs
          exact .inr (findOutput_eq_none.mp hs)
      rw [hs, Option.none_or] at hi
      cases hn : findOutput newer cells with
      | some j =>
          rw [hn] at hi
          obtain rfl : j = i := by simpa using hi
          obtain ⟨pre, c, post, hcells, hlen, hc⟩ := findOutput_split hn
          exact ⟨pre, c, post, hcells, hlen, .inr ⟨.inl hc, hold⟩⟩
      | none =>
          rw [hn, Option.none_or] at hi
          obtain ⟨pre, c, post, hcells, hlen, hc⟩ := findOutput_split hi
          exact ⟨pre, c, post, hcells, hlen, .inr ⟨.inr hc, hold⟩⟩

/-- With no target, none of the outputs in question is listed. -/
theorem targetCell_eq_none {older newer : Option Nat} {cells : List OutputNode} :
    targetCell older newer cells = none ↔
      ∀ n ∈ cells, n.data ≠ none ∧ n.data ≠ older ∧ n.data ≠ newer := by
  unfold targetCell usedCell
  rw [Option.or_eq_none_iff, Option.or_eq_none_iff, findOutput_eq_none, findOutput_eq_none,
    findOutput_eq_none]
  unfold soughtOutput
  by_cases ho : older = none
  · rw [if_pos ho, ho]
    constructor
    · intro h n hn
      exact ⟨h.2 n hn, h.2 n hn, h.1.1 n hn⟩
    · intro h
      exact ⟨⟨fun n hn => (h n hn).2.2, fun n hn => (h n hn).2.2⟩, fun n hn => (h n hn).1⟩
  · rw [if_neg ho]
    constructor
    · intro h n hn
      exact ⟨h.2 n hn, h.1.1 n hn, h.1.2 n hn⟩
    · intro h
      exact ⟨⟨fun n hn => (h n hn).2.1, fun n hn => (h n hn).2.2⟩, fun n hn => (h n hn).1⟩

/-- A node is asked for when neither output is listed and no cell is empty. -/
theorem needsNode_iff {older newer : Option Nat} {cells : List OutputNode} :
    NeedsNode older newer cells ↔ newer ≠ none ∧
      ∀ n ∈ cells, n.data ≠ none ∧ n.data ≠ older ∧ n.data ≠ newer := by
  unfold NeedsNode
  rw [targetCell_eq_none, and_comm]

theorem not_vacatesHead_of_needsNode {older newer : Option Nat} {cells : List OutputNode}
    (hneed : NeedsNode older newer cells) : ¬ VacatesHead older newer cells := by
  obtain ⟨hnew, habsent⟩ := needsNode_iff.mp hneed
  intro hv
  cases cells with
  | nil => exact hv
  | cons x rest =>
      rcases hv.2 with ⟨-, hnone, -⟩ | ⟨hxn, -⟩
      · exact hnew hnone
      · exact (habsent x List.mem_cons_self).2.2 hxn

/-- **The place of `newer`**: a cell that is split off, or behind all of them. -/
theorem placeNewer_split (older newer : Option Nat) (cells : List OutputNode) :
    (∃ pre c post, cells = pre ++ c :: post ∧ IsTarget older newer cells c ∧
      placeNewer older newer cells
        = pre.map (blank newer) ++ ⟨newer, false⟩ :: post.map (blank newer)) ∨
    (∀ n ∈ cells, n.data ≠ none ∧ n.data ≠ older ∧ n.data ≠ newer) ∧
      placeNewer older newer cells
        = if newer = none then cells else cells ++ [⟨newer, false⟩] := by
  cases ht : targetCell older newer cells with
  | none =>
      refine .inr ⟨targetCell_eq_none.mp ht, ?_⟩
      have hu : usedCell older newer cells = none := by
        unfold targetCell at ht
        exact (Option.or_eq_none_iff.mp ht).1
      unfold placeNewer
      simp only [ht, blankOthers_of_unused hu]
  | some i =>
      obtain ⟨pre, c, post, rfl, rfl, hc⟩ := targetCell_cases ht
      refine .inl ⟨pre, c, post, rfl, hc, ?_⟩
      have hset : ∀ as bs : List OutputNode, as.length = pre.length →
          (as ++ c :: bs).set pre.length ⟨newer, false⟩ = as ++ ⟨newer, false⟩ :: bs := by
        intro as bs hlen
        rw [← hlen, List.set_append_right _ _ (Nat.le_refl _), Nat.sub_self]
        rfl
      unfold placeNewer
      simp only [ht]
      cases hu : usedCell older newer (pre ++ c :: post) with
      | some j =>
          -- the cell to use is the target
          obtain rfl : j = pre.length := by
            unfold targetCell at ht
            rw [hu] at ht
            simpa using ht
          rw [blankOthers_split, hset _ _ (List.length_map ..)]
      | none =>
          -- `newer` is not listed, so that nothing is blanked
          have hnewer : ∀ n ∈ pre ++ c :: post, n.data ≠ newer := by
            unfold usedCell at hu
            exact findOutput_eq_none.mp (Option.or_eq_none_iff.mp hu).2
          rw [← hu, blankOthers_of_unused hu, hset _ _ rfl, map_blank_eq_self,
            map_blank_eq_self]
          · exact fun n hn => hnewer n (List.mem_append_right _ (List.mem_cons_of_mem _ hn))
          · exact fun n hn => hnewer n (List.mem_append_left _ hn)

/-! ## §2. The outputs behind an update. -/

/-- The outputs in the cells. -/
def outputsOf (cells : List OutputNode) : List Nat := cells.filterMap OutputNode.data

theorem mem_outputsOf {cells : List OutputNode} {o : Nat} :
    o ∈ outputsOf cells ↔ ∃ n ∈ cells, n.data = some o := List.mem_filterMap

theorem outputsOf_append (as bs : List OutputNode) :
    outputsOf (as ++ bs) = outputsOf as ++ outputsOf bs := List.filterMap_append

theorem outputsOf_cons (n : OutputNode) (ns : List OutputNode) :
    outputsOf (n :: ns) = n.data.toList ++ outputsOf ns := by
  unfold outputsOf
  cases hn : n.data with
  | none => rw [List.filterMap_cons_none hn, Option.toList_none, List.nil_append]
  | some o => rw [List.filterMap_cons_some hn, Option.toList_some, List.singleton_append]

theorem outputsOf_map_blank (newer : Option Nat) (cells : List OutputNode) :
    outputsOf (cells.map (blank newer))
      = (outputsOf cells).filter (fun o => some o ≠ newer) := by
  induction cells with
  | nil => rfl
  | cons n ns ih =>
      rw [List.map_cons, outputsOf_cons, outputsOf_cons, List.filter_append, ih]
      congr 1
      unfold blank
      by_cases hn : n.data = newer
      · rw [if_pos hn, hn]
        cases newer <;> simp [OutputNode.zero]
      · rw [if_neg hn]
        cases hd : n.data with
        | none => rfl
        | some o =>
            rw [hd] at hn
            simp [hn]

theorem nodup_outputsOf {cells : List OutputNode}
    (hd : (cells.map OutputNode.data).Nodup) : (outputsOf cells).Nodup := by
  have hmap : outputsOf cells = (cells.map OutputNode.data).filterMap id := by
    rw [List.filterMap_map]
    rfl
  rw [hmap]
  refine List.Nodup.filterMap ?_ hd
  intro a b o ha hb
  rw [Option.mem_def, id_eq] at ha hb
  rw [ha, hb]

theorem mem_toList_iff {output : Option Nat} {o : Nat} :
    o ∈ output.toList ↔ some o = output := by
  rw [Option.mem_toList, eq_comm]

section Place

variable {older newer : Option Nat}

/-- `newer` is put into a cell. -/
theorem outputsOf_target {pre post : List OutputNode} {c : OutputNode}
    (hd : (outputsOf (pre ++ c :: post)).Nodup)
    (hc : IsTarget older newer (pre ++ c :: post) c) :
    (outputsOf (pre.map (blank newer) ++ ⟨newer, false⟩ :: post.map (blank newer))).Nodup ∧
      ∀ o, o ∈ outputsOf (pre.map (blank newer) ++ ⟨newer, false⟩ :: post.map (blank newer))
        ↔ o ∈ outputsOf (pre ++ c :: post) ∧ some o ≠ older ∨ some o = newer := by
  rw [outputsOf_append, outputsOf_cons, List.nodup_append, List.nodup_append] at hd
  obtain ⟨hpre, ⟨-, hpost, hcpost⟩, hprec⟩ := hd
  -- no other cell holds what the target holds
  have hother : ∀ o, o ∈ outputsOf pre ∨ o ∈ outputsOf post → some o ≠ c.data := by
    intro o ho heq
    have hmem : o ∈ c.data.toList := mem_toList_iff.mpr heq
    rcases ho with ho | ho
    · exact hprec o ho o (List.mem_append_left _ hmem) rfl
    · exact hcpost o hmem o ho rfl
  have holder : ∀ o, o ∈ outputsOf pre ∨ o ∈ outputsOf post → some o ≠ older := by
    intro o ho heq
    rcases hc with ⟨hc, -⟩ | ⟨-, hnone | habsent⟩
    · exact hother o ho (heq.trans hc.symm)
    · rw [hnone] at heq
      exact absurd heq (by simp)
    · rcases ho with ho | ho
      · obtain ⟨n, hn, hdata⟩ := mem_outputsOf.mp ho
        exact habsent n (List.mem_append_left _ hn) (hdata.trans heq)
      · obtain ⟨n, hn, hdata⟩ := mem_outputsOf.mp ho
        exact habsent n (List.mem_append_right _ (List.mem_cons_of_mem _ hn))
          (hdata.trans heq)
  rw [outputsOf_append, outputsOf_cons, outputsOf_map_blank, outputsOf_map_blank]
  constructor
  · rw [List.nodup_append, List.nodup_append]
    refine ⟨hpre.filter _, ⟨?_, hpost.filter _, ?_⟩, ?_⟩
    · cases newer <;> simp
    · intro o ho o' ho' heq
      have hkept := (List.mem_filter.mp ho').2
      rw [← heq] at hkept
      exact absurd (mem_toList_iff.mp ho) (by simpa using hkept)
    · intro o ho o' ho' heq
      obtain ⟨hmem, hkept⟩ := List.mem_filter.mp ho
      rcases List.mem_append.mp ho' with ho' | ho'
      · rw [heq] at hkept
        exact absurd (mem_toList_iff.mp ho') (by simpa using hkept)
      · exact hprec o hmem o' (List.mem_append_right _ (List.mem_filter.mp ho').1) heq
  · intro o
    rw [outputsOf_append, outputsOf_cons]
    simp only [List.mem_append, List.mem_filter, mem_toList_iff, decide_eq_true_eq]
    constructor
    · rintro (⟨ho, -⟩ | ho | ⟨ho, -⟩)
      · exact .inl ⟨.inl ho, holder o (.inl ho)⟩
      · exact .inr ho
      · exact .inl ⟨.inr (.inr ho), holder o (.inr ho)⟩
    · rintro (⟨ho, hold⟩ | ho)
      · by_cases hn : some o = newer
        · exact .inr (.inl hn)
        · rcases ho with ho | ho | ho
          · exact .inl ⟨ho, hn⟩
          · -- the output of the target is `older` or `newer`
            exfalso
            rcases hc with ⟨hc, -⟩ | ⟨hc | hc, -⟩
            · exact hold (ho.trans hc)
            · exact hn (ho.trans hc)
            · rw [hc] at ho
              exact absurd ho (by simp)
          · exact .inr (.inr ⟨ho, hn⟩)
      · exact .inr (.inl ho)

/-- `newer` is put behind all cells, or is NULL. -/
theorem outputsOf_behind {cells : List OutputNode} (hd : (outputsOf cells).Nodup)
    (habsent : ∀ n ∈ cells, n.data ≠ older ∧ n.data ≠ newer) :
    (outputsOf (if newer = none then cells else cells ++ [⟨newer, false⟩])).Nodup ∧
      ∀ o, o ∈ outputsOf (if newer = none then cells else cells ++ [⟨newer, false⟩])
        ↔ o ∈ outputsOf cells ∧ some o ≠ older ∨ some o = newer := by
  have hneither : ∀ o ∈ outputsOf cells, some o ≠ older ∧ some o ≠ newer := by
    intro o ho
    obtain ⟨n, hn, hdata⟩ := mem_outputsOf.mp ho
    rw [← hdata]
    exact habsent n hn
  have heq : outputsOf (if newer = none then cells else cells ++ [⟨newer, false⟩])
      = outputsOf cells ++ newer.toList := by
    by_cases hn : newer = none
    · rw [if_pos hn, hn, Option.toList_none, List.append_nil]
    · rw [if_neg hn, outputsOf_append, outputsOf_cons]
      show _ ++ (newer.toList ++ []) = _
      rw [List.append_nil]
  rw [heq]
  constructor
  · rw [List.nodup_append]
    refine ⟨hd, ?_, ?_⟩
    · cases newer <;> simp
    · intro o ho o' ho' heq
      rw [heq] at ho
      exact (hneither o' ho).2 (mem_toList_iff.mp ho')
  · intro o
    rw [List.mem_append, mem_toList_iff]
    constructor
    · rintro (ho | ho)
      · exact .inl ⟨ho, (hneither o ho).1⟩
      · exact .inr ho
    · rintro (⟨ho, -⟩ | ho)
      · exact .inl ho
      · exact .inr ho

/-- The outputs once `newer` is in its place. -/
theorem outputsOf_placeNewer {cells : List OutputNode} (hd : (outputsOf cells).Nodup) :
    (outputsOf (placeNewer older newer cells)).Nodup ∧
      ∀ o, o ∈ outputsOf (placeNewer older newer cells)
        ↔ o ∈ outputsOf cells ∧ some o ≠ older ∨ some o = newer := by
  rcases placeNewer_split older newer cells with
    ⟨pre, c, post, rfl, hc, hplace⟩ | ⟨habsent, hplace⟩
  · rw [hplace]
    exact outputsOf_target hd hc
  · rw [hplace]
    exact outputsOf_behind hd (fun n hn => (habsent n hn).2)

end Place

theorem outputsOf_shrinkCells (cells : List OutputNode) :
    outputsOf (shrinkCells cells) = outputsOf cells := by
  have hfilter : ∀ ns : List OutputNode,
      outputsOf (ns.filter (fun n => n.data ≠ none)) = outputsOf ns := by
    intro ns
    induction ns with
    | nil => rfl
    | cons n ns ih =>
        by_cases hn : n.data = none
        · rw [List.filter_cons_of_neg (by simp [hn]), outputsOf_cons, hn, ih,
            Option.toList_none, List.nil_append]
        · rw [List.filter_cons_of_pos (by simp [hn]), outputsOf_cons, outputsOf_cons, ih]
  cases cells with
  | nil => rfl
  | cons c cs =>
      show outputsOf (c :: cs.filter (fun n => n.data ≠ none)) = _
      rw [outputsOf_cons, outputsOf_cons, hfilter]

theorem outputsOf_swapCells (cells : List OutputNode) :
    (outputsOf (swapCells cells)).Perm (outputsOf cells) := by
  by_cases hs : Swaps cells
  · cases cells with
    | nil => exact hs.elim
    | cons c cs =>
        cases cs using List.reverseRecOn with
        | nil => exact hs.elim
        | append_singleton init d =>
            have hc : c.data = none := by
              cases init <;> exact hs
            rw [swapCells_of_swaps hc, outputsOf_cons, outputsOf_cons, outputsOf_append,
              outputsOf_cons, hc]
            show (d.data.toList ++ outputsOf init).Perm
              (outputsOf init ++ (d.data.toList ++ []))
            rw [List.append_nil]
            exact List.perm_append_comm
  · rw [swapCells_of_not_swaps hs]

/-- **The outputs behind an update**: those before without `older`, and `newer`;
each is listed once. -/
theorem outputsOf_updateCells {older newer : Option Nat} {cells : List OutputNode}
    (hd : (outputsOf cells).Nodup) (hne : older ≠ newer) :
    (outputsOf (updateCells older newer cells)).Nodup ∧
      ∀ o, o ∈ outputsOf (updateCells older newer cells)
        ↔ o ∈ outputsOf cells ∧ some o ≠ older ∨ some o = newer := by
  have hperm : (outputsOf (updateCells older newer cells)).Perm
      (outputsOf (placeNewer older newer cells)) := by
    unfold updateCells
    rw [if_neg hne, ← outputsOf_shrinkCells (placeNewer older newer cells)]
    exact outputsOf_swapCells _
  obtain ⟨hnodup, hmem⟩ := outputsOf_placeNewer hd
  exact ⟨hperm.nodup_iff.mpr hnodup, fun o => hperm.mem_iff.trans (hmem o)⟩

/-! ## §3. The enable flags behind an update. -/

/-- A cell behind the placing is empty or holds `newer`, and is disabled; or it
was there. -/
theorem mem_placeNewer {older newer : Option Nat} {cells : List OutputNode} {n : OutputNode}
    (hn : n ∈ placeNewer older newer cells) :
    n.enable = false ∧ (n.data = newer ∨ n.data = none) ∨ n ∈ cells ∧ n.data ≠ newer := by
  have hblank : ∀ ns : List OutputNode, n ∈ ns.map (blank newer) →
      n.enable = false ∧ n.data = none ∨ n ∈ ns ∧ n.data ≠ newer := by
    intro ns hmem
    obtain ⟨m, hm, rfl⟩ := List.mem_map.mp hmem
    unfold blank
    by_cases hd : m.data = newer
    · rw [if_pos hd]
      exact .inl ⟨rfl, rfl⟩
    · rw [if_neg hd]
      exact .inr ⟨hm, hd⟩
  rcases placeNewer_split older newer cells with
    ⟨pre, c, post, rfl, -, hplace⟩ | ⟨habsent, hplace⟩
  · rw [hplace] at hn
    rcases List.mem_append.mp hn with hn | hn
    · rcases hblank pre hn with ⟨he, hd⟩ | ⟨hmem, hd⟩
      · exact .inl ⟨he, .inr hd⟩
      · exact .inr ⟨List.mem_append_left _ hmem, hd⟩
    · rcases List.mem_cons.mp hn with rfl | hn
      · exact .inl ⟨rfl, .inl rfl⟩
      · rcases hblank post hn with ⟨he, hd⟩ | ⟨hmem, hd⟩
        · exact .inl ⟨he, .inr hd⟩
        · exact .inr ⟨List.mem_append_right _ (List.mem_cons_of_mem _ hmem), hd⟩
  · rw [hplace] at hn
    by_cases hnone : newer = none
    · rw [if_pos hnone] at hn
      exact .inr ⟨hn, (habsent n hn).2.2⟩
    · rw [if_neg hnone] at hn
      rcases List.mem_append.mp hn with hn | hn
      · exact .inr ⟨hn, (habsent n hn).2.2⟩
      · obtain rfl := List.mem_singleton.mp hn
        exact .inl ⟨rfl, .inl rfl⟩

theorem mem_shrinkCells {cells : List OutputNode} {n : OutputNode}
    (hn : n ∈ shrinkCells cells) : n ∈ cells := by
  cases cells with
  | nil => exact hn
  | cons c cs =>
      rcases List.mem_cons.mp hn with rfl | hn
      · exact List.mem_cons_self
      · exact List.mem_cons_of_mem _ (List.mem_filter.mp hn).1

/-- `newer` in the place of `older`. -/
def replaceOlder (older newer : Option Nat) (n : OutputNode) : OutputNode :=
  if n.data = older then ⟨newer, false⟩ else n

section Vacated

variable {older newer : Option Nat} {x : OutputNode} {rest : List OutputNode}

/-- The cells behind a head that is vacated. -/
theorem placeNewer_vacates (ht : Tidy (x :: rest))
    (hd : ((x :: rest).map OutputNode.data).Nodup)
    (hv : VacatesHead older newer (x :: rest)) :
    placeNewer older newer (x :: rest)
      = .zero :: rest.map (replaceOlder older newer) := by
  obtain ⟨hne, hcases⟩ := hv
  rw [List.map_cons, List.nodup_cons] at hd
  obtain ⟨hx, hrest⟩ := hd
  have hhead : ∀ n ∈ rest, n.data ≠ x.data := fun n hn heq =>
    hx (heq ▸ List.mem_map_of_mem hn)
  rcases hcases with ⟨hxo, hnone, hnil⟩ | ⟨hxn, ho, m, hm, hmo⟩
  · -- the output in the head is removed
    have hself : ∀ n ∈ rest, replaceOlder older newer n = n := fun n hn =>
      if_neg (hxo ▸ hhead n hn)
    have hfull := tidy_first_nonempty ht hnil
    have hused : usedCell older newer (x :: rest) = some 0 := by
      unfold usedCell soughtOutput
      rw [if_neg (hxo ▸ hfull), findOutput_cons, if_pos hxo]
      rfl
    have htarget : targetCell older newer (x :: rest) = some 0 := by
      unfold targetCell
      rw [hused]
      rfl
    rw [List.map_congr_left hself, List.map_id', placeNewer_cons, htarget, hused, hnone]
    show _ :: blankFrom none (some 0) 1 rest = _ :: rest
    rw [blankFrom_eq_self ht.1]
    rfl
  · -- the output in the head takes the place of `older`
    obtain ⟨j, hj⟩ : ∃ j, findOutput older rest = some j := by
      cases hf : findOutput older rest with
      | some j => exact ⟨j, rfl⟩
      | none => exact absurd hmo (findOutput_eq_none.mp hf m hm)
    obtain ⟨pre, c, post, rfl, rfl, hc⟩ := findOutput_split hj
    rw [List.map_append, List.map_cons, List.nodup_append, List.nodup_cons] at hrest
    obtain ⟨-, ⟨hcpost, -⟩, hprec⟩ := hrest
    -- an output is in one cell, so only the one of `older` is replaced
    have hpre : ∀ n ∈ pre, replaceOlder older newer n = n := by
      intro n hn
      refine if_neg (fun heq => ?_)
      exact hprec n.data (List.mem_map_of_mem hn) c.data List.mem_cons_self
        (heq.trans hc.symm)
    have hpost : ∀ n ∈ post, replaceOlder older newer n = n := by
      intro n hn
      refine if_neg (fun heq => ?_)
      rw [hc, ← heq] at hcpost
      exact hcpost (List.mem_map_of_mem hn)
    have hused : usedCell older newer (x :: (pre ++ c :: post)) = some (pre.length + 1) := by
      unfold usedCell soughtOutput
      rw [if_neg ho, findOutput_cons, if_neg (fun h => hne (h.symm.trans hxn)), hj]
      rfl
    have htarget : targetCell older newer (x :: (pre ++ c :: post))
        = some (pre.length + 1) := by
      unfold targetCell
      rw [hused]
      rfl
    have hblank : blankFrom newer (some (pre.length + 1)) 1 (pre ++ c :: post)
        = pre ++ c :: post :=
      blankFrom_eq_self (fun n hn => hxn ▸ hhead n hn) 1
    rw [placeNewer_cons, htarget, hused]
    show blankedHead newer (some (pre.length + 1)) x
      :: (blankFrom newer (some (pre.length + 1)) 1 (pre ++ c :: post)).set pre.length
        ⟨newer, false⟩ = _
    rw [hblank, List.map_append, List.map_cons, List.map_congr_left hpre,
      List.map_congr_left hpost, List.map_id', List.map_id',
      List.set_append_right _ _ (Nat.le_refl _), Nat.sub_self]
    unfold blankedHead replaceOlder
    rw [if_pos ⟨hxn, by simp⟩, if_pos hc]
    rfl

/-- **The last cell in the vacated head**: the enable flag is that of the
empty head. -/
theorem updateCells_vacates {init : List OutputNode} {l : OutputNode}
    (ht : Tidy (x :: (init ++ [l])))
    (hd : ((x :: (init ++ [l])).map OutputNode.data).Nodup)
    (hv : VacatesHead older newer (x :: (init ++ [l]))) :
    updateCells older newer (x :: (init ++ [l]))
      = ⟨(replaceOlder older newer l).data, false⟩
        :: init.map (replaceOlder older newer) := by
  have hfull : ∀ n ∈ (init ++ [l]).map (replaceOlder older newer), n.data ≠ none := by
    intro n hn
    obtain ⟨m, hm, rfl⟩ := List.mem_map.mp hn
    unfold replaceOlder
    by_cases hmo : m.data = older
    · -- `older` is listed behind the head, so that the head holds `newer`
      rw [if_pos hmo]
      rcases hv.2 with ⟨hxo, -, -⟩ | ⟨hxn, -, -⟩
      · rw [List.map_cons, List.nodup_cons] at hd
        exact absurd (hmo.trans hxo.symm ▸ List.mem_map_of_mem hm) hd.1
      · show newer ≠ none
        rw [← hxn]
        exact tidy_first_nonempty ht (by simp)
    · rw [if_neg hmo]
      exact ht.1 m hm
  have hshrink : shrinkCells (.zero :: (init ++ [l]).map (replaceOlder older newer))
      = .zero :: (init ++ [l]).map (replaceOlder older newer) := by
    show OutputNode.zero :: List.filter _ _ = _
    rw [List.filter_eq_self.mpr (by simpa using hfull)]
  unfold updateCells
  rw [if_neg hv.1, placeNewer_vacates ht hd hv, hshrink, List.map_append]
  exact swapCells_of_swaps rfl

end Vacated

/-- Behind a head that is vacated there is another cell. -/
theorem vacatesHead_split {older newer : Option Nat} {cells : List OutputNode}
    (hv : VacatesHead older newer cells) : ∃ x init l, cells = x :: (init ++ [l]) := by
  cases cells with
  | nil => exact hv.elim
  | cons x rest =>
      cases rest using List.reverseRecOn with
      | nil => exact absurd hv (by simp [VacatesHead])
      | append_singleton init l => exact ⟨x, init, l, rfl⟩

/-- Where the head is not vacated, a cell behind an update is as behind the
placing. -/
theorem mem_updateCells_of_stays {older newer : Option Nat} {cells : List OutputNode}
    (ht : Tidy cells) (hne : older ≠ newer) (hv : ¬ VacatesHead older newer cells)
    {n : OutputNode} (hn : n ∈ updateCells older newer cells) :
    n.enable = false ∧ (n.data = newer ∨ n.data = none) ∨ n ∈ cells ∧ n.data ≠ newer := by
  unfold updateCells at hn
  rw [if_neg hne, swapCells_of_not_swaps (fun hs => hv ((swaps_iff ht hne).mp hs))] at hn
  exact mem_placeNewer (mem_shrinkCells hn)

/-- The update moves an enabled output into the vacated head. -/
def LosesFlag (older newer : Option Nat) (cells : List OutputNode) : Prop :=
  VacatesHead older newer cells ∧
    ∃ l, cells.getLast? = some l ∧ l.data ≠ older ∧ l.enable = true

instance decidableLosesFlag (older newer : Option Nat) (cells : List OutputNode) :
    Decidable (LosesFlag older newer cells) :=
  have : Decidable (∃ l, cells.getLast? = some l ∧ l.data ≠ older ∧ l.enable = true) :=
    decidable_of_iff (∃ l ∈ cells.getLast?, l.data ≠ older ∧ l.enable = true) Iff.rfl
  inferInstanceAs (Decidable (VacatesHead older newer cells ∧
    ∃ l, cells.getLast? = some l ∧ l.data ≠ older ∧ l.enable = true))

/-- The outputs other than `older` and `newer` have the same flags in both. -/
def SameFlags (older newer : Option Nat) (cells cells' : List OutputNode) : Prop :=
  ∀ n ∈ cells, ∀ n' ∈ cells', n.data ≠ none → n.data ≠ older → n.data ≠ newer →
    n'.data = n.data → n'.enable = n.enable

/-- An output is in one cell. -/
theorem eq_of_data_eq {cells : List OutputNode} (hd : (cells.map OutputNode.data).Nodup)
    {n n' : OutputNode} (hn : n ∈ cells) (hn' : n' ∈ cells) (heq : n'.data = n.data) :
    n' = n :=
  List.inj_on_of_nodup_map hd hn' hn heq

theorem sameFlags_of_stays {older newer : Option Nat} {cells : List OutputNode}
    (ht : Tidy cells) (hd : (cells.map OutputNode.data).Nodup)
    (hv : ¬ VacatesHead older newer cells) :
    SameFlags older newer cells (updateCells older newer cells) := by
  intro n hn n' hn' hfull hno hnn heq
  by_cases hne : older = newer
  · unfold updateCells at hn'
    rw [if_pos hne] at hn'
    rw [eq_of_data_eq hd hn hn' heq]
  · rcases mem_updateCells_of_stays ht hne hv hn' with ⟨-, hd' | hd'⟩ | ⟨hold, -⟩
    · exact absurd (heq.symm.trans hd') hnn
    · exact absurd (heq.symm.trans hd') hfull
    · rw [eq_of_data_eq hd hn hold heq]

section Vacated

variable {older newer : Option Nat} {x l : OutputNode} {init : List OutputNode}

/-- The last output is neither `newer` nor in the head. -/
theorem last_ne_newer (ht : Tidy (x :: (init ++ [l])))
    (hd : ((x :: (init ++ [l])).map OutputNode.data).Nodup)
    (hv : VacatesHead older newer (x :: (init ++ [l]))) : l.data ≠ none ∧ l.data ≠ newer := by
  have hfull : l.data ≠ none := ht.1 l (by simp)
  refine ⟨hfull, fun heq => ?_⟩
  rcases hv.2 with ⟨-, hn, -⟩ | ⟨hxn, -⟩
  · exact hfull (heq.trans hn)
  · rw [List.map_cons, List.nodup_cons, hxn, ← heq] at hd
    exact hd.1 (List.mem_map_of_mem (by simp))

/-- An enabled output that is moved into the head loses its flag. -/
theorem not_sameFlags_vacates (ht : Tidy (x :: (init ++ [l])))
    (hd : ((x :: (init ++ [l])).map OutputNode.data).Nodup)
    (hv : VacatesHead older newer (x :: (init ++ [l]))) (hlo : l.data ≠ older)
    (henable : l.enable = true) :
    ¬ SameFlags older newer (x :: (init ++ [l])) (updateCells older newer (x :: (init ++ [l]))) := by
  intro hsame
  obtain ⟨hfull, hln⟩ := last_ne_newer ht hd hv
  rw [updateCells_vacates ht hd hv] at hsame
  have hmoved : ⟨l.data, false⟩ ∈ (⟨(replaceOlder older newer l).data, false⟩ : OutputNode)
      :: init.map (replaceOlder older newer) := by
    unfold replaceOlder
    rw [if_neg hlo]
    exact List.mem_cons_self
  have hflag := hsame l (by simp) ⟨l.data, false⟩ hmoved hfull hlo hln rfl
  rw [henable] at hflag
  exact absurd hflag (by simp)

theorem sameFlags_vacates (ht : Tidy (x :: (init ++ [l])))
    (hd : ((x :: (init ++ [l])).map OutputNode.data).Nodup)
    (hv : VacatesHead older newer (x :: (init ++ [l])))
    (hlast : l.data = older ∨ l.enable = false) :
    SameFlags older newer (x :: (init ++ [l])) (updateCells older newer (x :: (init ++ [l]))) := by
  rw [updateCells_vacates ht hd hv]
  intro n hn n' hn' hfull hno hnn heq
  -- what stands in the place of `older` is `newer`
  have hreplace : ∀ m : OutputNode, (replaceOlder older newer m).data = n.data →
      replaceOlder older newer m = m := by
    intro m hm
    unfold replaceOlder at hm ⊢
    by_cases hmo : m.data = older
    · rw [if_pos hmo] at hm
      exact absurd hm.symm hnn
    · rw [if_neg hmo]
  rcases List.mem_cons.mp hn' with rfl | hn'
  · have hl := hreplace l heq
    rw [hl] at heq
    have hmem : l ∈ x :: (init ++ [l]) := by simp
    obtain rfl := eq_of_data_eq hd hn hmem heq
    exact (hlast.resolve_left hno).symm
  · obtain ⟨m, hm, rfl⟩ := List.mem_map.mp hn'
    have hself := hreplace m heq
    rw [hself] at heq ⊢
    rw [eq_of_data_eq hd hn (by simp [hm]) heq]

end Vacated

/-- **The flags of the other outputs** are kept unless an enabled one is moved
into the vacated head. -/
theorem sameFlags_updateCells_iff {older newer : Option Nat} {cells : List OutputNode}
    (ht : Tidy cells) (hd : (cells.map OutputNode.data).Nodup) :
    SameFlags older newer cells (updateCells older newer cells)
      ↔ ¬ LosesFlag older newer cells := by
  by_cases hv : VacatesHead older newer cells
  · obtain ⟨x, init, l, rfl⟩ := vacatesHead_split hv
    have hlast : (x :: (init ++ [l])).getLast? = some l := by
      rw [← List.cons_append, List.getLast?_concat]
    constructor
    · rintro hsame ⟨-, l', hl', hlo, henable⟩
      obtain rfl : l = l' := Option.some.inj (hlast.symm.trans hl')
      exact not_sameFlags_vacates ht hd hv hlo henable hsame
    · intro hkeep
      refine sameFlags_vacates ht hd hv (or_iff_not_imp_left.mpr fun hlo => ?_)
      rw [← Bool.not_eq_true]
      exact fun henable => hkeep ⟨hv, l, hlast, hlo, henable⟩
  · exact ⟨fun _ hlose => hv hlose.1, fun _ => sameFlags_of_stays ht hd hv⟩

/-- `newer` is disabled behind an update. -/
theorem newer_disabled {older newer : Option Nat} {cells : List OutputNode}
    (ht : Tidy cells) (hd : (cells.map OutputNode.data).Nodup) (hne : older ≠ newer)
    (hnew : newer ≠ none) {n : OutputNode} (hn : n ∈ updateCells older newer cells)
    (hdata : n.data = newer) : n.enable = false := by
  by_cases hv : VacatesHead older newer cells
  · obtain ⟨x, init, l, rfl⟩ := vacatesHead_split hv
    rw [updateCells_vacates ht hd hv] at hn
    rcases List.mem_cons.mp hn with rfl | hn
    · rfl
    · obtain ⟨m, hm, rfl⟩ := List.mem_map.mp hn
      unfold replaceOlder at hdata ⊢
      by_cases hmo : m.data = older
      · rw [if_pos hmo]
      · rw [if_neg hmo] at hdata
        -- `newer` is in the head only
        rcases hv.2 with ⟨-, hnone, -⟩ | ⟨hxn, -⟩
        · exact absurd hnone hnew
        · rw [List.map_cons, List.nodup_cons, hxn, ← hdata] at hd
          exact absurd (List.mem_map_of_mem (List.mem_append_left _ hm)) hd.1
  · rcases mem_updateCells_of_stays ht hne hv hn with ⟨hoff, -⟩ | ⟨-, hother⟩
    · exact hoff
    · exact absurd hdata hother

/-- Empty cells are disabled behind an update if they were before. -/
theorem empty_disabled {older newer : Option Nat} {cells : List OutputNode}
    (ht : Tidy cells) (hd : (cells.map OutputNode.data).Nodup)
    (hempty : ∀ n ∈ cells, n.data = none → n.enable = false) :
    ∀ n ∈ updateCells older newer cells, n.data = none → n.enable = false := by
  intro n hn hnone
  by_cases hne : older = newer
  · unfold updateCells at hn
    rw [if_pos hne] at hn
    exact hempty n hn hnone
  · by_cases hv : VacatesHead older newer cells
    · obtain ⟨x, init, l, rfl⟩ := vacatesHead_split hv
      rw [updateCells_vacates ht hd hv] at hn
      rcases List.mem_cons.mp hn with rfl | hn
      · rfl
      · obtain ⟨m, hm, rfl⟩ := List.mem_map.mp hn
        unfold replaceOlder at hnone ⊢
        by_cases hmo : m.data = older
        · rw [if_pos hmo]
        · -- the cells behind the head are full
          rw [if_neg hmo] at hnone
          exact absurd hnone (ht.1 m (List.mem_append_left _ hm))
    · rcases mem_updateCells_of_stays ht hne hv hn with ⟨hoff, -⟩ | ⟨hold, -⟩
      · exact hoff
      · exact hempty n hold hnone

/-- Tidy cells hold different outputs when the outputs are listed once. -/
theorem nodup_data_iff {cells : List OutputNode} (ht : Tidy cells) :
    (cells.map OutputNode.data).Nodup ↔ (outputsOf cells).Nodup := by
  refine ⟨nodup_outputsOf, fun hd => ?_⟩
  have hfull : ∀ ns : List OutputNode, (∀ n ∈ ns, n.data ≠ none) →
      ns.map OutputNode.data = (outputsOf ns).map some := by
    intro ns hns
    induction ns with
    | nil => rfl
    | cons n ns ih =>
        obtain ⟨o, ho⟩ := Option.ne_none_iff_exists'.mp (hns n List.mem_cons_self)
        rw [List.map_cons, ih (fun m hm => hns m (List.mem_cons_of_mem _ hm)),
          outputsOf_cons, ho]
        rfl
  cases cells with
  | nil => exact List.nodup_nil
  | cons c cs =>
      by_cases hc : c.data = none
      · rw [ht.2 hc]
        exact List.nodup_singleton _
      · rw [hfull (c :: cs)]
        · exact hd.map (fun _ _ => Option.some.inj)
        · intro n hn
          rcases List.mem_cons.mp hn with rfl | hn
          · exact hc
          · exact ht.1 n hn

/-! ## §4. On the list. -/

/-- A node with this content is met when the `next` pointers are followed from
`g_output_list`. -/
def Met (h : OutputHeap) (n : OutputNode) : Prop :=
  ∃ a m, Reach h gOutputList a ∧ h.cell a = some m ∧ m.data = n

/-- The list: every `prev` pointer is right, the last node is empty, and the
others hold different outputs, or there is one other node, which is empty. -/
def WellFormedOutputs (h : OutputHeap) : Prop :=
  ∃ es t, OutputsLinked (fun _ => False) h es t ∧ t.data.data = none ∧
    Tidy (dataOf es) ∧ ((dataOf es).map OutputNode.data).Nodup

section Met

variable {dangling : Nat → Prop} {h : OutputHeap} {es : List (Entry OutputNode)}
  {t : Entry OutputNode}

theorem met_iff (hl : OutputsLinked dangling h es t) (n : OutputNode) :
    Met h n ↔ n ∈ dataOf es ∨ n = t.data := by
  have hmem : n ∈ dataOf es ∨ n = t.data ↔ ∃ e ∈ es ++ [t], e.data = n := by
    unfold dataOf
    constructor
    · rintro (hn | rfl)
      · obtain ⟨e, he, rfl⟩ := List.mem_map.mp hn
        exact ⟨e, List.mem_append_left _ he, rfl⟩
      · exact ⟨t, List.mem_append_right _ List.mem_cons_self, rfl⟩
    · rintro ⟨e, he, rfl⟩
      rcases List.mem_append.mp he with he | he
      · exact .inl (List.mem_map_of_mem he)
      · exact .inr (congrArg Entry.data (List.mem_singleton.mp he))
  rw [hmem]
  constructor
  · rintro ⟨a, m, hr, hm, rfl⟩
    obtain ⟨pre, e, post, hsplit, rfl, hcell⟩ := hl.split_of_reach hr
    rw [hm] at hcell
    obtain rfl := Option.some.inj hcell
    exact ⟨e, hsplit ▸ List.mem_append_right _ List.mem_cons_self, rfl⟩
  · rintro ⟨e, he, rfl⟩
    obtain ⟨pre, post, hsplit⟩ := List.append_of_mem he
    have hc := hl.chain
    rw [hsplit, chain_append_iff] at hc
    exact ⟨e.addr, _, hl.reach_of_split pre hsplit, hc.2.1, rfl⟩

/-- The outputs met are those of the cells before the last node. -/
theorem met_output_iff (hl : OutputsLinked dangling h es t) (ht : t.data.data = none)
    (o : Nat) : (∃ n, Met h n ∧ n.data = some o) ↔ o ∈ outputsOf (dataOf es) := by
  rw [mem_outputsOf]
  constructor
  · rintro ⟨n, hn, ho⟩
    rcases (met_iff hl n).mp hn with hn | rfl
    · exact ⟨n, hn, ho⟩
    · rw [ht] at ho
      exact absurd ho (by simp)
  · rintro ⟨n, hn, ho⟩
    exact ⟨n, (met_iff hl n).mpr (.inl hn), ho⟩

/-- An output that is listed once is met at one address. -/
theorem met_once (hl : OutputsLinked dangling h es t) (ht : t.data.data = none)
    (hd : (outputsOf (dataOf es)).Nodup) {a a' o : Nat} {m m' : Node OutputNode}
    (hr : Reach h gOutputList a) (hr' : Reach h gOutputList a') (hm : h.cell a = some m)
    (hm' : h.cell a' = some m') (ho : m.data.data = some o) (ho' : m'.data.data = some o) :
    a = a' := by
  have hall : (outputsOf (dataOf (es ++ [t]))).Nodup := by
    rw [dataOf_append, outputsOf_append]
    show (_ ++ outputsOf [t.data]).Nodup
    rw [outputsOf_cons, ht]
    show (_ ++ []).Nodup
    rwa [List.append_nil]
  obtain ⟨pre, e, post, hsplit, rfl, hcell⟩ := hl.split_of_reach hr
  obtain ⟨pre', e', post', hsplit', rfl, hcell'⟩ := hl.split_of_reach hr'
  rw [hm] at hcell
  rw [hm'] at hcell'
  obtain rfl := Option.some.inj hcell
  obtain rfl := Option.some.inj hcell'
  -- both nodes are on the list, so one is in front of the other if they differ
  have hmem : e' ∈ pre ++ e :: post := by
    rw [← hsplit, hsplit']
    exact List.mem_append_right _ List.mem_cons_self
  have htwice : ∀ es' : List (Entry OutputNode), e' ∈ es' →
      o ∈ outputsOf (dataOf es') := by
    intro es' he'
    exact mem_outputsOf.mpr ⟨e'.data, List.mem_map_of_mem he', ho'⟩
  have hsplitData : dataOf (pre ++ e :: post) = dataOf pre ++ e.data :: dataOf post :=
    dataOf_append pre (e :: post)
  rw [hsplit, hsplitData, outputsOf_append, outputsOf_cons, List.nodup_append,
    List.nodup_append] at hall
  obtain ⟨-, ⟨-, -, hpost⟩, hpre⟩ := hall
  have hoe : o ∈ e.data.data.toList := mem_toList_iff.mpr ho.symm
  rcases List.mem_append.mp hmem with he | he
  · exact absurd rfl (hpre o (htwice pre he) o (List.mem_append_left _ hoe))
  · rcases List.mem_cons.mp he with rfl | he
    · rfl
    · exact absurd rfl (hpost o hoe o (htwice post he))

end Met

/-! ## §5. Well-formed lists. -/

/-- The outputs other than `older` and `newer` that are met in both lists have
the same flags. -/
def FlagsKept (older newer : Option Nat) (h h' : OutputHeap) : Prop :=
  ∀ n n', Met h n → Met h' n' → n.data ≠ none → n.data ≠ older → n.data ≠ newer →
    n'.data = n.data → n'.enable = n.enable

/-- The nodes of the list are as they were. -/
def SameList (h h' : OutputHeap) : Prop :=
  ∀ a, Reach h gOutputList a → h'.cell a = h.cell a

/-- Every empty node is disabled. -/
def EmptyDisabled (h : OutputHeap) : Prop :=
  ∀ n, Met h n → n.data = none → n.enable = false

/-- `newer` has taken the place of `older`. -/
structure UpdateEffect (older newer : Option Nat) (h h' : OutputHeap) : Prop where
  outputs : ∀ o, (∃ n, Met h' n ∧ n.data = some o)
    ↔ (∃ n, Met h n ∧ n.data = some o) ∧ some o ≠ older ∨ some o = newer
  once : ∀ a a' m m' o, Reach h' gOutputList a → Reach h' gOutputList a' →
    h'.cell a = some m → h'.cell a' = some m' → m.data.data = some o →
    m'.data.data = some o → a = a'
  disabled : ∀ n, Met h' n → newer ≠ none → n.data = newer → n.enable = false
  head : ∃ m, h'.cell gOutputList = some m ∧
    (m.data.data ≠ none ↔ ∃ n o, Met h' n ∧ n.data = some o)

section Update

variable {h : OutputHeap}

/-- The same nodes in another heap. -/
theorem sameList_of_entries {h' : OutputHeap} {dangling dangling' : Nat → Prop}
    {es : List (Entry OutputNode)} {t : Entry OutputNode}
    (hl : OutputsLinked dangling h es t) (hl' : OutputsLinked dangling' h' es t) :
    SameList h h' := by
  intro a hr
  obtain ⟨pre, e, post, hsplit, rfl, hcell⟩ := hl.split_of_reach hr
  have hc := hl'.chain
  rw [hsplit, chain_append_iff] at hc
  rw [hcell]
  exact hc.2.1

/-- The head of tidy cells is empty only if no output is listed. -/
theorem head_full_iff {dangling : Nat → Prop} {es : List (Entry OutputNode)}
    {t : Entry OutputNode} (hl : OutputsLinked dangling h es t) (ht : t.data.data = none)
    (htidy : Tidy (dataOf es)) :
    ∃ m, h.cell gOutputList = some m ∧
      (m.data.data ≠ none ↔ ∃ n o, Met h n ∧ n.data = some o) := by
  have hlisted : (∃ n o, Met h n ∧ n.data = some o) ↔ ∃ o, o ∈ outputsOf (dataOf es) := by
    rw [exists_comm]
    exact exists_congr (met_output_iff hl ht)
  cases es with
  | nil =>
      refine ⟨_, hl.only_cell.2, ?_⟩
      rw [hlisted]
      constructor
      · exact fun hn => absurd ht hn
      · intro hno
        obtain ⟨o, ho⟩ := hno
        exact absurd ho List.not_mem_nil
  | cons x rest =>
      refine ⟨_, hl.head_cell.2, ?_⟩
      rw [hlisted]
      constructor
      · intro hx
        obtain ⟨o, ho⟩ := Option.ne_none_iff_exists'.mp hx
        exact ⟨o, mem_outputsOf.mpr ⟨x.data, List.mem_cons_self, ho⟩⟩
      · rintro ⟨o, ho⟩ hx
        obtain ⟨n, hn, hdata⟩ := mem_outputsOf.mp ho
        have hrest : dataOf rest = [] := htidy.2 hx
        rcases List.mem_cons.mp hn with rfl | hn
        · rw [hx] at hdata
          exact absurd hdata (by simp)
        · rw [show List.map Entry.data rest = [] from hrest] at hn
          exact absurd hn List.not_mem_nil

/-- An update with memory to be had, on the heap and on the cells. -/
theorem flagsKept_iff_sameFlags (older newer : Option Nat) (hw : WellFormedOutputs h) :
    ∃ h', helpUpdataCompositorOutput true older newer h = .ok h' ∧
      (FlagsKept older newer h h' ↔ ¬ LosesFlag older newer (outputCells h)) := by
  obtain ⟨es, t, hl, ht, htidy, hd⟩ := hw
  have hcells : outputCells h = dataOf es := hl.readData_eq
  rw [hcells, ← sameFlags_updateCells_iff htidy hd]
  rcases helpUpdata_spec true older newer hl htidy with
    ⟨⟨_, hfalse⟩, _⟩ | ⟨h', dangling', es', t', hrun, hl', ht', -, hdone, -, -⟩
  · exact hfalse.elim
  · have hdata := hdone (fun hf => absurd hf.2.1 (by simp))
    have hlast : t'.data.data = none := by
      rcases ht' with ht' | ht'
      · rw [ht', ht]
      · rw [ht']
        rfl
    refine ⟨h', hrun, ?_⟩
    rw [← hdata]
    constructor
    · intro hkept n hn n' hn'
      exact hkept n n' ((met_iff hl n).mpr (.inl hn)) ((met_iff hl' n').mpr (.inl hn'))
    · intro hsame n n' hn hn' hfull hno hnn heq
      -- neither is the last node, which is empty
      rcases (met_iff hl n).mp hn with hn | rfl
      · rcases (met_iff hl' n').mp hn' with hn' | rfl
        · exact hsame n hn n' hn' hfull hno hnn heq
        · exact absurd (heq.symm.trans hlast) hfull
      · exact absurd ht hfull

/-- The calls keep the list well formed, as long as the head is not vacated. -/
theorem wellFormedOutputs_updata {callocOk : Bool} {older newer : Option Nat}
    {h' : OutputHeap} (hw : WellFormedOutputs h)
    (hv : ¬ VacatesHead older newer (outputCells h))
    (hrun : helpUpdataCompositorOutput callocOk older newer h = .ok h') :
    WellFormedOutputs h' := by
  obtain ⟨es, t, hl, ht, htidy, hd⟩ := hw
  have hcells : outputCells h = dataOf es := hl.readData_eq
  rw [hcells] at hv
  rcases helpUpdata_spec callocOk older newer hl htidy with
    ⟨⟨_, hfalse⟩, _⟩ | ⟨h₁, dangling', es', t', hrun₁, hl', ht', hfailed, hdone, hkeep, -⟩
  · exact hfalse.elim
  · rw [hrun] at hrun₁
    obtain rfl := Except.ok.inj hrun₁
    rw [hkeep hv] at hl'
    refine ⟨es', t', hl', ?_, ?_⟩
    · rcases ht' with ht' | ht'
      · rw [ht', ht]
      · rw [ht']
        rfl
    · by_cases hf : AllocFails callocOk older newer (dataOf es)
      · rw [(hfailed hf).2.1]
        exact ⟨htidy, hd⟩
      · rw [hdone hf]
        have htidy' : Tidy (updateCells older newer (dataOf es)) := updateCells_tidy htidy
        refine ⟨htidy', (nodup_data_iff htidy').mpr ?_⟩
        by_cases hne : older = newer
        · unfold updateCells
          rw [if_pos hne]
          exact nodup_outputsOf hd
        · exact (outputsOf_updateCells (nodup_outputsOf hd) hne).1

theorem wellFormedOutputs_switch (output : Option Nat) (enable : Bool)
    (hw : WellFormedOutputs h) :
    ∃ h', helpSwitchCompositorOutput output enable h = .ok h' ∧ WellFormedOutputs h' := by
  obtain ⟨es, t, hl, ht, htidy, hd⟩ := hw
  cases output with
  | none => exact ⟨h, rfl, es, t, hl, ht, htidy, hd⟩
  | some output =>
      obtain ⟨i, hi⟩ := visit_switchEnable output enable (dataOf es)
      obtain ⟨h', es', hrun, hl', hdata, -, -⟩ := forEachOutput_spec hl rfl hi
      refine ⟨h', ?_, es', t, hl', ht, ?_, ?_⟩
      · unfold helpSwitchCompositorOutput
        simp only [hrun, ok_bind]
      · rw [hdata]
        exact switchCells_tidy htidy
      · rw [hdata, switchCells_map_data]
        exact hd

/-- Call after call, without vacating the head. -/
theorem wellFormedOutputs_run (calls : List OutputCall) :
    ∀ {h : OutputHeap}, WellFormedOutputs h → KeepsHead h calls →
      ∃ h', runOutputCalls h calls = .ok h' ∧ WellFormedOutputs h' := by
  induction calls with
  | nil => exact fun hw _ => ⟨_, rfl, hw⟩
  | cons c calls ih =>
      intro h hw hkeep
      have hstep : ∃ h', c.run h = .ok h' ∧ (¬ c.VacatesHead h → WellFormedOutputs h') := by
        cases c with
        | updata older newer =>
            obtain ⟨h', hrun, -⟩ := flagsKept_iff_sameFlags older newer hw
            exact ⟨h', hrun, fun hv => wellFormedOutputs_updata hw hv hrun⟩
        | switch output enable =>
            obtain ⟨h', hrun, hw'⟩ := wellFormedOutputs_switch output enable hw
            exact ⟨h', hrun, fun _ => hw'⟩
      obtain ⟨h₁, hrun, hw₁⟩ := hstep
      obtain ⟨hfirst, hrest⟩ := (keepsHead_cons hrun).mp hkeep
      obtain ⟨h', hruns, hw'⟩ := ih (hw₁ hfirst) hrest
      refine ⟨h', ?_, hw'⟩
      unfold runOutputCalls
      rw [hrun, ok_bind, hruns]

theorem wellFormedOutputs_init : WellFormedOutputs outputHeapInit :=
  ⟨[], _, outputsOk_init.linked, rfl, trivial, List.nodup_nil⟩

end Update

/-! ## §6. The effect. -/

/-- **The effect of one update.**  The call returns.  If it needs a node and
gets none, the list is as it was.  Otherwise the outputs are those before
without `older`, and `newer`, each in one node; `newer` is disabled, the empty
nodes stay disabled, and the head is empty only if there is no output. -/
theorem update_effect (callocOk : Bool) (older newer : Option Nat) {h : OutputHeap}
    (hw : WellFormedOutputs h) (hne : older ≠ newer) :
    ∃ h', helpUpdataCompositorOutput callocOk older newer h = .ok h' ∧
      (AllocFails callocOk older newer (outputCells h) → SameList h h') ∧
      (¬ AllocFails callocOk older newer (outputCells h) →
        UpdateEffect older newer h h' ∧ (EmptyDisabled h → EmptyDisabled h')) := by
  obtain ⟨es, t, hl, ht, htidy, hd⟩ := hw
  have hcells : outputCells h = dataOf es := hl.readData_eq
  rw [hcells]
  rcases helpUpdata_spec callocOk older newer hl htidy with
    ⟨⟨_, hfalse⟩, _⟩ | ⟨h', dangling', es', t', hrun, hl', ht', hfailed, hdone, hkeep, -⟩
  · exact hfalse.elim
  · refine ⟨h', hrun, fun hf => ?_, fun hf => ?_⟩
    -- without memory the list is the same, pointers included
    · obtain ⟨haddr, hdata, rfl⟩ := hfailed hf
      rw [hkeep (not_vacatesHead_of_needsNode hf.2.2)] at hl'
      have hback := hl.back
      have hback' := hl'.back
      rw [backLinks_append_iff] at hback hback'
      rw [entries_ext hback.1 hback'.1 haddr hdata] at hl'
      exact sameList_of_entries hl hl'
    · have hdata := hdone hf
      -- the last node is the empty one that every list ends with
      have hlast : t'.data.data = none := by
        rcases ht' with ht' | ht'
        · rw [ht', ht]
        · rw [ht']
          rfl
      have htidy' : Tidy (dataOf es') := hdata ▸ updateCells_tidy htidy
      obtain ⟨honce, houtputs⟩ := outputsOf_updateCells (nodup_outputsOf hd) hne
      rw [← hdata] at honce houtputs
      refine ⟨⟨?_, ?_, ?_, head_full_iff hl' hlast htidy'⟩, ?_⟩
      · intro o
        rw [met_output_iff hl' hlast, met_output_iff hl ht]
        exact houtputs o
      · intro a a' m m' o hr hr' hm hm' ho ho'
        exact met_once hl' hlast honce hr hr' hm hm' ho ho'
      · intro n hn hnew hdn
        rcases (met_iff hl' n).mp hn with hn | rfl
        · rw [hdata] at hn
          exact newer_disabled htidy hd hne hnew hn hdn
        · exact absurd (hdn.symm.trans hlast) hnew
      · intro hempty n hn hnone
        rcases (met_iff hl' n).mp hn with hn | rfl
        · rw [hdata] at hn
          exact empty_disabled htidy hd
            (fun m hm => hempty m ((met_iff hl m).mpr (.inl hm))) n hn hnone
        · rcases ht' with ht' | ht'
          · rw [ht']
            exact hempty t.data ((met_iff hl _).mpr (.inr rfl)) ht
          · rw [ht']
            rfl

/-- Of two outputs the first one is replaced. -/
theorem first_output_replaced :
    ∃ h h', runOutputCalls outputHeapInit [.updata none (some 10), .updata none (some 20)]
        = .ok h ∧
      helpUpdataCompositorOutput true (some 10) (some 30) h = .ok h' ∧
      UpdateEffect (some 10) (some 30) h h' := by
  obtain ⟨h, hrun, hw⟩ := wellFormedOutputs_run
    [.updata none (some 10), .updata none (some 20)] wellFormedOutputs_init
    (by decide +kernel)
  obtain ⟨h', hupdate, -, heffect⟩ :=
    update_effect true (some 10) (some 30) hw (by decide)
  exact ⟨h, h', hrun, hupdate, (heffect (fun hf => absurd hf.2.1 (by simp))).1⟩

/-- One output, and a last node that is empty and enabled. -/
def enabledLast : OutputHeap where
  cell := fun a =>
    if a = gOutputList then some ⟨none, some 1, ⟨some 10, false⟩⟩
    else if a = 1 then some ⟨some gOutputList, none, ⟨none, true⟩⟩
    else none
  fresh := 2
  bound := by
    intro a ha
    have hhead : a ≠ gOutputList := by
      unfold gOutputList
      omega
    rw [if_neg hhead, if_neg (by omega)]

theorem enabledLast_linked :
    OutputsLinked (fun _ => False) enabledLast [⟨gOutputList, none, ⟨some 10, false⟩⟩]
      ⟨1, some gOutputList, ⟨none, true⟩⟩ where
  chain := ⟨rfl, rfl, trivial⟩
  nodup := by decide
  first := rfl
  back := ⟨.inl rfl, .inl rfl, trivial⟩
  freed := fun _ hfalse => hfalse.elim

/-- The flag of an empty last node is kept. -/
theorem empty_last_stays_enabled :
    WellFormedOutputs enabledLast ∧
    ¬ AllocFails true (some 10) (some 20) (outputCells enabledLast) ∧
    ∃ h', helpUpdataCompositorOutput true (some 10) (some 20) enabledLast = .ok h' ∧
      (h'.cell 1).map Node.data = some ⟨none, true⟩ ∧ ¬ EmptyDisabled h' := by
  refine ⟨⟨_, _, enabledLast_linked, rfl, ⟨by simp, by simp⟩, by decide⟩,
    fun hf => absurd hf.2.1 (by simp), ?_⟩
  have hcells : (helpUpdataCompositorOutput true (some 10) (some 20) enabledLast).toOption.map
      (fun h => ((h.cell gOutputList).map Node.next, (h.cell 1).map Node.data))
      = some (some (some 1), some ⟨none, true⟩) := by
    decide +kernel
  cases hrun : helpUpdataCompositorOutput true (some 10) (some 20) enabledLast with
  | error f =>
      rw [hrun] at hcells
      exact absurd hcells (by simp [Except.toOption])
  | ok h' =>
      rw [hrun] at hcells
      obtain ⟨hnext, hlast⟩ : (h'.cell gOutputList).map Node.next = some (some 1) ∧
          (h'.cell 1).map Node.data = some ⟨none, true⟩ := by
        simpa [Except.toOption] using hcells
      refine ⟨h', rfl, hlast, ?_⟩
      intro hempty
      obtain ⟨m, hm, hmn⟩ := Option.map_eq_some_iff.mp hnext
      obtain ⟨m', hm', hmd⟩ := Option.map_eq_some_iff.mp hlast
      have hmet : Met h' ⟨none, true⟩ := ⟨1, m', .next .head hm hmn, hm', hmd⟩
      exact absurd (hempty _ hmet rfl) (by simp)

/-- **The flags of the other outputs.**  An update with memory to be had keeps
them unless it moves an enabled output into the head it vacates. -/
theorem other_flags_kept_iff (older newer : Option Nat) {h : OutputHeap}
    (hw : WellFormedOutputs h) :
    (∃ h', helpUpdataCompositorOutput true older newer h = .ok h' ∧
        FlagsKept older newer h h')
      ↔ ¬ LosesFlag older newer (outputCells h) := by
  obtain ⟨h', hrun, hiff⟩ := flagsKept_iff_sameFlags older newer hw
  rw [← hiff]
  constructor
  · rintro ⟨h'', hrun'', hkept⟩
    rw [hrun] at hrun''
    obtain rfl := Except.ok.inj hrun''
    exact hkept
  · exact fun hkept => ⟨h', hrun, hkept⟩

/-- The second of two outputs is replaced; the first one stays enabled. -/
theorem second_output_replaced :
    ∃ h h', runOutputCalls outputHeapInit [.updata none (some 10), .updata none (some 20),
        .switch (some 10) true] = .ok h ∧
      helpUpdataCompositorOutput true (some 20) (some 30) h = .ok h' ∧
      FlagsKept (some 20) (some 30) h h' := by
  obtain ⟨h, hrun, hw⟩ := wellFormedOutputs_run [.updata none (some 10),
    .updata none (some 20), .switch (some 10) true] wellFormedOutputs_init
    (by decide +kernel)
  have hcells : (runOutputCalls outputHeapInit [.updata none (some 10),
      .updata none (some 20), .switch (some 10) true]).toOption.map outputCells
      = some [⟨some 10, true⟩, ⟨some 20, false⟩] := by
    decide +kernel
  rw [hrun] at hcells
  have hcells' : outputCells h = [⟨some 10, true⟩, ⟨some 20, false⟩] := by
    simpa [Except.toOption] using hcells
  obtain ⟨h', hupdate, hkept⟩ := (other_flags_kept_iff (some 20) (some 30) hw).mpr (by
    rw [hcells']
    exact fun hlose => absurd hlose.1 (by decide))
  exact ⟨h, h', hrun, hupdate, hkept⟩

/-- Two outputs are added and the second is enabled.  When the first one is
removed, the second is disabled. -/
theorem moved_output_disabled :
    ∃ h h', runOutputCalls outputHeapInit [.updata none (some 10), .updata none (some 20),
        .switch (some 20) true] = .ok h ∧
      WellFormedOutputs h ∧ outputCells h = [⟨some 10, false⟩, ⟨some 20, true⟩] ∧
      helpUpdataCompositorOutput true (some 10) none h = .ok h' ∧
      outputCells h' = [⟨some 20, false⟩] ∧ ¬ FlagsKept (some 10) none h h' := by
  obtain ⟨h, hrun, hw⟩ := wellFormedOutputs_run [.updata none (some 10),
    .updata none (some 20), .switch (some 20) true] wellFormedOutputs_init
    (by decide +kernel)
  have hcells : (runOutputCalls outputHeapInit [.updata none (some 10),
      .updata none (some 20), .switch (some 20) true]).toOption.map (fun h =>
        (outputCells h, (helpUpdataCompositorOutput true (some 10) none h).toOption.map outputCells))
      = some ([⟨some 10, false⟩, ⟨some 20, true⟩], some [⟨some 20, false⟩]) := by
    decide +kernel
  obtain ⟨h', hupdate, hiff⟩ := flagsKept_iff_sameFlags (some 10) none hw
  rw [hrun] at hcells
  obtain ⟨hbefore, hbehind⟩ : outputCells h = [⟨some 10, false⟩, ⟨some 20, true⟩] ∧
      (helpUpdataCompositorOutput true (some 10) none h).toOption.map outputCells
        = some [⟨some 20, false⟩] := by
    simpa [Except.toOption] using hcells
  rw [hupdate] at hbehind
  refine ⟨h, h', hrun, hw, hbefore, hupdate, Option.some.inj hbehind, ?_⟩
  intro hkept
  refine hiff.mp hkept ?_
  rw [hbefore]
  exact ⟨by decide, ⟨some 20, true⟩, rfl, by decide, rfl⟩

end MesonDisplay.Helper
