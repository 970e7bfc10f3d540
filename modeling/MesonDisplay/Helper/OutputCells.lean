/-
  MesonDisplay.Helper.OutputCells — what an update does to the outputs.

  Without its links the output list is a sequence of cells, in the order of
  the list and without the empty last node.  `updateCells` says what
  `help_updata_compositor_output` does to that sequence.  The loops of the
  source compute it piece by piece (`visit_searchOlder`, `visit_removeSame`,
  `visit_seekPosition`).

  Main results:
    * `updateCells_tidy` — after an update only the first cell can be empty,
      and only if it is the only one.
    * `swaps_iff` — the last node is moved into the head exactly when the
      update takes the output out of the head while another one is listed.
-/
import MesonDisplay.Helper.OutputList

namespace MesonDisplay.Helper

open MesonDisplay.LinkedList

/-! ## §1. The update of a sequence. -/

/-- The output the first loop looks for. -/
def soughtOutput (older newer : Option Nat) : Option Nat :=
  if older = none then newer else older

def findOutput (output : Option Nat) (cells : List OutputNode) : Option Nat :=
  cells.findIdx? (fun n => n.data = output)

/-- The cell that already is the one to use: that of `older`, or else the first
one of `newer`. -/
def usedCell (older newer : Option Nat) (cells : List OutputNode) : Option Nat :=
  (findOutput (soughtOutput older newer) cells).or (findOutput newer cells)

/-- The cells from number `k` on, with `newer` blanked in all but the one to
use. -/
def blankFrom (newer : Option Nat) (used : Option Nat) :
    (k : Nat) → List OutputNode → List OutputNode
  | _, [] => []
  | k, n :: ns =>
      (if n.data = newer ∧ used ≠ some k then .zero else n)
        :: blankFrom newer used (k + 1) ns

def blankOthers (newer : Option Nat) (used : Option Nat) (cells : List OutputNode) :
    List OutputNode :=
  blankFrom newer used 0 cells

/-- The cell that `newer` is put into: the one to use, or else the first empty
one. -/
def targetCell (older newer : Option Nat) (cells : List OutputNode) : Option Nat :=
  (usedCell older newer cells).or (findOutput none cells)

/-- There is no cell for `newer`: a node has to be appended. -/
def NeedsNode (older newer : Option Nat) (cells : List OutputNode) : Prop :=
  targetCell older newer cells = none ∧ newer ≠ none

/-- The update needs a node and gets none. -/
def AllocFails (callocOk : Bool) (older newer : Option Nat) (cells : List OutputNode) :
    Prop :=
  older ≠ newer ∧ callocOk = false ∧ NeedsNode older newer cells

/-- The cells once `newer` is in its place; behind the last one if there is no
place for it. -/
def placeNewer (older newer : Option Nat) (cells : List OutputNode) : List OutputNode :=
  let blanked := blankOthers newer (usedCell older newer cells) cells
  match targetCell older newer cells with
  | some i => blanked.set i ⟨newer, false⟩
  | none => if newer = none then blanked else blanked ++ [⟨newer, false⟩]

/-- The empty cells are taken out, but for the first one. -/
def shrinkCells : List OutputNode → List OutputNode
  | [] => []
  | c :: cs => c :: cs.filter (fun n => n.data ≠ none)

/-- If the first cell is empty, the last one is moved into it; `enable` stays. -/
def swapCells : List OutputNode → List OutputNode
  | [] => []
  | [c] => [c]
  | c :: d :: cs =>
      if c.data = none then
        ⟨((d :: cs).getLast (List.cons_ne_nil d cs)).data, c.enable⟩
          :: (d :: cs).dropLast
      else c :: d :: cs

/-- `help_updata_compositor_output`, on the cells. -/
def updateCells (older newer : Option Nat) (cells : List OutputNode) : List OutputNode :=
  if older = newer then cells
  else swapCells (shrinkCells (placeNewer older newer cells))

/-- The body of the loop in `help_switch_compositor_output`, on the cells. -/
def switchCells (output : Nat) (enable : Bool) : List OutputNode → List OutputNode
  | [] => []
  | n :: ns =>
      if some output = n.data then { n with enable := enable } :: ns
      else n :: switchCells output enable ns

/-! ## §2. The loops compute it. -/

/-- The variables behind the first loop. -/
def foundAt (v : UpdateVars) (found : Option Nat) (length : Nat) : UpdateVars :=
  match found with
  | some j => ⟨true, v.index + j, v.index + j⟩
  | none => { v with index := v.index + length }

theorem findOutput_nil (output : Option Nat) : findOutput output [] = none := rfl

theorem findOutput_cons (output : Option Nat) (n : OutputNode) (ns : List OutputNode) :
    findOutput output (n :: ns)
      = if n.data = output then some 0 else (findOutput output ns).map (· + 1) := by
  unfold findOutput
  rw [List.findIdx?_cons]
  by_cases h : n.data = output
  · simp [h]
  · simp [h]

theorem findOutput_eq_none {output : Option Nat} {cells : List OutputNode} :
    findOutput output cells = none ↔ ∀ n ∈ cells, n.data ≠ output := by
  unfold findOutput
  simp [List.findIdx?_eq_none_iff]

theorem foundAt_succ (v : UpdateVars) (found : Option Nat) (length : Nat) :
    foundAt { v with index := v.index + 1 } found length
      = foundAt v (found.map (· + 1)) (length + 1) := by
  cases found with
  | none =>
      simp only [foundAt, Option.map_none]
      congr 1
      omega
  | some j =>
      simp only [foundAt, Option.map_some]
      congr 1 <;> omega

theorem visit_searchOlder (older newer : Option Nat) (cells : List OutputNode) :
    ∀ v : UpdateVars, visit (searchOlder older newer) v cells
      = .ok (cells, foundAt v (findOutput (soughtOutput older newer) cells) cells.length,
          (findOutput (soughtOutput older newer) cells).getD cells.length) := by
  -- both branches of the body compare with the same output
  have hbody : ∀ (v : UpdateVars) (n : OutputNode), searchOlder older newer v n
      = if n.data = soughtOutput older newer then
          .ok (n, .break { v with updated := true, updateIndex := v.index })
        else .ok (n, .continue { v with index := v.index + 1 }) := by
    intro v n
    unfold searchOlder soughtOutput
    by_cases ho : older = none
    · simp [ho]
    · simp [ho]
  induction cells with
  | nil =>
      intro v
      simp [visit, findOutput_nil, foundAt]
  | cons n ns ih =>
      intro v
      unfold visit
      rw [hbody, findOutput_cons]
      by_cases hn : n.data = soughtOutput older newer
      · rw [if_pos hn, if_pos hn]
        simp [foundAt]
      · rw [if_neg hn, if_neg hn]
        simp only [ih, foundAt_succ, List.length_cons]
        cases findOutput (soughtOutput older newer) ns <;> rfl

/-- The cell to use, as the second loop sees it: the one found before, or the
first one of `newer`. -/
def usedFrom (newer : Option Nat) (v : UpdateVars) (cells : List OutputNode) :
    Option Nat :=
  if v.updated then some v.updateIndex else (findOutput newer cells).map (v.index + ·)

/-- The variables behind one body of the second loop. -/
def afterCell (newer : Option Nat) (v : UpdateVars) (n : OutputNode) : UpdateVars :=
  if v.updated = false ∧ n.data = newer then ⟨true, v.index, v.index + 1⟩
  else { v with index := v.index + 1 }

theorem usedFrom_afterCell (newer : Option Nat) (v : UpdateVars) (n : OutputNode)
    (ns : List OutputNode) :
    usedFrom newer (afterCell newer v n) ns = usedFrom newer v (n :: ns) := by
  unfold usedFrom afterCell
  rw [findOutput_cons]
  cases hv : v.updated with
  | true => simp
  | false =>
      by_cases hn : n.data = newer
      · simp [hn]
      · simp only [hn, and_false, if_false, Bool.false_eq_true, Option.map_map]
        congr 1
        funext j
        show v.index + 1 + j = v.index + (j + 1)
        omega

theorem removeSame_eq (newer : Option Nat) (v : UpdateVars) (n : OutputNode)
    (ns : List OutputNode) :
    removeSame newer v n
      = .ok (if n.data = newer ∧ usedFrom newer v (n :: ns) ≠ some v.index then .zero
          else n, .continue (afterCell newer v n)) := by
  unfold removeSame usedFrom afterCell
  rw [findOutput_cons]
  by_cases hn : n.data = newer
  · cases hv : v.updated with
    | true =>
        by_cases hi : v.updateIndex = v.index
        · simp [hn, hi]
        · simp [hn, hi, OutputNode.zero]
    | false => simp [hn]
  · simp [hn]

theorem visit_removeSame (newer : Option Nat) (cells : List OutputNode) :
    ∀ v : UpdateVars, visit (removeSame newer) v cells
      = .ok (blankFrom newer (usedFrom newer v cells) v.index cells,
          { updated := (usedFrom newer v cells).isSome
            updateIndex := (usedFrom newer v cells).getD v.updateIndex
            index := v.index + cells.length }, cells.length) := by
  induction cells with
  | nil =>
      intro v
      obtain ⟨updated, updateIndex, index⟩ := v
      cases updated <;> rfl
  | cons n ns ih =>
      intro v
      -- the loop counts every cell, whether it blanks it or not
      have hindex : (afterCell newer v n).index = v.index + 1 := by
        unfold afterCell
        split <;> rfl
      have hupdate : (usedFrom newer v (n :: ns)).getD (afterCell newer v n).updateIndex
          = (usedFrom newer v (n :: ns)).getD v.updateIndex := by
        unfold usedFrom afterCell
        rw [findOutput_cons]
        by_cases hn : v.updated = false ∧ n.data = newer
        · simp [hn]
        · simp [hn]
      unfold visit
      rw [removeSame_eq newer v n ns]
      simp only [ih, usedFrom_afterCell, hindex, hupdate, blankFrom, List.length_cons]
      congr 4
      omega

/-- The third loop stops at the cell to use; if there is none, at the first
empty cell. -/
theorem seekPosition_updated {v : UpdateVars} (hv : v.updated = true) (n : OutputNode) :
    seekPosition v n
      = if v.index = v.updateIndex then .ok (n, .break v)
        else .ok (n, .continue { v with index := v.index + 1 }) := by
  unfold seekPosition
  simp only [hv, true_and, not_true_eq_false, false_and, if_false]

theorem seekPosition_searching {v : UpdateVars} (hv : v.updated = false) (n : OutputNode) :
    seekPosition v n
      = if n.data = none then
          .ok (n, .break { v with updated := true, updateIndex := v.index })
        else .ok (n, .continue { v with index := v.index + 1 }) := by
  unfold seekPosition
  simp only [hv, Bool.false_eq_true, false_and, if_false, not_false_eq_true, true_and]

theorem visit_seekPosition_updated (cells : List OutputNode) :
    ∀ v : UpdateVars, v.updated = true → v.index ≤ v.updateIndex →
      v.updateIndex - v.index < cells.length →
      visit seekPosition v cells
        = .ok (cells, { v with index := v.updateIndex }, v.updateIndex - v.index) := by
  induction cells with
  | nil =>
      intro v _ _ hlt
      exact absurd hlt (Nat.not_lt_zero _)
  | cons n ns ih =>
      intro v hv hle hlt
      unfold visit
      rw [seekPosition_updated hv]
      -- the loop stops when its index has come to the cell to use
      by_cases hi : v.index = v.updateIndex
      · have hsame : ({ v with index := v.updateIndex } : UpdateVars) = v :=
          congrArg (fun i => { v with index := i }) hi.symm
        have hcount : v.updateIndex - v.index = 0 := by omega
        rw [if_pos hi, hsame, hcount]
      · have hrest := ih { v with index := v.index + 1 } hv
          (show v.index + 1 ≤ v.updateIndex by omega)
          (show v.updateIndex - (v.index + 1) < ns.length by
            rw [List.length_cons] at hlt
            omega)
        rw [if_neg hi]
        simp only [hrest]
        have hcount : v.updateIndex - (v.index + 1) + 1 = v.updateIndex - v.index := by
          omega
        rw [hcount]

theorem visit_seekPosition (cells : List OutputNode) :
    ∀ v : UpdateVars, v.updated = false →
      visit seekPosition v cells
        = .ok (cells, foundAt v (findOutput none cells) cells.length,
            (findOutput none cells).getD cells.length) := by
  induction cells with
  | nil =>
      intro v _
      simp [visit, findOutput_nil, foundAt]
  | cons n ns ih =>
      intro v hv
      unfold visit
      rw [seekPosition_searching hv, findOutput_cons]
      by_cases hn : n.data = none
      · rw [if_pos hn, if_pos hn]
        simp [foundAt]
      · have hrest := ih { v with index := v.index + 1 } hv
        rw [if_neg hn, if_neg hn]
        simp only [hrest, foundAt_succ, List.length_cons]
        cases findOutput none ns <;> rfl

/-! ## §3. Where it ends. -/

theorem findOutput_lt {output : Option Nat} {cells : List OutputNode} {j : Nat}
    (hj : findOutput output cells = some j) : j < cells.length := by
  unfold findOutput at hj
  exact (List.findIdx?_eq_some_iff_findIdx_eq.mp hj).1

theorem usedCell_lt {older newer : Option Nat} {cells : List OutputNode} {j : Nat}
    (hj : usedCell older newer cells = some j) : j < cells.length := by
  unfold usedCell at hj
  cases hs : findOutput (soughtOutput older newer) cells with
  | some i =>
      rw [hs] at hj
      obtain rfl : i = j := by simpa using hj
      exact findOutput_lt hs
  | none =>
      rw [hs] at hj
      exact findOutput_lt hj

theorem targetCell_lt {older newer : Option Nat} {cells : List OutputNode} {j : Nat}
    (hj : targetCell older newer cells = some j) : j < cells.length := by
  unfold targetCell at hj
  cases hu : usedCell older newer cells with
  | some i =>
      rw [hu] at hj
      obtain rfl : i = j := by simpa using hj
      exact usedCell_lt hu
  | none =>
      rw [hu] at hj
      exact findOutput_lt hj

theorem blankFrom_length (newer used : Option Nat) (cells : List OutputNode) :
    ∀ k, (blankFrom newer used k cells).length = cells.length := by
  induction cells with
  | nil => exact fun _ => rfl
  | cons n ns ih =>
      intro k
      unfold blankFrom
      rw [List.length_cons, List.length_cons, ih]

/-- Cells that do not hold `newer` stay. -/
theorem blankFrom_eq_self {newer used : Option Nat} {cells : List OutputNode}
    (hnone : ∀ n ∈ cells, n.data ≠ newer) : ∀ k, blankFrom newer used k cells = cells := by
  induction cells with
  | nil => exact fun _ => rfl
  | cons n ns ih =>
      intro k
      have hn : ¬ (n.data = newer ∧ used ≠ some k) := fun h =>
        hnone n List.mem_cons_self h.1
      unfold blankFrom
      rw [if_neg hn, ih (fun m hm => hnone m (List.mem_cons_of_mem _ hm))]

/-- With no cell to use, there is nothing to blank. -/
theorem blankOthers_of_unused {older newer : Option Nat} {cells : List OutputNode}
    (hu : usedCell older newer cells = none) :
    blankOthers newer (usedCell older newer cells) cells = cells := by
  have hnewer : findOutput newer cells = none := by
    unfold usedCell at hu
    exact (Option.or_eq_none_iff.mp hu).2
  exact blankFrom_eq_self (findOutput_eq_none.mp hnewer) 0

/-! ## §4. Tidy cells. -/

/-- Only the first cell can be empty, and only if it is the only one. -/
def Tidy : List OutputNode → Prop
  | [] => True
  | c :: cs => (∀ n ∈ cs, n.data ≠ none) ∧ (c.data = none → cs = [])

theorem swapCells_cons_cons (c d : OutputNode) (cs : List OutputNode) :
    swapCells (c :: d :: cs)
      = if c.data = none then
          ⟨((d :: cs).getLast (List.cons_ne_nil d cs)).data, c.enable⟩
            :: (d :: cs).dropLast
        else c :: d :: cs := rfl

theorem swapCells_shrinkCells_tidy (cells : List OutputNode) :
    Tidy (swapCells (shrinkCells cells)) := by
  cases cells with
  | nil => trivial
  | cons c cs =>
      show Tidy (swapCells (c :: cs.filter (fun n => n.data ≠ none)))
      have hkept : ∀ n ∈ cs.filter (fun n => n.data ≠ none), n.data ≠ none := by
        intro n hn
        simpa using (List.mem_filter.mp hn).2
      cases hcs : cs.filter (fun n => n.data ≠ none) with
      | nil => exact ⟨fun n hn => absurd hn List.not_mem_nil, fun _ => rfl⟩
      | cons d ds =>
          rw [hcs] at hkept
          rw [swapCells_cons_cons]
          by_cases hc : c.data = none
          · rw [if_pos hc]
            refine ⟨fun n hn => hkept n (List.dropLast_subset _ hn), ?_⟩
            intro hlast
            have hd := hkept _ (List.getLast_mem (List.cons_ne_nil d ds))
            exact absurd hlast hd
          · rw [if_neg hc]
            exact ⟨hkept, fun h => absurd h hc⟩

/-- **After an update** only the first cell can be empty, and only if it is the
only one. -/
theorem updateCells_tidy {older newer : Option Nat} {cells : List OutputNode}
    (ht : Tidy cells) : Tidy (updateCells older newer cells) := by
  unfold updateCells
  by_cases h : older = newer
  · rw [if_pos h]
    exact ht
  · rw [if_neg h]
    exact swapCells_shrinkCells_tidy _

/-- The outputs stay, and so does the number of cells. -/
theorem switchCells_map_data (output : Nat) (enable : Bool) (cells : List OutputNode) :
    (switchCells output enable cells).map OutputNode.data = cells.map OutputNode.data := by
  induction cells with
  | nil => rfl
  | cons n ns ih =>
      unfold switchCells
      by_cases hn : some output = n.data
      · rw [if_pos hn]
        rfl
      · rw [if_neg hn, List.map_cons, List.map_cons, ih]

theorem switchCells_tidy {output : Nat} {enable : Bool} {cells : List OutputNode}
    (ht : Tidy cells) : Tidy (switchCells output enable cells) := by
  have hdata := switchCells_map_data output enable
  cases cells with
  | nil => exact ht
  | cons c cs =>
      obtain ⟨hrest, hfirst⟩ := ht
      unfold switchCells
      by_cases hc : some output = c.data
      · rw [if_pos hc]
        exact ⟨hrest, hfirst⟩
      · rw [if_neg hc]
        refine ⟨?_, ?_⟩
        · intro n hn
          have hmem : n.data ∈ cs.map OutputNode.data := by
            rw [← hdata cs]
            exact List.mem_map_of_mem hn
          obtain ⟨m, hm, hmn⟩ := List.mem_map.mp hmem
          rw [← hmn]
          exact hrest m hm
        · intro h
          rw [hfirst h]
          rfl

/-! ## §5. When the last node is moved into the head. -/

/-- The cells on which `swapCells` moves the last one. -/
def Swaps : List OutputNode → Prop
  | c :: _ :: _ => c.data = none
  | _ => False

theorem swapCells_of_swaps {c : OutputNode} {init : List OutputNode} {d : OutputNode}
    (hc : c.data = none) :
    swapCells (c :: (init ++ [d])) = ⟨d.data, c.enable⟩ :: init := by
  cases init with
  | nil =>
      rw [List.nil_append, swapCells_cons_cons, if_pos hc]
      rfl
  | cons i init =>
      have hlast : ∀ hne : i :: init ++ [d] ≠ [], (i :: init ++ [d]).getLast hne = d :=
        fun hne => List.getLast_concat
      have hdrop : (i :: init ++ [d]).dropLast = i :: init := List.dropLast_concat
      rw [List.cons_append, swapCells_cons_cons, if_pos hc]
      exact congrArg₂ (fun (e : OutputNode) cs => OutputNode.mk e.data c.enable :: cs)
        (hlast _) hdrop

theorem swapCells_of_not_swaps {cells : List OutputNode} (hs : ¬ Swaps cells) :
    swapCells cells = cells := by
  cases cells with
  | nil => rfl
  | cons c cs =>
      cases cs with
      | nil => rfl
      | cons d cs =>
          have hc : c.data ≠ none := hs
          rw [swapCells_cons_cons, if_neg hc]

/-- **The head is vacated**: its output is removed while others are listed, or
it takes the place of an output listed behind it. -/
def VacatesHead (older newer : Option Nat) : List OutputNode → Prop
  | [] => False
  | x :: rest =>
      older ≠ newer ∧
        ((x.data = older ∧ newer = none ∧ rest ≠ []) ∨
          (x.data = newer ∧ older ≠ none ∧ ∃ n ∈ rest, n.data = older))

instance (older newer : Option Nat) (cells : List OutputNode) :
    Decidable (VacatesHead older newer cells) := by
  cases cells with
  | nil => exact inferInstanceAs (Decidable False)
  | cons x rest =>
      exact inferInstanceAs (Decidable (older ≠ newer ∧
        ((x.data = older ∧ newer = none ∧ rest ≠ []) ∨
          (x.data = newer ∧ older ≠ none ∧ ∃ n ∈ rest, n.data = older))))

theorem swaps_shrinkCells_cons (c : OutputNode) (cs : List OutputNode) :
    Swaps (shrinkCells (c :: cs)) ↔ c.data = none ∧ ∃ n ∈ cs, n.data ≠ none := by
  show Swaps (c :: cs.filter (fun n => n.data ≠ none)) ↔ _
  cases hcs : cs.filter (fun n => n.data ≠ none) with
  | nil =>
      have hall : ¬ ∃ n ∈ cs, n.data ≠ none := by
        intro ⟨n, hn, hd⟩
        have hmem : n ∈ cs.filter (fun n => n.data ≠ none) :=
          List.mem_filter.mpr ⟨hn, by simpa using hd⟩
        rw [hcs] at hmem
        exact absurd hmem List.not_mem_nil
      show False ↔ _
      exact ⟨False.elim, fun h => hall h.2⟩
  | cons d ds =>
      have hmem : d ∈ cs.filter (fun n => n.data ≠ none) := by
        rw [hcs]
        exact List.mem_cons_self
      obtain ⟨hd, hdata⟩ := List.mem_filter.mp hmem
      show c.data = none ↔ _
      exact ⟨fun h => ⟨h, d, hd, by simpa using hdata⟩, fun h => h.1⟩

/-- The first cell after the blanking. -/
def blankedHead (newer used : Option Nat) (x : OutputNode) : OutputNode :=
  if x.data = newer ∧ used ≠ some 0 then .zero else x

theorem blankFrom_cons (newer used : Option Nat) (x : OutputNode)
    (rest : List OutputNode) :
    blankFrom newer used 0 (x :: rest)
      = blankedHead newer used x :: blankFrom newer used 1 rest := rfl

theorem placeNewer_cons (older newer : Option Nat) (x : OutputNode)
    (rest : List OutputNode) :
    placeNewer older newer (x :: rest)
      = match targetCell older newer (x :: rest) with
        | some 0 =>
            ⟨newer, false⟩ :: blankFrom newer (usedCell older newer (x :: rest)) 1 rest
        | some (j + 1) =>
            blankedHead newer (usedCell older newer (x :: rest)) x
              :: (blankFrom newer (usedCell older newer (x :: rest)) 1 rest).set j
                ⟨newer, false⟩
        -- no cell to use: `newer` goes behind all of them
        | none =>
            blankedHead newer (usedCell older newer (x :: rest)) x
              :: (if newer = none then
                    blankFrom newer (usedCell older newer (x :: rest)) 1 rest
                  else blankFrom newer (usedCell older newer (x :: rest)) 1 rest
                    ++ [⟨newer, false⟩]) := by
  unfold placeNewer blankOthers
  rw [blankFrom_cons]
  cases targetCell older newer (x :: rest) with
  | none =>
      by_cases hn : newer = none
      · simp only [if_pos hn]
      · simp only [if_neg hn, List.cons_append]
  | some j =>
      cases j with
      | zero => rfl
      | succ j => rfl

section Vacates

variable {older newer : Option Nat} {x : OutputNode} {rest : List OutputNode}

theorem tidy_first_nonempty (ht : Tidy (x :: rest)) (hrest : rest ≠ []) :
    x.data ≠ none := fun h => hrest (ht.2 h)

/-- The sought output is in the head. -/
theorem swaps_iff_of_head (ht : Tidy (x :: rest)) (hne : older ≠ newer)
    (hx : x.data = soughtOutput older newer) :
    Swaps (shrinkCells (placeNewer older newer (x :: rest)))
      ↔ VacatesHead older newer (x :: rest) := by
  have hused : usedCell older newer (x :: rest) = some 0 := by
    unfold usedCell
    rw [findOutput_cons, if_pos hx]
    rfl
  have htarget : targetCell older newer (x :: rest) = some 0 := by
    unfold targetCell
    rw [hused]
    rfl
  rw [placeNewer_cons, htarget, hused]
  show Swaps (shrinkCells (⟨newer, false⟩ :: blankFrom newer (some 0) 1 rest)) ↔ _
  rw [swaps_shrinkCells_cons]
  show newer = none ∧ _ ↔ older ≠ newer ∧ _
  unfold soughtOutput at hx
  by_cases ho : older = none
  · -- an output is added that the head already holds
    have hn : newer ≠ none := fun h => hne (ho.trans h.symm)
    constructor
    · intro h
      exact absurd h.1 hn
    · intro h
      rcases h.2 with ⟨-, h, -⟩ | ⟨-, h, -⟩
      · exact absurd h hn
      · exact absurd ho h
  · rw [if_neg ho] at hx
    constructor
    · intro ⟨hn, n, hmem, hd⟩
      refine ⟨hne, .inl ⟨hx, hn, ?_⟩⟩
      intro hnil
      rw [hnil] at hmem
      exact absurd hmem List.not_mem_nil
    · intro h
      rcases h.2 with ⟨-, hn, hrest⟩ | ⟨hnew, -⟩
      · refine ⟨hn, ?_⟩
        rw [hn, blankFrom_eq_self ht.1]
        obtain ⟨n, ns, rfl⟩ := List.exists_cons_of_ne_nil hrest
        exact ⟨n, List.mem_cons_self, ht.1 n List.mem_cons_self⟩
      · exact absurd (hx.symm.trans hnew) hne

/-- The sought output is behind the head. -/
theorem swaps_iff_of_rest (ht : Tidy (x :: rest)) (hne : older ≠ newer)
    (hx : x.data ≠ soughtOutput older newer) {j : Nat}
    (hj : findOutput (soughtOutput older newer) rest = some j) :
    Swaps (shrinkCells (placeNewer older newer (x :: rest)))
      ↔ VacatesHead older newer (x :: rest) := by
  have hlt := findOutput_lt hj
  have hrest : rest ≠ [] := by
    intro hnil
    rw [hnil] at hlt
    exact absurd hlt (Nat.not_lt_zero _)
  have hfull := tidy_first_nonempty ht hrest
  have hused : usedCell older newer (x :: rest) = some (j + 1) := by
    unfold usedCell
    rw [findOutput_cons, if_neg hx, hj]
    rfl
  have htarget : targetCell older newer (x :: rest) = some (j + 1) := by
    unfold targetCell
    rw [hused]
    rfl
  have hfound : ∃ n ∈ rest, n.data = soughtOutput older newer := by
    by_contra hno
    push Not at hno
    rw [findOutput_eq_none.mpr hno] at hj
    exact absurd hj (by simp)
  rw [placeNewer_cons, htarget, hused]
  show Swaps (shrinkCells (blankedHead newer (some (j + 1)) x :: _)) ↔ _
  rw [swaps_shrinkCells_cons]
  show _ ↔ older ≠ newer ∧ _
  unfold blankedHead
  by_cases hxn : x.data = newer
  · -- the head is blanked, and its output is put in the place of `older`
    have hn : newer ≠ none := fun h => hfull (hxn.trans h)
    have ho : older ≠ none := by
      intro ho
      apply hx
      unfold soughtOutput
      rw [if_pos ho]
      exact hxn
    rw [if_pos ⟨hxn, by simp⟩]
    unfold soughtOutput at hfound
    rw [if_neg ho] at hfound
    refine ⟨fun _ => ⟨hne, .inr ⟨hxn, ho, hfound⟩⟩, fun _ => ⟨rfl, ⟨newer, false⟩, ?_, hn⟩⟩
    have hlt' : j < (blankFrom newer (some (j + 1)) 1 rest).length := by
      rw [blankFrom_length]
      exact hlt
    exact List.mem_set hlt' _
  -- the head stays, and it is full
  · rw [if_neg (fun h => hxn h.1)]
    constructor
    · intro h
      exact absurd h.1 hfull
    · intro h
      rcases h.2 with ⟨hxo, hn, -⟩ | ⟨h, -⟩
      · exfalso
        apply hx
        unfold soughtOutput
        rw [if_neg (fun ho => hfull (hxo.trans ho))]
        exact hxo
      · exact absurd h hxn

/-- The sought output is not listed. -/
theorem swaps_iff_of_absent (ht : Tidy (x :: rest)) (hne : older ≠ newer)
    (hx : x.data ≠ soughtOutput older newer)
    (hj : findOutput (soughtOutput older newer) rest = none) :
    Swaps (shrinkCells (placeNewer older newer (x :: rest)))
      ↔ VacatesHead older newer (x :: rest) := by
  have hnot : ¬ VacatesHead older newer (x :: rest) := by
    intro ⟨_, h⟩
    unfold soughtOutput at hx hj
    by_cases ho : older = none
    · rw [if_pos ho] at hx
      rcases h with ⟨-, hn, -⟩ | ⟨hxn, -⟩
      · exact hne (ho.trans hn.symm)
      · exact hx hxn
    · rw [if_neg ho] at hx hj
      rcases h with ⟨hxo, -⟩ | ⟨-, -, n, hmem, hd⟩
      · exact hx hxo
      · exact findOutput_eq_none.mp hj n hmem hd
  -- so a swap would need an empty head behind the update, and there is none
  refine ⟨fun h => ?_, fun h => absurd h hnot⟩
  exfalso
  have hused : usedCell older newer (x :: rest) = findOutput newer (x :: rest) := by
    unfold usedCell
    rw [findOutput_cons, if_neg hx, hj]
    rfl
  rw [placeNewer_cons] at h
  by_cases hxd : x.data = none
  · -- the head is empty: `newer` is put there
    have hnil := ht.2 hxd
    have htarget : targetCell older newer (x :: rest) = some 0 := by
      unfold targetCell
      rw [hused, findOutput_cons, findOutput_cons, if_pos hxd, hnil]
      by_cases hn : x.data = newer
      · rw [if_pos hn]
        rfl
      · rw [if_neg hn]
        rfl
    rw [htarget, hnil] at h
    exact h
  -- `newer` keeps its cell or is appended, the head stays full
  · have hempty : findOutput none (x :: rest) = none := by
      rw [findOutput_eq_none]
      intro n hn
      rcases List.mem_cons.mp hn with rfl | hn
      · exact hxd
      · exact ht.1 n hn
    have htarget : targetCell older newer (x :: rest) = findOutput newer (x :: rest) := by
      unfold targetCell
      rw [hused, hempty, Option.or_none]
    rw [htarget, hused, findOutput_cons] at h
    by_cases hxn : x.data = newer
    · rw [if_pos hxn] at h
      have hhead := (swaps_shrinkCells_cons _ _).mp h
      exact hxd (hxn.trans hhead.1)
    · rw [if_neg hxn] at h
      have hhead : blankedHead newer ((findOutput newer rest).map (· + 1)) x = x :=
        if_neg (fun h => hxn h.1)
      rw [hhead] at h
      cases hr : findOutput newer rest with
      | none =>
          rw [hr] at h
          exact hxd ((swaps_shrinkCells_cons _ _).mp h).1
      | some i =>
          rw [hr] at h
          exact hxd ((swaps_shrinkCells_cons _ _).mp h).1

end Vacates

/-- **The last node is moved into the head** exactly when the update vacates
the head. -/
theorem swaps_iff {older newer : Option Nat} {cells : List OutputNode}
    (ht : Tidy cells) (hne : older ≠ newer) :
    Swaps (shrinkCells (placeNewer older newer cells)) ↔ VacatesHead older newer cells := by
  cases cells with
  | nil =>
      refine ⟨fun h => ?_, fun h => h.elim⟩
      unfold placeNewer at h
      by_cases hn : newer = none
      · simp only [hn] at h
        exact h
      · have htarget : targetCell older newer [] = none := by
          unfold targetCell usedCell
          rw [findOutput_nil, findOutput_nil, findOutput_nil]
          rfl
        simp only [htarget, if_neg hn] at h
        exact h
  | cons x rest =>
      by_cases hx : x.data = soughtOutput older newer
      · exact swaps_iff_of_head ht hne hx
      · cases hj : findOutput (soughtOutput older newer) rest with
        | some j => exact swaps_iff_of_rest ht hne hx hj
        | none => exact swaps_iff_of_absent ht hne hx hj

/-! ## §6. Enabled outputs. -/

/-- Only cells with an output are enabled. -/
def EnabledFull (cells : List OutputNode) : Prop :=
  ∀ n ∈ cells, n.enable = true → n.data ≠ none

theorem blankFrom_enabledFull {newer used : Option Nat} {cells : List OutputNode}
    (he : EnabledFull cells) : ∀ k, EnabledFull (blankFrom newer used k cells) := by
  induction cells with
  | nil => exact fun _ => he
  | cons n ns ih =>
      intro k m hm
      unfold blankFrom at hm
      rcases List.mem_cons.mp hm with rfl | hm
      · by_cases hn : n.data = newer ∧ used ≠ some k
        · rw [if_pos hn]
          exact fun h => absurd h (by simp [OutputNode.zero])
        · rw [if_neg hn]
          exact he n List.mem_cons_self
      · exact ih (fun c hc => he c (List.mem_cons_of_mem _ hc)) (k + 1) m hm

theorem placeNewer_enabledFull {older newer : Option Nat} {cells : List OutputNode}
    (he : EnabledFull cells) : EnabledFull (placeNewer older newer cells) := by
  have hblank : EnabledFull (blankOthers newer (usedCell older newer cells) cells) :=
    blankFrom_enabledFull he 0
  unfold placeNewer
  cases targetCell older newer cells with
  | some i =>
      intro n hn
      rcases List.mem_or_eq_of_mem_set hn with hn | rfl
      · exact hblank n hn
      · exact fun h => absurd h (by simp)
  | none =>
      by_cases hnone : newer = none
      · simp only [if_pos hnone]
        exact hblank
      · simp only [if_neg hnone]
        intro n hn
        rcases List.mem_append.mp hn with hn | hn
        · exact hblank n hn
        · obtain rfl : n = ⟨newer, false⟩ := by simpa using hn
          exact fun h => absurd h (by simp)

/-- What is left is an output, or was there before. -/
theorem mem_swapCells_shrinkCells {cells : List OutputNode} {n : OutputNode}
    (hn : n ∈ swapCells (shrinkCells cells)) : n.data ≠ none ∨ n ∈ cells := by
  cases cells with
  | nil => exact absurd hn List.not_mem_nil
  | cons c cs =>
      -- behind the head only cells with an output are left
      have hkept : ∀ m ∈ cs.filter (fun n => n.data ≠ none), m.data ≠ none := by
        intro m hm
        simpa using (List.mem_filter.mp hm).2
      change n ∈ swapCells (c :: cs.filter (fun n => n.data ≠ none)) at hn
      cases hcs : cs.filter (fun n => n.data ≠ none) with
      | nil =>
          rw [hcs] at hn
          obtain rfl : n = c := List.mem_singleton.mp hn
          exact .inr List.mem_cons_self
      | cons d ds =>
          rw [hcs, swapCells_cons_cons] at hn
          rw [hcs] at hkept
          -- an empty head takes the output of the last cell
          by_cases hc : c.data = none
          · rw [if_pos hc] at hn
            rcases List.mem_cons.mp hn with rfl | hn
            · have hlast := hkept _ (List.getLast_mem (List.cons_ne_nil d ds))
              exact .inl hlast
            · exact .inl (hkept n (List.dropLast_subset _ hn))
          · rw [if_neg hc] at hn
            rcases List.mem_cons.mp hn with rfl | hn
            · exact .inr List.mem_cons_self
            · exact .inl (hkept n hn)

theorem updateCells_enabledFull {older newer : Option Nat} {cells : List OutputNode}
    (he : EnabledFull cells) : EnabledFull (updateCells older newer cells) := by
  unfold updateCells
  by_cases h : older = newer
  · rw [if_pos h]
    exact he
  · rw [if_neg h]
    intro n hn henable
    rcases mem_swapCells_shrinkCells hn with hdata | hmem
    · exact hdata
    · exact placeNewer_enabledFull he n hmem henable

theorem switchCells_enabledFull {output : Nat} {enable : Bool} {cells : List OutputNode}
    (he : EnabledFull cells) : EnabledFull (switchCells output enable cells) := by
  induction cells with
  | nil => exact he
  | cons c cs ih =>
      have hrest : EnabledFull cs := fun n hn => he n (List.mem_cons_of_mem _ hn)
      unfold switchCells
      by_cases hc : some output = c.data
      · rw [if_pos hc]
        intro n hn
        rcases List.mem_cons.mp hn with rfl | hn
        · intro _
          show c.data ≠ none
          rw [← hc]
          simp
        · exact hrest n hn
      · rw [if_neg hc]
        intro n hn
        rcases List.mem_cons.mp hn with rfl | hn
        · exact he n List.mem_cons_self
        · exact ih hrest n hn

end MesonDisplay.Helper
