/-
  MesonDisplay.Lib.FirstMax — the first of the largest items of a list.

  Only the items that are admitted count.  A loop that keeps the best item so
  far goes through the list from the front, so the rules say what one more item
  at the end changes.

  Main results:
    * `FirstMax.concat_of_le`, `FirstMax.concat_of_lt`, `firstMax_concat` — the
      next item is not better, is better, or is the first that is admitted.
    * `FirstMax.unique` — there is one such item.
-/
import Mathlib.Order.Lattice
import Mathlib.Data.List.Basic

namespace MesonDisplay.Ranking

variable {α κ : Type} [LinearOrder κ] {key : α → κ} {admits : α → Prop} {xs : List α} {k : Nat}
  {x y : α}

/-- Item `k` is the first of the admitted items with the largest key. -/
structure FirstMax (key : α → κ) (admits : α → Prop) (xs : List α) (k : Nat) (x : α) : Prop where
  item : xs[k]? = some x
  admitted : admits x
  largest : ∀ y ∈ xs, admits y → key y ≤ key x
  first : ∀ j y, j < k → xs[j]? = some y → admits y → key y < key x

theorem FirstMax.lt_length (h : FirstMax key admits xs k x) : k < xs.length :=
  (List.getElem?_eq_some_iff.mp h.item).1

theorem FirstMax.mem (h : FirstMax key admits xs k x) : x ∈ xs := List.mem_of_getElem? h.item

/-- An item in front of the end is an item of the longer list. -/
theorem getElem?_concat_of_lt {j : Nat} (hj : j < xs.length) : (xs ++ [y])[j]? = xs[j]? :=
  List.getElem?_append_left hj

/-! ## §1. One more item. -/

theorem FirstMax.concat_of_le (h : FirstMax key admits xs k x) (hy : admits y → key y ≤ key x) :
    FirstMax key admits (xs ++ [y]) k x where
  item := by
    rw [getElem?_concat_of_lt h.lt_length]
    exact h.item
  admitted := h.admitted
  largest := by
    intro z hz hadmits
    rcases List.mem_append.mp hz with hold | hnew
    · exact h.largest z hold hadmits
    · obtain rfl := List.mem_singleton.mp hnew
      exact hy hadmits
  first := by
    intro j z hj hz
    rw [getElem?_concat_of_lt (Nat.lt_trans hj h.lt_length)] at hz
    exact h.first j z hj hz

/-- The new item, if every admitted one in front of it has a smaller key. -/
theorem firstMax_concat_of_lt (hy : admits y) (hlt : ∀ z ∈ xs, admits z → key z < key y) :
    FirstMax key admits (xs ++ [y]) xs.length y where
  item := List.getElem?_concat_length
  admitted := hy
  largest := by
    intro z hz hadmits
    rcases List.mem_append.mp hz with hold | hnew
    · exact (hlt z hold hadmits).le
    · obtain rfl := List.mem_singleton.mp hnew
      exact le_rfl
  first := by
    intro j z hj hz
    rw [getElem?_concat_of_lt hj] at hz
    exact hlt z (List.mem_of_getElem? hz)

theorem FirstMax.concat_of_lt (h : FirstMax key admits xs k x) (hy : admits y)
    (hlt : key x < key y) : FirstMax key admits (xs ++ [y]) xs.length y :=
  firstMax_concat_of_lt hy fun z hz hadmits => (h.largest z hz hadmits).trans_lt hlt

theorem firstMax_concat (hnone : ∀ z ∈ xs, ¬ admits z) (hy : admits y) :
    FirstMax key admits (xs ++ [y]) xs.length y :=
  firstMax_concat_of_lt hy fun z hz hadmits => absurd hadmits (hnone z hz)

/-! ## §2. Two lists of keys, and two items. -/

/-- Only what the items of the list are told by matters. -/
theorem FirstMax.congr {key' : α → κ} {admits' : α → Prop} (h : FirstMax key admits xs k x)
    (hkey : ∀ y ∈ xs, key' y = key y) (hadmits : ∀ y ∈ xs, admits' y ↔ admits y) :
    FirstMax key' admits' xs k x where
  item := h.item
  admitted := (hadmits x h.mem).mpr h.admitted
  largest := by
    intro y hy hadm
    rw [hkey y hy, hkey x h.mem]
    exact h.largest y hy ((hadmits y hy).mp hadm)
  first := by
    intro j y hj hy hadm
    have hmem : y ∈ xs := List.mem_of_getElem? hy
    rw [hkey y hmem, hkey x h.mem]
    exact h.first j y hj hy ((hadmits y hmem).mp hadm)

/-- There is one first item. -/
theorem FirstMax.unique {k' : Nat} (h : FirstMax key admits xs k x)
    (h' : FirstMax key admits xs k' y) : k = k' ∧ x = y := by
  have hnot : ∀ {i j : Nat} {u v : α}, FirstMax key admits xs i u → FirstMax key admits xs j v →
      ¬ i < j := by
    intro i j u v hu hv hlt
    exact absurd (hv.first i u hlt hu.item hu.admitted)
      (not_lt_of_ge (hu.largest v hv.mem hv.admitted))
  obtain rfl : k = k' := Nat.le_antisymm (not_lt.mp (hnot h' h)) (not_lt.mp (hnot h h'))
  exact ⟨rfl, Option.some.inj (h.item.symm.trans h'.item)⟩

end MesonDisplay.Ranking
