/-
  MesonDisplay.Lib.Blit — copies into a memory, and copies row by row.

  A memory is a function from offsets.  A copy replaces a range of it; a copy of
  rows replaces one range for each row, in order.  The rows may start anywhere;
  where they do not overlap, each of them is found in the result.

  Main results:
    * `copyRows_outside` — what is in no row is kept.
    * `copyRows_inside` — what is in a row is the source of that row.
-/
import Mathlib.Tactic.Common

namespace MesonDisplay.Blit

variable {β : Type} {mem : Nat → β} {n rows : Nat}

/-! ## §1. One copy. -/

/-- The memory with `n` items of `src` from `dst` on. -/
def copyInto (mem : Nat → β) (dst : Nat) (src : Nat → β) (n : Nat) : Nat → β :=
  fun a => if dst ≤ a ∧ a < dst + n then src (a - dst) else mem a

theorem copyInto_inside {dst k : Nat} {src : Nat → β} (hk : k < n) :
    copyInto mem dst src n (dst + k) = src k := by
  unfold copyInto
  rw [if_pos ⟨Nat.le_add_right dst k, Nat.add_lt_add_left hk dst⟩, Nat.add_sub_cancel_left]

theorem copyInto_outside {dst a : Nat} {src : Nat → β} (ha : a < dst ∨ dst + n ≤ a) :
    copyInto mem dst src n a = mem a := by
  unfold copyInto
  rw [if_neg]
  omega

/-! ## §2. Rows. -/

/-- The rows below `rows`, copied one after the other. -/
def copyRows (mem : Nat → β) (dst : Nat → Nat) (src : Nat → Nat → β) (n : Nat) :
    Nat → Nat → β
  | 0 => mem
  | rows + 1 => copyInto (copyRows mem dst src n rows) (dst rows) (src rows) n

/-- Only the rows that are copied matter. -/
theorem copyRows_congr {dst dst' : Nat → Nat} {src src' : Nat → Nat → β}
    (hdst : ∀ i, i < rows → dst i = dst' i) (hsrc : ∀ i, i < rows → src i = src' i) :
    copyRows mem dst src n rows = copyRows mem dst' src' n rows := by
  induction rows with
  | zero => rfl
  | succ rows ih =>
      unfold copyRows
      rw [hdst rows (Nat.lt_succ_self rows), hsrc rows (Nat.lt_succ_self rows),
        ih (fun i hi => hdst i (Nat.lt_succ_of_lt hi)) (fun i hi => hsrc i (Nat.lt_succ_of_lt hi))]

/-- The offset is in one of the rows. -/
def InRows (dst : Nat → Nat) (n rows a : Nat) : Prop :=
  ∃ i, i < rows ∧ dst i ≤ a ∧ a < dst i + n

theorem copyRows_outside {dst : Nat → Nat} {src : Nat → Nat → β} {a : Nat}
    (ha : ¬ InRows dst n rows a) : copyRows mem dst src n rows a = mem a := by
  induction rows with
  | zero => rfl
  | succ rows ih =>
      unfold copyRows
      rw [copyInto_outside]
      · refine ih fun h => ha ?_
        obtain ⟨i, hi, hrow⟩ := h
        exact ⟨i, Nat.lt_succ_of_lt hi, hrow⟩
      · by_contra h
        exact ha ⟨rows, Nat.lt_succ_self rows, by omega, by omega⟩

theorem copyRows_inside {dst : Nat → Nat} {src : Nat → Nat → β}
    (hapart : ∀ i j, i < j → j < rows → dst i + n ≤ dst j) {i k : Nat} (hi : i < rows)
    (hk : k < n) : copyRows mem dst src n rows (dst i + k) = src i k := by
  induction rows with
  | zero => exact absurd hi (Nat.not_lt_zero i)
  | succ rows ih =>
      unfold copyRows
      rcases Nat.lt_succ_iff_lt_or_eq.mp hi with hlt | rfl
      -- an earlier row ends before the last one begins
      · have hbefore := hapart i rows hlt (Nat.lt_succ_self rows)
        rw [copyInto_outside (by omega)]
        exact ih (fun i j hij hj => hapart i j hij (Nat.lt_succ_of_lt hj)) hlt
      · exact copyInto_inside hk

/-- Behind the beginning of the last row there is only the last row. -/
theorem copyRows_last {dst : Nat → Nat} {src : Nat → Nat → β} {a : Nat}
    (hbefore : ∀ i, i < rows → dst i + n ≤ dst rows) (ha : dst rows ≤ a) :
    copyRows mem dst src n (rows + 1) a
      = if a < dst rows + n then src rows (a - dst rows) else mem a := by
  unfold copyRows copyInto
  by_cases hlt : a < dst rows + n
  · rw [if_pos ⟨ha, hlt⟩, if_pos hlt]
  · rw [if_neg fun h => hlt h.2, if_neg hlt]
    refine copyRows_outside ?_
    rintro ⟨i, hi, -, hend⟩
    have hrow := hbefore i hi
    omega

end MesonDisplay.Blit
