/-
  MesonDisplay.Lib.Cells — cells that are allocated and freed.

  A memory has finitely many cells.  An allocator fails when it likes, and picks
  any address that is not in use, one that was freed before included.

  Main results:
    * `lookup_eraseAll` — what is behind the addresses that were freed.
    * `eraseAll_eq` — freeing what was allocated gives the memory back.
-/
import Mathlib.Data.Finmap
import Mathlib.Order.Lattice.Nat

namespace MesonDisplay.Cells

variable {κ : Type}

abbrev Memory (κ : Type) := Finmap fun _ : Nat => κ

/-- The `n`-th allocation succeeds or not, and picks an address. -/
structure Allocator (κ : Type) where
  ok : Nat → Bool
  pick : Nat → Memory κ → Nat
  unused : ∀ n m, pick n m ∉ m

/-- The one that takes the address behind the last one, and does not fail. -/
instance : Inhabited (Allocator κ) where
  default :=
    { ok := fun _ => true
      pick := fun _ m => m.keys.sup id + 1
      unused := by
        intro _ m hmem
        have hle : m.keys.sup id + 1 ≤ m.keys.sup id :=
          Finset.le_sup (f := id) (Finmap.mem_keys.mpr hmem)
        omega }

/-- Only the cells at these addresses differ. -/
def SameOff (as : List Nat) (m m' : Memory κ) : Prop := ∀ x ∉ as, m'.lookup x = m.lookup x

/-- The memory without these cells; the last one goes first. -/
def eraseAll (as : List Nat) (m : Memory κ) : Memory κ := as.foldr (fun a m => m.erase a) m

theorem eraseAll_append (as as' : List Nat) (m : Memory κ) :
    eraseAll (as ++ as') m = eraseAll as (eraseAll as' m) := List.foldr_append

theorem lookup_eraseAll (as : List Nat) (m : Memory κ) (x : Nat) :
    (eraseAll as m).lookup x = if x ∈ as then none else m.lookup x := by
  induction as with
  | nil => simp [eraseAll]
  | cons a as ih =>
      show ((eraseAll as m).erase a).lookup x = _
      by_cases hx : x = a
      · rw [hx, Finmap.lookup_erase, if_pos List.mem_cons_self]
      · rw [Finmap.lookup_erase_ne hx, ih]
        simp [hx]

/-- **Freeing what was allocated.** -/
theorem eraseAll_eq {as : List Nat} {m m' : Memory κ} (hsame : SameOff as m m')
    (hfresh : ∀ a ∈ as, a ∉ m) : eraseAll as m' = m := by
  refine Finmap.ext_lookup fun x => ?_
  rw [lookup_eraseAll]
  by_cases hx : x ∈ as
  · rw [if_pos hx, Finmap.lookup_eq_none.mpr (hfresh x hx)]
  · rw [if_neg hx, hsame x hx]

/-- So many cells are in the memory. -/
theorem length_le_card {as : List Nat} {m : Memory κ} (hnodup : as.Nodup) (hmem : ∀ a ∈ as, a ∈ m) :
    as.length ≤ m.keys.card := by
  rw [← List.toFinset_card_of_nodup hnodup]
  refine Finset.card_le_card fun a ha => ?_
  exact Finmap.mem_keys.mpr (hmem a (List.mem_toFinset.mp ha))

end MesonDisplay.Cells
