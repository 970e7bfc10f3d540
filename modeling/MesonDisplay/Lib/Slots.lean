/-
  MesonDisplay.Lib.Slots — an array whose live entries come first.

  An array of a fixed length holds `live` entries, followed by empty slots
  with a filler value.  An entry is added in the first empty slot.  An entry is
  removed by moving the last live entry into its place, which empties one slot
  and changes the order of the others.

  `lastFirst` is that change of order, `slots_swapRemove` the two stores that
  bring it about.
-/
import Mathlib.Data.List.Basic
import Mathlib.Order.Lattice

namespace MesonDisplay.Slots

variable {α : Type}

/-! ## §1. Live entries and empty slots. -/

/-- The array with the entries `live` and `n` empty slots. -/
def slots (empty : α) (live : List α) (n : Nat) : List α :=
  live ++ List.replicate n empty

variable {empty : α} {live : List α} {n : Nat}

theorem take_slots : (slots empty live n).take live.length = live := by
  unfold slots
  rw [List.take_append_of_le_length (Nat.le_refl _), List.take_length]

theorem getD_slots_live (A : List α) (b : α) (B : List α) (d : α) :
    (slots empty (A ++ b :: B) n).getD A.length d = b := by
  unfold slots
  rw [List.append_assoc, List.getD_eq_getElem?_getD,
      List.getElem?_append_right (Nat.le_refl _), Nat.sub_self]
  rfl

theorem getD_slots_empty (d : α) :
    (slots empty live (n + 1)).getD live.length d = empty := by
  unfold slots
  rw [List.getD_eq_getElem?_getD, List.getElem?_append_right (Nat.le_refl _),
      Nat.sub_self]
  rfl

theorem getElem?_slots_empty {k : Nat} (hlo : live.length ≤ k)
    (hhi : k < live.length + n) : (slots empty live n)[k]? = some empty := by
  unfold slots
  rw [List.getElem?_append_right hlo, List.getElem?_replicate, if_pos (by omega)]

/-- An entry is added in the first empty slot. -/
theorem slots_push (x : α) :
    (slots empty live (n + 1)).set live.length x = slots empty (live ++ [x]) n := by
  unfold slots
  rw [List.set_append_right _ _ (Nat.le_refl _), Nat.sub_self, List.replicate_succ,
      List.set_cons_zero, List.append_assoc, List.singleton_append]

/-- The last live entry is removed. -/
theorem slots_dropLast (A : List α) (b : α) :
    (slots empty (A ++ [b]) n).set A.length empty = slots empty A (n + 1) := by
  unfold slots
  rw [List.append_assoc, List.set_append_right _ _ (Nat.le_refl _), Nat.sub_self,
      List.singleton_append, List.set_cons_zero, List.replicate_succ]

/-! ## §2. Removal. -/

/-- The entries with the last one moved to the front. -/
def lastFirst : List α → List α
  | [] => []
  | b :: B => (b :: B).getLast (List.cons_ne_nil b B) :: (b :: B).dropLast

theorem lastFirst_concat (B : List α) (x : α) : lastFirst (B ++ [x]) = x :: B := by
  cases B with
  | nil => rfl
  | cons b B =>
      have hdrop : (b :: (B ++ [x])).dropLast = b :: B := by
        rw [← List.cons_append, List.dropLast_concat]
      simp [lastFirst, hdrop]

theorem lastFirst_perm (B : List α) : (lastFirst B).Perm B := by
  rcases List.eq_nil_or_concat B with rfl | ⟨B, x, rfl⟩
  · exact .refl _
  · rw [List.concat_eq_append, lastFirst_concat]
    exact (List.perm_append_singleton x B).symm

/-- **Removal by the last entry.**  The last live entry is stored in the place
of `b`, and its own slot is emptied. -/
theorem slots_swapRemove (A : List α) (b : α) (B : List α) :
    ((slots empty (A ++ b :: B) n).set A.length
        ((slots empty (A ++ b :: B) n).getD (A ++ B).length empty)).set
      (A ++ B).length empty
      = slots empty (A ++ lastFirst B) (n + 1) := by
  rcases List.eq_nil_or_concat B with rfl | ⟨B, x, rfl⟩
  · -- `b` is the last entry itself
    rw [List.append_nil, getD_slots_live A b [], List.set_set, slots_dropLast]
    simp [lastFirst]
  · rw [List.concat_eq_append, lastFirst_concat]
    have hlast : (slots empty (A ++ b :: (B ++ [x])) n).getD (A ++ (B ++ [x])).length empty
        = x := by
      have hlen : (A ++ (B ++ [x])).length = (A ++ b :: B).length := by
        simp only [List.length_append, List.length_cons, List.length_nil]
      have hshape : A ++ b :: (B ++ [x]) = (A ++ b :: B) ++ x :: [] := by simp
      rw [hlen, hshape, getD_slots_live]
    have hset : (slots empty (A ++ b :: (B ++ [x])) n).set A.length x
        = slots empty ((A ++ x :: B) ++ [x]) n := by
      unfold slots
      rw [List.append_assoc, List.set_append_right _ _ (Nat.le_refl _), Nat.sub_self]
      simp
    have hlen : (A ++ (B ++ [x])).length = (A ++ x :: B).length := by
      simp only [List.length_append, List.length_cons, List.length_nil]
    rw [hlast, hset, hlen, slots_dropLast]

/-! ## §3. The greatest entry. -/

/-- A running maximum is at least every entry it has seen. -/
theorem le_foldl_max [LinearOrder α] (l : List α) (m : α) :
    m ≤ l.foldl max m ∧ ∀ x ∈ l, x ≤ l.foldl max m := by
  induction l generalizing m with
  | nil => exact ⟨le_refl m, fun x hx => absurd hx (by simp)⟩
  | cons a l ih =>
      obtain ⟨hm, hl⟩ := ih (max m a)
      rw [List.foldl_cons]
      refine ⟨le_trans (le_max_left m a) hm, ?_⟩
      intro x hx
      rcases List.mem_cons.mp hx with rfl | hx
      · exact le_trans (le_max_right m x) hm
      · exact hl x hx

/-- A running maximum is where it started, or an entry it has seen. -/
theorem foldl_max_mem [LinearOrder α] (l : List α) (m : α) :
    l.foldl max m = m ∨ l.foldl max m ∈ l := by
  induction l generalizing m with
  | nil => exact .inl rfl
  | cons a l ih =>
      rw [List.foldl_cons]
      rcases ih (max m a) with h | h
      · rcases le_total m a with hma | hma
        · right
          rw [h, max_eq_right hma]
          exact List.mem_cons_self
        · left
          rw [h, max_eq_left hma]
      · exact .inr (List.mem_cons_of_mem a h)

end MesonDisplay.Slots
