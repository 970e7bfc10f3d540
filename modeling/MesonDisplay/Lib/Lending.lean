/-
  MesonDisplay.Lib.Lending — an owner who lends some of its items.

  The owner keeps a flag for each item that says whether it is lent; the
  borrower has the set of what it was given and not yet gave back.  The two are
  kept by different parties, and are told of each other's moves by messages.

  Main results:
    * `Noted.lend`, `Noted.back` — the two moves keep the flags right.
    * `Noted.exists_free_iff` — some item is at home unless the borrower has
      all of them.
    * `Noted.card_busy` — counting the flags counts what is lent.
    * `Accounted.receive`, `Accounted.dispose` — no token that is kept with an
      item is lost or disposed of twice.
-/
import Mathlib.Data.Fintype.Card
import Mathlib.Data.Finset.Card
import Mathlib.Data.List.Perm.Basic

namespace MesonDisplay.Lending

variable {ι : Type} {busy : ι → Bool} {lent : Finset ι}

/-- The flags say what the borrower has. -/
def Noted (busy : ι → Bool) (lent : Finset ι) : Prop := ∀ i, busy i = true ↔ i ∈ lent

theorem noted_nothing : Noted (fun _ : ι => false) ∅ := by
  intro i
  simp

theorem Noted.free_iff (h : Noted busy lent) (i : ι) : busy i = false ↔ i ∉ lent := by
  rw [← h i, Bool.not_eq_true]

theorem Noted.exists_free_iff [Fintype ι] (h : Noted busy lent) :
    (∃ i, busy i = false) ↔ lent ≠ Finset.univ := by
  constructor
  · intro hfree hall
    obtain ⟨i, hi⟩ := hfree
    exact (h.free_iff i).mp hi (hall ▸ Finset.mem_univ i)
  · intro hne
    by_contra hnone
    apply hne
    rw [Finset.eq_univ_iff_forall]
    intro i
    by_contra hi
    exact hnone ⟨i, (h.free_iff i).mpr hi⟩

theorem Noted.card_busy [Fintype ι] (h : Noted busy lent) :
    (Finset.univ.filter fun i => busy i = true).card = lent.card := by
  congr 1
  ext i
  rw [Finset.mem_filter, h i]
  exact ⟨And.right, fun hmem => ⟨Finset.mem_univ i, hmem⟩⟩

variable [DecidableEq ι]

theorem Noted.lend (h : Noted busy lent) (i : ι) :
    Noted (Function.update busy i true) (insert i lent) := by
  intro j
  by_cases hj : j = i
  · subst hj
    simp
  · rw [Function.update_of_ne hj, h j, Finset.mem_insert]
    exact ⟨Or.inr, fun hor => hor.resolve_left hj⟩

theorem Noted.back (h : Noted busy lent) (i : ι) :
    Noted (Function.update busy i false) (lent.erase i) := by
  intro j
  by_cases hj : j = i
  · subst hj
    simp
  · rw [Function.update_of_ne hj, h j, Finset.mem_erase]
    exact ⟨fun hmem => ⟨hj, hmem⟩, And.right⟩

/-! ## Tokens. -/

section Tokens

variable {τ : Type} {items : List ι} {slot : ι → Option τ} {i : ι} {x : τ}

/-- The tokens that are kept with the items. -/
def stored (slot : ι → Option τ) (items : List ι) : List τ := items.filterMap slot

omit [DecidableEq ι] in
theorem stored_congr {slot' : ι → Option τ} (h : ∀ j ∈ items, slot' j = slot j) :
    stored slot' items = stored slot items := by
  induction items with
  | nil => rfl
  | cons j items ih =>
      obtain ⟨hj, htail⟩ := List.forall_mem_cons.mp h
      unfold stored at ih ⊢
      rw [List.filterMap_cons, List.filterMap_cons, hj, ih htail]

theorem stored_put (hnd : items.Nodup) (hi : i ∈ items) (hempty : slot i = none) :
    (stored (Function.update slot i (some x)) items).Perm (x :: stored slot items) := by
  induction items with
  | nil => exact absurd hi List.not_mem_nil
  | cons j items ih =>
      obtain ⟨hj, hnd⟩ := List.nodup_cons.mp hnd
      by_cases hij : i = j
      · subst hij
        have htail : stored (Function.update slot i (some x)) items = stored slot items :=
          stored_congr fun k hk => Function.update_of_ne (ne_of_mem_of_not_mem hk hj) _ _
        unfold stored at htail ⊢
        rw [List.filterMap_cons, List.filterMap_cons, Function.update_self, hempty, htail]
      · have hi : i ∈ items := (List.mem_cons.mp hi).resolve_left hij
        have hhead : Function.update slot i (some x) j = slot j :=
          Function.update_of_ne (Ne.symm hij) _ _
        have htail := ih hnd hi
        unfold stored at htail ⊢
        rw [List.filterMap_cons, List.filterMap_cons, hhead]
        cases slot j with
        | none => exact htail
        | some y => exact (htail.cons y).trans (List.Perm.swap x y _)

theorem stored_take (hnd : items.Nodup) (hi : i ∈ items) (hfull : slot i = some x) :
    (stored slot items).Perm (x :: stored (Function.update slot i none) items) := by
  have hput : Function.update (Function.update slot i none) i (some x) = slot := by
    rw [Function.update_idem, ← hfull, Function.update_eq_self]
  have hperm : (stored (Function.update (Function.update slot i none) i (some x)) items).Perm
      (x :: stored (Function.update slot i none) items) :=
    stored_put hnd hi (Function.update_self i none slot)
  rwa [hput] at hperm

/-- So many tokens were received, one after the other.  Each of them is kept with
one item, or was disposed of once. -/
def Accounted (items : List ι) (gone : List Nat) (slot : ι → Option Nat) (received : Nat) : Prop :=
  (gone ++ stored slot items).Perm (List.range received)

variable {gone : List Nat} {slot : ι → Option Nat} {received : Nat}

omit [DecidableEq ι] in
theorem accounted_nothing : Accounted items [] (fun _ => none) 0 := by
  unfold Accounted stored
  simp

theorem Accounted.receive (h : Accounted items gone slot received) (hnd : items.Nodup)
    (hi : i ∈ items) (hempty : slot i = none) :
    Accounted items gone (Function.update slot i (some received)) (received + 1) := by
  unfold Accounted at h ⊢
  rw [List.range_succ]
  have hput := (stored_put (x := received) hnd hi hempty).append_left gone
  have hfront := (hput.trans List.perm_middle).trans (h.cons received)
  exact hfront.trans (List.perm_append_singleton _ _).symm

theorem Accounted.dispose (h : Accounted items gone slot received) (hnd : items.Nodup)
    (hi : i ∈ items) {x : Nat} (hfull : slot i = some x) :
    Accounted items (gone ++ [x]) (Function.update slot i none) received := by
  have hperm := ((stored_take hnd hi hfull).append_left gone).symm
  unfold Accounted at h ⊢
  rw [List.append_assoc]
  exact hperm.trans h

end Tokens

end MesonDisplay.Lending
