/-
  MesonDisplay.Lib.Ledger — what is given back, each thing once.

  A list of things that are given back lists a set when it has every member of
  the set once and nothing else.  That is what a release should be: no thing
  twice, none that was not held, none left behind but those the set leaves out.

  Main results:
    * `Lists.append` — two releases of different things, one after the other.
    * `lists_indexed` — a loop over the positions of a list.
    * `lists_first` — a loop that stops at the first position without something.
-/
import Mathlib.Data.List.Nodup
import Mathlib.Data.List.TakeWhile
import Mathlib.Data.List.Range

namespace MesonDisplay.Ledger

variable {α β : Type}

def Lists (back : List β) (P : β → Prop) : Prop :=
  back.Nodup ∧ ∀ b, b ∈ back ↔ P b

theorem Lists.congr {back : List β} {P Q : β → Prop} (h : Lists back P) (hiff : ∀ b, P b ↔ Q b) :
    Lists back Q :=
  ⟨h.1, fun b => (h.2 b).trans (hiff b)⟩

theorem lists_nil {P : β → Prop} (h : ∀ b, ¬ P b) : Lists [] P :=
  ⟨List.nodup_nil, fun b => iff_of_false List.not_mem_nil (h b)⟩

theorem lists_one (b : β) : Lists [b] (· = b) :=
  ⟨List.nodup_singleton b, fun _ => List.mem_singleton⟩

/-- One thing, if there is one. -/
theorem lists_if (c : Prop) [Decidable c] (b : β) :
    Lists (if c then [b] else []) fun b' => c ∧ b' = b := by
  by_cases hc : c
  · rw [if_pos hc]
    exact (lists_one b).congr fun _ => (and_iff_right hc).symm
  · rw [if_neg hc]
    exact lists_nil fun _ h => hc h.1

theorem Lists.append {back back' : List β} {P Q : β → Prop} (h : Lists back P)
    (h' : Lists back' Q) (hne : ∀ b, P b → ¬ Q b) : Lists (back ++ back') fun b => P b ∨ Q b := by
  constructor
  · refine List.nodup_append.mpr ⟨h.1, h'.1, ?_⟩
    rintro b hb _ hb' rfl
    exact hne b ((h.2 b).mp hb) ((h'.2 b).mp hb')
  · intro b
    rw [List.mem_append, h.2, h'.2]

/-- The same things under other names. -/
theorem Lists.map {back : List α} {P : α → Prop} (h : Lists back P) {f : α → β}
    (hf : Function.Injective f) : Lists (back.map f) fun b => ∃ a, P a ∧ f a = b := by
  constructor
  · exact h.1.map hf
  · intro b
    rw [List.mem_map]
    exact exists_congr fun a => and_congr_left fun _ => h.2 a

/-- **A loop over the positions.**  What one position gives back is not what
another one does. -/
theorem lists_indexed {f : Nat → α → List β} {P : Nat → α → β → Prop} (xs : List α)
    (hf : ∀ i x, Lists (f i x) (P i x))
    (hne : ∀ i j x y b, P i x b → P j y b → i = j) :
    Lists (xs.mapIdx f).flatten fun b => ∃ i x, xs[i]? = some x ∧ P i x b := by
  constructor
  · refine List.nodup_flatten.mpr ⟨?_, ?_⟩
    · intro l hl
      obtain ⟨i, hi, rfl⟩ := List.mem_mapIdx.mp hl
      exact (hf i _).1
    · refine List.pairwise_iff_getElem.mpr fun i j hi hj hij => ?_
      intro b hb hb'
      rw [List.getElem_mapIdx] at hb hb'
      have hsame : i = j := hne i j _ _ b (((hf i _).2 b).mp hb) (((hf j _).2 b).mp hb')
      omega
  · intro b
    constructor
    · intro hb
      obtain ⟨l, hl, hbl⟩ := List.mem_flatten.mp hb
      obtain ⟨i, hi, rfl⟩ := List.mem_mapIdx.mp hl
      exact ⟨i, xs[i], List.getElem?_eq_getElem hi, ((hf i _).2 b).mp hbl⟩
    · rintro ⟨i, x, hx, hP⟩
      obtain ⟨hi, rfl⟩ := List.getElem?_eq_some_iff.mp hx
      exact List.mem_flatten.mpr
        ⟨f i xs[i], List.mem_mapIdx.mpr ⟨i, hi, rfl⟩, ((hf i _).2 b).mpr hP⟩

/-- The positions before the first one without something. -/
theorem lt_takeWhile_iff (p : α → Bool) (xs : List α) (i : Nat) :
    i < (xs.takeWhile p).length ↔ ∀ j ≤ i, ∃ x, xs[j]? = some x ∧ p x = true := by
  induction xs generalizing i with
  | nil => exact iff_of_false (by simp) fun h => by simpa using h 0 (Nat.zero_le i)
  | cons x xs ih =>
      by_cases hx : p x = true
      · rw [List.takeWhile_cons_of_pos hx]
        cases i with
        | zero =>
            refine iff_of_true (by simp) fun j hj => ?_
            obtain rfl : j = 0 := by omega
            exact ⟨x, rfl, hx⟩
        | succ i =>
            rw [List.length_cons, Nat.succ_lt_succ_iff, ih]
            constructor
            · intro h j hj
              cases j with
              | zero => exact ⟨x, rfl, hx⟩
              | succ j => exact h j (by omega)
            · intro h j hj
              exact h (j + 1) (by omega)
      · rw [List.takeWhile_cons_of_neg hx]
        refine iff_of_false (by simp) fun h => ?_
        obtain ⟨y, hy, hpy⟩ := h 0 (Nat.zero_le i)
        obtain rfl := Option.some.inj hy
        exact hx hpy

/-- **A loop that stops** at the first position without something. -/
theorem lists_first (p : α → Bool) (xs : List α) {f : Nat → β} (hf : Function.Injective f) :
    Lists ((List.range (xs.takeWhile p).length).map f) fun b =>
      ∃ i, (∀ j ≤ i, ∃ x, xs[j]? = some x ∧ p x = true) ∧ f i = b := by
  have hrange : Lists (List.range (xs.takeWhile p).length)
      fun i => ∀ j ≤ i, ∃ x, xs[j]? = some x ∧ p x = true :=
    ⟨List.nodup_range, fun i => List.mem_range.trans (lt_takeWhile_iff p xs i)⟩
  exact hrange.map hf

end MesonDisplay.Ledger
