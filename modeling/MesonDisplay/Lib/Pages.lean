/-
  MesonDisplay.Lib.Pages — the pages of a process.

  A space says who holds a page.  `mmap` takes an extent of free pages for a
  length in bytes, `munmap` gives back whatever is in one.

  Main results:
    * `Records.map` — which pages the extents of a list hold, with one more.
    * `Records.unmap_last` — giving back the last extent keeps the other ones.
-/
import Mathlib.Algebra.Order.Ring.Nat
import Mathlib.Data.List.Basic

namespace MesonDisplay.Pages

/-! ## §1. Extents. -/

def pageSize : Nat := 4096

/-- How many pages this many bytes are in. -/
def pagesOf (length : Nat) : Nat := (length + (pageSize - 1)) / pageSize

structure Extent where
  first : Nat
  count : Nat
  deriving DecidableEq, Repr

def Extent.Has (e : Extent) (p : Nat) : Prop := e.first ≤ p ∧ p < e.first + e.count

instance (e : Extent) (p : Nat) : Decidable (e.Has p) := inferInstanceAs (Decidable (_ ∧ _))

abbrev Space (κ : Type) := Nat → Option κ

variable {κ : Type}

def Space.Free (m : Space κ) (e : Extent) : Prop := ∀ i < e.count, m (e.first + i) = none

instance [DecidableEq κ] (m : Space κ) (e : Extent) : Decidable (m.Free e) :=
  inferInstanceAs (Decidable (∀ i < e.count, m (e.first + i) = none))

theorem Space.Free.of_has {m : Space κ} {e : Extent} (h : m.Free e) {p : Nat} (hp : e.Has p) :
    m p = none := by
  have hlt : p - e.first < e.count := Nat.sub_lt_left_of_lt_add hp.1 hp.2
  have hfree := h (p - e.first) hlt
  rwa [Nat.add_sub_cancel' hp.1] at hfree

def Space.map (m : Space κ) (e : Extent) (k : κ) : Space κ :=
  fun p => if e.Has p then some k else m p

def Space.unmap (m : Space κ) (e : Extent) : Space κ :=
  fun p => if e.Has p then none else m p

/-- `munmap`: EINVAL for an address that is not the first of a page, and for no
bytes at all. -/
def Space.munmap (m : Space κ) (address length : Nat) : Space κ :=
  if address % pageSize = 0 ∧ length ≠ 0 then m.unmap ⟨address / pageSize, pagesOf length⟩ else m

@[simp] theorem Space.map_eq_some {m : Space κ} {e : Extent} {k k' : κ} {p : Nat} :
    m.map e k p = some k' ↔ e.Has p ∧ k = k' ∨ ¬ e.Has p ∧ m p = some k' := by
  unfold Space.map
  by_cases hp : e.Has p <;> simp [hp]

@[simp] theorem Space.unmap_eq_some {m : Space κ} {e : Extent} {k : κ} {p : Nat} :
    m.unmap e p = some k ↔ ¬ e.Has p ∧ m p = some k := by
  unfold Space.unmap
  by_cases hp : e.Has p <;> simp [hp]

/-- An extent that begins with the page of an address. -/
theorem Space.munmap_extent (m : Space κ) {e : Extent} {length : Nat} (hlen : length ≠ 0)
    (hcount : e.count = pagesOf length) : m.munmap (e.first * pageSize) length = m.unmap e := by
  have halign : e.first * pageSize % pageSize = 0 := Nat.mul_mod_left _ _
  have hfirst : e.first * pageSize / pageSize = e.first :=
    Nat.mul_div_cancel _ (by decide)
  unfold Space.munmap
  rw [if_pos ⟨halign, hlen⟩, hfirst, ← hcount]

theorem Space.munmap_unaligned (m : Space κ) {address : Nat} (h : address % pageSize ≠ 0)
    (length : Nat) : m.munmap address length = m :=
  if_neg fun hboth => h hboth.1

/-! ## §2. Numbered extents. -/

/-- Of the names, the `k`-th is that of the `k`-th extent of the list, which
holds all of its pages. -/
def Records (m : Space κ) (name : Nat → κ) (es : List Extent) : Prop :=
  ∀ k p, m p = some (name k) ↔ ∃ e, es[k]? = some e ∧ e.Has p

variable {m m' : Space κ} {name : Nat → κ} {es : List Extent} {e : Extent}

theorem Records.map (h : Records m name es) (hname : Function.Injective name) (hfree : m.Free e) :
    Records (m.map e (name es.length)) name (es ++ [e]) := by
  intro k p
  rw [Space.map_eq_some, h k p]
  constructor
  · rintro (⟨hp, hk⟩ | ⟨-, e', he', hp⟩)
    · rw [← hname hk]
      exact ⟨e, List.getElem?_concat_length, hp⟩
    · exact ⟨e', by rw [List.getElem?_append_left (List.getElem?_eq_some_iff.mp he').1, he'], hp⟩
  · rintro ⟨e', he', hp⟩
    by_cases hk : k < es.length
    · rw [List.getElem?_append_left hk] at he'
      refine .inr ⟨fun hhas => ?_, e', he', hp⟩
      have hheld := (h k p).mpr ⟨e', he', hp⟩
      exact absurd ((hfree.of_has hhas).symm.trans hheld) (by simp)
    · have hlen : k < es.length + 1 := by simpa using (List.getElem?_eq_some_iff.mp he').1
      obtain rfl : k = es.length := by omega
      obtain rfl := Option.some.inj (List.getElem?_concat_length.symm.trans he')
      exact .inl ⟨hp, rfl⟩

/-- A change of pages that none of the names holds, to ones that none of them
holds. -/
theorem Records.congr (h : Records m name es)
    (hsame : ∀ k p, m' p = some (name k) ↔ m p = some (name k)) : Records m' name es :=
  fun k p => (hsame k p).trans (h k p)

/-- **What the last extent leaves.** -/
theorem Records.unmap_last (h : Records m name es) (hname : Function.Injective name)
    (hlast : es.getLast? = some e) (k p : Nat) :
    m.unmap e p = some (name k) ↔ ∃ e', es[k]? = some e' ∧ e'.Has p ∧ k + 1 < es.length := by
  rw [Space.unmap_eq_some, h k p]
  rw [List.getLast?_eq_getElem?] at hlast
  have hpos : es.length - 1 < es.length := (List.getElem?_eq_some_iff.mp hlast).1
  constructor
  · rintro ⟨hno, e', he', hp⟩
    refine ⟨e', he', hp, ?_⟩
    have hk : k < es.length := (List.getElem?_eq_some_iff.mp he').1
    by_contra hge
    obtain rfl : k = es.length - 1 := by omega
    obtain rfl := Option.some.inj (he'.symm.trans hlast)
    exact hno hp
  · rintro ⟨e', he', hp, hk⟩
    refine ⟨fun hhas => ?_, e', he', hp⟩
    -- A page has one holder.
    have hheld := (h k p).mpr ⟨e', he', hp⟩
    have hheld' := (h (es.length - 1) p).mpr ⟨e, hlast, hhas⟩
    have hsame := hname (Option.some.inj (hheld.symm.trans hheld'))
    omega

/-- Pages of other names are left alone. -/
theorem Records.unmap_other (h : Records m name es) (hlast : es.getLast? = some e) {o : κ}
    (ho : ∀ k, name k ≠ o) (p : Nat) : m.unmap e p = some o ↔ m p = some o := by
  rw [Space.unmap_eq_some]
  refine ⟨And.right, fun hp => ⟨fun hhas => ?_, hp⟩⟩
  rw [List.getLast?_eq_getElem?] at hlast
  have hheld := (h (es.length - 1) p).mpr ⟨e, hlast, hhas⟩
  exact ho _ (Option.some.inj (hheld.symm.trans hp))

end MesonDisplay.Pages
