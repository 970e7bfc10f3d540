/-
  MesonDisplay.Lib.FdTable — file descriptors of a process.

  A descriptor is a number; `open` gives out the lowest one that is free.  A log
  has every open and every close, also those of numbers that are not open.  It is
  settled if every descriptor in it is closed once, after it was opened, and no
  other descriptor is closed; what an open that failed gave may be closed.

  Main results:
    * `lowestFree_notMem` — there is always a free number.
    * `settled_bracket` — opening, a settled log, and closing are settled.
-/
import Mathlib.Data.List.Range
import Mathlib.Data.List.Perm.Subperm

namespace MesonDisplay.FdTable

/-! ## §1. The table. -/

/-- The lowest number that is not in use. -/
def lowestFree (fds : List Nat) : Nat :=
  ((List.range (fds.length + 1)).find? fun fd => decide (fd ∉ fds)).getD fds.length

theorem lowestFree_notMem (fds : List Nat) : lowestFree fds ∉ fds := by
  unfold lowestFree
  cases hfind : (List.range (fds.length + 1)).find? fun fd => decide (fd ∉ fds) with
  | some fd => simpa using List.find?_some hfind
  | none =>
      -- more numbers are tried than there are descriptors
      have hall : ∀ fd ∈ List.range (fds.length + 1), fd ∈ fds := by
        intro fd hfd
        have hused := List.find?_eq_none.mp hfind fd hfd
        simpa using hused
      have hle := (List.subperm_of_subset List.nodup_range hall).length_le
      rw [List.length_range] at hle
      omega

def close (fds : List Nat) (fd : Nat) : List Nat := fds.filter (· ≠ fd)

theorem close_of_notMem {fds : List Nat} {fd : Nat} (hfd : fd ∉ fds) : close fds fd = fds := by
  unfold close
  rw [List.filter_eq_self]
  intro other hother
  have hne : other ≠ fd := fun h => hfd (h ▸ hother)
  simpa using hne

/-- What was opened last is closed. -/
theorem close_cons_self {fds : List Nat} {fd : Nat} (hfd : fd ∉ fds) :
    close (fd :: fds) fd = fds := by
  unfold close
  rw [List.filter_cons_of_neg (by simp)]
  exact close_of_notMem hfd

theorem notMem_close (fds : List Nat) (fd : Nat) : fd ∉ close fds fd := by
  simp [close]

/-! ## §2. The log. -/

inductive FdEvent where
  | opened (fd : Nat)
  | closed (fd : Nat)
  /-- A close of a number that is not open. -/
  | refused (fd : Int)
  deriving DecidableEq, Repr

/-- The descriptors that are held behind a log, `none` if one is closed that is
not held. -/
def held : List Nat → List FdEvent → Option (List Nat)
  | fds, [] => some fds
  | fds, .opened fd :: es => held (fd :: fds) es
  | fds, .closed fd :: es => if fd ∈ fds then held (fds.erase fd) es else none
  | fds, .refused _ :: es => held fds es

/-- No number that the log opens is closed while it is not open. -/
def ClosedOpen (es : List FdEvent) : Prop :=
  ∀ fd : Nat, .opened fd ∈ es → .refused fd ∉ es

/-- Whatever is held before, it is held behind the log, and nothing else.  What
is closed without being open is no descriptor at all. -/
structure Settled (es : List FdEvent) : Prop where
  held_eq : ∀ fds, held fds es = some fds
  refused_neg : ∀ fd, .refused fd ∈ es → fd < 0

theorem Settled.closedOpen {es : List FdEvent} (h : Settled es) : ClosedOpen es := by
  intro fd _ hrefused
  have hneg := h.refused_neg fd hrefused
  omega

theorem held_append (es es' : List FdEvent) :
    ∀ fds, held fds (es ++ es') = (held fds es).bind fun fds' => held fds' es' := by
  induction es with
  | nil => exact fun _ => rfl
  | cons e es ih =>
      intro fds
      cases e with
      | opened fd => exact ih (fd :: fds)
      | closed fd =>
          simp only [List.cons_append, held]
          split_ifs
          · exact ih (fds.erase fd)
          · rfl
      | refused fd => exact ih fds

theorem settled_nil : Settled [] := ⟨fun _ => rfl, by simp⟩

/-- Closing what an open that failed gave. -/
theorem settled_refused {fd : Int} (hfd : fd < 0) : Settled [.refused fd] :=
  ⟨fun _ => rfl, by simpa using hfd⟩

theorem settled_append {es es' : List FdEvent} (h : Settled es) (h' : Settled es') :
    Settled (es ++ es') where
  held_eq := by
    intro fds
    rw [held_append, h.held_eq fds]
    exact h'.held_eq fds
  refused_neg := by
    intro fd hfd
    rcases List.mem_append.mp hfd with hfd | hfd
    · exact h.refused_neg fd hfd
    · exact h'.refused_neg fd hfd

theorem settled_bracket {es : List FdEvent} (h : Settled es) (fd : Nat) :
    Settled (.opened fd :: (es ++ [.closed fd])) where
  held_eq := by
    intro fds
    show held (fd :: fds) (es ++ [.closed fd]) = _
    rw [held_append, h.held_eq (fd :: fds)]
    simp [held]
  refused_neg := by
    intro other hother
    refine h.refused_neg other ?_
    simpa using hother

end MesonDisplay.FdTable
