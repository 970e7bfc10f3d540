/-
  MesonDisplay.Lib.Pieces — a stream that is read piece by piece.

  A read takes at most `n` items, and none behind the first one at which it has
  to stop.  A loop reads until the stream is empty, and keeps the last piece
  that it finds good.

  Main results:
    * `flatten_pieces` — the pieces are the stream.
    * `foldl_last_match` — what such a loop has kept in the end.
-/
import Mathlib.Data.List.Basic

namespace MesonDisplay.Pieces

variable {α β : Type}

/-! ## §1. The pieces. -/

/-- One read: the piece, and what is left. -/
def readPiece (stop : α → Bool) : Nat → List α → List α × List α
  | 0, s => ([], s)
  | _ + 1, [] => ([], [])
  | n + 1, c :: cs =>
      if stop c then ([c], cs)
      else
        let (piece, rest) := readPiece stop n cs
        (c :: piece, rest)

/-- The pieces of at most `fuel` reads. -/
def pieces (stop : α → Bool) (n : Nat) : Nat → List α → List (List α)
  | 0, _ => []
  | _ + 1, [] => []
  | fuel + 1, c :: cs =>
      let (piece, rest) := readPiece stop n (c :: cs)
      piece :: pieces stop n fuel rest

section Pieces

variable {stop : α → Bool} {n : Nat}

theorem readPiece_append (stop : α → Bool) (n : Nat) (s : List α) :
    (readPiece stop n s).1 ++ (readPiece stop n s).2 = s := by
  induction n generalizing s with
  | zero => rfl
  | succ n ih =>
      cases s with
      | nil => rfl
      | cons c cs =>
          unfold readPiece
          split_ifs
          · rfl
          · exact congrArg (c :: ·) (ih cs)

theorem length_readPiece_le (stop : α → Bool) (n : Nat) (s : List α) :
    (readPiece stop n s).1.length ≤ n := by
  induction n generalizing s with
  | zero => exact Nat.le_refl 0
  | succ n ih =>
      cases s with
      | nil => exact Nat.zero_le _
      | cons c cs =>
          unfold readPiece
          split_ifs
          · exact Nat.succ_le_succ (Nat.zero_le n)
          · exact Nat.succ_le_succ (ih cs)

/-- A read gets something, if there is something. -/
theorem length_readPiece_pos (hn : 0 < n) (c : α) (cs : List α) :
    0 < (readPiece stop n (c :: cs)).1.length := by
  obtain ⟨m, rfl⟩ := Nat.exists_eq_succ_of_ne_zero (Nat.ne_of_gt hn)
  unfold readPiece
  split_ifs
  · exact Nat.one_pos
  · exact Nat.succ_pos _

/-- **Nothing is lost.** -/
theorem flatten_pieces (hn : 0 < n) {fuel : Nat} {s : List α} (hs : s.length ≤ fuel) :
    (pieces stop n fuel s).flatten = s := by
  induction fuel generalizing s with
  | zero =>
      obtain rfl := List.eq_nil_of_length_eq_zero (Nat.le_zero.mp hs)
      rfl
  | succ fuel ih =>
      cases s with
      | nil => rfl
      | cons c cs =>
          have hsplit := readPiece_append stop n (c :: cs)
          have hpos : 0 < (readPiece stop n (c :: cs)).1.length := length_readPiece_pos hn c cs
          -- so less is left than there was
          have hless : (readPiece stop n (c :: cs)).2.length ≤ fuel := by
            have hlen := congrArg List.length hsplit
            rw [List.length_append] at hlen
            omega
          show (readPiece stop n (c :: cs)).1 ++ (pieces stop n fuel _).flatten = c :: cs
          rw [ih hless]
          exact hsplit

theorem length_le_of_mem_pieces {fuel : Nat} {s piece : List α}
    (h : piece ∈ pieces stop n fuel s) : piece.length ≤ n := by
  induction fuel generalizing s with
  | zero => exact absurd h List.not_mem_nil
  | succ fuel ih =>
      cases s with
      | nil => exact absurd h List.not_mem_nil
      | cons c cs =>
          rcases List.mem_cons.mp h with rfl | h
          · exact length_readPiece_le stop n (c :: cs)
          · exact ih h

end Pieces

/-! ## §2. The last match. -/

/-- A loop that keeps what it found last. -/
theorem foldl_last_match (p : α → Bool) (g : α → β) (l : List α) : ∀ b : β,
    l.foldl (fun found x => if p x then g x else found) b
      = ((l.filter p).getLast?.map g).getD b := by
  induction l with
  | nil => exact fun _ => rfl
  | cons x xs ih =>
      intro b
      rw [List.foldl_cons, ih]
      by_cases hx : p x = true
      · rw [if_pos hx, List.filter_cons_of_pos hx, List.getLast?_cons]
        cases (xs.filter p).getLast? <;> rfl
      · rw [if_neg hx, List.filter_cons_of_neg hx]

end MesonDisplay.Pieces
