/-
  MesonDisplay.Lib.Fifo — the bounded first-in first-out queue.

  The queue is the list of its entries, oldest first.  A put can fail on its
  own, for want of memory say, and fails if the queue is full; a take fails if
  there is nothing in it.

  Main results:
    * `serve_simulation` — a machine that answers every call as another one
      does, in related states, answers every sequence of calls as it does.
    * `accepted_eq_returned_append` — what was accepted is what was returned and
      what is still there, in this order.
-/
import Mathlib.Tactic.Common

namespace MesonDisplay.Fifo

/-! ## §1. Machines that answer. -/

section Machines

variable {σ τ κ β : Type} {step : σ → κ → σ × β} {spec : τ → κ → τ × β}

/-- The last state and the answers, first one first. -/
def serve (step : σ → κ → σ × β) : σ → List κ → σ × List β
  | s, [] => (s, [])
  | s, c :: cs =>
      let next := step s c
      let rest := serve step next.1 cs
      (rest.1, next.2 :: rest.2)

/-- **The simulation rule.** -/
theorem serve_simulation {R : σ → τ → Prop}
    (hstep : ∀ s t c, R s t → (step s c).2 = (spec t c).2 ∧ R (step s c).1 (spec t c).1)
    (cs : List κ) :
    ∀ {s : σ} {t : τ}, R s t →
      (serve step s cs).2 = (serve spec t cs).2 ∧ R (serve step s cs).1 (serve spec t cs).1 := by
  induction cs with
  | nil => exact fun hR => ⟨rfl, hR⟩
  | cons c cs ih =>
      intro s t hR
      obtain ⟨hanswer, hnext⟩ := hstep s t c hR
      obtain ⟨hrest, hlast⟩ := ih hnext
      refine ⟨?_, hlast⟩
      show (step s c).2 :: (serve step (step s c).1 cs).2
        = (spec t c).2 :: (serve spec (spec t c).1 cs).2
      rw [hanswer, hrest]

end Machines

/-! ## §2. The queue. -/

variable {α : Type}

/-- A put of an entry, which does not fail on its own if the flag is set, the
question if there is an entry, and a take. -/
inductive Call (α : Type) where
  | put (v : α) (able : Bool)
  | any
  | take

inductive Answer (α : Type) where
  | put (accepted : Bool)
  | any (found : Bool)
  | take (v : Option α)

/-- One call, on a queue for `capacity` entries. -/
def call (capacity : Nat) (queue : List α) : Call α → List α × Answer α
  | .put v able =>
      if queue.length < capacity ∧ able = true then (queue ++ [v], .put true)
      else (queue, .put false)
  | .any => (queue, .any (! queue.isEmpty))
  | .take =>
      match queue with
      | [] => ([], .take none)
      | v :: rest => (rest, .take (some v))

/-! ## §3. Its history. -/

/-- The entries of the puts that were accepted. -/
def accepted : List (Call α) → List (Answer α) → List α
  | .put v _ :: cs, .put true :: as => v :: accepted cs as
  | _ :: cs, _ :: as => accepted cs as
  | _, _ => []

/-- The entries that were returned. -/
def returned : List (Answer α) → List α
  | [] => []
  | .take (some v) :: as => v :: returned as
  | _ :: as => returned as

theorem call_history (capacity : Nat) (queue : List α) (c : Call α) :
    queue ++ accepted [c] [(call capacity queue c).2]
      = returned [(call capacity queue c).2] ++ (call capacity queue c).1 := by
  cases c with
  | put v able =>
      by_cases hroom : queue.length < capacity ∧ able = true
      · simp [call, if_pos hroom, accepted, returned]
      · simp [call, if_neg hroom, accepted, returned]
  | any => simp [call, accepted, returned]
  | take => cases queue <;> simp [call, accepted, returned]

theorem accepted_cons (c : Call α) (a : Answer α) (cs : List (Call α)) (as : List (Answer α)) :
    accepted (c :: cs) (a :: as) = accepted [c] [a] ++ accepted cs as := by
  rcases c with v | _ | _ <;> rcases a with (_ | _) | _ | _ <;> rfl

theorem returned_cons (a : Answer α) (as : List (Answer α)) :
    returned (a :: as) = returned [a] ++ returned as := by
  rcases a with _ | _ | (_ | _) <;> rfl

/-- **Nothing is lost, returned twice or returned out of order.** -/
theorem accepted_eq_returned_append (capacity : Nat) (cs : List (Call α)) :
    ∀ queue : List α,
      queue ++ accepted cs (serve (call capacity) queue cs).2
        = returned (serve (call capacity) queue cs).2 ++ (serve (call capacity) queue cs).1 := by
  induction cs with
  | nil => exact fun queue => List.append_nil queue
  | cons c cs ih =>
      intro queue
      show queue ++ accepted (c :: cs) ((call capacity queue c).2 :: _)
        = returned ((call capacity queue c).2 :: _) ++ _
      rw [accepted_cons, returned_cons, ← List.append_assoc, call_history, List.append_assoc,
        ih, List.append_assoc]
      rfl

end MesonDisplay.Fifo
