/-
  MesonDisplay.Lib.Serial — operations under one mutex.

  Threads call operations on a shared state.  An operation takes the mutex, runs
  its body, which makes small steps, and gives the mutex back.  A step may use
  an answer of the system; a step that is not possible ends the process.  What
  the operations returned is written down when the mutex is given back.

  Main results:
    * `step_linear` — every step of a thread keeps that one thread at most is
      in a body, and that the operations that returned are a sequential run of
      their bodies.
    * `serial_rule` — what every body keeps, such a run keeps.
-/
import MesonDisplay.Lib.Runs
import Mathlib.Logic.Function.Basic

namespace MesonDisplay.Serial

open MesonDisplay.Runs

variable {τ σ ω κ ε ρ : Type} [DecidableEq τ]

/-! ## §1. The threads. -/

/-- The end of a small step: the body goes on from a place, or returns. -/
inductive Next (κ ρ : Type) where
  | goOn (place : κ)
  | return (result : ρ)

/-- The bodies of the operations. -/
structure Guarded (σ ω κ ε ρ : Type) where
  enter : ω → κ
  step : ε → κ → σ → Option (Next κ ρ × σ)

/-- Where a thread is. -/
inductive Phase (ω κ ρ : Type) where
  | idle
  | waiting (op : ω)
  | inside (op : ω) (place : κ)
  | leaving (op : ω) (result : ρ)

structure State (τ σ ω κ ρ : Type) where
  shared : σ
  holder : Option τ
  phase : τ → Phase ω κ ρ
  returned : List (τ × ω × ρ)

def State.start (shared : σ) : State τ σ ω κ ρ where
  shared := shared
  holder := none
  phase := fun _ => .idle
  returned := []

inductive Action (τ ω ε : Type) where
  | call (t : τ) (op : ω)
  | lock (t : τ)
  | step (t : τ) (env : ε)
  | unlock (t : τ)

def State.move (s : State τ σ ω κ ρ) (t : τ) (phase : Phase ω κ ρ) : State τ σ ω κ ρ :=
  { s with phase := Function.update s.phase t phase }

/-- What a step of a body leads to. -/
def State.after (s : State τ σ ω κ ρ) (t : τ) (op : ω) : Next κ ρ × σ → State τ σ ω κ ρ
  | (.goOn place, shared) => { s.move t (.inside op place) with shared := shared }
  | (.return result, shared) => { s.move t (.leaving op result) with shared := shared }

def step (g : Guarded σ ω κ ε ρ) (s : State τ σ ω κ ρ) : Action τ ω ε → Option (State τ σ ω κ ρ)
  | .call t op =>
      match s.phase t with
      | .idle => some (s.move t (.waiting op))
      | _ => none
  | .lock t =>
      match s.phase t, s.holder with
      | .waiting op, none => some { s.move t (.inside op (g.enter op)) with holder := some t }
      | _, _ => none
  | .step t env =>
      match s.phase t with
      | .inside op place => (g.step env place s.shared).map (s.after t op)
      | _ => none
  | .unlock t =>
      match s.phase t with
      | .leaving op result =>
          some { s.move t .idle with
            holder := none, returned := s.returned ++ [(t, op, result)] }
      | _ => none

/-! ## §2. Sequential runs. -/

/-- The small steps of a body that lead from one place to another one. -/
inductive Partway (g : Guarded σ ω κ ε ρ) (place : κ) (shared : σ) : κ → σ → Prop where
  | refl : Partway g place shared place shared
  | step {place₁ place₂ : κ} {shared₁ shared₂ : σ} (env : ε)
      (hbefore : Partway g place shared place₁ shared₁)
      (hstep : g.step env place₁ shared₁ = some (.goOn place₂, shared₂)) :
      Partway g place shared place₂ shared₂

/-- A whole body. -/
def Body (g : Guarded σ ω κ ε ρ) (op : ω) (shared : σ) (result : ρ) (shared' : σ) : Prop :=
  ∃ place₁ shared₁ env, Partway g (g.enter op) shared place₁ shared₁ ∧
    g.step env place₁ shared₁ = some (.return result, shared')

/-- One body behind the other. -/
inductive InTurn (g : Guarded σ ω κ ε ρ) (shared : σ) : List (τ × ω × ρ) → σ → Prop where
  | nothing : InTurn g shared [] shared
  | more {returned : List (τ × ω × ρ)} {shared₁ shared₂ : σ} (t : τ) (op : ω) (result : ρ)
      (hbefore : InTurn g shared returned shared₁) (hbody : Body g op shared₁ result shared₂) :
      InTurn g shared (returned ++ [(t, op, result)]) shared₂

omit [DecidableEq τ] in
/-- **The rule of sequential runs.** -/
theorem serial_rule {g : Guarded σ ω κ ε ρ} {shared : σ} {I : List (τ × ω × ρ) → σ → Prop}
    (hstart : I [] shared)
    (hbody : ∀ returned shared₁ shared₂ t op result, I returned shared₁ →
      Body g op shared₁ result shared₂ → I (returned ++ [(t, op, result)]) shared₂)
    {returned : List (τ × ω × ρ)} {shared' : σ} (h : InTurn g shared returned shared') :
    I returned shared' := by
  induction h with
  | nothing => exact hstart
  | more t op result _ hb ih => exact hbody _ _ _ t op result ih hb

/-! ## §3. Interleavings. -/

/-- The thread is in a body. -/
def Phase.Inside : Phase ω κ ρ → Prop
  | .inside _ _ => True
  | .leaving _ _ => True
  | _ => False

/-- The state behind what returned, and behind a part of the body of the thread
that has the mutex. -/
structure Linear (g : Guarded σ ω κ ε ρ) (shared : σ) (s : State τ σ ω κ ρ) : Prop where
  excludes : ∀ t, (s.phase t).Inside ↔ s.holder = some t
  free : s.holder = none → InTurn g shared s.returned s.shared
  inside : ∀ t op place, s.phase t = .inside op place →
    ∃ shared₁, InTurn g shared s.returned shared₁ ∧
      Partway g (g.enter op) shared₁ place s.shared
  leaving : ∀ t op result, s.phase t = .leaving op result →
    ∃ shared₁, InTurn g shared s.returned shared₁ ∧ Body g op shared₁ result s.shared

variable {g : Guarded σ ω κ ε ρ} {shared : σ} {s s' : State τ σ ω κ ρ}

omit [DecidableEq τ] in
theorem start_linear (g : Guarded σ ω κ ε ρ) (shared : σ) :
    Linear g shared (State.start (τ := τ) shared) where
  excludes := fun t => by simp [State.start, Phase.Inside]
  free := fun _ => .nothing
  inside := fun t op place h => absurd h (by simp [State.start])
  leaving := fun t op result h => absurd h (by simp [State.start])

omit [DecidableEq τ] in
/-- The only thread in a body is the one that has the mutex. -/
theorem Linear.alone (h : Linear g shared s) {t u : τ} (ht : (s.phase t).Inside)
    (hu : (s.phase u).Inside) : u = t := by
  have hholder := (h.excludes t).mp ht
  have hholder' := (h.excludes u).mp hu
  exact Option.some.inj (hholder'.symm.trans hholder)

/-- The phases behind a move of `t`. -/
theorem moved {t u : τ} {phase : Phase ω κ ρ} :
    (s.move t phase).phase u = if u = t then phase else s.phase u := by
  show Function.update s.phase t phase u = _
  by_cases hu : u = t
  · rw [hu, Function.update_self, if_pos rfl]
  · rw [Function.update_of_ne hu, if_neg hu]

theorem Linear.call (h : Linear g shared s) {t : τ} (hphase : s.phase t = .idle) (op : ω) :
    Linear g shared (s.move t (.waiting op)) where
  excludes := by
    intro u
    rw [moved]
    by_cases hu : u = t
    · rw [if_pos hu, hu]
      have hiff := h.excludes t
      rw [hphase] at hiff
      exact hiff
    · rw [if_neg hu]
      exact h.excludes u
  free := h.free
  inside := by
    intro u op' place hu
    rw [moved] at hu
    split at hu
    · exact absurd hu (by simp)
    · exact h.inside u op' place hu
  leaving := by
    intro u op' result hu
    rw [moved] at hu
    split at hu
    · exact absurd hu (by simp)
    · exact h.leaving u op' result hu

theorem Linear.lock (h : Linear g shared s) {t : τ} {op : ω} (hholder : s.holder = none) :
    Linear g shared { s.move t (.inside op (g.enter op)) with holder := some t } where
  excludes := by
    intro u
    show ((s.move t _).phase u).Inside ↔ some t = some u
    rw [moved]
    by_cases hu : u = t
    · rw [if_pos hu, hu]
      exact iff_of_true trivial rfl
    · rw [if_neg hu, h.excludes u, hholder]
      exact iff_of_false (by simp) fun heq => hu (Option.some.inj heq).symm
  free := fun hnone => absurd hnone (by simp)
  inside := by
    intro u op' place hu
    rw [show (State.phase _) u = (s.move t _).phase u from rfl, moved] at hu
    split at hu
    · obtain ⟨rfl, rfl⟩ := Phase.inside.inj hu
      exact ⟨s.shared, h.free hholder, .refl⟩
    · exact h.inside u op' place hu
  leaving := by
    intro u op' result hu
    rw [show (State.phase _) u = (s.move t _).phase u from rfl, moved] at hu
    split at hu
    · exact absurd hu (by simp)
    · exact h.leaving u op' result hu

/-- A thread that stays in its body while the state behind it changes. -/
theorem Linear.stay (h : Linear g shared s) {t : τ} {phase : Phase ω κ ρ} {shared₂ : σ}
    (ht : (s.phase t).Inside) (hphase : phase.Inside)
    (hinside : ∀ op place, phase = .inside op place →
      ∃ shared₁, InTurn g shared s.returned shared₁ ∧
        Partway g (g.enter op) shared₁ place shared₂)
    (hleaving : ∀ op result, phase = .leaving op result →
      ∃ shared₁, InTurn g shared s.returned shared₁ ∧ Body g op shared₁ result shared₂) :
    Linear g shared { s.move t phase with shared := shared₂ } where
  excludes := by
    intro u
    show ((s.move t phase).phase u).Inside ↔ s.holder = some u
    rw [moved]
    by_cases hu : u = t
    · rw [if_pos hu, hu]
      exact iff_of_true hphase ((h.excludes t).mp ht)
    · rw [if_neg hu]
      exact h.excludes u
  free := by
    intro hnone
    have hholder := (h.excludes t).mp ht
    exact absurd (hholder.symm.trans hnone) (by simp)
  inside := by
    intro u op place hu
    have hu' : (s.move t phase).phase u = .inside op place := hu
    rw [moved] at hu'
    by_cases hut : u = t
    · rw [if_pos hut] at hu'
      exact hinside op place hu'
    · rw [if_neg hut] at hu'
      have hin : (s.phase u).Inside := by rw [hu']; trivial
      exact absurd (h.alone ht hin) hut
  leaving := by
    intro u op result hu
    have hu' : (s.move t phase).phase u = .leaving op result := hu
    rw [moved] at hu'
    by_cases hut : u = t
    · rw [if_pos hut] at hu'
      exact hleaving op result hu'
    · rw [if_neg hut] at hu'
      have hin : (s.phase u).Inside := by rw [hu']; trivial
      exact absurd (h.alone ht hin) hut

theorem Linear.step (h : Linear g shared s) {t : τ} {op : ω} {place : κ} {env : ε}
    (hphase : s.phase t = .inside op place) {next : Next κ ρ × σ}
    (hstep : g.step env place s.shared = some next) : Linear g shared (s.after t op next) := by
  have ht : (s.phase t).Inside := by rw [hphase]; trivial
  obtain ⟨shared₁, hturn, hpart⟩ := h.inside t op place hphase
  match next, hstep with
  | (.goOn place₂, shared₂), hstep =>
      refine h.stay ht trivial ?_ fun _ _ heq => absurd heq (by simp)
      intro op' place' heq
      obtain ⟨rfl, rfl⟩ := Phase.inside.inj heq
      exact ⟨shared₁, hturn, .step env hpart hstep⟩
  | (.return result, shared₂), hstep =>
      refine h.stay ht trivial (fun _ _ heq => absurd heq (by simp)) ?_
      intro op' result' heq
      obtain ⟨rfl, rfl⟩ := Phase.leaving.inj heq
      exact ⟨shared₁, hturn, place, s.shared, env, hpart, hstep⟩

theorem Linear.unlock (h : Linear g shared s) {t : τ} {op : ω} {result : ρ}
    (hphase : s.phase t = .leaving op result) :
    Linear g shared { s.move t .idle with
      holder := none, returned := s.returned ++ [(t, op, result)] } := by
  have ht : (s.phase t).Inside := by rw [hphase]; trivial
  -- Nobody else is in a body.
  have hout : ∀ u, ¬ ((s.move t .idle).phase u).Inside := by
    intro u hu
    rw [moved] at hu
    by_cases hut : u = t
    · rw [if_pos hut] at hu
      exact hu
    · rw [if_neg hut] at hu
      exact hut (h.alone ht hu)
  exact
    { excludes := fun u => iff_of_false (hout u) fun heq => absurd heq (by simp)
      free := by
        intro _
        obtain ⟨shared₁, hturn, hbody⟩ := h.leaving t op result hphase
        exact .more t op result hturn hbody
      inside := by
        intro u op' place hu
        have hin : ((s.move t .idle).phase u).Inside := by
          rw [show (s.move t .idle).phase u = .inside op' place from hu]; trivial
        exact absurd hin (hout u)
      leaving := by
        intro u op' result' hu
        have hin : ((s.move t .idle).phase u).Inside := by
          rw [show (s.move t .idle).phase u = .leaving op' result' from hu]; trivial
        exact absurd hin (hout u) }

/-- What a step can do. -/
theorem step_cases {a : Action τ ω ε} (hstep : step g s a = some s') :
    (∃ t op, a = .call t op ∧ s.phase t = .idle ∧ s' = s.move t (.waiting op)) ∨
    (∃ t op, a = .lock t ∧ s.phase t = .waiting op ∧ s.holder = none ∧
      s' = { s.move t (.inside op (g.enter op)) with holder := some t }) ∨
    (∃ t env op place next, a = .step t env ∧ s.phase t = .inside op place ∧
      g.step env place s.shared = some next ∧ s' = s.after t op next) ∨
    (∃ t op result, a = .unlock t ∧ s.phase t = .leaving op result ∧
      s' = { s.move t .idle with
        holder := none, returned := s.returned ++ [(t, op, result)] }) := by
  cases a with
  | call t op =>
      simp only [step] at hstep
      split at hstep
      next hphase => exact .inl ⟨t, op, rfl, hphase, (Option.some.inj hstep).symm⟩
      next => exact absurd hstep (by simp)
  | lock t =>
      simp only [step] at hstep
      split at hstep
      next op hphase hholder =>
          exact .inr (.inl ⟨t, op, rfl, hphase, hholder, (Option.some.inj hstep).symm⟩)
      next => exact absurd hstep (by simp)
  | step t env =>
      simp only [step] at hstep
      split at hstep
      next op place hphase =>
          obtain ⟨next, hnext, hs'⟩ := Option.map_eq_some_iff.mp hstep
          exact .inr (.inr (.inl ⟨t, env, op, place, next, rfl, hphase, hnext, hs'.symm⟩))
      next => exact absurd hstep (by simp)
  | unlock t =>
      simp only [step] at hstep
      split at hstep
      next op result hphase =>
          exact .inr (.inr (.inr ⟨t, op, result, rfl, hphase, (Option.some.inj hstep).symm⟩))
      next => exact absurd hstep (by simp)

/-- **One step** of one thread, in any interleaving. -/
theorem step_linear {a : Action τ ω ε} (h : Linear g shared s) (hstep : step g s a = some s') :
    Linear g shared s' := by
  rcases step_cases hstep with ⟨t, op, -, hphase, rfl⟩ | ⟨t, op, -, -, hholder, rfl⟩ |
    ⟨t, env, op, place, next, -, hphase, hnext, rfl⟩ | ⟨t, op, result, -, hphase, rfl⟩
  · exact h.call hphase op
  · exact h.lock hholder
  · exact h.step hphase hnext
  · exact h.unlock hphase

/-- What returned stays. -/
theorem step_returned {a : Action τ ω ε} (hstep : step g s a = some s') :
    s.returned <+: s'.returned := by
  rcases step_cases hstep with ⟨_, _, -, -, rfl⟩ | ⟨_, _, -, -, -, rfl⟩ |
    ⟨t, env, op, place, ⟨next, shared'⟩, -, -, -, rfl⟩ | ⟨t, op, result, -, -, rfl⟩
  · exact List.prefix_refl _
  · exact List.prefix_refl _
  · cases next <;> exact List.prefix_refl _
  · exact List.prefix_append _ _

/-- Only a body changes the shared state. -/
theorem step_shared {a : Action τ ω ε} (hstep : step g s a = some s') :
    s'.shared = s.shared ∨
      ∃ env place next, g.step env place s.shared = some (next, s'.shared) := by
  rcases step_cases hstep with ⟨_, _, -, -, rfl⟩ | ⟨_, _, -, -, -, rfl⟩ |
    ⟨t, env, op, place, ⟨next, shared'⟩, -, -, hnext, rfl⟩ | ⟨t, op, result, -, -, rfl⟩
  · exact .inl rfl
  · exact .inl rfl
  · cases next <;> exact .inr ⟨env, place, _, hnext⟩
  · exact .inl rfl

end MesonDisplay.Serial
