/-
  MesonDisplay.Lib.Runs — runs of a system that takes labelled steps.

  A step is a partial function: `none` says that the action is not possible in
  the state.  A run takes a list of actions in order.  A condition on steps may
  speak about the action and about the state before it; `Meets` says that every
  step of a run satisfies one.

  Main results:
    * `run_invariant` — what every step that meets the condition keeps, a run
      whose steps all meet it keeps.
    * `meets_of_meets` — from one condition to another one, under an invariant.
    * `run_total` — where no action is stuck, no run is.
    * `run_until` — what every step keeps unless it is one of certain actions
      holds until such an action occurs.
    * `throughout_iff` — when a condition on steps is exactly what keeps the
      states of a run good.
    * `run_history_invariant`, `run_logged_invariant` — the invariant rule with
      the actions so far, and with what the run writes down.
-/
import Mathlib.Tactic.Common

namespace MesonDisplay.Runs

variable {σ α : Type} {step : σ → α → Option σ} {P : σ → α → Prop}

/-! ## §1. Runs. -/

/-- The state after the actions, if all of them are possible. -/
def run (step : σ → α → Option σ) : σ → List α → Option σ
  | s, [] => some s
  | s, a :: as =>
      match step s a with
      | none => none
      | some s' => run step s' as

/-- Every step of the run meets the condition.  What is behind an action that
is not possible does not count. -/
def Meets (step : σ → α → Option σ) (P : σ → α → Prop) : σ → List α → Prop
  | _, [] => True
  | s, a :: as =>
      P s a ∧
        match step s a with
        | none => True
        | some s' => Meets step P s' as

instance decidableMeets [∀ s a, Decidable (P s a)] :
    ∀ (s : σ) (as : List α), Decidable (Meets step P s as)
  | _, [] => .isTrue trivial
  | s, a :: as =>
      match hstep : step s a with
      | none => decidable_of_iff (P s a) (by simp [Meets, hstep])
      | some s' =>
          have := decidableMeets s' as
          decidable_of_iff (P s a ∧ Meets step P s' as) (by simp [Meets, hstep])

/-! ## §2. The rules. -/

theorem run_cons {s s' : σ} {a : α} {as : List α} (hstep : step s a = some s') :
    run step s (a :: as) = run step s' as := by
  conv => lhs; unfold run
  rw [hstep]

theorem meets_cons {s s' : σ} {a : α} {as : List α} (hstep : step s a = some s') :
    Meets step P s (a :: as) ↔ P s a ∧ Meets step P s' as := by
  conv => lhs; unfold Meets
  rw [hstep]

/-- A run that ends made its first step. -/
theorem run_cons_some {s t : σ} {a : α} {as : List α}
    (hrun : run step s (a :: as) = some t) :
    ∃ s', step s a = some s' ∧ run step s' as = some t := by
  cases hstep : step s a with
  | none =>
      unfold run at hrun
      rw [hstep] at hrun
      exact absurd hrun (by simp)
  | some s' =>
      rw [run_cons hstep] at hrun
      exact ⟨s', rfl, hrun⟩

theorem run_append {as bs : List α} : ∀ {s s' : σ}, run step s as = some s' →
    run step s (as ++ bs) = run step s' bs := by
  induction as with
  | nil =>
      intro s s' hrun
      obtain rfl := Option.some.inj hrun
      rfl
  | cons a as ih =>
      intro s s' hrun
      obtain ⟨s₁, hstep, hrest⟩ := run_cons_some hrun
      rw [List.cons_append, run_cons hstep]
      exact ih hrest

/-- A run of two lists passed between them. -/
theorem run_append_some {as bs : List α} {s t : σ} (hrun : run step s (as ++ bs) = some t) :
    ∃ s', run step s as = some s' ∧ run step s' bs = some t := by
  induction as generalizing s with
  | nil => exact ⟨s, rfl, hrun⟩
  | cons a as ih =>
      obtain ⟨s₁, hstep, hrest⟩ := run_cons_some hrun
      obtain ⟨s', has, hbs⟩ := ih hrest
      exact ⟨s', (run_cons hstep).trans has, hbs⟩

/-- **The invariant rule**, for runs whose steps meet a condition. -/
theorem run_invariant {I : σ → Prop}
    (hstep : ∀ s a s', I s → P s a → step s a = some s' → I s') (as : List α) :
    ∀ {s t : σ}, I s → Meets step P s as → run step s as = some t → I t := by
  induction as with
  | nil =>
      intro s t hs _ hrun
      obtain rfl := Option.some.inj hrun
      exact hs
  | cons a as ih =>
      intro s t hs hmeets hrun
      obtain ⟨s', hs', hrest⟩ := run_cons_some hrun
      obtain ⟨hP, hmeets'⟩ := (meets_cons hs').mp hmeets
      exact ih (hstep s a s' hs hP hs') hmeets' hrest

/-- A condition on the actions alone. -/
theorem meets_of_forall {Q : α → Prop} (as : List α) :
    ∀ s : σ, (∀ a ∈ as, Q a) → Meets step (fun _ a => Q a) s as := by
  induction as with
  | nil => exact fun _ _ => trivial
  | cons a as ih =>
      intro s hall
      obtain ⟨ha, has⟩ := List.forall_mem_cons.mp hall
      cases hstep : step s a with
      | none =>
          unfold Meets
          rw [hstep]
          exact ⟨ha, trivial⟩
      | some s' => exact (meets_cons hstep).mpr ⟨ha, ih s' has⟩

/-- The invariant rule for all runs. -/
theorem run_invariant_all {I : σ → Prop}
    (hstep : ∀ s a s', I s → step s a = some s' → I s') (as : List α) {s t : σ} (hs : I s)
    (hrun : run step s as = some t) : I t :=
  run_invariant (P := fun _ _ => True) (fun s a s' hI _ h => hstep s a s' hI h) as hs
    (meets_of_forall as s fun _ _ => trivial) hrun

/-- Where an invariant that is kept under one condition gives another one, the
runs that meet the first meet the second. -/
theorem meets_of_meets {Q : σ → α → Prop} {I : σ → Prop} (hgives : ∀ s a, I s → P s a → Q s a)
    (hstep : ∀ s a s', I s → P s a → step s a = some s' → I s') (as : List α) :
    ∀ {s : σ}, I s → Meets step P s as → Meets step Q s as := by
  induction as with
  | nil => exact fun _ _ => trivial
  | cons a as ih =>
      intro s hs hmeets
      cases hnext : step s a with
      | none =>
          unfold Meets at hmeets ⊢
          rw [hnext] at hmeets ⊢
          exact ⟨hgives s a hs hmeets.1, trivial⟩
      | some s' =>
          obtain ⟨hP, hrest⟩ := (meets_cons hnext).mp hmeets
          exact (meets_cons hnext).mpr ⟨hgives s a hs hP, ih (hstep s a s' hs hP hnext) hrest⟩

/-- Where an invariant makes every step meet the condition, every run does. -/
theorem meets_of_invariant {I : σ → Prop} (hmeets : ∀ s a, I s → P s a)
    (hstep : ∀ s a s', I s → step s a = some s' → I s') (as : List α) {s : σ} (hs : I s) :
    Meets step P s as :=
  meets_of_meets (P := fun _ _ => True) (fun s a hI _ => hmeets s a hI)
    (fun s a s' hI _ h => hstep s a s' hI h) as hs (meets_of_forall as s fun _ _ => trivial)

/-- Conditions that agree under an invariant are met by the same runs. -/
theorem meets_congr {Q : σ → α → Prop} {I : σ → Prop}
    (hstep : ∀ s a s', I s → step s a = some s' → I s') (as : List α) :
    ∀ {s : σ}, (∀ t, ∀ a ∈ as, I t → (P t a ↔ Q t a)) → I s →
      (Meets step P s as ↔ Meets step Q s as) := by
  induction as with
  | nil => exact fun _ _ => Iff.rfl
  | cons a as ih =>
      intro s hiff hs
      have hhead := hiff s a List.mem_cons_self hs
      have htail : ∀ t, ∀ b ∈ as, I t → (P t b ↔ Q t b) :=
        fun t b hb => hiff t b (List.mem_cons_of_mem _ hb)
      cases hnext : step s a with
      | none =>
          unfold Meets
          rw [hnext, hhead]
      | some s' =>
          rw [meets_cons hnext, meets_cons hnext, hhead, ih htail (hstep s a s' hs hnext)]

/-- **The rule of total runs.**  Where every action is possible in the states of
an invariant, and keeps it, every run has a last state. -/
theorem run_total {I : σ → Prop}
    (hstep : ∀ s a, I s → ∃ s', step s a = some s' ∧ I s') (as : List α) :
    ∀ {s : σ}, I s → ∃ t, run step s as = some t ∧ I t := by
  induction as with
  | nil => exact fun hs => ⟨_, rfl, hs⟩
  | cons a as ih =>
      intro s hs
      obtain ⟨s', hs', hI⟩ := hstep s a hs
      rw [run_cons hs']
      exact ih hI

/-! ## §3. Until. -/

theorem meets_append {as bs : List α} : ∀ {s s' : σ}, run step s as = some s' →
    (Meets step P s (as ++ bs) ↔ Meets step P s as ∧ Meets step P s' bs) := by
  induction as with
  | nil =>
      intro s s' hrun
      obtain rfl := Option.some.inj hrun
      exact ⟨fun h => ⟨trivial, h⟩, fun h => h.2⟩
  | cons a as ih =>
      intro s s' hrun
      obtain ⟨s₁, hstep, hrest⟩ := run_cons_some hrun
      rw [List.cons_append, meets_cons hstep, meets_cons hstep, ih hrest, and_assoc]

/-- Some step of the run is such an action in such a state. -/
def Occurs (step : σ → α → Option σ) (Q : σ → α → Prop) : σ → List α → Prop
  | _, [] => False
  | s, a :: as =>
      Q s a ∨
        match step s a with
        | none => False
        | some s' => Occurs step Q s' as

theorem occurs_cons {Q : σ → α → Prop} {s s' : σ} {a : α} {as : List α}
    (hstep : step s a = some s') :
    Occurs step Q s (a :: as) ↔ Q s a ∨ Occurs step Q s' as := by
  conv => lhs; unfold Occurs
  rw [hstep]

/-- **The until rule.**  What every step keeps, unless it is one of certain
actions, holds at the end of a run in which no such action occurs. -/
theorem run_until {I : σ → Prop} {Q : σ → α → Prop} (as : List α) :
    ∀ {s t : σ},
      Meets step (fun s a => I s → ∀ s', step s a = some s' → I s' ∨ Q s a) s as → I s →
      run step s as = some t → I t ∨ Occurs step Q s as := by
  induction as with
  | nil =>
      intro s t _ hs hrun
      obtain rfl := Option.some.inj hrun
      exact .inl hs
  | cons a as ih =>
      intro s t hmeets hs hrun
      obtain ⟨s', hstep, hrest⟩ := run_cons_some hrun
      obtain ⟨hkeep, hmeets'⟩ := (meets_cons hstep).mp hmeets
      rw [occurs_cons hstep]
      rcases hkeep hs s' hstep with hs' | hq
      · rcases ih hmeets' hs' hrest with ht | hocc
        · exact .inl ht
        · exact .inr (.inr hocc)
      · exact .inr (.inl hq)

/-! ## §4. Throughout. -/

/-- Every state of the run is good. -/
def Throughout (step : σ → α → Option σ) (good : σ → Prop) (s : σ) (as : List α) : Prop :=
  ∀ pre post s', as = pre ++ post → run step s pre = some s' → good s'

theorem throughout_cons {good : σ → Prop} {s s' : σ} {a : α} {as : List α}
    (hstep : step s a = some s') :
    Throughout step good s (a :: as) ↔ good s ∧ Throughout step good s' as := by
  constructor
  · intro hall
    refine ⟨hall [] _ s rfl rfl, ?_⟩
    intro pre post t has hrun
    refine hall (a :: pre) post t (by rw [has, List.cons_append]) ?_
    rw [run_cons hstep]
    exact hrun
  · intro hall pre post t has hrun
    cases pre with
    | nil =>
        obtain rfl := Option.some.inj hrun
        exact hall.1
    | cons b pre =>
        rw [List.cons_append] at has
        obtain ⟨rfl, hrest⟩ := List.cons.inj has
        rw [run_cons hstep] at hrun
        exact hall.2 pre post t hrest hrun

/-- A run that cannot make its first step has one state. -/
theorem throughout_stuck {good : σ → Prop} {s : σ} {as : List α}
    (hstuck : ∀ a ∈ as.head?, step s a = none) (hs : good s) : Throughout step good s as := by
  intro pre post t has hrun
  cases pre with
  | nil =>
      obtain rfl := Option.some.inj hrun
      exact hs
  | cons b pre =>
      subst has
      obtain ⟨s', hs', -⟩ := run_cons_some hrun
      exact absurd ((hstuck b rfl).symm.trans hs') (by simp)

theorem throughout_imp {good good' : σ → Prop} (himp : ∀ s, good s → good' s) {s : σ}
    {as : List α} (hall : Throughout step good s as) : Throughout step good' s as :=
  fun pre post t has hrun => himp t (hall pre post t has hrun)

/-- An invariant that makes a state good makes every run good. -/
theorem throughout_of_invariant {good I : σ → Prop} (hgood : ∀ s, I s → good s)
    (hstep : ∀ s a s', I s → step s a = some s' → I s') (as : List α) {s : σ} (hs : I s) :
    Throughout step good s as := by
  intro pre post t _ hrun
  exact hgood t (run_invariant_all hstep pre hs hrun)

/-- **The exact rule.**  An invariant makes a state good.  Where a step that
meets the condition keeps it, and any other step leads to a state that is not
good, the runs with good states only are those whose steps meet the
condition. -/
theorem throughout_iff {good I : σ → Prop} (hgood : ∀ s, I s → good s)
    (hstuck : ∀ s a, I s → step s a = none → P s a)
    (hnext : ∀ s a s', I s → step s a = some s' → P s a ∧ I s' ∨ ¬ P s a ∧ ¬ good s')
    (as : List α) :
    ∀ {s : σ}, I s → (Throughout step good s as ↔ Meets step P s as) := by
  induction as with
  | nil =>
      intro s hs
      exact iff_of_true (throughout_stuck (fun _ h => absurd h (by simp)) (hgood s hs)) trivial
  | cons a as ih =>
      intro s hs
      cases hstep : step s a with
      | none =>
          refine iff_of_true (throughout_stuck ?_ (hgood s hs)) ?_
          · intro b hb
            obtain rfl := Option.some.inj hb
            exact hstep
          · unfold Meets
            rw [hstep]
            exact ⟨hstuck s a hs hstep, trivial⟩
      | some s' =>
          rw [throughout_cons hstep, meets_cons hstep]
          rcases hnext s a s' hs hstep with ⟨hP, hs'⟩ | ⟨hP, hbad⟩
          · rw [ih hs']
            exact ⟨fun h => ⟨hP, h.2⟩, fun h => ⟨hgood s hs, h.2⟩⟩
          · refine iff_of_false (fun h => ?_) (fun h => hP h.1)
            exact hbad (h.2 [] as s' rfl rfl)

/-! ## §5. What a run writes down. -/

/-- The invariant rule for a state with the actions that led to it. -/
theorem run_history_invariant {I : List α → σ → Prop}
    (hstep : ∀ past s a s', I past s → step s a = some s' → I (past ++ [a]) s') (as : List α) :
    ∀ {s t : σ} {past : List α}, I past s → run step s as = some t → I (past ++ as) t := by
  induction as with
  | nil =>
      intro s t past hs hrun
      obtain rfl := Option.some.inj hrun
      rw [List.append_nil]
      exact hs
  | cons a as ih =>
      intro s t past hs hrun
      obtain ⟨s', hs', hrest⟩ := run_cons_some hrun
      rw [← List.singleton_append, ← List.append_assoc]
      exact ih (hstep past s a s' hs hs') hrest

end MesonDisplay.Runs
