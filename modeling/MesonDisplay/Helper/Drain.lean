/-
  MesonDisplay.Helper.Drain — two threads that empty one queue.

  The IPC thread puts an accepted "set mode" request into the queue of tasks
  and then runs `help_do_repaint_cycle_completed`; the thread of the compositor
  runs it at the end of every repaint cycle.  `have_task`, `schedule_task`,
  `get_task` and the part of `process_task` under the mutex are one step each;
  which thread takes the next step is open.  The lock is taken behind
  `get_task`, so a thread may hold a task that it took out of the queue while
  the other one goes on.

  The refresh behind the drain of the IPC thread touches neither the queue nor
  the mode, and is left out.

  Main results:
    * `applied_in_order_iff` — the runs in which the modes are switched in the
      order of the requests.
-/
import MesonDisplay.Helper.SetMode
import MesonDisplay.Lib.Runs
import Mathlib.Data.List.Nodup
import Mathlib.Data.List.Range

namespace MesonDisplay.Helper

open MesonDisplay.LinkedList
open MesonDisplay.Runs
open MesonDisplay.Json (jsonText)

/-! ## §1. The two threads. -/

/-- Where a thread is in `help_do_repaint_cycle_completed`. -/
inductive DrainPc where
  /-- Not in it. -/
  | idle
  /-- Before `have_task`. -/
  | haveTask
  /-- Before `get_task`. -/
  | getTask
  /-- In `process_task`, before the mutex is taken: the task, and how many were
  taken out of the queue before it. -/
  | process (number : Nat) (task : Json)
  deriving DecidableEq

inductive DrainThread where
  | ipc
  | compositor
  deriving DecidableEq

def DrainThread.other : DrainThread → DrainThread
  | .ipc => .compositor
  | .compositor => .ipc

structure DrainState where
  helper : HelperState
  ipc : DrainPc
  compositor : DrainPc
  /-- The requests that `schedule_task` accepted, in order. -/
  accepted : List Json
  /-- How many tasks were taken out of the queue. -/
  taken : Nat
  /-- The tasks that were processed, in order, with their numbers. -/
  applied : List (Nat × Json)

/-- Both threads are idle, and nothing was scheduled yet. -/
def DrainState.start (s : HelperState) : DrainState where
  helper := { s with taskAfterRepaintCycle := .zero, effects := [] }
  ipc := .idle
  compositor := .idle
  accepted := []
  taken := 0
  applied := []

def DrainState.pc (d : DrainState) : DrainThread → DrainPc
  | .ipc => d.ipc
  | .compositor => d.compositor

def DrainState.setPc (d : DrainState) (t : DrainThread) (pc : DrainPc) : DrainState :=
  match t with
  | .ipc => { d with ipc := pc }
  | .compositor => { d with compositor := pc }

inductive DrainAction where
  /-- The IPC thread handles a request, up to `schedule_task`. -/
  | request (copyOk : Bool) (dataIn : Json)
  /-- The compositor calls `help_do_repaint_cycle_completed`. -/
  | cycleCompleted
  /-- A thread goes on. -/
  | step (t : DrainThread)

/-- One step of `help_do_repaint_cycle_completed`. -/
def drainThreadStep (jc : JsonC) (d : DrainState) (t : DrainThread) : Option DrainState :=
  match d.pc t with
  | .idle => none
  | .haveTask =>
      if haveTask d.helper.taskAfterRepaintCycle then some (d.setPc t .getTask)
      else some (d.setPc t .idle)
  | .getTask =>
      match getTask d.helper.taskAfterRepaintCycle with
      | none => some (d.setPc t .idle)
      | some (task, tasks) =>
          let pc := if task.isNull then .haveTask else .process d.taken task
          some ({ d with
            helper := { d.helper with taskAfterRepaintCycle := tasks }
            taken := d.taken + 1 }.setPc t pc)
  | .process number task =>
      match processTask jc d.helper task with
      | .error _ => none
      | .ok s =>
          some ({ d with helper := s, applied := d.applied ++ [(number, task)] }.setPc t .haveTask)

/-- `none` if the action is not possible now. -/
def drainStep (jc : JsonC) (d : DrainState) : DrainAction → Option DrainState
  | .request copyOk dataIn =>
      if d.ipc = .idle ∧ setModeOf jc dataIn ≠ none then
        let (tasks, scheduled) := scheduleTask copyOk d.helper.taskAfterRepaintCycle dataIn
        let d := { d with helper := { d.helper with taskAfterRepaintCycle := tasks } }
        if scheduled then some { d with ipc := .haveTask, accepted := d.accepted ++ [dataIn] }
        else some d
      else none
  | .cycleCompleted =>
      if d.compositor = .idle then some { d with compositor := .haveTask } else none
  | .step t => drainThreadStep jc d t

/-! ## §2. One task. -/

/-- **One task** switches the outputs to its mode, and the state stays well
formed. -/
theorem processTask_spec {jc : JsonC} {s : HelperState} (hs : HelperOk jc s) {task : Json}
    (htask : setModeOf jc task ≠ none) :
    ∃ s', processTask jc s task = .ok s' ∧ HelperOk jc s' ∧
      s'.taskAfterRepaintCycle = s.taskAfterRepaintCycle ∧
      switchTargets s' = switchTargets s ∧
      switchCalls s'.effects = switchCalls s.effects ++ callsFor jc (switchTargets s) task := by
  obtain ⟨s', hrun, hs', htasks⟩ := processTask_returns hs (isModeTask_of_setMode htask).1
  obtain ⟨s'', hrun', hswitch⟩ := processTask_switches hs.listed htask
  obtain rfl : s' = s'' := Except.ok.inj (hrun.symm.trans hrun')
  exact ⟨s', hrun, hs', htasks, hswitch.targets, hswitch.calls⟩

/-! ## §3. The invariant. -/

/-- The task that a thread took out and did not process yet. -/
def DrainPc.held : DrainPc → List (Nat × Json)
  | .process number task => [(number, task)]
  | _ => []

def DrainState.held (d : DrainState) : List (Nat × Json) := d.ipc.held ++ d.compositor.held

/-- Whatever the order of the steps: each task that was taken out is held by a
thread or was processed, once, and no other task was. -/
structure DrainInv (jc : JsonC) (targets : List Nat) (d : DrainState) : Prop where
  helper : HelperOk jc d.helper
  switches : switchTargets d.helper = targets
  requests : ∀ r ∈ d.accepted, setModeOf jc r ≠ none
  queue : d.accepted.drop d.taken = pendingTasks d.helper.taskAfterRepaintCycle
  taken : d.taken ≤ d.accepted.length
  numbers : ((d.applied ++ d.held).map Prod.fst).Perm (List.range d.taken)
  tasks : ∀ x ∈ d.applied ++ d.held, d.accepted[x.1]? = some x.2
  calls : switchCalls d.helper.effects = d.applied.flatMap fun x => callsFor jc targets x.2
  ipcIdle : d.ipc = .idle → pendingTasks d.helper.taskAfterRepaintCycle = []

section Steps

variable {jc : JsonC} {targets : List Nat} {d : DrainState} {t : DrainThread} {pc : DrainPc}

theorem held_perm (d : DrainState) (t : DrainThread) :
    d.held.Perm ((d.pc t).held ++ (d.pc t.other).held) := by
  cases t with
  | ipc => exact .refl _
  | compositor => exact List.perm_append_comm

theorem held_setPc (d : DrainState) (t : DrainThread) (pc : DrainPc) :
    (d.setPc t pc).held.Perm (pc.held ++ (d.pc t.other).held) := by
  cases t with
  | ipc => exact .refl _
  | compositor => exact List.perm_append_comm

@[simp] theorem setPc_helper : (d.setPc t pc).helper = d.helper := by cases t <;> rfl

@[simp] theorem setPc_accepted : (d.setPc t pc).accepted = d.accepted := by cases t <;> rfl

@[simp] theorem setPc_taken : (d.setPc t pc).taken = d.taken := by cases t <;> rfl

@[simp] theorem setPc_applied : (d.setPc t pc).applied = d.applied := by cases t <;> rfl

theorem setPc_ipc (h : (d.setPc t pc).ipc = .idle) : d.ipc = .idle ∨ (t = .ipc ∧ pc = .idle) := by
  cases t with
  | ipc => exact .inr ⟨rfl, h⟩
  | compositor => exact .inl h

theorem drainInv_start {s : HelperState} (hs : HelperOk jc s) :
    DrainInv jc (switchTargets s) (.start s) where
  helper := ⟨hs.outputs, hs.connectors, inRange_zero,
    fun _ h => absurd (pendingTasks_zero ▸ h) List.not_mem_nil⟩
  switches := rfl
  requests := fun _ h => absurd h List.not_mem_nil
  queue := pendingTasks_zero.symm
  taken := Nat.le_refl _
  numbers := .refl _
  tasks := fun _ h => absurd h List.not_mem_nil
  calls := rfl
  ipcIdle := fun _ => pendingTasks_zero

/-- What a thread does in one step. -/
theorem drainThreadStep_cases {d' : DrainState} (hstep : drainThreadStep jc d t = some d') :
    (d.pc t = .haveTask ∧
      d' = d.setPc t (if haveTask d.helper.taskAfterRepaintCycle then .getTask else .idle)) ∨
    (d.pc t = .getTask ∧ getTask d.helper.taskAfterRepaintCycle = none ∧ d' = d.setPc t .idle) ∨
    (∃ task tasks, d.pc t = .getTask ∧
      getTask d.helper.taskAfterRepaintCycle = some (task, tasks) ∧
      d' = { d with
        helper := { d.helper with taskAfterRepaintCycle := tasks }
        taken := d.taken + 1 }.setPc t (if task.isNull then .haveTask else .process d.taken task)) ∨
    (∃ number task s, d.pc t = .process number task ∧ processTask jc d.helper task = .ok s ∧
      d' = { d with helper := s, applied := d.applied ++ [(number, task)] }.setPc t .haveTask) := by
  unfold drainThreadStep at hstep
  cases hpc : d.pc t with
  | idle =>
      simp only [hpc] at hstep
      exact absurd hstep (by simp)
  | haveTask =>
      simp only [hpc] at hstep
      refine .inl ⟨rfl, ?_⟩
      split_ifs at hstep ⊢ with hhave
      · exact (Option.some.inj hstep).symm
      · exact (Option.some.inj hstep).symm
  | getTask =>
      simp only [hpc] at hstep
      split at hstep
      · rename_i hget
        exact .inr (.inl ⟨rfl, hget, (Option.some.inj hstep).symm⟩)
      · rename_i task tasks hget
        exact .inr (.inr (.inl ⟨task, tasks, rfl, hget, (Option.some.inj hstep).symm⟩))
  | process number task =>
      simp only [hpc] at hstep
      split at hstep
      · exact absurd hstep (by simp)
      · rename_i s hrun
        exact .inr (.inr (.inr ⟨number, task, s, rfl, hrun, (Option.some.inj hstep).symm⟩))

/-- A thread moves on between two tasks. -/
theorem DrainInv.move (hd : DrainInv jc targets d) (hnow : (d.pc t).held = [])
    (hpc : pc.held = [])
    (hidle : t = .ipc → pc = .idle → pendingTasks d.helper.taskAfterRepaintCycle = []) :
    DrainInv jc targets (d.setPc t pc) := by
  have hheld : (d.setPc t pc).held.Perm d.held := by
    refine (held_setPc d t pc).trans (.trans ?_ (held_perm d t).symm)
    rw [hnow, hpc]
  refine ⟨by simpa using hd.helper, by simpa using hd.switches, by simpa using hd.requests,
    by simpa using hd.queue, by simpa using hd.taken, ?_, ?_, by simpa using hd.calls, ?_⟩
  · rw [setPc_applied, setPc_taken]
    exact ((hheld.append_left d.applied).map Prod.fst).trans hd.numbers
  · intro x hx
    rw [setPc_applied] at hx
    rw [setPc_accepted]
    exact hd.tasks x ((hheld.append_left d.applied).mem_iff.mp hx)
  · intro h
    rw [setPc_helper]
    rcases setPc_ipc h with hipc | ⟨ht, hpc'⟩
    · exact hd.ipcIdle hipc
    · exact hidle ht hpc'

/-- A request that is accepted goes behind the others. -/
theorem drainInv_request (hd : DrainInv jc targets d) {copyOk : Bool} {dataIn : Json}
    {d' : DrainState} (hstep : drainStep jc d (.request copyOk dataIn) = some d') :
    DrainInv jc targets d' := by
  simp only [drainStep] at hstep
  by_cases hnow : d.ipc = .idle ∧ setModeOf jc dataIn ≠ none
  · rw [if_pos hnow] at hstep
    obtain ⟨hidle, hmode⟩ := hnow
    cases hscheduled : scheduleTask copyOk d.helper.taskAfterRepaintCycle dataIn with
    | mk tasks scheduled =>
        simp only [hscheduled] at hstep
        cases scheduled with
        | false =>
            -- the queue is full, or the copy failed: nothing is accepted
            have hsame := scheduleTask_rejected (show (scheduleTask copyOk
              d.helper.taskAfterRepaintCycle dataIn).2 = false by rw [hscheduled])
            rw [hscheduled] at hsame
            change tasks = _ at hsame
            subst hsame
            obtain rfl := Option.some.inj hstep
            exact hd
        | true =>
            obtain ⟨hring, hpending⟩ := pendingTasks_schedule hd.helper.ring hscheduled
            obtain rfl := Option.some.inj hstep
            -- the IPC thread holds nothing before it drains, and nothing behind it
            have hnone : d.ipc.held = [] := by
              rw [hidle]
              rfl
            have hheld : DrainPc.haveTask.held ++ d.compositor.held = d.held := by
              unfold DrainState.held
              rw [hnone]
              rfl
            refine ⟨⟨hd.helper.outputs, hd.helper.connectors, hring, ?_⟩, hd.switches, ?_, ?_,
              ?_, ?_, ?_, hd.calls, fun h => absurd h (by simp)⟩
            · show ∀ task ∈ pendingTasks tasks, IsModeTask jc task
              rw [hpending]
              intro task htask
              rcases List.mem_append.mp htask with htask | htask
              · exact hd.helper.tasks task htask
              · rw [List.mem_singleton.mp htask]
                exact (isModeTask_of_setMode hmode).1
            · intro r hr
              rcases List.mem_append.mp hr with hr | hr
              · exact hd.requests r hr
              · rw [List.mem_singleton.mp hr]
                exact hmode
            · show (d.accepted ++ [dataIn]).drop d.taken = pendingTasks tasks
              rw [hpending, List.drop_append_of_le_length hd.taken, hd.queue]
            · show d.taken ≤ (d.accepted ++ [dataIn]).length
              rw [List.length_append]
              exact Nat.le_add_right_of_le hd.taken
            · show ((d.applied ++ (DrainPc.haveTask.held ++ d.compositor.held)).map _).Perm _
              rw [hheld]
              exact hd.numbers
            · show ∀ x ∈ d.applied ++ (DrainPc.haveTask.held ++ d.compositor.held),
                (d.accepted ++ [dataIn])[x.1]? = some x.2
              rw [hheld]
              intro x hx
              have hold := hd.tasks x hx
              rw [List.getElem?_append_left (List.getElem?_eq_some_iff.mp hold).1]
              exact hold
  · rw [if_neg hnow] at hstep
    exact absurd hstep (by simp)

/-- The oldest task goes from the queue to the thread. -/
theorem drainInv_get (hd : DrainInv jc targets d) (hpc : d.pc t = .getTask) {task : Json}
    {tasks : HelperTaskQueue} (hget : getTask d.helper.taskAfterRepaintCycle = some (task, tasks)) :
    DrainInv jc targets ({ d with
      helper := { d.helper with taskAfterRepaintCycle := tasks }
      taken := d.taken + 1 }.setPc t (if task.isNull then .haveTask else .process d.taken task)) := by
  obtain ⟨hring, hpending⟩ := pendingTasks_get hd.helper.ring hget
  have hqueue := hd.queue
  rw [hpending] at hqueue
  -- the task is the next one of the accepted ones
  have hlt : d.taken < d.accepted.length := by
    by_contra hge
    rw [List.drop_eq_nil_of_le (Nat.not_lt.mp hge)] at hqueue
    exact absurd hqueue (by simp)
  rw [List.drop_eq_getElem_cons hlt] at hqueue
  obtain ⟨htask, hrest⟩ := List.cons.inj hqueue
  have hmode : setModeOf jc task ≠ none := htask ▸ hd.requests _ (List.getElem_mem hlt)
  simp only [(isModeTask_of_setMode hmode).2, Bool.false_eq_true, if_false]
  generalize hd₁ : ({ d with
    helper := { d.helper with taskAfterRepaintCycle := tasks }
    taken := d.taken + 1 } : DrainState) = d₁
  have hother : d₁.pc t.other = d.pc t.other := by
    subst hd₁
    cases t <;> rfl
  have hheld : (d₁.setPc t (.process d.taken task)).held.Perm ((d.taken, task) :: d.held) := by
    refine (held_setPc d₁ t _).trans ?_
    rw [hother]
    refine .trans ?_ ((held_perm d t).symm.cons (d.taken, task))
    rw [hpc]
    exact .refl _
  have hall : (d.applied ++ (d₁.setPc t (.process d.taken task)).held).Perm
      ((d.taken, task) :: (d.applied ++ d.held)) :=
    (hheld.append_left d.applied).trans List.perm_middle
  subst hd₁
  refine ⟨by simpa using ⟨hd.helper.outputs, hd.helper.connectors, hring,
      fun x hx => hd.helper.tasks x (hpending ▸ List.mem_cons_of_mem _ hx)⟩,
    by rw [setPc_helper]; exact hd.switches, by simpa using hd.requests,
    by simpa using hrest, by rw [setPc_taken, setPc_accepted]; exact hlt, ?_, ?_,
    by simpa using hd.calls, ?_⟩
  · rw [setPc_applied, setPc_taken]
    refine (hall.map Prod.fst).trans ?_
    show (d.taken :: (d.applied ++ d.held).map Prod.fst).Perm (List.range (d.taken + 1))
    rw [List.range_succ]
    exact (hd.numbers.cons d.taken).trans (List.perm_append_singleton _ _).symm
  · rw [setPc_applied, setPc_accepted]
    intro x hx
    rcases List.mem_cons.mp (hall.mem_iff.mp hx) with rfl | hx
    · show d.accepted[d.taken]? = some task
      rw [List.getElem?_eq_getElem hlt, htask]
    · exact hd.tasks x hx
  · -- the queue was not empty, so the IPC thread was not idle
    intro h
    rw [setPc_helper]
    rcases setPc_ipc h with hipc | ⟨-, hpc'⟩
    · have hempty := hd.ipcIdle hipc
      rw [hpending] at hempty
      exact absurd hempty (by simp)
    · exact absurd hpc' (by simp)

/-- A task that is held is processed. -/
theorem drainInv_process (hd : DrainInv jc targets d) {number : Nat} {task : Json}
    (hpc : d.pc t = .process number task) :
    ∃ d', drainThreadStep jc d t = some d' ∧ DrainInv jc targets d' ∧
      d'.applied = d.applied ++ [(number, task)] := by
  have hnow : (d.pc t).held = [(number, task)] := by
    rw [hpc]
    rfl
  have hperm := held_perm d t
  rw [hnow] at hperm
  -- the task in hand was taken from the ring, so it is one of the accepted ones
  have hmem : (number, task) ∈ d.applied ++ d.held :=
    List.mem_append_right _ (hperm.mem_iff.mpr List.mem_cons_self)
  have hmode : setModeOf jc task ≠ none :=
    hd.requests task (List.mem_of_getElem? (hd.tasks _ hmem))
  obtain ⟨s', hrun, hs', htasks, htargets, hcalls⟩ := processTask_spec hd.helper hmode
  unfold drainThreadStep
  simp only [hpc, hrun]
  refine ⟨_, rfl, ?_, by simp⟩
  generalize hd₁ : ({ d with helper := s', applied := d.applied ++ [(number, task)] } :
    DrainState) = d₁
  have hother : d₁.pc t.other = d.pc t.other := by
    subst hd₁
    cases t <;> rfl
  -- what the thread held is applied now; the other thread holds what it held
  have hheld : (d₁.setPc t .haveTask).held.Perm (d.pc t.other).held := by
    refine (held_setPc d₁ t _).trans ?_
    rw [hother]
    exact .refl _
  have hall : (d.applied ++ [(number, task)] ++ (d₁.setPc t .haveTask).held).Perm
      (d.applied ++ d.held) := by
    rw [List.append_assoc]
    exact (((hheld.append_left _).trans hperm.symm).append_left d.applied)
  subst hd₁
  refine ⟨by simpa using hs', by simpa using htargets.trans hd.switches,
    by simpa using hd.requests, by simpa [htasks] using hd.queue, by simpa using hd.taken,
    ?_, ?_, ?_, ?_⟩
  · rw [setPc_applied, setPc_taken]
    exact (hall.map Prod.fst).trans hd.numbers
  · rw [setPc_applied, setPc_accepted]
    exact fun x hx => hd.tasks x (hall.mem_iff.mp hx)
  · rw [setPc_applied, setPc_helper]
    show switchCalls s'.effects = _
    rw [hcalls, hd.calls, hd.switches, List.flatMap_append]
    simp
  · intro h
    rw [setPc_helper]
    show pendingTasks s'.taskAfterRepaintCycle = []
    rw [htasks]
    rcases setPc_ipc h with hipc | ⟨-, hpc'⟩
    · exact hd.ipcIdle hipc
    · exact absurd hpc' (by simp)

/-- **Every step keeps the invariant.** -/
theorem drainInv_step (hd : DrainInv jc targets d) (a : DrainAction) {d' : DrainState}
    (hstep : drainStep jc d a = some d') : DrainInv jc targets d' := by
  cases a with
  | request copyOk dataIn => exact drainInv_request hd hstep
  | cycleCompleted =>
      simp only [drainStep] at hstep
      by_cases hidle : d.compositor = .idle
      · rw [if_pos hidle] at hstep
        obtain rfl := Option.some.inj hstep
        have hnow : (d.pc .compositor).held = [] := by
          show d.compositor.held = []
          rw [hidle]
          rfl
        exact hd.move (t := .compositor) hnow rfl (fun h => absurd h (by simp))
      · rw [if_neg hidle] at hstep
        exact absurd hstep (by simp)
  | step t =>
      rcases drainThreadStep_cases hstep with
        ⟨hpc, rfl⟩ | ⟨hpc, hget, rfl⟩ | ⟨task, tasks, hpc, hget, rfl⟩ | ⟨number, task, s, hpc, -⟩
      · refine hd.move (by rw [hpc]; rfl) (by split_ifs <;> rfl) ?_
        intro _ hidle
        by_contra hne
        rw [if_pos ((haveTask_iff hd.helper.ring).mpr hne)] at hidle
        exact absurd hidle (by simp)
      · refine hd.move (by rw [hpc]; rfl) rfl ?_
        intro _ _
        by_contra hne
        have hnone := getTask_eq_none_iff.mp hget
        rw [(haveTask_iff hd.helper.ring).mpr hne] at hnone
        exact absurd hnone (by simp)
      · exact drainInv_get hd hpc hget
      · obtain ⟨d₁, hstep₁, hd₁, -⟩ := drainInv_process hd hpc
        obtain rfl := Option.some.inj (hstep₁.symm.trans hstep)
        exact hd₁

/-! ## §4. The order. -/

/-- The tasks were processed in the order of the requests, each one once; so the
modes were switched in this order, and all of them were where both threads are
idle. -/
structure AppliedInOrder (jc : JsonC) (targets : List Nat) (d : DrainState) : Prop where
  order : d.applied.map Prod.fst = List.range d.applied.length
  tasks : d.applied.map Prod.snd = d.accepted.take d.applied.length
  calls : switchCalls d.helper.effects
    = (d.accepted.take d.applied.length).flatMap (callsFor jc targets)
  idle : d.ipc = .idle → d.compositor = .idle → d.applied.length = d.accepted.length

/-- The step is none in which a thread processes a task while the other thread
holds one that was taken out before it. -/
def AppliesNext (d : DrainState) : DrainAction → Prop
  | .step t =>
      match d.pc t, d.pc t.other with
      | .process number _, .process other _ => number < other
      | _, _ => True
  | _ => True

instance (d : DrainState) (a : DrainAction) : Decidable (AppliesNext d a) := by
  unfold AppliesNext
  split
  · split <;> infer_instance
  · infer_instance

/-- With the right order everything is right. -/
theorem DrainInv.inOrder (hd : DrainInv jc targets d)
    (horder : d.applied.map Prod.fst = List.range d.applied.length) :
    AppliedInOrder jc targets d := by
  have htasks : d.applied.map Prod.snd = d.accepted.take d.applied.length := by
    apply List.ext_getElem?
    intro i
    rw [List.getElem?_map, List.getElem?_take]
    by_cases hi : i < d.applied.length
    · have hnumber : (d.applied[i]).1 = i := by
        have h := congrArg (fun l => l[i]?) horder
        simpa [hi] using h
      have htask := hd.tasks _ (List.mem_append_left _ (List.getElem_mem hi))
      rw [hnumber] at htask
      rw [if_pos hi, htask, List.getElem?_eq_getElem hi, Option.map_some]
    · rw [if_neg hi, List.getElem?_eq_none (Nat.not_lt.mp hi), Option.map_none]
  refine ⟨horder, htasks, ?_, ?_⟩
  · rw [hd.calls, ← htasks, List.flatMap_map]
  · intro hipc hcompositor
    have hheld : d.held = [] := by
      unfold DrainState.held
      rw [hipc, hcompositor]
      rfl
    -- the queue is empty, and no thread holds a task
    have hlen := hd.numbers.length_eq
    rw [hheld, List.append_nil, List.length_map, List.length_range] at hlen
    have hall := List.drop_eq_nil_iff.mp (hd.queue.trans (hd.ipcIdle hipc))
    have htaken := hd.taken
    omega

/-- Processing the next task keeps the order, and processing another one breaks
it. -/
theorem order_process_iff (hd : DrainInv jc targets d) {number : Nat} {task : Json}
    (hpc : d.pc t = .process number task)
    (horder : d.applied.map Prod.fst = List.range d.applied.length) :
    (d.applied ++ [(number, task)]).map Prod.fst
        = List.range (d.applied ++ [(number, task)]).length ↔
      AppliesNext d (.step t) := by
  have hperm := held_perm d t
  have hnumbers := hd.numbers
  rw [List.map_append, horder] at hnumbers
  have hheld : (d.held.map Prod.fst).Perm (number :: (d.pc t.other).held.map Prod.fst) := by
    have h := hperm.map Prod.fst
    rwa [hpc] at h
  have hsplit : (List.range d.applied.length ++
      number :: (d.pc t.other).held.map Prod.fst).Perm (List.range d.taken) :=
    (hheld.symm.append_left _).trans hnumbers
  have hnd := hsplit.nodup_iff.mpr List.nodup_range
  have hge : d.applied.length ≤ number := by
    by_contra hlt
    exact (List.nodup_append.mp hnd).2.2 number (List.mem_range.mpr (Nat.not_le.mp hlt))
      number List.mem_cons_self rfl
  have hiff : (d.applied ++ [(number, task)]).map Prod.fst
      = List.range (d.applied ++ [(number, task)]).length ↔ number = d.applied.length := by
    rw [List.map_append, horder, List.length_append, List.length_singleton, List.range_succ]
    simp
  rw [hiff]
  have hlen := hsplit.length_eq
  rw [List.length_append, List.length_range, List.length_range, List.length_cons,
    List.length_map] at hlen
  have hmem : number < d.taken :=
    List.mem_range.mp (hsplit.mem_iff.mp (List.mem_append_right _ List.mem_cons_self))
  unfold AppliesNext
  cases hother : d.pc t.other with
  | process other task' =>
      -- the two tasks that are held have the two numbers behind those applied
      simp only [hpc, hother]
      rw [hother] at hnd hsplit hlen
      change d.applied.length + (1 + 1) = d.taken at hlen
      change (List.range d.applied.length ++ [number, other]).Nodup at hnd
      change (List.range d.applied.length ++ [number, other]).Perm _ at hsplit
      have hother' : other < d.taken := List.mem_range.mp (hsplit.mem_iff.mp (by simp))
      have hge' : d.applied.length ≤ other := by
        by_contra hlt
        exact (List.nodup_append.mp hnd).2.2 other (List.mem_range.mpr (Nat.not_le.mp hlt))
          other (by simp) rfl
      have hne : number ≠ other := by
        intro heq
        have h := (List.nodup_append.mp hnd).2.1
        simp [heq] at h
      omega
  | _ =>
      -- no other task is held, so this one is the next
      simp only [hpc, hother, iff_true]
      rw [hother] at hlen
      change d.applied.length + (0 + 1) = d.taken at hlen
      omega

/-- What is processed in a step. -/
theorem applied_step (a : DrainAction) {d' : DrainState}
    (hstep : drainStep jc d a = some d') :
    (∃ t number task, a = .step t ∧ d.pc t = .process number task ∧
      d'.applied = d.applied ++ [(number, task)]) ∨
    (d'.applied = d.applied ∧ AppliesNext d a) := by
  cases a with
  | request copyOk dataIn =>
      refine .inr ⟨?_, trivial⟩
      simp only [drainStep] at hstep
      split_ifs at hstep with hnow hscheduled
      · obtain rfl := Option.some.inj hstep
        rfl
      · obtain rfl := Option.some.inj hstep
        rfl
  | cycleCompleted =>
      refine .inr ⟨?_, trivial⟩
      simp only [drainStep] at hstep
      split_ifs at hstep with hidle
      obtain rfl := Option.some.inj hstep
      rfl
  | step t =>
      rcases drainThreadStep_cases hstep with
        ⟨hpc, rfl⟩ | ⟨hpc, -, rfl⟩ | ⟨task, tasks, hpc, -, rfl⟩ | ⟨number, task, s, hpc, -, rfl⟩
      · exact .inr ⟨setPc_applied, by simp [AppliesNext, hpc]⟩
      · exact .inr ⟨setPc_applied, by simp [AppliesNext, hpc]⟩
      · exact .inr ⟨setPc_applied, by simp [AppliesNext, hpc]⟩
      · exact .inl ⟨t, number, task, rfl, hpc, setPc_applied⟩

/-! ## §5. Runs. -/

/-- In every state of the run the tasks were processed in order. -/
def InOrderThroughout (jc : JsonC) (targets : List Nat) (d : DrainState)
    (actions : List DrainAction) : Prop :=
  ∀ pre post d', actions = pre ++ post → run (drainStep jc) d pre = some d' →
    AppliedInOrder jc targets d'

/-- An action that is not possible breaks no order. -/
theorem appliesNext_of_stuck (hd : DrainInv jc targets d) {a : DrainAction}
    (hstuck : drainStep jc d a = none) : AppliesNext d a := by
  cases a with
  | request copyOk dataIn => trivial
  | cycleCompleted => trivial
  | step t =>
      unfold AppliesNext
      cases hpc : d.pc t with
      | process number task =>
          -- a task in hand can always be processed
          obtain ⟨d₁, hstep, -⟩ := drainInv_process hd hpc
          exact absurd (hstuck.symm.trans hstep) (by simp)
      | _ => simp [hpc]

/-- From a state in which the order is right. -/
theorem inOrderThroughout_iff (actions : List DrainAction) {d : DrainState}
    (hd : DrainInv jc targets d)
    (horder : d.applied.map Prod.fst = List.range d.applied.length) :
    InOrderThroughout jc targets d actions ↔ Meets (drainStep jc) AppliesNext d actions := by
  refine throughout_iff
    (I := fun d => DrainInv jc targets d ∧
      d.applied.map Prod.fst = List.range d.applied.length)
    (fun d hd => hd.1.inOrder hd.2) (fun d a hd hstuck => appliesNext_of_stuck hd.1 hstuck)
    ?_ actions ⟨hd, horder⟩
  intro d a d₁ hinv hstep
  obtain ⟨hd, horder⟩ := hinv
  have hd₁ := drainInv_step hd a hstep
  rcases applied_step a hstep with ⟨t, number, task, rfl, hpc, happlied⟩ | ⟨hsame, hnext⟩
  · have hiff := order_process_iff hd hpc horder
    rw [← happlied] at hiff
    by_cases horder₁ : d₁.applied.map Prod.fst = List.range d₁.applied.length
    · exact .inl ⟨hiff.mp horder₁, hd₁, horder₁⟩
    · exact .inr ⟨fun h => horder₁ (hiff.mpr h), fun h => horder₁ h.order⟩
  · exact .inl ⟨hnext, hd₁, by rw [hsame]; exact horder⟩

/-- **When the modes are switched in order.**  In every run of the two threads,
whatever outputs and callbacks the helper knows, the requests are applied in the
order they were accepted, each once, and all of them when both threads are idle,
if and only if no thread processes a task while the other one holds a task that
was taken out of the queue earlier. -/
theorem applied_in_order_iff {s : HelperState} (hs : HelperReachable jc s)
    (actions : List DrainAction) :
    InOrderThroughout jc (switchTargets s) (.start s) actions
      ↔ Meets (drainStep jc) AppliesNext (.start s) actions :=
  inOrderThroughout_iff actions (drainInv_start (helperOk_reachable hs)) rfl

end Steps

/-! ### Two requests -/

/-- A callback is registered for one output. -/
def switchingHelper : HelperState :=
  { HelperState.init true with interface := ⟨true, false, false⟩, output := some 1 }

theorem switchingHelper_reachable : HelperReachable jsonText switchingHelper :=
  .step (.setSwitchModeFunction (some 1) true) (.init true) rfl

/-- The compositor takes the first request out of the queue and processes it;
the IPC thread finds nothing to do, accepts the second one and processes it. -/
def alternating : List DrainAction :=
  [.request true (setModeRequest "1920x1080@60"), .cycleCompleted, .step .compositor,
    .step .compositor, .step .ipc, .step .compositor, .request true (setModeRequest "1280x720@60"),
    .step .ipc, .step .ipc, .step .compositor, .step .ipc, .step .ipc]

/-- Both are applied, in order. -/
theorem requests_one_by_one :
    ((run (drainStep jsonText) (.start switchingHelper) alternating).map fun d =>
        (d.ipc, d.compositor, switchCalls d.helper.effects))
      = some (.idle, .idle, [(1, ⟨1920, 1080, 60, 0, ""⟩), (1, ⟨1280, 720, 60, 0, ""⟩)]) ∧
    InOrderThroughout jsonText (switchTargets switchingHelper) (.start switchingHelper)
      alternating :=
  ⟨by decide +kernel, (applied_in_order_iff switchingHelper_reachable _).mpr (by decide +kernel)⟩

/-- The compositor takes the first request out of the queue; the IPC thread
accepts the second one and processes it; then the compositor goes on. -/
def overtaking : List DrainAction :=
  [.request true (setModeRequest "1920x1080@60"), .cycleCompleted, .step .compositor,
    .step .compositor, .step .ipc, .request true (setModeRequest "1280x720@60"), .step .ipc,
    .step .ipc, .step .ipc, .step .compositor, .step .ipc, .step .compositor]

/-- Both threads are idle, and the mode is the one of the first request. -/
theorem second_request_overtakes :
    ((run (drainStep jsonText) (.start switchingHelper) overtaking).map fun d =>
        (d.ipc, d.compositor, switchCalls d.helper.effects))
      = some (.idle, .idle, [(1, ⟨1280, 720, 60, 0, ""⟩), (1, ⟨1920, 1080, 60, 0, ""⟩)]) ∧
    ¬ InOrderThroughout jsonText (switchTargets switchingHelper) (.start switchingHelper)
      overtaking := by
  refine ⟨by decide +kernel, ?_⟩
  rw [inOrderThroughout_iff overtaking
    (drainInv_start (helperOk_reachable switchingHelper_reachable)) rfl]
  decide +kernel

end MesonDisplay.Helper
