/-
  MesonDisplay.Helper.TaskQueue — the ring of tasks for the next repaint cycle.

  `helper_task_queue` is a ring of `MAX_TASK_NUM` slots with a put and a get
  index; one slot stays free.  `pendingTasks` is the queue it stands for.

  Main results:
    * `pendingTasks_schedule` — a task that is accepted is appended.
    * `pendingTasks_get` — the oldest task is taken out.
    * `taskQueue_refines_fifo` — every sequence of calls is answered as by a
      queue for `MAX_TASK_NUM` - 1 tasks.
-/
import MesonDisplay.Json.Value
import MesonDisplay.Lib.Fifo

namespace MesonDisplay.Helper

/-! ## §1. The ring. -/

/-- `MAX_TASK_NUM`. -/
def maxTaskNum : Nat := 10

/-- `helper_task_queue`; an empty slot is `Json.null`. -/
structure HelperTaskQueue where
  task : List Json
  putIndex : Nat
  getIndex : Nat

/-- `g_task_after_repaint_cycle = { 0 }`. -/
def HelperTaskQueue.zero : HelperTaskQueue := ⟨List.replicate maxTaskNum .null, 0, 0⟩

/-- `schedule_task`; `copyOk` is the success of `json_object_deep_copy`. -/
def scheduleTask (copyOk : Bool) (queue : HelperTaskQueue) (task : Json) :
    HelperTaskQueue × Bool :=
  let next := (queue.putIndex + 1) % maxTaskNum
  if next = queue.getIndex then (queue, false)
  else if copyOk then
    (⟨queue.task.set queue.putIndex task, next, queue.getIndex⟩, true)
  else (queue, false)

/-- `have_task`. -/
def haveTask (queue : HelperTaskQueue) : Bool := queue.getIndex ≠ queue.putIndex

/-- `get_task`; `none` is false. -/
def getTask (queue : HelperTaskQueue) : Option (Json × HelperTaskQueue) :=
  let next := (queue.getIndex + 1) % maxTaskNum
  if haveTask queue then
    some (queue.task.getD queue.getIndex .null,
      ⟨queue.task.set queue.getIndex .null, queue.putIndex, next⟩)
  else none

/-! ## §2. The queue it stands for. -/

/-- The indices are inside the ring. -/
structure HelperTaskQueue.InRange (queue : HelperTaskQueue) : Prop where
  slots : queue.task.length = maxTaskNum
  put : queue.putIndex < maxTaskNum
  get : queue.getIndex < maxTaskNum

/-- The number of tasks. -/
def taskCount (queue : HelperTaskQueue) : Nat :=
  (queue.putIndex + maxTaskNum - queue.getIndex) % maxTaskNum

/-- `n` tasks, from slot `i` on. -/
def tasksFrom (task : List Json) (i : Nat) : Nat → List Json
  | 0 => []
  | n + 1 => task.getD i .null :: tasksFrom task ((i + 1) % maxTaskNum) n

/-- The tasks, oldest first. -/
def pendingTasks (queue : HelperTaskQueue) : List Json :=
  tasksFrom queue.task queue.getIndex (taskCount queue)

theorem inRange_zero : HelperTaskQueue.zero.InRange where
  slots := rfl
  put := by decide
  get := by decide

theorem pendingTasks_zero : pendingTasks .zero = [] := rfl

theorem tasksFrom_length (task : List Json) (n : Nat) :
    ∀ i, (tasksFrom task i n).length = n := by
  induction n with
  | zero => exact fun _ => rfl
  | succ n ih =>
      intro i
      unfold tasksFrom
      rw [List.length_cons, ih]

/-- A store outside of the slots is not seen. -/
theorem tasksFrom_set (task : List Json) (v : Json) (k n : Nat) :
    ∀ i, i < maxTaskNum → n ≤ maxTaskNum → k < maxTaskNum →
      (∀ m, m < n → (i + m) % maxTaskNum ≠ k) →
      tasksFrom (task.set k v) i n = tasksFrom task i n := by
  induction n with
  | zero => exact fun _ _ _ _ _ => rfl
  | succ n ih =>
      intro i hi hn hk hne
      unfold tasksFrom
      have hik : i ≠ k := by
        have h0 := hne 0 (Nat.succ_pos n)
        rwa [Nat.add_zero, Nat.mod_eq_of_lt hi] at h0
      have hrest : ∀ m, m < n → ((i + 1) % maxTaskNum + m) % maxTaskNum ≠ k := by
        intro m hm
        have hm' := hne (m + 1) (Nat.succ_lt_succ hm)
        rw [Nat.mod_add_mod]
        have hsum : i + 1 + m = i + (m + 1) := by omega
        rwa [hsum]
      rw [ih ((i + 1) % maxTaskNum) (Nat.mod_lt _ (by decide)) (by omega) hk hrest]
      congr 1
      simp [List.getD_eq_getElem?_getD, Ne.symm hik]

/-- One more slot. -/
theorem tasksFrom_succ (task : List Json) (n : Nat) :
    ∀ i, i < maxTaskNum → tasksFrom task i (n + 1)
      = tasksFrom task i n ++ [task.getD ((i + n) % maxTaskNum) .null] := by
  induction n with
  | zero =>
      intro i hi
      rw [Nat.add_zero i, Nat.mod_eq_of_lt hi]
      rfl
  | succ n ih =>
      intro i hi
      show task.getD i .null :: tasksFrom task ((i + 1) % maxTaskNum) (n + 1)
        = (task.getD i .null :: tasksFrom task ((i + 1) % maxTaskNum) n) ++ _
      rw [ih _ (Nat.mod_lt _ (by decide)), List.cons_append, Nat.mod_add_mod]
      have hsum : i + 1 + n = i + (n + 1) := by omega
      rw [hsum]

/-! ## §3. What the operations do to it. -/

section Operations

variable {queue queue' : HelperTaskQueue}

theorem haveTask_iff (hr : queue.InRange) :
    haveTask queue = true ↔ pendingTasks queue ≠ [] := by
  have hput := hr.put
  have hget := hr.get
  have hlen : (pendingTasks queue).length = taskCount queue := tasksFrom_length _ _ _
  unfold haveTask
  rw [decide_eq_true_eq, ← List.length_pos_iff_ne_nil, hlen]
  unfold taskCount
  unfold maxTaskNum at *
  omega

/-- A task is accepted if a slot is free and the copy succeeds. -/
theorem scheduleTask_accepted_iff (hr : queue.InRange) (copyOk : Bool) (task : Json) :
    (scheduleTask copyOk queue task).2 = true ↔
      (pendingTasks queue).length + 1 < maxTaskNum ∧ copyOk = true := by
  have hput := hr.put
  have hget := hr.get
  have hlen : (pendingTasks queue).length = taskCount queue := tasksFrom_length _ _ _
  have hfull : (queue.putIndex + 1) % maxTaskNum = queue.getIndex ↔
      ¬ taskCount queue + 1 < maxTaskNum := by
    unfold taskCount
    unfold maxTaskNum at *
    omega
  rw [hlen]
  unfold scheduleTask
  by_cases hnext : (queue.putIndex + 1) % maxTaskNum = queue.getIndex
  · simp [hnext, hfull.mp hnext]
  · have hfree : taskCount queue + 1 < maxTaskNum := by
      by_contra h
      exact hnext (hfull.mpr h)
    cases copyOk
    · simp [hnext]
    · simp [hnext, hfree]

/-- A task that is not accepted changes nothing. -/
theorem scheduleTask_rejected {copyOk : Bool} {task : Json}
    (hs : (scheduleTask copyOk queue task).2 = false) :
    (scheduleTask copyOk queue task).1 = queue := by
  unfold scheduleTask at hs ⊢
  by_cases hnext : (queue.putIndex + 1) % maxTaskNum = queue.getIndex
  · simp [hnext]
  · cases copyOk
    · simp [hnext]
    · simp [hnext] at hs

/-- **Scheduling** appends. -/
theorem pendingTasks_schedule (hr : queue.InRange) {copyOk : Bool} {task : Json}
    (hs : scheduleTask copyOk queue task = (queue', true)) :
    queue'.InRange ∧ pendingTasks queue' = pendingTasks queue ++ [task] := by
  have hput := hr.put
  have hget := hr.get
  have haccepted := (scheduleTask_accepted_iff hr copyOk task).mp (by rw [hs])
  have hlen : (pendingTasks queue).length = taskCount queue := tasksFrom_length _ _ _
  rw [hlen] at haccepted
  obtain ⟨hcount, hcopy⟩ := haccepted
  have hnext : (queue.putIndex + 1) % maxTaskNum ≠ queue.getIndex := by
    unfold taskCount at hcount
    unfold maxTaskNum at *
    omega
  unfold scheduleTask at hs
  rw [if_neg hnext, if_pos hcopy] at hs
  obtain rfl := (Prod.mk.inj hs).1
  refine ⟨⟨?_, Nat.mod_lt _ (by decide), hget⟩, ?_⟩
  · rw [List.length_set]
    exact hr.slots
  -- the put index moves by one, so there is one task more
  · have hcount' : taskCount ⟨queue.task.set queue.putIndex task,
        (queue.putIndex + 1) % maxTaskNum, queue.getIndex⟩ = taskCount queue + 1 := by
      unfold taskCount at hcount ⊢
      unfold maxTaskNum at *
      show ((queue.putIndex + 1) % 10 + 10 - queue.getIndex) % 10 = _
      omega
    -- the task goes into the slot behind the last one
    have hslot : (queue.getIndex + taskCount queue) % maxTaskNum = queue.putIndex := by
      unfold taskCount
      unfold maxTaskNum at *
      omega
    -- which is none of the slots in use
    have hother : ∀ m, m < taskCount queue →
        (queue.getIndex + m) % maxTaskNum ≠ queue.putIndex := by
      intro m hm
      unfold taskCount at hm
      unfold maxTaskNum at *
      omega
    unfold pendingTasks
    rw [hcount']
    show tasksFrom (queue.task.set queue.putIndex task) queue.getIndex (taskCount queue + 1) = _
    rw [tasksFrom_succ _ _ _ hget, tasksFrom_set _ _ _ _ _ hget (by omega) hput hother, hslot]
    have hin : queue.putIndex < queue.task.length := by
      rw [hr.slots]
      exact hput
    simp [List.getD_eq_getElem?_getD, List.getElem?_set_self hin]

/-- **Taking out** removes the oldest task. -/
theorem pendingTasks_get (hr : queue.InRange) {task : Json}
    (hg : getTask queue = some (task, queue')) :
    queue'.InRange ∧ pendingTasks queue = task :: pendingTasks queue' := by
  have hput := hr.put
  have hget := hr.get
  unfold getTask at hg
  by_cases hhave : haveTask queue = true
  · rw [if_pos hhave] at hg
    obtain ⟨rfl, rfl⟩ := Prod.mk.inj (Option.some.inj hg)
    have hne : queue.getIndex ≠ queue.putIndex := by
      unfold haveTask at hhave
      exact of_decide_eq_true hhave
    -- the get index moves by one, so there is one task fewer
    have hcount : taskCount queue
        = taskCount ⟨queue.task.set queue.getIndex .null, queue.putIndex,
            (queue.getIndex + 1) % maxTaskNum⟩ + 1 := by
      unfold taskCount
      unfold maxTaskNum at *
      show _ = (queue.putIndex + 10 - (queue.getIndex + 1) % 10) % 10 + 1
      omega
    refine ⟨⟨?_, hput, Nat.mod_lt _ (by decide)⟩, ?_⟩
    · rw [List.length_set]
      exact hr.slots
    · unfold pendingTasks
      rw [hcount]
      show _ :: tasksFrom queue.task ((queue.getIndex + 1) % maxTaskNum) _ = _
      congr 1
      symm
      -- the slot that is cleared is behind the get index
      refine tasksFrom_set _ _ _ _ _ (Nat.mod_lt _ (by decide)) ?_ hget ?_
      · unfold taskCount
        unfold maxTaskNum
        omega
      · intro m hm
        unfold taskCount at hm
        unfold maxTaskNum at *
        change m < (queue.putIndex + 10 - (queue.getIndex + 1) % 10) % 10 at hm
        show ((queue.getIndex + 1) % 10 + m) % 10 ≠ queue.getIndex
        omega
  · rw [if_neg hhave] at hg
    exact absurd hg (by simp)

theorem getTask_eq_none_iff : getTask queue = none ↔ haveTask queue = false := by
  unfold getTask
  cases haveTask queue <;> simp

end Operations

/-! ## §4. The ring is a bounded queue. -/

/-- The slot is one of those in use. -/
def InUse (queue : HelperTaskQueue) (i : Nat) : Prop :=
  ∃ m, m < taskCount queue ∧ (queue.getIndex + m) % maxTaskNum = i

/-- The ring stands for the queue with the tasks `pending`. -/
structure HelperTaskQueue.Holds (queue : HelperTaskQueue) (pending : List Json) : Prop where
  inRange : queue.InRange
  tasks : pendingTasks queue = pending
  free : ∀ i, i < maxTaskNum → ¬ InUse queue i → queue.task[i]? = some .null

theorem holds_zero : HelperTaskQueue.zero.Holds [] where
  inRange := inRange_zero
  tasks := pendingTasks_zero
  free := by
    intro i hi _
    unfold HelperTaskQueue.zero
    rw [List.getElem?_replicate, if_pos hi]

/-- A call of `schedule_task`, `have_task` or `get_task`. -/
def taskCall (queue : HelperTaskQueue) : Fifo.Call Json → HelperTaskQueue × Fifo.Answer Json
  | .put task copyOk =>
      let (queue', accepted) := scheduleTask copyOk queue task
      (queue', .put accepted)
  | .any => (queue, .any (haveTask queue))
  | .take =>
      match getTask queue with
      | none => (queue, .take none)
      | some (task, queue') => (queue', .take (some task))

section Simulation

variable {queue queue' : HelperTaskQueue} {pending : List Json}

/-- The slot for the next task is free. -/
theorem not_inUse_put (hr : queue.InRange) : ¬ InUse queue queue.putIndex := by
  have hput := hr.put
  have hget := hr.get
  rintro ⟨m, hm, hslot⟩
  unfold taskCount at hm
  unfold maxTaskNum at *
  omega

theorem holds_schedule (hq : queue.Holds pending) {copyOk : Bool} {task : Json}
    (hs : scheduleTask copyOk queue task = (queue', true)) : queue'.Holds (pending ++ [task]) := by
  obtain ⟨hr', htasks⟩ := pendingTasks_schedule hq.inRange hs
  refine ⟨hr', by rw [htasks, hq.tasks], ?_⟩
  have hput := hq.inRange.put
  have hget := hq.inRange.get
  have haccepted := (scheduleTask_accepted_iff hq.inRange copyOk task).mp (by rw [hs])
  have hlen : (pendingTasks queue).length = taskCount queue := tasksFrom_length _ _ _
  obtain ⟨hroom, hcopy⟩ := haccepted
  rw [hlen] at hroom
  have hnext : (queue.putIndex + 1) % maxTaskNum ≠ queue.getIndex := by
    unfold taskCount at hroom
    unfold maxTaskNum at *
    omega
  unfold scheduleTask at hs
  rw [if_neg hnext, if_pos hcopy] at hs
  obtain rfl := (Prod.mk.inj hs).1
  intro i hi hfree
  -- a slot that is free now is not the new one, and was free before
  have hne : queue.putIndex ≠ i := by
    rintro rfl
    refine hfree ⟨taskCount queue, ?_, ?_⟩
    · unfold taskCount at hroom ⊢
      unfold maxTaskNum at *
      show _ < ((queue.putIndex + 1) % 10 + 10 - queue.getIndex) % 10
      omega
    · show (queue.getIndex + taskCount queue) % maxTaskNum = _
      unfold taskCount
      unfold maxTaskNum at *
      omega
  show (queue.task.set queue.putIndex task)[i]? = _
  rw [List.getElem?_set_ne hne]
  refine hq.free i hi ?_
  rintro ⟨m, hm, hslot⟩
  refine hfree ⟨m, ?_, hslot⟩
  unfold taskCount at hm hroom ⊢
  unfold maxTaskNum at *
  show m < ((queue.putIndex + 1) % 10 + 10 - queue.getIndex) % 10
  omega

theorem holds_get (hq : queue.Holds pending) {task : Json}
    (hg : getTask queue = some (task, queue')) :
    ∃ rest, pending = task :: rest ∧ queue'.Holds rest := by
  obtain ⟨hr', htasks⟩ := pendingTasks_get hq.inRange hg
  refine ⟨pendingTasks queue', by rw [← hq.tasks, htasks], hr', rfl, ?_⟩
  have hput := hq.inRange.put
  have hget := hq.inRange.get
  have hhave : haveTask queue = true := by
    by_contra hno
    rw [getTask_eq_none_iff.mpr (Bool.not_eq_true _ ▸ hno)] at hg
    exact absurd hg (by simp)
  have hne : queue.getIndex ≠ queue.putIndex := by
    unfold haveTask at hhave
    exact of_decide_eq_true hhave
  unfold getTask at hg
  rw [if_pos hhave] at hg
  obtain ⟨rfl, rfl⟩ := Prod.mk.inj (Option.some.inj hg)
  intro i hi hfree
  show (queue.task.set queue.getIndex .null)[i]? = _
  by_cases hi' : queue.getIndex = i
  -- the slot that was taken out is set to NULL
  · subst hi'
    rw [List.getElem?_set_self (by rw [hq.inRange.slots]; exact hget)]
  · rw [List.getElem?_set_ne hi']
    refine hq.free i hi ?_
    rintro ⟨m, hm, hslot⟩
    refine hfree ⟨m - 1, ?_, ?_⟩
    · unfold taskCount at hm ⊢
      unfold maxTaskNum at *
      show m - 1 < (queue.putIndex + 10 - (queue.getIndex + 1) % 10) % 10
      omega
    · show ((queue.getIndex + 1) % maxTaskNum + (m - 1)) % maxTaskNum = i
      unfold taskCount at hm
      unfold maxTaskNum at *
      omega

/-- One call of the ring is answered as by the queue. -/
theorem taskCall_simulates (hq : queue.Holds pending) (c : Fifo.Call Json) :
    (taskCall queue c).2 = (Fifo.call (maxTaskNum - 1) pending c).2 ∧
      (taskCall queue c).1.Holds (Fifo.call (maxTaskNum - 1) pending c).1 := by
  cases c with
  | put task copyOk =>
      -- one slot of the ring is never used
      have haccepted := scheduleTask_accepted_iff hq.inRange copyOk task
      rw [hq.tasks] at haccepted
      cases hs : scheduleTask copyOk queue task with
      | mk queue' accepted =>
          rw [hs] at haccepted
          cases accepted with
          | true =>
              have hroom : pending.length < maxTaskNum - 1 ∧ copyOk = true := by
                have h := haccepted.mp rfl
                exact ⟨by omega, h.2⟩
              simp only [taskCall, Fifo.call, hs, if_pos hroom, true_and]
              exact holds_schedule hq hs
          | false =>
              have hroom : ¬ (pending.length < maxTaskNum - 1 ∧ copyOk = true) := by
                rintro ⟨hlt, hcopy⟩
                have h := haccepted.mpr ⟨by omega, hcopy⟩
                exact absurd h (by simp)
              have hsame : queue' = queue := by
                have h := scheduleTask_rejected (by rw [hs])
                rwa [hs] at h
              simp only [taskCall, Fifo.call, hs, if_neg hroom, true_and]
              rw [hsame]
              exact hq
  | any =>
      refine ⟨?_, hq⟩
      have hhave := haveTask_iff hq.inRange
      rw [hq.tasks] at hhave
      show Fifo.Answer.any (haveTask queue) = .any (! pending.isEmpty)
      congr 1
      rw [Bool.eq_iff_iff, hhave]
      simp
  | take =>
      cases hg : getTask queue with
      | none =>
          -- nothing is taken only if nothing is there
          have hempty : pending = [] := by
            by_contra hne
            have hhave := (haveTask_iff hq.inRange).mpr (by rw [hq.tasks]; exact hne)
            rw [getTask_eq_none_iff.mp hg] at hhave
            exact absurd hhave (by simp)
          subst hempty
          simp only [taskCall, Fifo.call, hg, true_and]
          exact hq
      | some got =>
          obtain ⟨task, queue'⟩ := got
          obtain ⟨rest, rfl, hrest⟩ := holds_get hq hg
          simp only [taskCall, Fifo.call, hg, true_and]
          exact hrest

end Simulation

/-- **The ring refines the queue.**  Whatever is called on a zeroed ring, the
answers are those of a queue for `MAX_TASK_NUM` - 1 tasks; the slots hold its
tasks and are NULL elsewhere, the slot for the next task included; a task that
is not accepted changes nothing; and what was accepted is what was returned and
what is pending, in this order. -/
theorem taskQueue_refines_fifo (calls : List (Fifo.Call Json)) :
    let ring := Fifo.serve taskCall .zero calls
    let fifo := Fifo.serve (Fifo.call (maxTaskNum - 1)) [] calls
    ring.2 = fifo.2 ∧ ring.1.Holds fifo.1 ∧ ring.1.task[ring.1.putIndex]? = some .null ∧
      (∀ copyOk task, (scheduleTask copyOk ring.1 task).2 = false →
        (scheduleTask copyOk ring.1 task).1 = ring.1) ∧
      Fifo.accepted calls ring.2 = Fifo.returned ring.2 ++ pendingTasks ring.1 := by
  intro ring fifo
  obtain ⟨hanswers, hholds⟩ := Fifo.serve_simulation (R := HelperTaskQueue.Holds)
    (fun _ _ c hq => taskCall_simulates hq c) calls holds_zero
  refine ⟨hanswers, hholds, ?_, fun _ _ hs => scheduleTask_rejected hs, ?_⟩
  · exact hholds.free _ hholds.inRange.put (not_inUse_put hholds.inRange)
  · rw [hholds.tasks, hanswers]
    have hhistory := Fifo.accepted_eq_returned_append (maxTaskNum - 1) calls []
    rwa [List.nil_append] at hhistory

end MesonDisplay.Helper
