/-
  MesonDisplay.Helper.MessageReturns — when m_message_handle returns.

  `HelperOk` is what the calls keep: both lists are well formed, an enabled
  output is there, and the tasks in the ring are the "set mode" requests that
  were accepted.  On such a state every command returns but three: a null
  command, a value that is no object for "set connector range properties", and
  "get info" while no function is registered.

  Main results:
    * `helperOk_reachable` — every reachable state is such a state.
    * `message_returns_iff` — exactly which requests are survived.
-/
import MesonDisplay.Helper.Message
import MesonDisplay.Helper.OutputLinks
import MesonDisplay.Json.Text

namespace MesonDisplay.Helper

open MesonDisplay.LinkedList
open MesonDisplay.Json (jsonText)

/-! ## §1. The invariant. -/

/-- A task that `process_task` can handle. -/
def IsModeTask (jc : JsonC) (task : Json) : Prop :=
  ∃ tmp, task.objectGetEx "cmd" = some tmp ∧ jc.getString tmp ≠ none ∧
    jc.getString (task.objectGet "value") ≠ none

structure HelperOk (jc : JsonC) (s : HelperState) : Prop where
  outputs : ∃ dangling es t, OutputsOk dangling s.outputList es t
  connectors : ∃ es t, ConnectorsOk s.connectorList es t
  ring : s.taskAfterRepaintCycle.InRange
  tasks : ∀ task ∈ pendingTasks s.taskAfterRepaintCycle, IsModeTask jc task

/-- The function returns, in a well-formed state with the tasks `tasks`. -/
def Returns (jc : JsonC) (tasks : HelperTaskQueue) (r : Except Fault HelperState) : Prop :=
  ∃ s, r = .ok s ∧ HelperOk jc s ∧ s.taskAfterRepaintCycle = tasks

/-- A handler returns, in a well-formed state. -/
def Answers (jc : JsonC) (r : Except Fault (HelperState × Json)) : Prop :=
  ∃ s out, r = .ok (s, out) ∧ HelperOk jc s

section Handlers

variable {jc : JsonC} {env : MessageEnv} {s : HelperState}

theorem helperOk_init (atomicModesetEnable : Bool) :
    HelperOk jc (.init atomicModesetEnable) where
  outputs := ⟨_, _, _, outputsOk_init⟩
  connectors := ⟨_, _, connectorsOk_init⟩
  ring := inRange_zero
  tasks := by
    intro task ht
    exact absurd ht (by
      show task ∉ pendingTasks .zero
      rw [pendingTasks_zero]
      exact List.not_mem_nil)

/-- Only the two lists and the ring matter. -/
theorem HelperOk.of_same {s' : HelperState} (hs : HelperOk jc s)
    (houtputs : s'.outputList = s.outputList) (hconnectors : s'.connectorList = s.connectorList)
    (htasks : s'.taskAfterRepaintCycle = s.taskAfterRepaintCycle) : HelperOk jc s' where
  outputs := houtputs ▸ hs.outputs
  connectors := hconnectors ▸ hs.connectors
  ring := htasks ▸ hs.ring
  tasks := htasks ▸ hs.tasks

theorem HelperOk.emit (hs : HelperOk jc s) (e : Effect) : HelperOk jc (s.emit e) :=
  hs.of_same rfl rfl rfl

/-! ## §2. Tasks. -/

/-- The enabled outputs. -/
def enabledOutputs (cells : List OutputNode) : List Nat :=
  cells.filterMap fun n => if n.enable then n.data else none

/-- For enabled outputs that are there, the callback is called. -/
theorem visit_callEnabled (call : Nat → Effect) (cells : List OutputNode) :
    ∀ effects, EnabledFull cells →
      visit (callEnabled call) effects cells
        = .ok (cells, effects ++ (enabledOutputs cells).map call, cells.length) := by
  induction cells with
  | nil => exact fun effects _ => by simp [visit, enabledOutputs]
  | cons n ns ih =>
      intro effects he
      have hrest : EnabledFull ns := fun m hm => he m (List.mem_cons_of_mem _ hm)
      unfold visit callEnabled
      cases henable : n.enable with
      | false =>
          have hv := ih effects hrest
          unfold callEnabled at hv
          simp [hv, enabledOutputs, henable]
      | true =>
          obtain ⟨output, houtput⟩ :=
            Option.ne_none_iff_exists'.mp (he n List.mem_cons_self henable)
          have hv := ih (effects ++ [call output]) hrest
          unfold callEnabled at hv
          simp [houtput, hv, enabledOutputs, henable]

theorem forEachEnabled_returns (call : Nat → Effect) (hs : HelperOk jc s) :
    Returns jc s.taskAfterRepaintCycle (forEachEnabled call s) := by
  obtain ⟨dangling, es, t, hok⟩ := hs.outputs
  have hv := visit_callEnabled call (dataOf es) s.effects hok.enabled
  obtain ⟨h', es', hrun, hl', hdata, -, -⟩ := forEachOutput_spec hok.linked rfl hv
  unfold forEachEnabled
  rw [hrun]
  refine ⟨_, rfl, ⟨⟨dangling, es', t, hl', hok.tail, ?_, ?_⟩, hs.connectors, hs.ring,
    hs.tasks⟩, rfl⟩
  · rw [hdata]
    exact hok.tidy
  · rw [hdata]
    exact hok.enabled

/-- The head of the list is there. -/
theorem load_head (hs : HelperOk jc s) :
    ∃ n, load Fault.badPointer s.outputList gOutputList = .ok n := by
  obtain ⟨dangling, es, t, hok⟩ := hs.outputs
  cases es with
  | nil => exact ⟨_, load_eq hok.linked.only_cell.2⟩
  | cons e es => exact ⟨_, load_eq hok.linked.head_cell.2⟩

theorem switchModes_returns (hs : HelperOk jc s) (mode : DrmHelperMode) :
    Returns jc s.taskAfterRepaintCycle (switchModes s mode) := by
  unfold switchModes
  by_cases hregistered : s.interface.switchMode = true
  · rw [if_pos hregistered]
    obtain ⟨n, hn⟩ := load_head hs
    rw [hn, ok_bind]
    by_cases hdata : n.data.data ≠ none
    · rw [if_pos hdata]
      exact forEachEnabled_returns _ hs
    · rw [if_neg hdata]
      cases s.output with
      | none => exact ⟨s, rfl, hs, rfl⟩
      | some output => exact ⟨_, rfl, hs.emit _, rfl⟩
  · rw [if_neg hregistered]
    exact ⟨s, rfl, hs, rfl⟩

theorem processTask_returns (hs : HelperOk jc s) {task : Json} (ht : IsModeTask jc task) :
    Returns jc s.taskAfterRepaintCycle (processTask jc s task) := by
  obtain ⟨tmp, htmp, hcmd, hvalue⟩ := ht
  obtain ⟨cmd, hcmd⟩ := Option.ne_none_iff_exists'.mp hcmd
  obtain ⟨value, hvalue⟩ := Option.ne_none_iff_exists'.mp hvalue
  unfold processTask
  simp only [htmp, hcmd, hvalue]
  by_cases hset : cmd = "set mode"
  · rw [if_pos hset]
    cases parseModestring value with
    | none => exact ⟨s, rfl, hs, rfl⟩
    | some mode =>
        obtain ⟨s', hrun, hs', htasks⟩ := switchModes_returns (hs.emit .lock) mode
        simp only [hrun, ok_bind]
        exact ⟨_, rfl, hs'.emit _, htasks⟩
  · rw [if_neg hset]
    exact ⟨s, rfl, hs, rfl⟩

/-- The loop handles the tasks one by one. -/
theorem repaintLoop_returns (fuel : Nat) :
    ∀ {s : HelperState}, HelperOk jc s →
      (pendingTasks s.taskAfterRepaintCycle).length < fuel →
      ∃ s', repaintLoop jc fuel s = .ok s' ∧ HelperOk jc s' := by
  -- one task fewer is pending after each turn, so the fuel is enough
  induction fuel with
  | zero => exact fun _ h => absurd h (Nat.not_lt_zero _)
  | succ fuel ih =>
      intro s hs hfuel
      unfold repaintLoop
      cases hg : getTask s.taskAfterRepaintCycle with
      | none => exact ⟨s, rfl, hs⟩
      | some r =>
          obtain ⟨task, tasks⟩ := r
          obtain ⟨hring, hpending⟩ := pendingTasks_get hs.ring hg
          have htasks := hs.tasks
          rw [hpending] at hfuel htasks
          rw [List.length_cons] at hfuel
          have hs₁ : HelperOk jc { s with taskAfterRepaintCycle := tasks } :=
            ⟨hs.outputs, hs.connectors, hring,
              fun t ht => htasks t (List.mem_cons_of_mem _ ht)⟩
          cases hnull : task.isNull with
          -- an empty slot is skipped
          | true =>
              simp only [hnull, if_true, ok_bind]
              exact ih hs₁ (by
                show (pendingTasks tasks).length < fuel
                omega)
          -- a task that was accepted can be processed, and schedules nothing
          | false =>
              obtain ⟨s₂, hrun, hs₂, hsame⟩ :=
                processTask_returns hs₁ (htasks task List.mem_cons_self)
              simp only [hnull, Bool.false_eq_true, if_false, hrun, ok_bind]
              exact ih hs₂ (by
                rw [hsame]
                show (pendingTasks tasks).length < fuel
                omega)

theorem helpDoRepaintCycleCompleted_returns (hs : HelperOk jc s) :
    ∃ s', helpDoRepaintCycleCompleted jc s = .ok s' ∧ HelperOk jc s' := by
  apply repaintLoop_returns maxTaskNum hs
  unfold pendingTasks
  rw [tasksFrom_length]
  exact Nat.mod_lt _ (by decide)

/-! ## §3. The commands. -/

theorem triggerRefresh_returns (hs : HelperOk jc s) :
    Returns jc s.taskAfterRepaintCycle (triggerRefresh s) := by
  unfold triggerRefresh
  by_cases hregistered : s.interface.forceRefresh = true
  · rw [if_pos hregistered]
    obtain ⟨n, hn⟩ := load_head hs
    rw [hn, ok_bind]
    by_cases hdata : n.data.data ≠ none
    · rw [if_pos hdata]
      exact forEachEnabled_returns _ hs
    · rw [if_neg hdata]
      exact ⟨s, rfl, hs, rfl⟩
  · rw [if_neg hregistered]
    exact ⟨s, rfl, hs, rfl⟩

/-- "set mode": the task that is scheduled is one `process_task` can handle. -/
theorem handleSetMode_answers (hs : HelperOk jc s) {dataIn tmp : Json}
    (htmp : dataIn.objectGetEx "cmd" = some tmp) (hcmd : jc.getString tmp ≠ none) :
    Answers jc (handleSetMode jc env s dataIn (dataIn.objectGet "value")) := by
  unfold handleSetMode
  cases hvalue : jc.getString (dataIn.objectGet "value") with
  | none => exact ⟨s, .null, rfl, hs⟩
  | some value =>
      cases hmode : parseModestring value with
      | none => exact ⟨s, .null, by simp only [hmode], hs⟩
      | some mode =>
          simp only [hmode]
          -- the request itself is the task, so its command and its value are there
          have htask : IsModeTask jc dataIn :=
            ⟨tmp, htmp, hcmd, by rw [hvalue]; simp⟩
          cases hsched : scheduleTask env.copyOk s.taskAfterRepaintCycle dataIn with
          | mk tasks scheduled =>
          cases scheduled with
          | true =>
              obtain ⟨hring, hpending⟩ := pendingTasks_schedule hs.ring hsched
              have hs₁ : HelperOk jc { s with taskAfterRepaintCycle := tasks } := by
                refine ⟨hs.outputs, hs.connectors, hring, ?_⟩
                intro t ht
                change t ∈ pendingTasks tasks at ht
                rw [hpending] at ht
                rcases List.mem_append.mp ht with ht | ht
                · exact hs.tasks t ht
                · rw [List.mem_singleton.mp ht]
                  exact htask
              obtain ⟨s₂, hrepaint, hs₂⟩ := helpDoRepaintCycleCompleted_returns hs₁
              obtain ⟨s₃, hrefresh, hs₃, -⟩ := triggerRefresh_returns hs₂
              simp only [if_true, hrepaint, ok_bind, hrefresh]
              exact ⟨s₃, .null, rfl, hs₃⟩
          -- the ring is full or the copy failed: nothing was scheduled
          | false =>
              have hrejected : (scheduleTask env.copyOk s.taskAfterRepaintCycle dataIn).2
                  = false := by rw [hsched]
              have hsame := scheduleTask_rejected hrejected
              rw [hsched] at hsame
              obtain rfl : tasks = s.taskAfterRepaintCycle := hsame
              obtain ⟨s₃, hrefresh, hs₃, -⟩ := triggerRefresh_returns hs
              simp only [Bool.false_eq_true, if_false, ok_bind]
              exact ⟨s₃, .null, by rw [hrefresh, ok_bind], hs₃⟩

/-- A loop over the connectors under the mutex returns. -/
theorem lockedLoop_returns {σ : Type}
    {body : σ → ConnectorNode → Except Fault (ConnectorNode × Loop σ)}
    (hbody : ∀ s n, Named n → ∃ n' l, body s n = .ok (n', l) ∧ Named n')
    (hs : HelperOk jc s) (init : σ) :
    ∃ s' out, lockedLoop body s init = .ok (s', out) ∧ HelperOk jc s' := by
  obtain ⟨es, t, hok⟩ := hs.connectors
  obtain ⟨h', out, i, es', hrun, hok'⟩ := forEachConnector_returns hbody hok init
  have hrun' : forEachConnector body (s.emit .lock).connectorList init = .ok (h', out, i) :=
    hrun
  have hs' : HelperOk jc { s.emit .lock with connectorList := h' } :=
    ⟨hs.outputs, ⟨es', t, hok'⟩, hs.ring, hs.tasks⟩
  refine ⟨_, out, ?_, hs'.emit .unlock⟩
  unfold lockedLoop
  simp only [hrun', ok_bind]

theorem setRangeProperty_returns (env : MessageEnv) (hs : HelperOk jc s) (name : String)
    (jsonValue : Json) :
    ∃ s', setRangeProperty jc env s name jsonValue = .ok s' ∧ HelperOk jc s' := by
  unfold setRangeProperty
  by_cases hname : name = ""
  · rw [if_pos hname]
    exact ⟨s, rfl, hs⟩
  · rw [if_neg hname]
    cases connectorProps.findIdx? (fun p => p.name = some name) with
    | none => exact ⟨s, rfl, hs⟩
    | some i =>
        by_cases herrno : (jc.getInt64 jsonValue).2 ≠ 0
        · exact ⟨s, by simp only [if_pos herrno], hs⟩
        · obtain ⟨s', out, hrun, hs'⟩ := lockedLoop_returns
            (setRangeBody_named env.drm i ((jc.getInt64 jsonValue).1 % 2 ^ 64).toNat) hs ()
          exact ⟨s', by simp only [if_neg herrno, hrun, ok_bind], hs'⟩

theorem setRangeProperties_ok (env : MessageEnv) (fs : List (String × Json)) :
    ∀ {s : HelperState}, HelperOk jc s →
      ∃ s', setRangeProperties jc env s fs = .ok s' ∧ HelperOk jc s' := by
  induction fs with
  | nil => exact fun hs => ⟨_, rfl, hs⟩
  | cons f fs ih =>
      intro s hs
      obtain ⟨name, jsonValue⟩ := f
      obtain ⟨s₁, hrun, hs₁⟩ := setRangeProperty_returns env hs name jsonValue
      obtain ⟨s₂, hrest, hs₂⟩ := ih hs₁
      refine ⟨s₂, ?_, hs₂⟩
      unfold setRangeProperties
      rw [hrun, ok_bind, hrest]

/-- "set connector range properties": the value must be an object, or absent. -/
theorem handleSetRangeProperties_answers (hs : HelperOk jc s) {opt : Json}
    (hopt : opt.isNull = true ∨ opt.isObject = true) :
    Answers jc (handleSetRangeProperties jc env s opt) := by
  rcases hopt with hnull | hobject
  · rw [Json.isNull_eq_true.mp hnull]
    exact ⟨s, .null, rfl, hs⟩
  · obtain ⟨fs, rfl⟩ := Json.isObject_iff.mp hobject
    obtain ⟨s', hrun, hs'⟩ := setRangeProperties_ok env fs hs
    unfold handleSetRangeProperties
    simp only [hrun, ok_bind]
    exact ⟨s', .null, rfl, hs'⟩

theorem handleSetRangeProperties_faults {opt : Json}
    (hopt : ¬ (opt.isNull = true ∨ opt.isObject = true)) :
    handleSetRangeProperties jc env s opt = .error .foreachNonObject := by
  cases opt with
  | null => exact absurd (.inl rfl) hopt
  | object fs => exact absurd (.inr rfl) hopt
  | _ => rfl

theorem handleGetModes_answers (hs : HelperOk jc s) : Answers jc (handleGetModes env s) :=
  lockedLoop_returns (getModesBody_named env.drm) hs .newObject

theorem handleGetRangeProperties_answers (hs : HelperOk jc s) (opt : Json) :
    Answers jc (handleGetRangeProperties jc env s opt) := by
  unfold handleGetRangeProperties
  cases jc.getString opt with
  | none => exact ⟨s, .null, rfl, hs⟩
  | some name =>
      by_cases hname : name = ""
      · exact ⟨s, .null, by simp only [if_pos hname], hs⟩
      · simp only [if_neg hname]
        exact lockedLoop_returns (getRangeBody_named env.drm name) hs .newObject

theorem setUiRect_ok (hs : HelperOk jc s) (opt : Json) : HelperOk jc (setUiRect jc s opt) := by
  unfold setUiRect
  by_cases hnull : opt.isNull = true
  · rw [if_pos hnull]
    exact hs
  · rw [if_neg hnull]
    by_cases herrno : (jc.getInt (opt.objectGet "x")).2 = 0 ∧
        (jc.getInt (opt.objectGet "y")).2 = 0 ∧ (jc.getInt (opt.objectGet "w")).2 = 0 ∧
        (jc.getInt (opt.objectGet "h")).2 = 0
    · simp only [if_pos herrno]
      exact hs.of_same rfl rfl rfl
    · simp only [if_neg herrno]
      exact hs

/-! ## §4. m_message_handle. -/

/-- What a request must satisfy: its command is not null; the value of "set
connector range properties" is absent, null or an object; and "get info" comes
after a function for it was registered. -/
def MessageSafe (jc : JsonC) (s : HelperState) (dataIn : Json) : Prop :=
  ∀ tmp, dataIn.objectGetEx "cmd" = some tmp →
    tmp.isNull = false ∧
    (jc.getString tmp = some "set connector range properties" →
      (dataIn.objectGet "value").isNull = true ∨ (dataIn.objectGet "value").isObject = true) ∧
    (jc.getString tmp = some "get info" → s.interface.printInfo = true)

/-- A safe request is answered. -/
theorem mMessageHandle_answers (env : MessageEnv) (hs : HelperOk jc s) {dataIn : Json}
    (hsafe : MessageSafe jc s dataIn) : Answers jc (mMessageHandle jc env s dataIn) := by
  apply mMessageHandle_cases
  case absent => exact fun _ => ⟨s, .null, rfl, hs⟩
  case null =>
    intro tmp htmp hcmd
    have hnull := (hsafe tmp htmp).1
    rw [JsonC.getString_eq_none.mp hcmd] at hnull
    exact absurd hnull (by simp)
  case command =>
    intro tmp cmd htmp hcmd
    obtain ⟨-, hset, hinfo⟩ := hsafe tmp htmp
    rw [hcmd] at hset hinfo
    refine ⟨?setMode, ?getModes, ?setRange, ?getRange, ?setUi, ?getInfo, ?reply⟩
    case setMode => exact fun _ => handleSetMode_answers hs htmp (by rw [hcmd]; simp)
    case getModes => exact fun _ => handleGetModes_answers hs
    case setRange => exact fun h => handleSetRangeProperties_answers hs (hset (by rw [h]))
    case getRange => exact fun _ => handleGetRangeProperties_answers hs _
    case setUi => exact fun _ => ⟨_, .null, rfl, setUiRect_ok hs _⟩
    case getInfo =>
      intro h
      unfold handleGetInfo
      rw [if_pos (hinfo (by rw [h]))]
      exact ⟨_, .null, rfl, hs.emit _⟩
    case reply => exact fun dataOut => ⟨s, dataOut, rfl, hs⟩

/-- A request that is not safe ends in a fault. -/
theorem mMessageHandle_faults (env : MessageEnv) {dataIn : Json}
    (hsafe : ¬ MessageSafe jc s dataIn) :
    ∃ f, mMessageHandle jc env s dataIn = .error f := by
  unfold MessageSafe at hsafe
  push Not at hsafe
  obtain ⟨tmp, htmp, hsafe⟩ := hsafe
  unfold mMessageHandle
  cases hcmd : jc.getString tmp with
  | none => exact ⟨.strcmpNull, by simp only [htmp, hcmd]⟩
  | some cmd =>
      have hnull : tmp.isNull = false := by
        rw [Json.isNull_eq_false]
        intro hnull
        rw [JsonC.getString_eq_none.mpr hnull] at hcmd
        exact absurd hcmd (by simp)
      rw [hcmd] at hsafe
      simp only [Option.some.injEq] at hsafe
      -- one of the three conditions is broken; which one decides the fault
      by_cases hset : cmd = "set connector range properties" →
          (dataIn.objectGet "value").isNull = true ∨
            (dataIn.objectGet "value").isObject = true
      · obtain ⟨rfl, hinfo⟩ := hsafe hnull hset
        refine ⟨.nullCallback, ?_⟩
        simp only [htmp, hcmd]
        unfold handleGetInfo
        rw [if_neg hinfo]
        rfl
      · push Not at hset
        obtain ⟨rfl, hopt⟩ := hset
        refine ⟨.foreachNonObject, ?_⟩
        simp only [htmp, hcmd]
        exact handleSetRangeProperties_faults (not_or.mpr hopt)

/-! ## §5. Reachable states. -/

/-- What a request that returned leaves. -/
theorem mMessageHandle_ok {s' : HelperState} {dataIn dataOut : Json} (hs : HelperOk jc s)
    (hrun : mMessageHandle jc env s dataIn = .ok (s', dataOut)) : HelperOk jc s' := by
  by_cases hsafe : MessageSafe jc s dataIn
  · obtain ⟨s₁, out, hrun₁, hs₁⟩ := mMessageHandle_answers env hs hsafe
    rw [hrun] at hrun₁
    obtain ⟨rfl, -⟩ := Prod.mk.inj (Except.ok.inj hrun₁)
    exact hs₁
  · obtain ⟨f, hf⟩ := mMessageHandle_faults env hsafe
    rw [hrun] at hf
    exact absurd hf (by simp)

/-- A call that returns keeps the invariant. -/
theorem helperOk_step {s' : HelperState} (call : HelperCall) (hs : HelperOk jc s)
    (hrun : call.run jc s = .ok s') : HelperOk jc s' := by
  obtain ⟨cs, ct, hconnectors⟩ := hs.connectors
  obtain ⟨dangling, os, ot, houtputs⟩ := hs.outputs
  -- the calls that change a list keep it well formed, the others leave
  -- both lists and the ring alone
  cases call with
  | appendConnector drm mallocOk connector =>
      obtain ⟨h, hcall, hset⟩ := bind_eq_ok.mp hrun
      obtain rfl := Except.ok.inj hset
      obtain ⟨cs', ct', hok, -⟩ :=
        connectorsOk_append (stable_true drm) hconnectors (fun _ _ => trivial) hcall
      exact ⟨hs.outputs, ⟨cs', ct', hok⟩, hs.ring, hs.tasks⟩
  | updateConnector drm mallocOk oldConnector newConnector =>
      obtain ⟨h, hcall, hset⟩ := bind_eq_ok.mp hrun
      obtain rfl := Except.ok.inj hset
      obtain ⟨cs', ct', hok, -⟩ :=
        connectorsOk_update (stable_true drm) hconnectors (fun _ _ => trivial) hcall
      exact ⟨hs.outputs, ⟨cs', ct', hok⟩, hs.ring, hs.tasks⟩
  | deleteConnector connector =>
      obtain ⟨h, hcall, hset⟩ := bind_eq_ok.mp hrun
      obtain rfl := Except.ok.inj hset
      obtain ⟨cs', ct', hok, -⟩ :=
        connectorsOk_delete (Q := fun _ => True) (fun _ _ => trivial) hconnectors
          (fun _ _ => trivial) hcall
      exact ⟨hs.outputs, ⟨cs', ct', hok⟩, hs.ring, hs.tasks⟩
  | atomicReqAddProp drm atomicAdd =>
      obtain ⟨⟨h, r⟩, hcall, hset⟩ := bind_eq_ok.mp hrun
      obtain rfl := Except.ok.inj hset
      obtain ⟨cs', hok, -⟩ :=
        connectorsOk_atomicReqAddProp (Q := fun _ => True) (fun _ _ _ _ _ _ => trivial)
          hconnectors (fun _ _ => trivial) hcall
      exact ⟨hs.outputs, ⟨cs', ct, hok⟩, hs.ring, hs.tasks⟩
  | setSwitchModeFunction ctx registered =>
      obtain rfl := Except.ok.inj hrun
      exact hs.of_same rfl rfl rfl
  | setForceRefreshFunction registered =>
      obtain rfl := Except.ok.inj hrun
      exact hs.of_same rfl rfl rfl
  | setPrintinfoFunction registered =>
      obtain rfl := Except.ok.inj hrun
      exact hs.of_same rfl rfl rfl
  | updateUiLogicSizeInfo w h =>
      obtain rfl := Except.ok.inj hrun
      unfold helpUpdateUiLogicSizeInfo
      by_cases hmodify : ¬ s.uiViewportNeedModify = true
      · rw [if_pos hmodify]
        exact hs.of_same rfl rfl rfl
      · rw [if_neg hmodify]
        exact hs
  | updateDisplayModeInfo mode =>
      obtain rfl := Except.ok.inj hrun
      exact hs.of_same rfl rfl rfl
  | doRepaintCycleCompleted =>
      obtain ⟨s₁, hrepaint, hs₁⟩ := helpDoRepaintCycleCompleted_returns hs
      change helpDoRepaintCycleCompleted jc s = .ok s' at hrun
      rw [hrun] at hrepaint
      obtain rfl := Except.ok.inj hrepaint
      exact hs₁
  | updataCompositorOutput callocOk older newer =>
      obtain ⟨h, hcall, hset⟩ := bind_eq_ok.mp hrun
      obtain rfl := Except.ok.inj hset
      rcases outputsOk_updata callocOk older newer houtputs with
        ⟨-, hbad⟩ | ⟨h₁, dangling₁, os₁, ot₁, hgood, hok, -, -⟩
      · rw [hcall] at hbad
        exact absurd hbad (by simp)
      · rw [hcall] at hgood
        obtain rfl := Except.ok.inj hgood
        exact ⟨⟨dangling₁, os₁, ot₁, hok⟩, hs.connectors, hs.ring, hs.tasks⟩
  | switchCompositorOutput output enable =>
      obtain ⟨h, hcall, hset⟩ := bind_eq_ok.mp hrun
      obtain rfl := Except.ok.inj hset
      obtain ⟨h₁, os₁, hgood, hok⟩ := outputsOk_switch output enable houtputs
      rw [hcall] at hgood
      obtain rfl := Except.ok.inj hgood
      exact ⟨⟨dangling, os₁, ot, hok⟩, hs.connectors, hs.ring, hs.tasks⟩
  -- a request that returned was safe
  | message env dataIn =>
      obtain ⟨⟨s₁, out⟩, hcall, hset⟩ := bind_eq_ok.mp hrun
      obtain rfl := Except.ok.inj hset
      exact mMessageHandle_ok hs hcall

/-- Every reachable state is well formed. -/
theorem helperOk_reachable (hr : HelperReachable jc s) : HelperOk jc s := by
  induction hr with
  | init atomicModesetEnable => exact helperOk_init atomicModesetEnable
  | step call _ hrun ih => exact helperOk_step call ih hrun

end Handlers

/-- **Exactly the safe requests are answered**: in every reachable state a
request is handled without a fault if and only if its command is not null, the
value that "set connector range properties" iterates is absent, null or an
object, and "get info" finds its function registered. -/
theorem message_returns_iff {jc : JsonC} {s : HelperState} (hr : HelperReachable jc s)
    (env : MessageEnv) (dataIn : Json) :
    (∃ s' dataOut, mMessageHandle jc env s dataIn = .ok (s', dataOut)) ↔
      MessageSafe jc s dataIn := by
  constructor
  · intro ⟨s', dataOut, hrun⟩
    by_contra hsafe
    obtain ⟨f, hf⟩ := mMessageHandle_faults env hsafe
    rw [hrun] at hf
    exact absurd hf (by simp)
  · intro hsafe
    obtain ⟨s', dataOut, hrun, -⟩ := mMessageHandle_answers env (helperOk_reachable hr) hsafe
    exact ⟨s', dataOut, hrun⟩

/-- "get info" once a function for it is registered. -/
theorem get_info_returns :
    ∃ s' dataOut, mMessageHandle jsonText .silent
      { HelperState.init true with interface := ⟨false, false, true⟩ }
      (.object [("cmd", .string "get info"), ("value", .int 5)]) = .ok (s', dataOut) := by
  refine (message_returns_iff ?_ .silent _).mpr ?_
  · exact .step (.setPrintinfoFunction true) (.init true) rfl
  · intro tmp htmp
    obtain rfl := Option.some.inj htmp
    exact ⟨rfl, fun h => absurd (Option.some.inj h) (by decide), fun _ => rfl⟩

/-- Three objects that a client can send to the helper as it starts. -/
theorem message_faults :
    HelperReachable jsonText (.init true) ∧
    mMessageHandle jsonText .silent (.init true) (.object [("cmd", .null)])
      = .error .strcmpNull ∧
    mMessageHandle jsonText .silent (.init true)
      (.object [("cmd", .string "set connector range properties"), ("value", .int 5)])
      = .error .foreachNonObject ∧
    mMessageHandle jsonText .silent (.init true)
      (.object [("cmd", .string "get info"), ("value", .int 5)])
      = .error .nullCallback :=
  ⟨.init true, rfl, rfl, rfl⟩

end MesonDisplay.Helper
