/-
  MesonDisplay.Helper.SetMode — from a "set mode" request to the outputs.

  `m_message_handle` checks the mode of the request, puts a copy of it into the
  ring and empties the ring; `process_task` reads the copy again and calls
  `switch_mode` for the enabled outputs.

  A layer over the functions tells the objects of json-c apart: which of them
  is in which slot of the ring, and which of them `json_object_put` was given.

  Main results:
    * `processTask_switches` — one task switches every enabled output once.
    * `messageOwned_erases` — the layer changes nothing.
    * `set_mode_once` — a request takes effect once, and both objects are
      released once.
-/
import MesonDisplay.Helper.MessageReturns
import MesonDisplay.Helper.OutputEffect

namespace MesonDisplay.Helper

open MesonDisplay.LinkedList
open MesonDisplay.Json (jsonText)

/-! ## §1. What a request asks for. -/

/-- The mode that a request asks for, if it is a "set mode" with a mode that is
understood. -/
def setModeOf (jc : JsonC) (dataIn : Json) : Option DrmHelperMode :=
  match dataIn.objectGetEx "cmd" with
  | none => none
  | some tmp =>
      if jc.getString tmp = some "set mode" then
        (jc.getString (dataIn.objectGet "value")).bind parseModestring
      else none

/-- The calls of `switch_mode`. -/
def switchCalls (effects : List Effect) : List (Nat × DrmHelperMode) :=
  effects.filterMap fun
    | .switchMode output mode => some (output, mode)
    | _ => none

/-- The outputs that `process_task` switches. -/
def switchTargets (s : HelperState) : List Nat :=
  if s.interface.switchMode then
    if ((outputCells s.outputList).head?.bind OutputNode.data).isSome then
      enabledOutputs (outputCells s.outputList)
    else s.output.toList
  else []

/-- The calls of `switch_mode` for a request. -/
def callsFor (jc : JsonC) (targets : List Nat) (request : Json) : List (Nat × DrmHelperMode) :=
  match setModeOf jc request with
  | none => []
  | some mode => targets.map fun output => (output, mode)

theorem switchCalls_append (xs ys : List Effect) :
    switchCalls (xs ++ ys) = switchCalls xs ++ switchCalls ys :=
  List.filterMap_append

theorem switchCalls_switchMode (outputs : List Nat) (mode : DrmHelperMode) :
    switchCalls (outputs.map (.switchMode · mode)) = outputs.map fun output => (output, mode) := by
  unfold switchCalls
  rw [List.filterMap_map, ← List.filterMap_eq_map]
  rfl

theorem switchCalls_forceRefresh (outputs : List Nat) :
    switchCalls (outputs.map .forceRefresh) = [] := by
  unfold switchCalls
  rw [List.filterMap_map, List.filterMap_eq_nil_iff]
  exact fun _ _ => rfl

theorem isModeTask_of_setMode {jc : JsonC} {task : Json} (htask : setModeOf jc task ≠ none) :
    IsModeTask jc task ∧ task.isNull = false := by
  unfold setModeOf at htask
  cases htmp : task.objectGetEx "cmd" with
  | none =>
      rw [htmp] at htask
      exact absurd rfl htask
  | some tmp =>
      simp only [htmp] at htask
      by_cases hcmd : jc.getString tmp = some "set mode"
      · rw [if_pos hcmd] at htask
        refine ⟨⟨tmp, htmp, by rw [hcmd]; simp, ?_⟩, ?_⟩
        · intro hvalue
          rw [hvalue] at htask
          exact htask rfl
        · rw [Json.isNull_eq_false]
          intro hnull
          rw [hnull] at htmp
          exact absurd htmp (by simp [Json.objectGetEx])
      · rw [if_neg hcmd] at htask
        exact absurd rfl htask

/-! ## §2. Switching modes. -/

/-- A list on which the loops over the enabled outputs work: linked, with an
empty last node, and the enabled nodes hold an output. -/
def OutputsListed (h : OutputHeap) : Prop :=
  ∃ dangling es t, OutputsLinked dangling h es t ∧ t.data.data = none ∧ EnabledFull (dataOf es)

theorem HelperOk.listed {jc : JsonC} {s : HelperState} (hs : HelperOk jc s) :
    OutputsListed s.outputList := by
  obtain ⟨dangling, es, t, hok⟩ := hs.outputs
  refine ⟨dangling, es, t, hok.linked, ?_, hok.enabled⟩
  rw [hok.tail]
  rfl

/-- `s'` is `s` behind these calls of `switch_mode`.  The ring, and which
outputs are switched, are as before. -/
structure Switched (s s' : HelperState) (calls : List (Nat × DrmHelperMode)) : Prop where
  listed : OutputsListed s'.outputList
  queue : s'.taskAfterRepaintCycle = s.taskAfterRepaintCycle
  targets : switchTargets s' = switchTargets s
  calls : switchCalls s'.effects = switchCalls s.effects ++ calls

section Switch

variable {jc : JsonC} {s s' s'' : HelperState} {calls calls' : List (Nat × DrmHelperMode)}

theorem Switched.refl (hl : OutputsListed s.outputList) : Switched s s [] :=
  ⟨hl, rfl, rfl, (List.append_nil _).symm⟩

theorem Switched.emit (hl : OutputsListed s.outputList) (e : Effect) :
    Switched s (s.emit e) (switchCalls [e]) :=
  ⟨hl, rfl, rfl, switchCalls_append _ _⟩

theorem Switched.trans (h₁ : Switched s s' calls) (h₂ : Switched s' s'' calls') :
    Switched s s'' (calls ++ calls') where
  listed := h₂.listed
  queue := h₂.queue.trans h₁.queue
  targets := h₂.targets.trans h₁.targets
  calls := by
    rw [h₂.calls, h₁.calls, List.append_assoc]

theorem head_outputCells (hl : OutputsListed s.outputList) :
    ∃ n, load Fault.badPointer s.outputList gOutputList = .ok n ∧
      n.data.data = (outputCells s.outputList).head?.bind OutputNode.data := by
  obtain ⟨dangling, es, t, hlinked, htail, -⟩ := hl
  have hcells : outputCells s.outputList = dataOf es := hlinked.readData_eq
  rw [hcells]
  cases es with
  | nil => exact ⟨_, load_eq hlinked.only_cell.2, htail⟩
  | cons e es => exact ⟨_, load_eq hlinked.head_cell.2, rfl⟩

/-- The loop over the enabled outputs leaves the outputs as they are. -/
theorem forEachEnabled_switches (call : Nat → Effect) (hl : OutputsListed s.outputList) :
    ∃ s', forEachEnabled call s = .ok s' ∧
      Switched s s' (switchCalls ((enabledOutputs (outputCells s.outputList)).map call)) := by
  obtain ⟨dangling, es, t, hlinked, htail, henabled⟩ := hl
  have hcells : outputCells s.outputList = dataOf es := hlinked.readData_eq
  have hv := visit_callEnabled call (dataOf es) s.effects henabled
  obtain ⟨h', es', hrun, hl', hdata, -, -⟩ := forEachOutput_spec hlinked rfl hv
  have hcells' : outputCells h' = outputCells s.outputList := by
    rw [hcells, ← hdata]
    exact hl'.readData_eq
  refine ⟨{ s with
      outputList := h'
      effects := s.effects ++ (enabledOutputs (dataOf es)).map call }, ?_, ?_⟩
  · unfold forEachEnabled
    rw [hrun]
    rfl
  · refine ⟨⟨dangling, es', t, hl', htail, by rw [hdata]; exact henabled⟩, rfl, ?_, ?_⟩
    · unfold switchTargets
      rw [hcells']
    · rw [hcells]
      exact switchCalls_append _ _

/-- `process_task` under the mutex. -/
theorem switchModes_switches (hl : OutputsListed s.outputList) (mode : DrmHelperMode) :
    ∃ s', switchModes s mode = .ok s' ∧
      Switched s s' ((switchTargets s).map fun output => (output, mode)) := by
  unfold switchModes switchTargets
  by_cases hregistered : s.interface.switchMode = true
  · obtain ⟨n, hload, hhead⟩ := head_outputCells hl
    simp only [if_pos hregistered, hload, ok_bind, hhead]
    cases hfirst : (outputCells s.outputList).head?.bind OutputNode.data with
    | some output =>
        obtain ⟨s', hrun, hswitched⟩ := forEachEnabled_switches (.switchMode · mode) hl
        rw [switchCalls_switchMode] at hswitched
        exact ⟨s', by simpa using hrun, by simpa using hswitched⟩
    | none =>
        cases s.output with
        | none => exact ⟨s, by simp, .refl hl⟩
        | some output => exact ⟨_, rfl, .emit hl (.switchMode output mode)⟩
  · simp only [if_neg hregistered]
    exact ⟨s, rfl, .refl hl⟩

/-- **One task** switches the outputs to its mode. -/
theorem processTask_switches (hl : OutputsListed s.outputList) {task : Json}
    (htask : setModeOf jc task ≠ none) :
    ∃ s', processTask jc s task = .ok s' ∧
      Switched s s' (callsFor jc (switchTargets s) task) := by
  unfold callsFor
  unfold setModeOf at htask ⊢
  unfold processTask
  cases htmp : task.objectGetEx "cmd" with
  | none => simp [htmp] at htask
  | some tmp =>
      simp only [htmp] at htask ⊢
      by_cases hcmd : jc.getString tmp = some "set mode"
      · rw [if_pos hcmd] at htask ⊢
        cases hvalue : jc.getString (task.objectGet "value") with
        | none => simp [hvalue] at htask
        | some value =>
            cases hmode : parseModestring value with
            | none => simp [hvalue, hmode] at htask
            | some mode =>
                -- the mutex is taken and released around the calls
                have hlock : Switched s (s.emit .lock) [] := Switched.emit hl .lock
                obtain ⟨s₁, hrun, hswitched⟩ := switchModes_switches hlock.listed mode
                rw [hlock.targets] at hswitched
                have hunlock : Switched s₁ (s₁.emit .unlock) [] :=
                  Switched.emit hswitched.listed .unlock
                refine ⟨s₁.emit .unlock, ?_, ?_⟩
                · simp only [hcmd, if_true, hmode, hrun, ok_bind]
                · simpa [hmode] using (hlock.trans hswitched).trans hunlock
      · rw [if_neg hcmd] at htask
        exact absurd rfl htask

/-- The refresh behind it switches nothing. -/
theorem triggerRefresh_switches (hl : OutputsListed s.outputList) :
    ∃ s', triggerRefresh s = .ok s' ∧ Switched s s' [] := by
  unfold triggerRefresh
  by_cases hregistered : s.interface.forceRefresh = true
  · obtain ⟨n, hload, -⟩ := head_outputCells hl
    simp only [if_pos hregistered, hload, ok_bind]
    by_cases hdata : n.data.data ≠ none
    · obtain ⟨s', hrun, hswitched⟩ := forEachEnabled_switches .forceRefresh hl
      rw [switchCalls_forceRefresh] at hswitched
      exact ⟨s', by rw [if_pos hdata, hrun], hswitched⟩
    · exact ⟨s, by rw [if_neg hdata], .refl hl⟩
  · rw [if_neg hregistered]
    exact ⟨s, rfl, .refl hl⟩

end Switch

/-! ## §3. The objects of json-c. -/

/-- The helper, and the objects of json-c behind its tasks.  The objects are
numbered in the order in which they were made. -/
structure OwnedState where
  helper : HelperState
  /-- The objects in the slots of the ring. -/
  slots : List Nat
  /-- How many objects were made. -/
  created : Nat
  /-- The objects that `json_object_put` was given, in order. -/
  puts : List Nat

def OwnedState.put (s : OwnedState) (object : Nat) : OwnedState :=
  { s with puts := s.puts ++ [object] }

/-- `schedule_task`: a task that is accepted is a new object. -/
def scheduleOwned (copyOk : Bool) (s : OwnedState) (dataIn : Json) : OwnedState × Bool :=
  let queue := s.helper.taskAfterRepaintCycle
  let (tasks, scheduled) := scheduleTask copyOk queue dataIn
  let s := { s with helper := { s.helper with taskAfterRepaintCycle := tasks } }
  if scheduled then
    ({ s with slots := s.slots.set queue.putIndex s.created, created := s.created + 1 }, true)
  else (s, false)

/-- `process_task`, which releases its task. -/
def processOwned (jc : JsonC) (s : OwnedState) (object : Nat) (dataIn : Json) :
    Except Fault OwnedState := do
  let h ← processTask jc s.helper dataIn
  .ok ({ s with helper := h }.put object)

/-- The loop of `help_do_repaint_cycle_completed`. -/
def repaintOwned (jc : JsonC) : (fuel : Nat) → OwnedState → Except Fault OwnedState
  | 0, _ => .error .endless
  | fuel + 1, s =>
      let queue := s.helper.taskAfterRepaintCycle
      match getTask queue with
      | none => .ok s
      | some (task, tasks) => do
          let object := s.slots.getD queue.getIndex 0
          let s := { s with helper := { s.helper with taskAfterRepaintCycle := tasks } }
          let s ← if task.isNull then .ok s else processOwned jc s object task
          repaintOwned jc fuel s

/-- "set mode". -/
def setModeOwned (jc : JsonC) (env : MessageEnv) (s : OwnedState) (dataIn opt : Json) :
    Except Fault (OwnedState × Json) :=
  match jc.getString opt with
  | none => .ok (s, .null)
  | some value =>
      match parseModestring value with
      | none => .ok (s, .null)
      | some _ => do
          let (s, scheduled) := scheduleOwned env.copyOk s dataIn
          let s ← if scheduled then repaintOwned jc maxTaskNum s else .ok s
          let h ← triggerRefresh s.helper
          .ok ({ s with helper := h }, .null)

/-- `m_message_handle`, which releases `data_in`, the object `object`.  Only
"set mode" has to do with tasks. -/
def messageOwned (jc : JsonC) (env : MessageEnv) (s : OwnedState) (object : Nat) (dataIn : Json) :
    Except Fault (OwnedState × Json) :=
  match dataIn.objectGetEx "cmd" with
  | none => .ok (s.put object, .null)
  | some tmp =>
      if jc.getString tmp = some "set mode" then do
        let (s, dataOut) ← setModeOwned jc env s dataIn (dataIn.objectGet "value")
        .ok (s.put object, dataOut)
      else do
        let (h, dataOut) ← mMessageHandle jc env s.helper dataIn
        .ok ({ s with helper := h }.put object, dataOut)

section Erase

variable {jc : JsonC} {env : MessageEnv}

/-- What is left without the objects. -/
def eraseOwned (r : Except Fault (OwnedState × Json)) : Except Fault (HelperState × Json) :=
  r.map fun out => (out.1.helper, out.2)

theorem repaintOwned_erases (fuel : Nat) :
    ∀ s : OwnedState, (repaintOwned jc fuel s).map OwnedState.helper
      = repaintLoop jc fuel s.helper := by
  induction fuel with
  | zero => exact fun _ => rfl
  | succ fuel ih =>
      intro s
      unfold repaintOwned repaintLoop
      cases hg : getTask s.helper.taskAfterRepaintCycle with
      | none =>
          simp only [hg]
          rfl
      | some r =>
          obtain ⟨task, tasks⟩ := r
          cases htask : task.isNull with
          | true =>
              simp only [hg, htask, if_true]
              exact ih _
          | false =>
              simp only [hg, htask, Bool.false_eq_true, if_false, processOwned]
              cases processTask jc { s.helper with taskAfterRepaintCycle := tasks } task with
              | error f => rfl
              | ok h => exact ih _

theorem setModeOwned_erases (s : OwnedState) (dataIn opt : Json) :
    eraseOwned (setModeOwned jc env s dataIn opt) = handleSetMode jc env s.helper dataIn opt := by
  unfold setModeOwned handleSetMode
  cases jc.getString opt with
  | none => rfl
  | some value =>
      cases hmode : parseModestring value with
      | none =>
          simp only [hmode]
          rfl
      | some mode =>
          simp only [hmode, scheduleOwned]
          cases scheduleTask env.copyOk s.helper.taskAfterRepaintCycle dataIn with
          | mk tasks scheduled =>
              cases scheduled with
              | false =>
                  simp only [Bool.false_eq_true, if_false, ok_bind]
                  cases triggerRefresh { s.helper with taskAfterRepaintCycle := tasks } with
                  | error f => rfl
                  | ok h => rfl
              | true =>
                  simp only [if_true]
                  unfold helpDoRepaintCycleCompleted
                  rw [← repaintOwned_erases maxTaskNum { s with
                    helper := { s.helper with taskAfterRepaintCycle := tasks }
                    slots := s.slots.set s.helper.taskAfterRepaintCycle.putIndex s.created
                    created := s.created + 1 }]
                  cases repaintOwned jc maxTaskNum { s with
                    helper := { s.helper with taskAfterRepaintCycle := tasks }
                    slots := s.slots.set s.helper.taskAfterRepaintCycle.putIndex s.created
                    created := s.created + 1 } with
                  | error f => rfl
                  | ok s' =>
                      show eraseOwned (triggerRefresh s'.helper >>= _) = triggerRefresh s'.helper >>= _
                      cases triggerRefresh s'.helper with
                      | error f => rfl
                      | ok h => rfl

/-- **The layer changes nothing**: without the objects, it is `m_message_handle`. -/
theorem messageOwned_erases (s : OwnedState) (object : Nat) (dataIn : Json) :
    eraseOwned (messageOwned jc env s object dataIn)
      = mMessageHandle jc env s.helper dataIn := by
  unfold messageOwned
  cases htmp : dataIn.objectGetEx "cmd" with
  | none =>
      unfold mMessageHandle
      rw [htmp]
      rfl
  | some tmp =>
      by_cases hcmd : jc.getString tmp = some "set mode"
      · simp only [if_pos hcmd]
        unfold mMessageHandle
        simp only [htmp, hcmd, if_true]
        rw [← setModeOwned_erases]
        cases setModeOwned jc env s dataIn (dataIn.objectGet "value") with
        | error f => rfl
        | ok out => rfl
      · simp only [if_neg hcmd]
        cases mMessageHandle jc env s.helper dataIn with
        | error f => rfl
        | ok out => rfl

end Erase

/-! ## §4. One request. -/

/-- A task that is put into the empty ring is the only one taken out of it. -/
theorem empty_ring_schedules {queue : HelperTaskQueue} (hr : queue.InRange)
    (hempty : pendingTasks queue = []) (task : Json) :
    ∃ tasks tasks', scheduleTask true queue task = (tasks, true) ∧
      tasks.getIndex = queue.putIndex ∧ getTask tasks = some (task, tasks') ∧
      getTask tasks' = none ∧ pendingTasks tasks' = [] := by
  have haccepted : (scheduleTask true queue task).2 = true := by
    rw [scheduleTask_accepted_iff hr, hempty]
    decide
  cases hs : scheduleTask true queue task with
  | mk tasks scheduled =>
      rw [hs] at haccepted
      obtain rfl : scheduled = true := haccepted
      obtain ⟨hr₁, hpending⟩ := pendingTasks_schedule hr hs
      rw [hempty, List.nil_append] at hpending
      -- the get index has not moved, and it was the put index
      have hindex : tasks.getIndex = queue.putIndex := by
        have hnone : ¬ haveTask queue = true := fun h => (haveTask_iff hr).mp h hempty
        have hsame : queue.getIndex = queue.putIndex := by
          unfold haveTask at hnone
          simpa using hnone
        rw [← hsame]
        unfold scheduleTask at hs
        simp only [if_true] at hs
        split_ifs at hs with hfull
        · exact absurd (congrArg Prod.snd hs) (by simp)
        · obtain rfl := (Prod.mk.inj hs).1
          rfl
      cases hg : getTask tasks with
      | none =>
          have hhave : haveTask tasks = true := by
            rw [haveTask_iff hr₁, hpending]
            simp
          rw [getTask_eq_none_iff, hhave] at hg
          exact absurd hg (by simp)
      | some r =>
          obtain ⟨task', tasks'⟩ := r
          obtain ⟨hr₂, hcons⟩ := pendingTasks_get hr₁ hg
          rw [hpending] at hcons
          obtain ⟨rfl, hrest⟩ := List.cons.inj hcons
          refine ⟨tasks, tasks', rfl, hindex, hg, ?_, hrest.symm⟩
          rw [getTask_eq_none_iff, ← Bool.not_eq_true, haveTask_iff hr₂]
          exact fun h => h hrest.symm

/-- The loop of `help_do_repaint_cycle_completed` when one task is pending. -/
theorem repaintOwned_single {jc : JsonC} {s : OwnedState} {task : Json} {tasks' : HelperTaskQueue}
    {h : HelperState} (fuel : Nat)
    (hg : getTask s.helper.taskAfterRepaintCycle = some (task, tasks'))
    (hnull : task.isNull = false)
    (hrun : processTask jc { s.helper with taskAfterRepaintCycle := tasks' } task = .ok h)
    (hlast : getTask h.taskAfterRepaintCycle = none) :
    repaintOwned jc (fuel + 2) s
      = .ok ({ s with helper := h }.put
          (s.slots.getD s.helper.taskAfterRepaintCycle.getIndex 0)) := by
  unfold repaintOwned
  simp only [hg, hnull, Bool.false_eq_true, if_false, processOwned, hrun, ok_bind]
  unfold repaintOwned OwnedState.put
  simp only [hlast]

/-- From `s` to `s'`, these objects are released, each of them once. -/
def Releases (s s' : OwnedState) (objects : List Nat) : Prop :=
  s'.puts = s.puts ++ objects ∧ objects.Nodup

section SetMode

variable {jc : JsonC} {env : MessageEnv} {s : OwnedState} {dataIn : Json}

/-- A request that asks for no mode does nothing. -/
theorem setModeOwned_rejects (hnone : (jc.getString (dataIn.objectGet "value")).bind
      parseModestring = none) :
    setModeOwned jc env s dataIn (dataIn.objectGet "value") = .ok (s, .null) := by
  unfold setModeOwned
  cases hvalue : jc.getString (dataIn.objectGet "value") with
  | none => rfl
  | some value =>
      rw [hvalue, Option.bind_some] at hnone
      simp only [hnone]

/-- A request with a mode: the copy goes through the ring, is processed and
released, and the outputs are switched. -/
theorem setModeOwned_switches (hlist : OutputsListed s.helper.outputList)
    (hring : s.helper.taskAfterRepaintCycle.InRange)
    (hempty : pendingTasks s.helper.taskAfterRepaintCycle = [])
    (hslots : s.slots.length = maxTaskNum) (hcopy : env.copyOk = true)
    (hmode : setModeOf jc dataIn ≠ none) :
    ∃ h, setModeOwned jc env s dataIn (dataIn.objectGet "value")
        = .ok (⟨h, s.slots.set s.helper.taskAfterRepaintCycle.putIndex s.created, s.created + 1,
            s.puts ++ [s.created]⟩, .null) ∧
      pendingTasks h.taskAfterRepaintCycle = [] ∧
      switchCalls h.effects
        = switchCalls s.helper.effects ++ callsFor jc (switchTargets s.helper) dataIn := by
  obtain ⟨tasks, tasks', hs, hindex, hg, hlast, hrest⟩ :=
    empty_ring_schedules hring hempty dataIn
  -- the outputs are switched on the state with the empty ring
  obtain ⟨h₁, hrun, hswitched⟩ := processTask_switches
    (s := { s.helper with taskAfterRepaintCycle := tasks' }) hlist hmode
  obtain ⟨h₂, hrefresh, hkept⟩ := triggerRefresh_switches hswitched.listed
  have hlast₁ : getTask h₁.taskAfterRepaintCycle = none := by
    rw [hswitched.queue]
    exact hlast
  -- the slot of the task holds the copy
  have hslot : (s.slots.set s.helper.taskAfterRepaintCycle.putIndex s.created).getD
      tasks.getIndex 0 = s.created := by
    have hin : s.helper.taskAfterRepaintCycle.putIndex < s.slots.length := by
      rw [hslots]
      exact hring.put
    rw [hindex]
    simp [List.getD_eq_getElem?_getD, List.getElem?_set_self hin]
  refine ⟨h₂, ?_, ?_, ?_⟩
  · unfold setModeOwned scheduleOwned
    cases hvalue : jc.getString (dataIn.objectGet "value") with
    | none => exact absurd hvalue (isModeTask_of_setMode hmode).1.choose_spec.2.2
    | some value =>
        cases hparse : parseModestring value with
        | none =>
            refine absurd ?_ hmode
            unfold setModeOf
            cases dataIn.objectGetEx "cmd" with
            | none => rfl
            | some tmp => simp [hvalue, hparse]
        | some mode =>
            have hloop := repaintOwned_single 8
              (s := ⟨{ s.helper with taskAfterRepaintCycle := tasks },
                s.slots.set s.helper.taskAfterRepaintCycle.putIndex s.created, s.created + 1,
                s.puts⟩) hg (isModeTask_of_setMode hmode).2 hrun hlast₁
            rw [show maxTaskNum = 8 + 2 from rfl]
            simp only [hparse, hcopy, hs, if_true, hloop, ok_bind, OwnedState.put, hrefresh, hslot]
  · rw [hkept.queue, hswitched.queue]
    exact hrest
  · rw [hkept.calls, hswitched.calls, List.append_nil]
    rfl

/-- The outputs that a request is for: the enabled ones, in the order of the
list, or `g_output` if the list holds no output; none before `switch_mode` is
registered. -/
def requestTargets (s : HelperState) : List Nat :=
  if s.interface.switchMode then
    if outputsOf (outputCells s.outputList) = [] then s.output.toList
    else enabledOutputs (outputCells s.outputList)
  else []

theorem outputsListed_of_wellFormed {h : OutputHeap} (hw : WellFormedOutputs h)
    (henabled : ∀ n, Met h n → n.enable = true → n.data ≠ none) : OutputsListed h := by
  obtain ⟨es, t, hl, htail, -, -⟩ := hw
  refine ⟨_, es, t, hl, htail, ?_⟩
  intro n hn
  exact henabled n ((met_iff hl n).mpr (.inl hn))

/-- In a well-formed list, the head is empty only if the list holds no output. -/
theorem switchTargets_eq_requestTargets {h : HelperState} (hw : WellFormedOutputs h.outputList) :
    switchTargets h = requestTargets h := by
  obtain ⟨es, t, hl, -, htidy, -⟩ := hw
  unfold switchTargets requestTargets outputCells
  rw [hl.readData_eq]
  cases hcells : dataOf es with
  | nil => simp [outputsOf]
  | cons c cs =>
      rw [hcells] at htidy
      cases hc : c.data with
      | none => simp [htidy.2 hc, hc, outputsOf]
      | some output => simp [outputsOf_cons, hc]

/-- No output is met twice. -/
theorem enabledOutputs_nodup {h : OutputHeap} (hw : WellFormedOutputs h) :
    (enabledOutputs (outputCells h)).Nodup := by
  obtain ⟨es, t, hl, -, -, hnodup⟩ := hw
  unfold outputCells
  rw [hl.readData_eq]
  have hfilter : enabledOutputs (dataOf es)
      = outputsOf ((dataOf es).filter OutputNode.enable) := by
    unfold enabledOutputs outputsOf
    rw [List.filterMap_filter]
  rw [hfilter]
  exact nodup_outputsOf (hnodup.sublist ((List.filter_sublist).map _))

theorem requestTargets_nodup {h : HelperState} (hw : WellFormedOutputs h.outputList) :
    (requestTargets h).Nodup := by
  unfold requestTargets
  split_ifs
  · cases h.output <;> simp
  · exact enabledOutputs_nodup hw
  · exact List.nodup_nil

/-- **A "set mode" request takes effect once.**  On any well-formed list whose
enabled nodes hold an output, with an empty ring: `switch_mode` is called once
for each of the targets, in their order, if the request asks for a mode, and not
at all otherwise; the ring is empty again; and `data_in`, which is the object
`object`, and the copy, if there is one, are each released once. -/
theorem set_mode_once (jc : JsonC) (env : MessageEnv) (s : OwnedState) {object : Nat}
    {dataIn tmp : Json} (hobject : object < s.created) (hw : WellFormedOutputs s.helper.outputList)
    (henabled : ∀ n, Met s.helper.outputList n → n.enable = true → n.data ≠ none)
    (hring : s.helper.taskAfterRepaintCycle.InRange)
    (hempty : pendingTasks s.helper.taskAfterRepaintCycle = [])
    (hslots : s.slots.length = maxTaskNum) (hcopy : env.copyOk = true)
    (htmp : dataIn.objectGetEx "cmd" = some tmp) (hcmd : jc.getString tmp = some "set mode") :
    (requestTargets s.helper).Nodup ∧
    ∃ s', messageOwned jc env s object dataIn = .ok (s', .null) ∧
      pendingTasks s'.helper.taskAfterRepaintCycle = [] ∧
      (∀ mode, (jc.getString (dataIn.objectGet "value")).bind parseModestring = some mode →
        switchCalls s'.helper.effects = switchCalls s.helper.effects
          ++ (requestTargets s.helper).map (fun output => (output, mode)) ∧
        Releases s s' [s.created, object] ∧ s'.created = s.created + 1) ∧
      ((jc.getString (dataIn.objectGet "value")).bind parseModestring = none →
        switchCalls s'.helper.effects = switchCalls s.helper.effects ∧
        Releases s s' [object] ∧ s'.created = s.created) := by
  have hof : setModeOf jc dataIn
      = (jc.getString (dataIn.objectGet "value")).bind parseModestring := by
    unfold setModeOf
    simp only [htmp, hcmd, if_true]
  refine ⟨requestTargets_nodup hw, ?_⟩
  unfold messageOwned
  simp only [htmp, hcmd, if_true]
  cases hmode : (jc.getString (dataIn.objectGet "value")).bind parseModestring with
  | none =>
      -- no task is made, so only the request is given back
      rw [setModeOwned_rejects hmode, ok_bind]
      exact ⟨s.put object, rfl, hempty, fun mode h => absurd h (by simp),
        fun _ => ⟨rfl, ⟨rfl, List.nodup_singleton _⟩, rfl⟩⟩
  | some mode =>
      have hsome : setModeOf jc dataIn ≠ none := by
        rw [hof, hmode]
        simp
      obtain ⟨h, hrun, hrest, hcalls⟩ :=
        setModeOwned_switches (outputsListed_of_wellFormed hw henabled) hring hempty hslots hcopy
          hsome
      rw [hrun, ok_bind]
      refine ⟨_, rfl, hrest, ?_, fun h => absurd h (by simp)⟩
      intro mode' hmode'
      obtain rfl := Option.some.inj hmode'
      refine ⟨?_, ?_, rfl⟩
      · show switchCalls h.effects = _
        rw [hcalls]
        unfold callsFor
        rw [hof, hmode, switchTargets_eq_requestTargets hw]
      -- the copy of the task, and then the request itself
      · have hne : s.created ≠ object := Nat.ne_of_gt hobject
        refine ⟨List.append_assoc _ _ _, ?_⟩
        simp [hne]

end SetMode

/-- Two outputs; the first one is enabled. -/
def twoOutputs : OutputHeap where
  cell := fun a =>
    if a = gOutputList then some ⟨none, some 1, ⟨some 10, true⟩⟩
    else if a = 1 then some ⟨some gOutputList, some 2, ⟨some 20, false⟩⟩
    else if a = 2 then some ⟨some 1, none, .zero⟩
    else none
  fresh := 3
  bound := by
    intro a ha
    have hhead : a ≠ gOutputList := by
      unfold gOutputList
      omega
    rw [if_neg hhead, if_neg (by omega), if_neg (by omega)]

theorem twoOutputs_linked :
    OutputsLinked (fun _ => False) twoOutputs
      [⟨gOutputList, none, ⟨some 10, true⟩⟩, ⟨1, some gOutputList, ⟨some 20, false⟩⟩]
      ⟨2, some 1, .zero⟩ where
  chain := ⟨rfl, rfl, rfl, trivial⟩
  nodup := by decide
  first := rfl
  back := ⟨.inl rfl, .inl rfl, .inl rfl, trivial⟩
  freed := fun _ hfalse => hfalse.elim

def setModeRequest (value : String) : Json :=
  .object [("cmd", .string "set mode"), ("value", .string value)]

/-- The ring is empty, with the indices in its last slot; the request is the
object 0. -/
def twoOutputsHelper : OwnedState where
  helper := { HelperState.init true with
    outputList := twoOutputs
    interface := ⟨true, true, false⟩
    taskAfterRepaintCycle := ⟨List.replicate maxTaskNum .null, 9, 9⟩ }
  slots := List.replicate maxTaskNum 0
  created := 1
  puts := []

/-- The enabled one of two outputs is switched. -/
theorem enabled_output_switched :
    ∃ s', messageOwned jsonText .silent twoOutputsHelper 0 (setModeRequest "1920x1080@60")
        = .ok (s', .null) ∧
      switchCalls s'.helper.effects = [(10, ⟨1920, 1080, 60, 0, ""⟩)] ∧ s'.puts = [1, 0] := by
  have hw : WellFormedOutputs twoOutputsHelper.helper.outputList :=
    ⟨_, _, twoOutputs_linked, rfl, ⟨by simp, by simp⟩, by decide⟩
  have henabled : ∀ n, Met twoOutputsHelper.helper.outputList n → n.enable = true →
      n.data ≠ none := by
    intro n hn
    rcases (met_iff twoOutputs_linked n).mp hn with hn | rfl
    · rcases List.mem_cons.mp hn with rfl | hn
      · exact fun _ => by decide
      · rw [List.mem_singleton.mp hn]
        exact fun _ => by decide
    · exact fun h => absurd h (by decide)
  have hcmd : (setModeRequest "1920x1080@60").objectGetEx "cmd" = some (.string "set mode") := rfl
  obtain ⟨-, s', hrun, -, hswitched, -⟩ :=
    set_mode_once jsonText .silent twoOutputsHelper
      (show 0 < twoOutputsHelper.created by decide) hw henabled
      ⟨rfl, by decide, by decide⟩ rfl rfl rfl hcmd (by decide +kernel)
  obtain ⟨hcalls, hputs, -⟩ := hswitched ⟨1920, 1080, 60, 0, ""⟩ (by decide +kernel)
  refine ⟨s', hrun, ?_, hputs.1⟩
  rw [hcalls]
  decide +kernel

end MesonDisplay.Helper
