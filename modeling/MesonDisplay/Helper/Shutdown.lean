/-
  MesonDisplay.Helper.Shutdown — stopping the helper.

  `stop_help_worker` holds the mutex while it waits for the server thread to
  stop.  A server thread that needs the mutex for a request then waits for
  `stop_help_worker`.  `server_destory` decides by one look at the status word
  whether there is anything to wait for; a thread that was not created and a
  thread that has not started to listen look the same.

  Main results:
    * `no_deadlock_unless_locking` — no run deadlocks in which no request needs
      the mutex while `stop_help_worker` has it.
    * `shutdown_ok_unless_inited` — the order of the shutdown is right in every
      run in which `server_destory` never finds the status SERVER_INITED.
-/
import MesonDisplay.Helper.Worker
import MesonDisplay.Json.Text

namespace MesonDisplay.Helper

open MesonDisplay.LinkedList
open MesonDisplay.Ipc (ServerStatus)
open MesonDisplay.Json (jsonText)
open MesonDisplay.Runs

/-! ## §1. Requests that take the mutex. -/

/-- A member of the value of "set connector range properties" that names a
property and has a number. -/
def setsProperty (jc : JsonC) (f : String × Json) : Bool :=
  f.1 ≠ "" ∧ (connectorProps.findIdx? (fun p => p.name = some f.1)).isSome ∧
    (jc.getInt64 f.2).2 = 0

/-- The request makes `m_message_handle` take the mutex. -/
def takesMutex (jc : JsonC) (env : MessageEnv) (dataIn : Json) : Bool :=
  match dataIn.objectGetEx "cmd" with
  | none => false
  | some tmp =>
      let opt := dataIn.objectGet "value"
      match jc.getString tmp with
      | none => false
      | some cmd =>
          if cmd = "set mode" then
            match jc.getString opt with
            | none => false
            | some value => env.copyOk && (parseModestring value).isSome
          else if cmd = "get modes" then true
          else if cmd = "set connector range properties" then
            match opt with
            | .object fs => fs.any (setsProperty jc)
            | _ => false
          else if cmd = "get connector range properties" then
            match jc.getString opt with
            | none => false
            | some name => name ≠ ""
          else false

/-- No lock was taken. -/
def NoLock (s : HelperState) : Prop := Effect.lock ∉ s.effects

theorem NoLock.emit {s : HelperState} {e : Effect} (hs : NoLock s) (he : e ≠ .lock) :
    NoLock (s.emit e) := by
  intro hmem
  rcases List.mem_append.mp hmem with hmem | hmem
  · exact hs hmem
  · exact he (List.mem_singleton.mp hmem).symm

theorem forEachEnabled_noLock {call : Nat → Effect} {s s' : HelperState}
    (hcall : ∀ output, call output ≠ .lock) (hs : NoLock s)
    (hrun : forEachEnabled call s = .ok s') : NoLock s' := by
  obtain ⟨⟨h, effects, i⟩, hloop, hset⟩ := bind_eq_ok.mp hrun
  obtain rfl := Except.ok.inj hset
  refine forEachList_keeps_vars (P := fun effects => Effect.lock ∉ effects) ?_ _ hs hloop
  intro effects n n' l heffects hb
  unfold callEnabled at hb
  by_cases henable : n.enable = true
  · rw [if_pos henable] at hb
    cases hdata : n.data with
    | none =>
        rw [hdata] at hb
        exact absurd hb (by simp)
    | some output =>
        rw [hdata] at hb
        obtain ⟨-, rfl⟩ := Prod.mk.inj (Except.ok.inj hb)
        intro hmem
        rcases List.mem_append.mp hmem with hmem | hmem
        · exact heffects hmem
        · exact hcall output (List.mem_singleton.mp hmem).symm
  · rw [if_neg henable] at hb
    obtain ⟨-, rfl⟩ := Prod.mk.inj (Except.ok.inj hb)
    exact heffects

theorem triggerRefresh_noLock {s s' : HelperState} (hs : NoLock s)
    (hrun : triggerRefresh s = .ok s') : NoLock s' := by
  unfold triggerRefresh at hrun
  by_cases hregistered : s.interface.forceRefresh = true
  · rw [if_pos hregistered] at hrun
    obtain ⟨first, -, hrun⟩ := bind_eq_ok.mp hrun
    by_cases hdata : first.data.data ≠ none
    · rw [if_pos hdata] at hrun
      exact forEachEnabled_noLock (fun _ => by simp) hs hrun
    · rw [if_neg hdata] at hrun
      obtain rfl := Except.ok.inj hrun
      exact hs
  · rw [if_neg hregistered] at hrun
    obtain rfl := Except.ok.inj hrun
    exact hs

/-- A member that sets no property takes no lock. -/
theorem setRangeProperty_noLock {jc : JsonC} {env : MessageEnv} {s s' : HelperState}
    {f : String × Json} (hf : setsProperty jc f = false) (hs : NoLock s)
    (hrun : setRangeProperty jc env s f.1 f.2 = .ok s') : NoLock s' := by
  rcases setRangeProperty_cases hrun with rfl | ⟨i, u, hname, hi, herrno, -⟩
  · exact hs
  · unfold setsProperty at hf
    rw [hi] at hf
    exact absurd hf (by simp [hname, herrno])

theorem setRangeProperties_noLock {jc : JsonC} {env : MessageEnv} (fs : List (String × Json)) :
    ∀ {s s' : HelperState}, fs.any (setsProperty jc) = false → NoLock s →
      setRangeProperties jc env s fs = .ok s' → NoLock s' := by
  induction fs with
  | nil =>
      intro s s' _ hs hrun
      obtain rfl := Except.ok.inj hrun
      exact hs
  | cons f fs ih =>
      intro s s' hfs hs hrun
      rw [List.any_cons, Bool.or_eq_false_iff] at hfs
      obtain ⟨s₁, hfirst, hrest⟩ := bind_eq_ok.mp hrun
      exact ih hfs.2 (setRangeProperty_noLock hfs.1 hs hfirst) hrest

theorem handleSetMode_noLock {jc : JsonC} {env : MessageEnv} {s s' : HelperState}
    {dataIn opt out : Json}
    (htakes : ∀ value, jc.getString opt = some value →
      (env.copyOk && (parseModestring value).isSome) = false)
    (hs : NoLock s) (hrun : handleSetMode jc env s dataIn opt = .ok (s', out)) :
    NoLock s' := by
  unfold handleSetMode at hrun
  cases hvalue : jc.getString opt with
  | none =>
      simp only [hvalue] at hrun
      obtain ⟨rfl, -⟩ := Prod.mk.inj (Except.ok.inj hrun)
      exact hs
  | some value =>
      simp only [hvalue] at hrun
      cases hmode : parseModestring value with
      | none =>
          simp only [hmode] at hrun
          obtain ⟨rfl, -⟩ := Prod.mk.inj (Except.ok.inj hrun)
          exact hs
      | some mode =>
          -- the copy of the request failed, so nothing was scheduled
          have hcopy : env.copyOk = false := by
            have h := htakes value hvalue
            rw [hmode] at h
            simpa using h
          have hsched : (scheduleTask env.copyOk s.taskAfterRepaintCycle dataIn).2 = false := by
            rw [hcopy]
            unfold scheduleTask
            simp
          simp only [hmode, hsched, Bool.false_eq_true, if_false, ok_bind] at hrun
          obtain ⟨s₁, hrefresh, hset⟩ := bind_eq_ok.mp hrun
          obtain ⟨rfl, -⟩ := Prod.mk.inj (Except.ok.inj hset)
          refine triggerRefresh_noLock ?_ hrefresh
          exact hs

theorem setUiRect_effects (jc : JsonC) (s : HelperState) (opt : Json) :
    (setUiRect jc s opt).effects = s.effects := by
  unfold setUiRect
  by_cases hnull : opt.isNull = true
  · rw [if_pos hnull]
  · rw [if_neg hnull]
    simp only [apply_ite HelperState.effects, ite_self]

theorem NoLock.of_ok {s s' : HelperState} {out out' : Json} (hs : NoLock s)
    (hrun : (Except.ok (s, out) : Except Fault (HelperState × Json)) = .ok (s', out')) :
    NoLock s' := by
  obtain ⟨rfl, -⟩ := Prod.mk.inj (Except.ok.inj hrun)
  exact hs

theorem handleSetRangeProperties_noLock {jc : JsonC} {env : MessageEnv} {s s' : HelperState}
    {opt out : Json} (htakes : ∀ fs, opt = .object fs → fs.any (setsProperty jc) = false)
    (hs : NoLock s) (hrun : handleSetRangeProperties jc env s opt = .ok (s', out)) :
    NoLock s' := by
  cases opt with
  | null => exact hs.of_ok hrun
  | object fs =>
      obtain ⟨s₁, hfs, hset⟩ := bind_eq_ok.mp hrun
      exact (setRangeProperties_noLock fs (htakes fs rfl) hs hfs).of_ok hset
  | _ => exact absurd hrun (by simp [handleSetRangeProperties])

theorem handleGetRangeProperties_noLock {jc : JsonC} {env : MessageEnv} {s s' : HelperState}
    {opt out : Json} (htakes : ∀ name, jc.getString opt = some name → name = "")
    (hs : NoLock s) (hrun : handleGetRangeProperties jc env s opt = .ok (s', out)) :
    NoLock s' := by
  unfold handleGetRangeProperties at hrun
  cases hname : jc.getString opt with
  | none =>
      rw [hname] at hrun
      exact hs.of_ok hrun
  | some name =>
      simp only [hname] at hrun
      rw [if_pos (htakes name hname)] at hrun
      exact hs.of_ok hrun

theorem handleGetInfo_noLock {jc : JsonC} {s s' : HelperState} {opt out : Json} (hs : NoLock s)
    (hrun : handleGetInfo jc s opt = .ok (s', out)) : NoLock s' := by
  unfold handleGetInfo at hrun
  by_cases hregistered : s.interface.printInfo = true
  · rw [if_pos hregistered] at hrun
    exact (hs.emit (by simp)).of_ok hrun
  · rw [if_neg hregistered] at hrun
    exact absurd hrun (by simp)

/-- A request that does not take the mutex. -/
theorem mMessageHandle_noLock {jc : JsonC} {env : MessageEnv} {s : HelperState} {dataIn : Json}
    (htakes : takesMutex jc env dataIn = false) (hs : NoLock s) :
    ∀ s' out, mMessageHandle jc env s dataIn = .ok (s', out) → NoLock s' := by
  unfold takesMutex at htakes
  refine mMessageHandle_cases
    (P := fun r => ∀ s' out, r = .ok (s', out) → NoLock s') ?absent ?null ?command
  case absent => exact fun _ _ _ hrun => hs.of_ok hrun
  case null => exact fun _ _ _ _ _ hrun => absurd hrun (by simp)
  case command =>
    intro tmp cmd htmp hcmd
    -- `takesMutex` branches on the same command
    simp only [htmp, hcmd] at htakes
    refine ⟨?setMode, ?getModes, ?setRange, ?getRange, ?setUi, ?getInfo, ?reply⟩
    case setMode =>
      intro h s' out hrun
      refine handleSetMode_noLock ?_ hs hrun
      intro value hvalue
      simpa only [h, if_true, hvalue] using htakes
    case getModes =>
      intro h
      exact absurd htakes (by simp [h])
    case setRange =>
      intro h s' out hrun
      refine handleSetRangeProperties_noLock ?_ hs hrun
      intro fs hfs
      simpa [h, hfs] using htakes
    case getRange =>
      intro h s' out hrun
      refine handleGetRangeProperties_noLock ?_ hs hrun
      intro name hname
      simpa [h, hname] using htakes
    case setUi =>
      intro _ s' out hrun
      refine NoLock.of_ok ?_ hrun
      show Effect.lock ∉ (setUiRect jc s _).effects
      rw [setUiRect_effects]
      exact hs
    case getInfo => exact fun _ s' out hrun => handleGetInfo_noLock hs hrun
    case reply => exact fun _ _ _ hrun => hs.of_ok hrun

/-! ## §2. The deadlock. -/

/-- The next thing the server thread does is to take the mutex. -/
def ThreadPc.atLock : ThreadPc → Bool
  | .serve _ (.lock :: _) => true
  | _ => false

/-- The server thread will take the mutex for the request it is handling. -/
def ThreadPc.willLock : ThreadPc → Bool
  | .serve _ ops => ops.contains .lock
  | _ => false

/-- The next thing the server thread does is to handle a request that takes the
mutex. -/
def ThreadPc.atLockingRequest (jc : JsonC) : ThreadPc → Bool
  | .serve (.client env dataIn :: _) [] => takesMutex jc env dataIn
  | _ => false

/-- `stop_help_worker` holds the mutex and waits for the server thread, which
waits for the mutex. -/
def Deadlocked (w : Worker) : Prop :=
  w.mutex = some .owner ∧ w.owner = .destory true .wait ∧ w.thread.atLock = true

instance (w : Worker) : Decidable (Deadlocked w) :=
  inferInstanceAs (Decidable (_ ∧ _ ∧ _))

/-- The places of `stop_help_worker` up to the one where it waits. -/
def OwnerPc.mayWait : OwnerPc → Bool
  | .destory inStop .enter | .destory inStop .readStatus | .destory inStop .setStatus
  | .destory inStop .connect | .destory inStop .wait => inStop
  | _ => false

/-- `stop_help_worker` has the mutex, and has not seen SERVER_STOPED. -/
def Stopping (w : Worker) : Prop := w.mutex = some .owner ∧ w.owner.mayWait = true

instance (w : Worker) : Decidable (Stopping w) := inferInstanceAs (Decidable (_ ∧ _))

/-- The mutex is not needed for a request while `stop_help_worker` waits with
it: it is taken when the request that is being handled has no lock left to
take, and until the server thread has stopped no request that takes it is
handled. -/
def NoLockingRequest (jc : JsonC) (w : Worker) : WorkerAction → Prop
  | .owner _ => w.owner = .lock → w.thread.willLock = false
  | .thread _ => Stopping w → w.thread.atLockingRequest jc = false

instance (jc : JsonC) (w : Worker) : ∀ a, Decidable (NoLockingRequest jc w a)
  | .owner _ => inferInstanceAs (Decidable (_ → _))
  | .thread _ => inferInstanceAs (Decidable (_ → _))

/-- While the owner is stopping the worker the server thread does not want the
mutex. -/
def OwnerUndisturbed (w : Worker) : Prop := Stopping w → w.thread.willLock = false

theorem ownerUndisturbed_owner {w w' : Worker} (hmove : OwnerMove w w.owner w')
    (hquiet : w.owner = .lock → w.thread.willLock = false) (hw : OwnerUndisturbed w) :
    OwnerUndisturbed w' := by
  unfold OwnerUndisturbed Stopping at hw
  generalize hpc : w.owner = pc at hmove hw
  cases hmove with
  -- a new thread handles nothing yet
  | started => exact fun _ => rfl
  | called s =>
      rw [← hpc] at hw
      exact hw
  -- here the condition on the step is needed
  | locked hfree => exact fun _ => hquiet hpc
  | entered inStop hctx => exact hw
  -- a status that is not waited for ends the obligation
  | read inStop hfreed =>
      intro hstop
      refine hw ⟨hstop.1, ?_⟩
      have hmay : (OwnerPc.destory inStop (destorySwitch w.status)).mayWait = true := hstop.2
      cases hstatus : w.status with
      | listening | goingToStop =>
          rw [hstatus] at hmay
          exact hmay
      | inited | stoped =>
          rw [hstatus] at hmay
          exact absurd hmay (by simp [destorySwitch, OwnerPc.mayWait])
  | goingToStop inStop => exact hw
  | connected inStop => exact hw
  | null inStop hctx | released inStop =>
      intro hstop
      have hmay : (if inStop then OwnerPc.unlock else .idle).mayWait = true := hstop.2
      cases inStop <;> exact absurd hmay (by simp [OwnerPc.mayWait])
  | _ => exact fun hstop => absurd hstop.2 (by simp [OwnerPc.mayWait])

theorem ownerUndisturbed_thread {jc : JsonC} {w w' : Worker}
    (hmove : ThreadMove jc w w.thread w')
    (hquiet : Stopping w → w.thread.atLockingRequest jc = false)
    (hw : OwnerUndisturbed w) : OwnerUndisturbed w' := by
  unfold OwnerUndisturbed Stopping at hw
  unfold Stopping at hquiet
  generalize hpc : w.thread = pc at hmove hw hquiet
  cases hmove with
  | locked rest ops hfree => exact fun hstop => absurd hstop.1 (by simp)
  | unlocked rest ops => exact fun hstop => absurd hstop.1 (by simp)
  | handled env dataIn rest s out hrun =>
      intro hstop
      -- the effects start empty, so what is in them is of this request
      have hnone : NoLock w.helper.quiet := List.not_mem_nil
      have hlock := mMessageHandle_noLock (hquiet hstop) hnone s out hrun
      show (mutexOps s.effects).contains .lock = false
      rw [List.contains_eq_mem, decide_eq_false_iff_not]
      intro hmem
      obtain ⟨e, he, heq⟩ := List.mem_filterMap.mp hmem
      cases e with
      | lock => exact hlock he
      | _ => exact absurd heq (by simp)
  | _ => exact fun _ => rfl

theorem ThreadPc.willLock_of_atLock {pc : ThreadPc} (h : pc.atLock = true) :
    pc.willLock = true := by
  cases pc with
  | serve rest ops =>
      cases ops with
      | nil => exact absurd h (by simp [ThreadPc.atLock])
      | cons op ops =>
          cases op with
          | lock => simp [ThreadPc.willLock]
          | unlock => exact absurd h (by simp [ThreadPc.atLock])
  | _ => exact absurd h (by simp [ThreadPc.atLock])

/-- **No deadlock while no request needs the mutex**: in a run in which every
step meets the condition, `stop_help_worker` never waits, with the mutex, for a
server thread that waits for the mutex. -/
theorem no_deadlock_unless_locking {jc : JsonC} {atomicModesetEnable : Bool}
    {actions : List WorkerAction} {w : Worker}
    (hrun : run (workerStep jc) (.init atomicModesetEnable) actions = some w)
    (hquiet : Meets (workerStep jc) (NoLockingRequest jc) (.init atomicModesetEnable) actions) :
    ¬ Deadlocked w := by
  have hstep : ∀ w a w', OwnerUndisturbed w → NoLockingRequest jc w a →
      workerStep jc w a = some w' → OwnerUndisturbed w' := by
    intro w a w' hw hquiet hstep
    cases a with
    | owner env => exact ownerUndisturbed_owner (ownerStep_move hstep) hquiet hw
    | thread ready => exact ownerUndisturbed_thread (threadStep_move hstep) hquiet hw
  have hinit : OwnerUndisturbed (.init atomicModesetEnable) := fun hstop =>
    absurd hstop.1 (by simp [Worker.init])
  have hw := run_invariant hstep actions hinit hquiet hrun
  intro hdead
  obtain ⟨hmutex, howner, hlock⟩ := hdead
  have hnone := hw ⟨hmutex, by rw [howner]; rfl⟩
  rw [ThreadPc.willLock_of_atLock hlock] at hnone
  exact absurd hnone (by simp)

/-- Nothing fails, and the compositor stops the worker. -/
def OwnerEnv.stop : OwnerEnv := ⟨true, true, true, none⟩

/-- The worker is started, the server thread listens, and a request arrives. -/
def startAndRequest (cmd : String) : List WorkerAction :=
  [.owner .stop, .owner .stop, .thread [], .thread [],
    .thread [.client .silent (.object [("cmd", .string cmd)])]]

/-- `stop_help_worker` up to the place where it waits for the server thread. -/
def stopUntilWait : List WorkerAction := List.replicate 6 (.owner .stop)

/-- The area of the user interface is asked for while the owner waits. -/
theorem get_ui_rect_does_not_deadlock :
    ∃ w, run (workerStep jsonText) (.init true)
        (startAndRequest "get ui rect" ++ stopUntilWait ++ [.thread [], .thread []]) = some w ∧
      w.owner = .destory true .wait ∧ ¬ Deadlocked w := by
  have hrun : (run (workerStep jsonText) (.init true)
      (startAndRequest "get ui rect" ++ stopUntilWait ++ [.thread [], .thread []])).any
      (fun w => w.owner = .destory true .wait) = true := by decide +kernel
  obtain ⟨w, hw, howner⟩ := (Option.any_eq_true _ _).mp hrun
  exact ⟨w, hw, of_decide_eq_true howner,
    no_deadlock_unless_locking hw (by decide +kernel)⟩

/-- The owner stops the worker while "get modes" is being handled. -/
theorem get_modes_deadlocks :
    ∃ w, run (workerStep jsonText) (.init true)
        (startAndRequest "get modes" ++ [.thread []] ++ stopUntilWait) = some w ∧
      Deadlocked w := by
  have hrun : (run (workerStep jsonText) (.init true)
      (startAndRequest "get modes" ++ [.thread []] ++ stopUntilWait)).any
      (fun w => Deadlocked w) = true := by decide +kernel
  obtain ⟨w, hw, hdead⟩ := (Option.any_eq_true _ _).mp hrun
  exact ⟨w, hw, of_decide_eq_true hdead⟩

/-! ## §3. The status word. -/

/-- The thread has set the status once. -/
def ThreadPc.hasListened : ThreadPc → Bool
  | .absent | .created => false
  | _ => true

/-- The thread is in its listening loop. -/
def ThreadPc.inLoop : ThreadPc → Bool
  | .test | .select | .serve .. => true
  | _ => false

/-- The thread is behind its listening loop. -/
def ThreadPc.left : ThreadPc → Bool
  | .leave | .returning | .finished => true
  | _ => false

/-- Where the owner is when it has seen that the thread has listened. -/
def OwnerPc.stopping : OwnerPc → Bool
  | .destory _ .setStatus | .destory _ .connect | .destory _ .wait => true
  | _ => false

/-- Where the owner is before there is a thread. -/
def OwnerPc.starting : OwnerPc → Bool
  | .create | .start => true
  | _ => false

/-- What the status word says in every reachable state. -/
structure StatusOk (w : Worker) : Prop where
  inited : w.status = .inited ↔ w.thread.hasListened = false
  stoped : w.status = .stoped → w.thread.left = true
  stopping : w.owner.stopping = true → w.thread.hasListened = true
  starting : w.owner.starting = true → w.thread.isAbsent = true

theorem statusOk_init (atomicModesetEnable : Bool) :
    StatusOk (.init atomicModesetEnable) where
  inited := by simp [Worker.init, ThreadPc.hasListened]
  stoped := by simp [Worker.init]
  stopping := by simp [Worker.init, OwnerPc.stopping]
  starting := fun _ => rfl

theorem ThreadPc.isAbsent_hasListened {pc : ThreadPc} (h : pc.isAbsent = true) :
    pc.hasListened = false ∧ pc.left = false := by
  cases pc with
  | absent => exact ⟨rfl, rfl⟩
  | _ => exact absurd h (by simp [ThreadPc.isAbsent])

theorem ThreadPc.left_spec {pc : ThreadPc} (h : pc.left = true) :
    pc.inLoop = false ∧ pc.isAbsent = false := by
  cases pc with
  | leave | returning | finished => exact ⟨rfl, rfl⟩
  | _ => exact absurd h (by simp [ThreadPc.left])

theorem StatusOk.hasListened {w : Worker} (hw : StatusOk w) (hstatus : w.status ≠ .inited) :
    w.thread.hasListened = true := by
  cases h : w.thread.hasListened with
  | true => rfl
  | false => exact absurd (hw.inited.mpr h) hstatus

theorem statusOk_owner {w w' : Worker} (hmove : OwnerMove w w.owner w') (hw : StatusOk w) :
    StatusOk w' := by
  have hinited := hw.inited
  have hstoped := hw.stoped
  have hstopping := hw.stopping
  have hstarting := hw.starting
  generalize hpc : w.owner = pc at hmove hstopping hstarting
  cases hmove with
  -- `server_create` writes the status when there is no thread
  | created =>
      have habsent := ThreadPc.isAbsent_hasListened (hstarting rfl)
      exact ⟨⟨fun _ => habsent.1, fun _ => rfl⟩, fun h => absurd h (by simp),
        fun h => absurd h (by simp [OwnerPc.stopping]), fun _ => hstarting rfl⟩
  -- the new thread has not written it yet
  | started =>
      have habsent := ThreadPc.isAbsent_hasListened (hstarting rfl)
      refine ⟨⟨fun _ => rfl, fun _ => hinited.mpr habsent.1⟩, ?_,
        fun h => absurd h (by simp [OwnerPc.stopping]),
        fun h => absurd h (by simp [OwnerPc.starting])⟩
      intro h
      have hleft := hstoped h
      rw [habsent.2] at hleft
      exact absurd hleft (by simp)
  -- the owner goes on to stop only a thread that has listened
  | read inStop hfreed =>
      refine ⟨hinited, hstoped, ?_, fun h => absurd h (by simp [OwnerPc.starting])⟩
      intro h
      apply hw.hasListened
      intro hstatus
      change (OwnerPc.destory inStop (destorySwitch w.status)).stopping = true at h
      rw [hstatus] at h
      exact absurd h (by simp [destorySwitch, OwnerPc.stopping])
  -- the only other write of the owner
  | goingToStop inStop =>
      have hlistened := hstopping rfl
      refine ⟨⟨fun h => absurd h (by simp), ?_⟩, fun h => absurd h (by simp),
        fun _ => hlistened, fun h => absurd h (by simp [OwnerPc.starting])⟩
      intro h
      change w.thread.hasListened = false at h
      rw [hlistened] at h
      exact absurd h (by simp)
  | connected inStop =>
      exact ⟨hinited, hstoped, fun _ => hstopping rfl,
        fun h => absurd h (by simp [OwnerPc.starting])⟩
  | called s => exact ⟨hinited, hstoped, hw.stopping, hw.starting⟩
  | null inStop hctx =>
      refine ⟨hinited, hstoped, ?_, ?_⟩
      · cases inStop <;> exact fun h => absurd h (by simp [Worker.returned, OwnerPc.stopping])
      · cases inStop <;> exact fun h => absurd h (by simp [Worker.returned, OwnerPc.starting])
  | released inStop =>
      refine ⟨hinited, hstoped, ?_, ?_⟩
      · cases inStop <;> exact fun h => absurd h (by simp [Worker.returned, OwnerPc.stopping])
      · cases inStop <;> exact fun h => absurd h (by simp [Worker.returned, OwnerPc.starting])
  | _ =>
      exact ⟨hinited, hstoped, fun h => absurd h (by simp [OwnerPc.stopping]),
        fun h => absurd h (by simp [OwnerPc.starting])⟩

theorem statusOk_thread {jc : JsonC} {w w' : Worker} (hmove : ThreadMove jc w w.thread w')
    (hw : StatusOk w) : StatusOk w' := by
  have hinited := hw.inited
  have hstoped := hw.stoped
  have hstopping := hw.stopping
  have hstarting := hw.starting
  generalize hpc : w.thread = pc at hmove hinited hstoped hstopping hstarting
  cases hmove with
  | listen =>
      refine ⟨⟨fun h => absurd h (by simp), fun h => absurd h (by simp [ThreadPc.hasListened])⟩,
        fun h => absurd h (by simp), fun _ => rfl, ?_⟩
      intro h
      exact absurd (hstarting h) (by simp [ThreadPc.isAbsent])
  | again hstatus =>
      exact ⟨hinited, fun h => absurd (hstatus.symm.trans h) (by simp), hstopping, hstarting⟩
  | leave hstatus => exact ⟨hinited, fun _ => rfl, hstopping, hstarting⟩
  | stoped hstatus =>
      refine ⟨⟨fun h => absurd h (by simp), fun h => absurd h (by simp [ThreadPc.hasListened])⟩,
        fun _ => rfl, hstopping, hstarting⟩
  | notStoped hstatus => exact ⟨hinited, fun _ => rfl, hstopping, hstarting⟩
  | _ => exact ⟨hinited, hstoped, hstopping, hstarting⟩

theorem statusOk_step {jc : JsonC} {w w' : Worker} {a : WorkerAction} (hw : StatusOk w)
    (hstep : workerStep jc w a = some w') : StatusOk w' := by
  cases a with
  | owner env => exact statusOk_owner (ownerStep_move hstep) hw
  | thread ready => exact statusOk_thread (threadStep_move hstep) hw

/-- The status word is right in every reachable state. -/
theorem statusOk_run {jc : JsonC} {actions : List WorkerAction} {w w' : Worker}
    (hw : StatusOk w) (hrun : run (workerStep jc) w actions = some w') : StatusOk w' :=
  run_invariant_all (fun _ _ _ hw hstep => statusOk_step hw hstep) actions hw hrun

/-- Once a thread is behind its loop it stays there. -/
theorem left_step {jc : JsonC} {w w' : Worker} {a : WorkerAction} (hw : StatusOk w)
    (hleft : w.thread.left = true) (hstep : workerStep jc w a = some w') :
    w'.thread.left = true := by
  cases a with
  | owner env =>
      have hmove := ownerStep_move hstep
      have hstarting := hw.starting
      generalize w.owner = pc at hmove hstarting
      cases hmove with
      -- no second thread is started
      | started =>
          have habsent := (ThreadPc.left_spec hleft).2
          rw [hstarting rfl] at habsent
          exact absurd habsent (by simp)
      | _ => exact hleft
  | thread ready =>
      have hmove := threadStep_move hstep
      generalize w.thread = pc at hmove hleft
      cases hmove with
      | stoped | notStoped | returned => rfl
      | _ => exact absurd hleft (by simp [ThreadPc.left])

/-- A deadlock that is reached does not go away: neither thread can take a
step. -/
theorem deadlocked_stuck {jc : JsonC} {atomicModesetEnable : Bool}
    {actions : List WorkerAction} {w : Worker}
    (hrun : run (workerStep jc) (.init atomicModesetEnable) actions = some w)
    (hdead : Deadlocked w) (a : WorkerAction) : workerStep jc w a = none := by
  have hstoped := (statusOk_run (statusOk_init atomicModesetEnable) hrun).stoped
  obtain ⟨hmutex, howner, hlock⟩ := hdead
  obtain ⟨owner, thread, ctx, status, freed, mutex, helper, destoryed⟩ := w
  subst howner hmutex
  cases thread with
  | serve rest ops =>
      cases ops with
      | nil => exact absurd hlock (by simp [ThreadPc.atLock])
      | cons op ops =>
          cases op with
          | lock =>
              cases a with
              | owner env =>
                  show (if status = .stoped then _ else none) = none
                  rw [if_neg]
                  exact fun h => absurd (hstoped h) (by simp [ThreadPc.left])
              | thread ready => rfl
          | unlock => exact absurd hlock (by simp [ThreadPc.atLock])
  | _ => exact absurd hlock (by simp [ThreadPc.atLock])

/-- Whenever the owner takes the mutex from a server thread that is about to
take it, five steps of the owner lead to the deadlock. -/
theorem pending_lock_deadlocks {jc : JsonC} {w : Worker} (howner : w.owner = .lock)
    (hmutex : w.mutex = none) (hthread : w.thread.atLock = true)
    (hstatus : w.status = .listening) (hctx : w.ctx = true) (hfreed : w.freed = false) :
    ∃ w', run (workerStep jc) w (List.replicate 5 (.owner .stop)) = some w' ∧
      Deadlocked w' := by
  obtain ⟨owner, thread, ctx, status, freed, mutex, helper, destoryed⟩ := w
  subst howner hmutex hstatus hctx hfreed
  exact ⟨_, rfl, rfl, rfl, hthread⟩

/-! ## §4. The order of the shutdown. -/

/-- The server thread is not in its listening loop, and never will be. -/
def LeftForGood (jc : JsonC) (w : Worker) : Prop :=
  ∀ actions w', run (workerStep jc) w actions = some w' → w'.thread.inLoop = false

/-- What must hold of what the owner does next: it joins a thread that was
created; it closes the listening socket, and joins, when the server thread has
left its loop for good; and it has destroyed its context at most once. -/
structure ShutdownOk (jc : JsonC) (w : Worker) : Prop where
  joins : ∀ inStop, w.owner = .destory inStop .join → w.thread.isAbsent = false
  left : ∀ inStop, w.owner = .destory inStop .closeSocket ∨ w.owner = .destory inStop .join →
    LeftForGood jc w
  once : w.destoryed ≤ 1

def OwnerPc.readsStatus : OwnerPc → Bool
  | .destory _ .readStatus => true
  | _ => false

/-- `server_destory` does not find the status SERVER_INITED. -/
def FindsListening (w : Worker) : WorkerAction → Prop
  | .owner _ => w.owner.readsStatus = true → w.status ≠ .inited
  | .thread _ => True

instance (w : Worker) : ∀ a, Decidable (FindsListening w a)
  | .owner _ => inferInstanceAs (Decidable (_ → _))
  | .thread _ => inferInstanceAs (Decidable True)

theorem leftForGood_of_left {jc : JsonC} {w : Worker} (hw : StatusOk w)
    (hleft : w.thread.left = true) : LeftForGood jc w := by
  intro actions w' hrun
  have hstep : ∀ w a w', (StatusOk w ∧ w.thread.left = true) → workerStep jc w a = some w' →
      StatusOk w' ∧ w'.thread.left = true :=
    fun w a w' hw hstep => ⟨statusOk_step hw.1 hstep, left_step hw.1 hw.2 hstep⟩
  exact (ThreadPc.left_spec (run_invariant_all hstep actions ⟨hw, hleft⟩ hrun).2).1

/-- How often a context was destroyed, and what the server thread has done, when
the owner is at a place. -/
def PhaseOk (w : Worker) : OwnerPc → Prop
  | .create | .start | .idle | .lock => w.destoryed = 0
  | .destory false .enter => w.destoryed = 0 ∧ w.thread.isAbsent = true
  | .destory false .readStatus => w.destoryed = 1 ∧ w.thread.isAbsent = true
  | .destory false _ => False
  | .destory true .enter => w.destoryed = 0
  | .destory true .closeSocket | .destory true .join | .destory true .release =>
      w.destoryed = 1 ∧ w.thread.left = true
  | .destory true _ => w.destoryed = 1
  | .unlock | .done => w.destoryed ≤ 1

theorem phaseOk_owner {w w' : Worker} (hmove : OwnerMove w w.owner w') (hw : StatusOk w)
    (hfinds : w.owner.readsStatus = true → w.status ≠ .inited)
    (hphase : PhaseOk w w.owner) : PhaseOk w' w'.owner := by
  have hstarting := hw.starting
  generalize hpc : w.owner = pc at hmove hfinds hphase hstarting
  cases hmove with
  | created => exact hphase
  | notCreated => exact hphase
  | started => exact hphase
  | notStarted => exact ⟨hphase, hstarting rfl⟩
  | called s =>
      show PhaseOk _ w.owner
      rw [hpc]
      exact hphase
  | stop => exact hphase
  | locked hfree => exact hphase
  | unlocked => exact hphase
  -- `server_create` failed: there is nothing to destroy
  | null inStop hctx =>
      cases inStop with
      | false => exact hphase.1
      | true =>
          change w.destoryed = 0 at hphase
          show w.destoryed ≤ 1
          omega
  | entered inStop hctx =>
      cases inStop with
      | false => exact ⟨congrArg Nat.succ hphase.1, hphase.2⟩
      | true => exact congrArg Nat.succ hphase
  | read inStop hfreed =>
      have hstatus := hfinds rfl
      cases inStop with
      | false =>
          -- without a thread the status is still SERVER_INITED
          exact absurd (hw.inited.mpr (ThreadPc.isAbsent_hasListened hphase.2).1) hstatus
      | true =>
          show PhaseOk _ (.destory true (destorySwitch w.status))
          cases hvalue : w.status with
          | inited => exact absurd hvalue hstatus
          | listening => exact hphase
          | goingToStop => exact hphase
          | stoped => exact ⟨hphase, hw.stoped hvalue⟩
  | goingToStop inStop =>
      cases inStop with
      | false => exact hphase.elim
      | true => exact hphase
  | connected inStop =>
      cases inStop with
      | false => exact hphase.elim
      | true => exact hphase
  | stoped inStop hstatus =>
      cases inStop with
      | false => exact hphase.elim
      | true => exact ⟨hphase, hw.stoped hstatus⟩
  | closed inStop =>
      cases inStop with
      | false => exact hphase.elim
      | true => exact hphase
  | joined inStop hended =>
      cases inStop with
      | false => exact hphase.elim
      | true => exact hphase
  | released inStop =>
      cases inStop with
      | false => exact hphase.elim
      | true =>
          show w.destoryed ≤ 1
          exact hphase.1.le

/-- The server thread moves, and the phase stays. -/
theorem PhaseOk.of_thread {w w' : Worker} {pc : OwnerPc} (hphase : PhaseOk w pc)
    (hcount : w'.destoryed = w.destoryed)
    (habsent : w.thread.isAbsent = true → w'.thread.isAbsent = true)
    (hleft : w.thread.left = true → w'.thread.left = true) : PhaseOk w' pc := by
  unfold PhaseOk at hphase ⊢
  rw [hcount]
  cases pc with
  | destory inStop pc =>
      cases inStop with
      | false =>
          cases pc with
          | enter | readStatus => exact ⟨hphase.1, habsent hphase.2⟩
          | _ => exact hphase.elim
      | true =>
          cases pc with
          | closeSocket | join | release => exact ⟨hphase.1, hleft hphase.2⟩
          | _ => exact hphase
  | _ => exact hphase

theorem phaseOk_step {jc : JsonC} {w w' : Worker} {a : WorkerAction} (hw : StatusOk w)
    (hfinds : FindsListening w a) (hphase : PhaseOk w w.owner)
    (hstep : workerStep jc w a = some w') : PhaseOk w' w'.owner := by
  cases a with
  | owner env => exact phaseOk_owner (ownerStep_move hstep) hw hfinds hphase
  | thread ready =>
      have hmove := threadStep_move hstep
      have hsame : w'.owner = w.owner ∧ w'.destoryed = w.destoryed ∧
          w.thread.isAbsent = false := by
        generalize w.thread = pc at hmove
        cases hmove <;> exact ⟨rfl, rfl, rfl⟩
      obtain ⟨howner, hcount, hpresent⟩ := hsame
      rw [howner]
      refine hphase.of_thread hcount ?_ (fun hleft => left_step hw hleft hstep)
      intro habsent
      rw [habsent] at hpresent
      exact absurd hpresent (by simp)

/-- What the phases say about the next thing the owner does. -/
theorem PhaseOk.shutdownOk {jc : JsonC} {w : Worker} (hw : StatusOk w)
    (hphase : PhaseOk w w.owner) : ShutdownOk jc w where
  joins := by
    intro inStop howner
    rw [howner] at hphase
    cases inStop with
    | false => exact hphase.elim
    | true => exact (ThreadPc.left_spec hphase.2).2
  left := by
    intro inStop howner
    apply leftForGood_of_left hw
    rcases howner with howner | howner
    all_goals
      rw [howner] at hphase
      cases inStop with
      | false => exact hphase.elim
      | true => exact hphase.2
  once := by
    generalize w.owner = pc at hphase
    unfold PhaseOk at hphase
    split at hphase
    all_goals first | exact hphase.elim | omega

/-- **The order of the shutdown**: in a run in which `server_destory` never
finds the status SERVER_INITED, the owner joins only a thread that was created,
closes the listening socket and joins only when the server thread has left its
loop for good, and destroys the context at most once. -/
theorem shutdown_ok_unless_inited {jc : JsonC} {atomicModesetEnable : Bool}
    {actions : List WorkerAction} {w : Worker}
    (hrun : run (workerStep jc) (.init atomicModesetEnable) actions = some w)
    (hfinds : Meets (workerStep jc) FindsListening (.init atomicModesetEnable) actions) :
    ShutdownOk jc w := by
  have hstep : ∀ w a w', (StatusOk w ∧ PhaseOk w w.owner) → FindsListening w a →
      workerStep jc w a = some w' → StatusOk w' ∧ PhaseOk w' w'.owner :=
    fun w a w' hw hfinds hstep =>
      ⟨statusOk_step hw.1 hstep, phaseOk_step hw.1 hfinds hw.2 hstep⟩
  have hinit : StatusOk (.init atomicModesetEnable) ∧
      PhaseOk (.init atomicModesetEnable) (Worker.init atomicModesetEnable).owner :=
    ⟨statusOk_init atomicModesetEnable, rfl⟩
  obtain ⟨hw, hphase⟩ := run_invariant hstep actions hinit hfinds hrun
  exact hphase.shutdownOk hw

/-- A shutdown up to pthread_join(). -/
theorem shutdown_after_get_ui_rect :
    ∃ w, run (workerStep jsonText) (.init true)
        (startAndRequest "get ui rect" ++ stopUntilWait ++ List.replicate 4 (.thread []) ++
          List.replicate 2 (.owner .stop)) = some w ∧
      w.owner = .destory true .join ∧ ShutdownOk jsonText w := by
  have hrun : (run (workerStep jsonText) (.init true)
      (startAndRequest "get ui rect" ++ stopUntilWait ++ List.replicate 4 (.thread []) ++
        List.replicate 2 (.owner .stop))).any
      (fun w => w.owner = .destory true .join) = true := by decide +kernel
  obtain ⟨w, hw, howner⟩ := (Option.any_eq_true _ _).mp hrun
  exact ⟨w, hw, of_decide_eq_true howner, shutdown_ok_unless_inited hw (by decide +kernel)⟩

/-- The two calls of pthread_create() fail. -/
def OwnerEnv.noThread : OwnerEnv := ⟨true, false, false, none⟩

/-- `start_help_worker` without a thread, up to pthread_join(). -/
def startWithoutThread : List WorkerAction :=
  [.owner .stop, .owner .noThread, .owner .stop, .owner .stop, .owner .stop]

/-- `start_help_worker` joins a thread that does not exist, `stop_help_worker`
then destroys the context again; and `stop_help_worker` closes the socket of a
thread that has not listened yet. -/
theorem shutdown_goes_wrong :
    (∃ w, run (workerStep jsonText) (.init true) startWithoutThread = some w ∧
      w.owner = .destory false .join ∧ w.thread.isAbsent = true) ∧
    (∃ w, run (workerStep jsonText) (.init true)
        (startWithoutThread ++ List.replicate 5 (.owner .stop)) = some w ∧
      w.destoryed = 2) ∧
    (∃ w, run (workerStep jsonText) (.init true) (List.replicate 6 (.owner .stop)) = some w ∧
      w.owner = .destory true .closeSocket ∧ ¬ LeftForGood jsonText w) := by
  refine ⟨⟨_, rfl, rfl, rfl⟩, ⟨_, rfl, rfl⟩, ⟨_, rfl, rfl, ?_⟩⟩
  intro hleft
  -- the thread has not started to listen, but it will
  exact absurd (hleft [.thread []] _ rfl) (by decide)

/-- Whenever `server_destory` finds the status SERVER_INITED, the owner goes on
to break the order of the shutdown. -/
theorem inited_goes_wrong {jc : JsonC} {atomicModesetEnable : Bool}
    {actions : List WorkerAction} {w : Worker} {inStop : Bool}
    (hrun : run (workerStep jc) (.init atomicModesetEnable) actions = some w)
    (howner : w.owner = .destory inStop .readStatus) (hstatus : w.status = .inited)
    (hfreed : w.freed = false) :
    ∃ n w', run (workerStep jc) (.init atomicModesetEnable)
        (actions ++ List.replicate n (.owner .stop)) = some w' ∧ ¬ ShutdownOk jc w' := by
  have hw := statusOk_run (statusOk_init atomicModesetEnable) hrun
  have hthread := hw.inited.mp hstatus
  obtain ⟨owner, thread, ctx, status, freed, mutex, helper, destoryed⟩ := w
  subst howner hstatus hfreed
  cases thread with
  | absent =>
      refine ⟨2, _, (run_append hrun).trans rfl, ?_⟩
      intro hok
      have hpresent : true = false := hok.joins inStop rfl
      exact absurd hpresent (by decide)
  | created =>
      refine ⟨1, _, (run_append hrun).trans rfl, ?_⟩
      intro hok
      have hgone : true = false := hok.left inStop (.inl rfl) [.thread []] _ rfl
      exact absurd hgone (by decide)
  | _ => exact absurd hthread (by simp [ThreadPc.hasListened])

end MesonDisplay.Helper
