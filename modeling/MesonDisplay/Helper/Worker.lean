/-
  MesonDisplay.Helper.Worker — the two threads of the helper.

  `start_help_worker` creates the IPC server and starts its thread;
  `stop_help_worker` takes the mutex and destroys the server.  They run on the
  thread of the compositor, the owner here.  The server thread waits for
  clients and hands their requests to `m_message_handle`, which takes the mutex
  for some of them.

  Both threads are programs with a program counter.  One step of one of them is
  one access to what they share: the status word of the server, the mutex, the
  state of the helper, the descriptor of the listening socket, and the thread
  itself.  Which thread takes the next step is open.  A request changes the
  state of the helper in one step; the mutex operations it makes follow one by
  one.  Which clients connect and when the connections are closed does not
  matter here, see `Ipc.Server`.

  Main results:
    * `ownerStep_move`, `threadStep_move` — what a step of a thread can do.
-/
import MesonDisplay.Helper.Message
import MesonDisplay.Ipc.Server
import MesonDisplay.Lib.Runs

namespace MesonDisplay.Helper

open MesonDisplay.Ipc (ServerStatus)
open MesonDisplay.Runs

/-! ## §1. The two programs. -/

/-- Where the owner is in `server_destory`. -/
inductive DestoryPc where
  /-- Before `if (ctx != NULL)`. -/
  | enter
  /-- Before `switch (ctx->status)`. -/
  | readStatus
  /-- Before `ctx->status = SERVER_GOINGTOSTOP`. -/
  | setStatus
  /-- Before `client_create`. -/
  | connect
  /-- At `while (ctx->status != SERVER_STOPED)`. -/
  | wait
  /-- Before `close(ctx->setup_sfd)`. -/
  | closeSocket
  /-- Before `pthread_join`. -/
  | join
  /-- Before `free(ctx)`. -/
  | release
  deriving DecidableEq, Repr

/-- Where the owner is. -/
inductive OwnerPc where
  /-- `start_help_worker`, before `server_create`. -/
  | create
  /-- `start_help_worker`, before `server_start`. -/
  | start
  /-- `server_destory`, called by `stop_help_worker` or by `start_help_worker`. -/
  | destory (inStop : Bool) (pc : DestoryPc)
  /-- Between `start_help_worker` and `stop_help_worker`. -/
  | idle
  /-- `stop_help_worker`, before pthread_mutex_lock(). -/
  | lock
  /-- `stop_help_worker`, before pthread_mutex_unlock(). -/
  | unlock
  | done
  deriving DecidableEq, Repr

inductive MutexOp where
  | lock
  | unlock
  deriving DecidableEq, Repr

/-- What is ready when select() returns. -/
inductive Ready where
  /-- The listening socket. -/
  | accept
  /-- A client, and the object `read_request` returns: an empty one if the
  client is gone. -/
  | client (env : MessageEnv) (dataIn : Json)

/-- Where the server thread is in `server_routine_start`. -/
inductive ThreadPc where
  /-- There is no thread. -/
  | absent
  /-- Before `ctx->status = SERVER_LISTENING`. -/
  | created
  /-- At `while (ctx->status == SERVER_LISTENING)`. -/
  | test
  /-- At select(). -/
  | select
  /-- In the loop over the descriptors: what is left of it, and the mutex
  operations left of the request that is being handled. -/
  | serve (ready : List Ready) (ops : List MutexOp)
  /-- Behind the loop. -/
  | leave
  /-- Before `return NULL`. -/
  | returning
  | finished

/-- Who holds the mutex. -/
inductive Holder where
  | owner
  | thread
  deriving DecidableEq, Repr

structure Worker where
  owner : OwnerPc
  thread : ThreadPc
  /-- `g_server_ctx` is not NULL. -/
  ctx : Bool
  status : ServerStatus
  /-- `free(ctx)` was called. -/
  freed : Bool
  mutex : Option Holder
  helper : HelperState
  /-- How often a context was given to `server_destory`. -/
  destoryed : Nat

/-- Before `start_help_worker`. -/
def Worker.init (atomicModesetEnable : Bool) : Worker where
  owner := .create
  thread := .absent
  ctx := false
  status := .inited
  freed := false
  mutex := none
  helper := .init atomicModesetEnable
  destoryed := 0

/-! ## §2. The owner. -/

/-- What the world answers the owner in one step. -/
structure OwnerEnv where
  /-- `server_create` succeeds. -/
  createOk : Bool
  /-- The first pthread_create() succeeds. -/
  firstOk : Bool
  /-- The second one does, if it is tried. -/
  secondOk : Bool
  /-- The next call of the compositor; without one it stops the worker. -/
  call : Option HelperCall

/-- The call takes the mutex. -/
def HelperCall.takesMutex (s : HelperState) : HelperCall → Bool
  | .appendConnector .. => true
  | .updateConnector .. => true
  | .deleteConnector connector => connector.isSome
  | .atomicReqAddProp .. => true
  | .setSwitchModeFunction .. => true
  | .setForceRefreshFunction .. => true
  | .setPrintinfoFunction .. => false
  | .updateUiLogicSizeInfo .. => false
  | .updateDisplayModeInfo .. => false
  | .doRepaintCycleCompleted => haveTask s.taskAfterRepaintCycle
  | .updataCompositorOutput _ older newer => older ≠ newer
  | .switchCompositorOutput output _ => output.isSome
  | .message .. => false

/-- Requests come from the server thread only. -/
def HelperCall.isMessage : HelperCall → Bool
  | .message .. => true
  | _ => false

/-- The effects of earlier calls are not kept. -/
def HelperState.quiet (s : HelperState) : HelperState := { s with effects := [] }

/-- Behind the call of `server_destory`. -/
def Worker.returned (w : Worker) (inStop : Bool) : Worker :=
  { w with owner := if inStop then .unlock else .idle }

/-- Where `switch (ctx->status)` goes. -/
def destorySwitch : ServerStatus → DestoryPc
  | .inited => .closeSocket
  | .listening => .setStatus
  | .goingToStop => .wait
  | .stoped => .closeSocket

def ThreadPc.isAbsent : ThreadPc → Bool
  | .absent => true
  | _ => false

def ThreadPc.isFinished : ThreadPc → Bool
  | .finished => true
  | _ => false

/-- `server_destory`.  pthread_join() waits for a thread, and fails if there is
none; a context that is read after it was freed has no meaning. -/
def destoryStep (w : Worker) (inStop : Bool) : DestoryPc → Option Worker
  | .enter =>
      if w.ctx then
        some { w with owner := .destory inStop .readStatus, destoryed := w.destoryed + 1 }
      else some (w.returned inStop)
  | .readStatus =>
      if w.freed then none
      else some { w with owner := .destory inStop (destorySwitch w.status) }
  | .setStatus =>
      some { w with owner := .destory inStop .connect, status := .goingToStop }
  | .connect => some { w with owner := .destory inStop .wait }
  | .wait =>
      if w.status = .stoped then some { w with owner := .destory inStop .closeSocket }
      else none
  | .closeSocket => some { w with owner := .destory inStop .join }
  | .join =>
      if w.thread.isAbsent ∨ w.thread.isFinished then
        some { w with owner := .destory inStop .release }
      else none
  | .release => some ({ w with freed := true }.returned inStop)

/-- `start_help_worker`, the calls of the compositor, and `stop_help_worker`:
one step of the owner from a place of its program. -/
def ownerStep (jc : JsonC) (env : OwnerEnv) (w : Worker) : OwnerPc → Option Worker
  | .create =>
      if env.createOk then some { w with owner := .start, ctx := true, status := .inited }
      else some { w with owner := .idle }
  | .start =>
      if env.firstOk ∨ env.secondOk then some { w with owner := .idle, thread := .created }
      else some { w with owner := .destory false .enter }
  | .destory inStop pc => destoryStep w inStop pc
  | .idle =>
      match env.call with
      | none => some { w with owner := .lock }
      | some call =>
          if call.isMessage ∨ (call.takesMutex w.helper ∧ w.mutex ≠ none) then none
          else
            match call.run jc w.helper with
            | .error _ => none
            | .ok s => some { w with helper := s.quiet }
  | .lock =>
      if w.mutex = none then
        some { w with owner := .destory true .enter, mutex := some .owner }
      else none
  | .unlock => some { w with owner := .done, mutex := none }
  | .done => none

/-! ## §3. The server thread. -/

/-- The operations on the mutex among the effects. -/
def mutexOps (effects : List Effect) : List MutexOp :=
  effects.filterMap fun
    | .lock => some .lock
    | .unlock => some .unlock
    | _ => none

/-- What the loop does with one descriptor.  A fault ends the process. -/
def serveStep (jc : JsonC) (w : Worker) (rest : List Ready) : Ready → Option Worker
  | .accept => some { w with thread := .serve rest [] }
  | .client env dataIn =>
      match dataIn.objectLength with
      | none => none
      | some n =>
          if 0 < n then
            match mMessageHandle jc env w.helper.quiet dataIn with
            | .error _ => none
            | .ok (s, _) =>
                some { w with thread := .serve rest (mutexOps s.effects), helper := s.quiet }
          else some { w with thread := .serve rest [] }

/-- `server_routine_start`: one step of the server thread from a place of its
program.  If select() fails nothing is `ready`. -/
def threadStep (jc : JsonC) (ready : List Ready) (w : Worker) : ThreadPc → Option Worker
  | .absent => none
  | .created => some { w with thread := .test, status := .listening }
  | .test =>
      if w.status = .listening then some { w with thread := .select }
      else some { w with thread := .leave }
  | .select => some { w with thread := .serve ready [] }
  | .serve rest (.lock :: ops) =>
      if w.mutex = none then
        some { w with thread := .serve rest ops, mutex := some .thread }
      else none
  | .serve rest (.unlock :: ops) => some { w with thread := .serve rest ops, mutex := none }
  | .serve (r :: rest) [] => serveStep jc w rest r
  | .serve [] [] => some { w with thread := .test }
  | .leave =>
      if w.status = .goingToStop then some { w with thread := .returning, status := .stoped }
      else some { w with thread := .returning }
  | .returning => some { w with thread := .finished }
  | .finished => none

/-! ## §4. Both. -/

/-- A step of one of the threads. -/
inductive WorkerAction where
  | owner (env : OwnerEnv)
  | thread (ready : List Ready)

def workerStep (jc : JsonC) (w : Worker) : WorkerAction → Option Worker
  | .owner env => ownerStep jc env w w.owner
  | .thread ready => threadStep jc ready w w.thread

/-! ## §5. What a step can do. -/

/-- The moves of the owner at a place of its program. -/
inductive OwnerMove (w : Worker) : OwnerPc → Worker → Prop where
  | created : OwnerMove w .create { w with owner := .start, ctx := true, status := .inited }
  | notCreated : OwnerMove w .create { w with owner := .idle }
  | started : OwnerMove w .start { w with owner := .idle, thread := .created }
  | notStarted : OwnerMove w .start { w with owner := .destory false .enter }
  | called (s : HelperState) : OwnerMove w .idle { w with helper := s }
  | stop : OwnerMove w .idle { w with owner := .lock }
  | locked (hfree : w.mutex = none) :
      OwnerMove w .lock { w with owner := .destory true .enter, mutex := some .owner }
  | unlocked : OwnerMove w .unlock { w with owner := .done, mutex := none }
  | null (inStop : Bool) (hctx : w.ctx = false) :
      OwnerMove w (.destory inStop .enter) (w.returned inStop)
  | entered (inStop : Bool) (hctx : w.ctx = true) :
      OwnerMove w (.destory inStop .enter)
        { w with owner := .destory inStop .readStatus, destoryed := w.destoryed + 1 }
  | read (inStop : Bool) (hfreed : w.freed = false) :
      OwnerMove w (.destory inStop .readStatus)
        { w with owner := .destory inStop (destorySwitch w.status) }
  | goingToStop (inStop : Bool) :
      OwnerMove w (.destory inStop .setStatus)
        { w with owner := .destory inStop .connect, status := .goingToStop }
  | connected (inStop : Bool) :
      OwnerMove w (.destory inStop .connect) { w with owner := .destory inStop .wait }
  | stoped (inStop : Bool) (hstatus : w.status = .stoped) :
      OwnerMove w (.destory inStop .wait) { w with owner := .destory inStop .closeSocket }
  | closed (inStop : Bool) :
      OwnerMove w (.destory inStop .closeSocket) { w with owner := .destory inStop .join }
  | joined (inStop : Bool) (hended : w.thread.isAbsent = true ∨ w.thread.isFinished = true) :
      OwnerMove w (.destory inStop .join) { w with owner := .destory inStop .release }
  | released (inStop : Bool) :
      OwnerMove w (.destory inStop .release) ({ w with freed := true }.returned inStop)

theorem destoryStep_move {w w' : Worker} {inStop : Bool} {pc : DestoryPc}
    (hstep : destoryStep w inStop pc = some w') : OwnerMove w (.destory inStop pc) w' := by
  cases pc with
  | enter =>
      unfold destoryStep at hstep
      by_cases hctx : w.ctx = true
      · rw [if_pos hctx] at hstep
        obtain rfl := Option.some.inj hstep
        exact .entered inStop hctx
      · rw [if_neg hctx] at hstep
        obtain rfl := Option.some.inj hstep
        exact .null inStop (by simpa using hctx)
  -- the context must not be freed when its status is read
  | readStatus =>
      unfold destoryStep at hstep
      by_cases hfreed : w.freed = true
      · rw [if_pos hfreed] at hstep
        exact absurd hstep (by simp)
      · rw [if_neg hfreed] at hstep
        obtain rfl := Option.some.inj hstep
        exact .read inStop (by simpa using hfreed)
  | setStatus =>
      obtain rfl := Option.some.inj hstep
      exact .goingToStop inStop
  | connect =>
      obtain rfl := Option.some.inj hstep
      exact .connected inStop
  -- the two waits of the owner are the steps that may be blocked
  | wait =>
      unfold destoryStep at hstep
      by_cases hstatus : w.status = .stoped
      · rw [if_pos hstatus] at hstep
        obtain rfl := Option.some.inj hstep
        exact .stoped inStop hstatus
      · rw [if_neg hstatus] at hstep
        exact absurd hstep (by simp)
  | closeSocket =>
      obtain rfl := Option.some.inj hstep
      exact .closed inStop
  | join =>
      unfold destoryStep at hstep
      by_cases hended : w.thread.isAbsent = true ∨ w.thread.isFinished = true
      · rw [if_pos hended] at hstep
        obtain rfl := Option.some.inj hstep
        exact .joined inStop hended
      · rw [if_neg hended] at hstep
        exact absurd hstep (by simp)
  | release =>
      obtain rfl := Option.some.inj hstep
      exact .released inStop

theorem ownerStep_move {jc : JsonC} {env : OwnerEnv} {w w' : Worker} {pc : OwnerPc}
    (hstep : ownerStep jc env w pc = some w') : OwnerMove w pc w' := by
  unfold ownerStep at hstep
  cases pc with
  | create =>
      by_cases hok : env.createOk = true
      · simp only [if_pos hok] at hstep
        obtain rfl := Option.some.inj hstep
        exact .created
      · simp only [if_neg hok] at hstep
        obtain rfl := Option.some.inj hstep
        exact .notCreated
  | start =>
      by_cases hok : env.firstOk = true ∨ env.secondOk = true
      · simp only [if_pos hok] at hstep
        obtain rfl := Option.some.inj hstep
        exact .started
      · simp only [if_neg hok] at hstep
        obtain rfl := Option.some.inj hstep
        exact .notStarted
  | destory inStop pc => exact destoryStep_move hstep
  | idle =>
      cases hcall : env.call with
      | none =>
          simp only [hcall] at hstep
          obtain rfl := Option.some.inj hstep
          exact .stop
      | some call =>
          simp only [hcall] at hstep
          -- a call that takes the mutex waits for it
          by_cases hblocked : call.isMessage = true ∨
              (call.takesMutex w.helper = true ∧ w.mutex ≠ none)
          · rw [if_pos hblocked] at hstep
            exact absurd hstep (by simp)
          · rw [if_neg hblocked] at hstep
            cases hrun : call.run jc w.helper with
            | error f =>
                rw [hrun] at hstep
                exact absurd hstep (by simp)
            | ok s =>
                rw [hrun] at hstep
                obtain rfl := Option.some.inj hstep
                exact .called s.quiet
  | lock =>
      by_cases hfree : w.mutex = none
      · simp only [if_pos hfree] at hstep
        obtain rfl := Option.some.inj hstep
        exact .locked hfree
      · simp only [if_neg hfree] at hstep
        exact absurd hstep (by simp)
  | unlock =>
      obtain rfl := Option.some.inj hstep
      exact .unlocked
  | done => exact absurd hstep (by simp)

/-- The moves of the server thread at a place of its program. -/
inductive ThreadMove (jc : JsonC) (w : Worker) : ThreadPc → Worker → Prop where
  | listen : ThreadMove jc w .created { w with thread := .test, status := .listening }
  | again (hstatus : w.status = .listening) :
      ThreadMove jc w .test { w with thread := .select }
  | leave (hstatus : w.status ≠ .listening) :
      ThreadMove jc w .test { w with thread := .leave }
  | selected (ready : List Ready) :
      ThreadMove jc w .select { w with thread := .serve ready [] }
  | locked (rest : List Ready) (ops : List MutexOp) (hfree : w.mutex = none) :
      ThreadMove jc w (.serve rest (.lock :: ops))
        { w with thread := .serve rest ops, mutex := some .thread }
  | unlocked (rest : List Ready) (ops : List MutexOp) :
      ThreadMove jc w (.serve rest (.unlock :: ops))
        { w with thread := .serve rest ops, mutex := none }
  | skipped (r : Ready) (rest : List Ready) :
      ThreadMove jc w (.serve (r :: rest) []) { w with thread := .serve rest [] }
  | handled (env : MessageEnv) (dataIn : Json) (rest : List Ready) (s : HelperState)
      (out : Json) (hrun : mMessageHandle jc env w.helper.quiet dataIn = .ok (s, out)) :
      ThreadMove jc w (.serve (.client env dataIn :: rest) [])
        { w with thread := .serve rest (mutexOps s.effects), helper := s.quiet }
  | round : ThreadMove jc w (.serve [] []) { w with thread := .test }
  | stoped (hstatus : w.status = .goingToStop) :
      ThreadMove jc w .leave { w with thread := .returning, status := .stoped }
  | notStoped (hstatus : w.status ≠ .goingToStop) :
      ThreadMove jc w .leave { w with thread := .returning }
  | returned : ThreadMove jc w .returning { w with thread := .finished }

theorem serveStep_move {jc : JsonC} {w w' : Worker} {rest : List Ready} {r : Ready}
    (hstep : serveStep jc w rest r = some w') : ThreadMove jc w (.serve (r :: rest) []) w' := by
  cases r with
  | accept =>
      obtain rfl := Option.some.inj hstep
      exact .skipped .accept rest
  | client env dataIn =>
      unfold serveStep at hstep
      cases hlength : dataIn.objectLength with
      | none =>
          simp only [hlength] at hstep
          exact absurd hstep (by simp)
      | some n =>
          simp only [hlength] at hstep
          -- an empty object is not handed on
          by_cases hn : 0 < n
          · rw [if_pos hn] at hstep
            cases hrun : mMessageHandle jc env w.helper.quiet dataIn with
            | error f =>
                rw [hrun] at hstep
                exact absurd hstep (by simp)
            | ok q =>
                obtain ⟨s, out⟩ := q
                rw [hrun] at hstep
                obtain rfl := Option.some.inj hstep
                exact .handled env dataIn rest s out hrun
          · rw [if_neg hn] at hstep
            obtain rfl := Option.some.inj hstep
            exact .skipped (.client env dataIn) rest

theorem threadStep_move {jc : JsonC} {ready : List Ready} {w w' : Worker} {pc : ThreadPc}
    (hstep : threadStep jc ready w pc = some w') : ThreadMove jc w pc w' := by
  unfold threadStep at hstep
  cases pc with
  | absent => exact absurd hstep (by simp)
  | created =>
      obtain rfl := Option.some.inj hstep
      exact .listen
  -- the loop test reads the status the owner writes
  | test =>
      by_cases hstatus : w.status = .listening
      · simp only [if_pos hstatus] at hstep
        obtain rfl := Option.some.inj hstep
        exact .again hstatus
      · simp only [if_neg hstatus] at hstep
        obtain rfl := Option.some.inj hstep
        exact .leave hstatus
  | select =>
      obtain rfl := Option.some.inj hstep
      exact .selected ready
  | serve rest ops =>
      cases ops with
      | nil =>
          cases rest with
          | nil =>
              obtain rfl := Option.some.inj hstep
              exact .round
          | cons r rest => exact serveStep_move hstep
      | cons op ops =>
          cases op with
          -- a lock is a step only while the mutex is free
          | lock =>
              by_cases hfree : w.mutex = none
              · simp only [if_pos hfree] at hstep
                obtain rfl := Option.some.inj hstep
                exact .locked rest ops hfree
              · simp only [if_neg hfree] at hstep
                exact absurd hstep (by simp)
          | unlock =>
              obtain rfl := Option.some.inj hstep
              exact .unlocked rest ops
  -- behind the loop the status is set only for an owner that waits
  | leave =>
      by_cases hstatus : w.status = .goingToStop
      · simp only [if_pos hstatus] at hstep
        obtain rfl := Option.some.inj hstep
        exact .stoped hstatus
      · simp only [if_neg hstatus] at hstep
        obtain rfl := Option.some.inj hstep
        exact .notStoped hstatus
  | returning =>
      obtain rfl := Option.some.inj hstep
      exact .returned
  | finished => exact absurd hstep (by simp)

end MesonDisplay.Helper
