/-
  MesonDisplay.Client.Disconnect — a client that closes its connection.

  The server reads a request, hands it to `m_message_handle` and writes the
  reply.  The client may close the connection between any two of these steps.
  A write on a connection that the other side closed raises SIGPIPE, and
  nothing blocks or ignores this signal: the process of the server ends.

  `server_routine_start` drops a reply if `fd_closed` is set.  But this is
  decided by the read that delivers the request, and a read that delivers a
  request has returned bytes.

  The connection is a stream of bytes from the client to the server.  A read
  may fail at any time; other threads, and requests on other connections,
  change the state of the helper.

  Main results:
    * `handed_eq` — what is handed to `m_message_handle` is what the server
      loop of `Ipc.Connection` hands on.
    * `not_killed_iff` — the runs in which the server survives.
-/
import MesonDisplay.Client.Answered
import MesonDisplay.Helper.Worker

namespace MesonDisplay.Client

open MesonDisplay.Framing
open MesonDisplay.Helper
open MesonDisplay.Ipc
open MesonDisplay.Runs
open MesonDisplay.Json (jsonText)

/-! ## §1. The connection. -/

/-- Where the server is with the connection. -/
inductive LinkPc where
  /-- Waiting for bytes: in `read_request` with some in its buffer, or in
  select() with none. -/
  | reading (got : List Char)
  /-- Before `ctx->msg_handle(data_in, &data_out)`. -/
  | handle (dataIn : Json) (fdClosed : Bool)
  /-- Before `send_request(i, data_out)`. -/
  | reply (dataOut : Json)
  /-- `close(i)` was called. -/
  | closed
  /-- json-c failed an assertion. -/
  | aborted
  /-- The process was terminated by SIGPIPE. -/
  | killed
  deriving DecidableEq

structure LinkState where
  helper : HelperState
  /-- The bytes that were sent and not read yet. -/
  unread : List Char
  /-- The client closed the connection. -/
  peerClosed : Bool
  pc : LinkPc
  /-- What the reads returned so far. -/
  reads : List (Read Char)
  /-- What was done with requests so far. -/
  events : List ConnEvent

/-- The connection was accepted. -/
def LinkState.start (s : HelperState) : LinkState where
  helper := s
  unread := []
  peerClosed := false
  pc := .reading []
  reads := []
  events := []

inductive LinkAction where
  /-- The client writes some bytes. -/
  | send (bytes : List Char)
  /-- The client closes the connection, or ends. -/
  | close
  /-- read() returns to the server. -/
  | read (r : Read Char)
  /-- The server calls `msg_handle`. -/
  | handle (env : MessageEnv)
  /-- The server calls `send_request`. -/
  | reply
  /-- The state of the helper is changed from somewhere else. -/
  | other (call : HelperCall)

/-- What a read can return: some of the unread bytes, as many as fit into the
block, the end of the stream if there are none and the client is gone, or an
error. -/
def LinkState.canRead (rcvbuf : Nat) (d : LinkState) (got : List Char) : Read Char → Prop
  | .bytes c =>
      c ≠ [] ∧ got.length < capacity rcvbuf ∧ c.length ≤ room rcvbuf got.length ∧ c <+: d.unread
  | .eof => d.peerClosed = true ∧ d.unread = []
  | .error => True

instance (rcvbuf : Nat) (d : LinkState) (got : List Char) (r : Read Char) :
    Decidable (d.canRead rcvbuf got r) := by
  cases r <;> unfold LinkState.canRead <;> infer_instance

/-- `read_request` returned: the connection is closed if the result says so,
and an object with members goes to `msg_handle`. -/
def requestRead (ret : Int) (dataIn : Json) : LinkPc :=
  let fdClosed := decide (ret ≤ 0)
  match dataIn.objectLength with
  | none => .aborted
  | some 0 => if fdClosed then .closed else .reading []
  | some (_ + 1) => .handle dataIn fdClosed

/-- A read, with `got` in the buffer. -/
def readPc (jc : JsonC) (rcvbuf : Nat) (got : List Char) : Read Char → LinkPc
  | .eof => requestRead 0 .newObject
  | .error => requestRead (-1) .newObject
  | .bytes c =>
      match jc.parse (got ++ c) with
      | some dataIn => requestRead c.length dataIn
      | none =>
          if (got ++ c).length < capacity rcvbuf then .reading (got ++ c)
          else requestRead (-1) .newObject

/-- Where a read leads to, if it is possible. -/
def LinkState.afterRead (jc : JsonC) (rcvbuf : Nat) (d : LinkState) (r : Read Char) :
    Option LinkPc :=
  match d.pc with
  | .reading got => if d.canRead rcvbuf got r then some (readPc jc rcvbuf got r) else none
  | _ => none

/-- How many of the unread bytes a read takes. -/
def readLength : Read Char → Nat
  | .bytes c => c.length
  | _ => 0

/-- Behind `msg_handle`. -/
def LinkState.handled (d : LinkState) (s : HelperState) (dataIn dataOut : Json)
    (fdClosed : Bool) : LinkState :=
  let d := { d with helper := s, events := d.events ++ [ConnEvent.handle dataIn] }
  if dataOut.isNull then { d with pc := if fdClosed then .closed else .reading [] }
  else if fdClosed then { d with pc := .closed, events := d.events ++ [ConnEvent.noReceiver dataOut] }
  else { d with pc := .reply dataOut }

/-- The server is inside the handling of a request of this connection. -/
def LinkPc.busy : LinkPc → Bool
  | .reading got => !got.isEmpty
  | .handle _ _ => true
  | .reply _ => true
  | _ => false

/-- `none` if the action is not possible now. -/
def linkStep (jc : JsonC) (rcvbuf : Nat) (d : LinkState) : LinkAction → Option LinkState
  | .send bytes => if d.peerClosed then none else some { d with unread := d.unread ++ bytes }
  | .close => if d.peerClosed then none else some { d with peerClosed := true }
  | .read r =>
      match d.afterRead jc rcvbuf r with
      | none => none
      | some pc =>
          some { d with
            unread := d.unread.drop (readLength r), pc := pc, reads := d.reads ++ [r] }
  | .handle env =>
      match d.pc with
      | .handle dataIn fdClosed =>
          match mMessageHandle jc env d.helper dataIn with
          | .error _ => none
          | .ok (s, dataOut) => some (d.handled s dataIn dataOut fdClosed)
      | _ => none
  | .reply =>
      match d.pc with
      | .reply dataOut =>
          let d := { d with events := d.events ++ [ConnEvent.reply dataOut] }
          if d.peerClosed then some { d with pc := .killed }
          else some { d with pc := .reading [] }
      | _ => none
  | .other call =>
      -- the thread that serves this connection serves the others, too
      if call.isMessage ∧ d.pc.busy then none
      else
        match call.run jc d.helper with
        | .error _ => none
        | .ok s => some { d with helper := s }

section Inversion

variable {jc : JsonC} {rcvbuf : Nat} {d d' : LinkState}

/-! What each step does.  The proofs below take the steps apart with these. -/

theorem linkStep_send {bytes : List Char} (hstep : linkStep jc rcvbuf d (.send bytes) = some d') :
    d.peerClosed = false ∧ d' = { d with unread := d.unread ++ bytes } := by
  simp only [linkStep] at hstep
  split_ifs at hstep with hclosed
  exact ⟨by simpa using hclosed, (Option.some.inj hstep).symm⟩

theorem linkStep_close (hstep : linkStep jc rcvbuf d .close = some d') :
    d.peerClosed = false ∧ d' = { d with peerClosed := true } := by
  simp only [linkStep] at hstep
  split_ifs at hstep with hclosed
  exact ⟨by simpa using hclosed, (Option.some.inj hstep).symm⟩

theorem linkStep_read {r : Read Char} (hstep : linkStep jc rcvbuf d (.read r) = some d') :
    ∃ pc, d.afterRead jc rcvbuf r = some pc ∧
      d' = { d with
        unread := d.unread.drop (readLength r), pc := pc, reads := d.reads ++ [r] } := by
  simp only [linkStep] at hstep
  split at hstep
  · exact absurd hstep (by simp)
  · rename_i pc hread
    exact ⟨pc, hread, (Option.some.inj hstep).symm⟩

theorem linkStep_handle {env : MessageEnv} (hstep : linkStep jc rcvbuf d (.handle env) = some d') :
    ∃ dataIn fdClosed s dataOut, d.pc = .handle dataIn fdClosed ∧
      mMessageHandle jc env d.helper dataIn = .ok (s, dataOut) ∧
      d' = d.handled s dataIn dataOut fdClosed := by
  simp only [linkStep] at hstep
  split at hstep
  · rename_i dataIn fdClosed hpc
    split at hstep
    · exact absurd hstep (by simp)
    · rename_i s dataOut hrun
      exact ⟨dataIn, fdClosed, s, dataOut, hpc, hrun, (Option.some.inj hstep).symm⟩
  · exact absurd hstep (by simp)

theorem linkStep_reply (hstep : linkStep jc rcvbuf d .reply = some d') :
    ∃ dataOut, d.pc = .reply dataOut ∧
      d' = { d with
        events := d.events ++ [ConnEvent.reply dataOut]
        pc := if d.peerClosed then .killed else .reading [] } := by
  simp only [linkStep] at hstep
  split at hstep
  · rename_i dataOut hpc
    refine ⟨dataOut, hpc, ?_⟩
    split_ifs at hstep ⊢ with hclosed
    · exact (Option.some.inj hstep).symm
    · exact (Option.some.inj hstep).symm
  · exact absurd hstep (by simp)

theorem linkStep_other {call : HelperCall} (hstep : linkStep jc rcvbuf d (.other call) = some d') :
    ∃ s, call.run jc d.helper = .ok s ∧ d' = { d with helper := s } := by
  simp only [linkStep] at hstep
  split_ifs at hstep with hmessage
  split at hstep
  · exact absurd hstep (by simp)
  · rename_i s hrun
    exact ⟨s, hrun, (Option.some.inj hstep).symm⟩

end Inversion

/-! ## §2. The requests. -/

/-- What the reader of the stream has in its buffer, while it goes on. -/
def LinkPc.buffer : LinkPc → Option (List Char)
  | .reading got => some got
  | .handle _ false => some []
  | .reply _ => some []
  | _ => none

/-- The request that was read and is not handed on yet. -/
def LinkPc.inHand : LinkPc → List Json
  | .handle dataIn _ => [dataIn]
  | _ => []

/-- The reads are reads that a kernel may make, and the requests are the ones
that they collect. -/
structure LinkTrace (jc : JsonC) (rcvbuf : Nat) (d : LinkState) : Prop where
  readable : Readable jc rcvbuf d.reads
  buffer : ∀ got, d.pc.buffer = some got →
    pending jc.parse (capacity rcvbuf) [] d.reads = some got ∧
      ∀ v ∈ delivered jc.parse (capacity rcvbuf) [] d.reads, v.isObject = true
  requests : Ipc.handled d.events ++ d.pc.inHand
    = ((delivered jc.parse (capacity rcvbuf) [] d.reads).takeWhile Json.isObject).filter isNonEmpty

section Requests

variable {jc : JsonC} {rcvbuf : Nat} {d d' : LinkState}

/-- The trace depends on the reads, the events and the place of the server. -/
theorem LinkTrace.of_same (hd : LinkTrace jc rcvbuf d) (hreads : d'.reads = d.reads)
    (hevents : Ipc.handled d'.events ++ d'.pc.inHand = Ipc.handled d.events ++ d.pc.inHand)
    (hbuffer : ∀ got, d'.pc.buffer = some got → d.pc.buffer = some got) :
    LinkTrace jc rcvbuf d' where
  readable := hreads ▸ hd.readable
  buffer := fun got hgot => hreads ▸ hd.buffer got (hbuffer got hgot)
  requests := by rw [hevents, hreads, hd.requests]

/-- An object that `read_request` returns, behind at least one byte. -/
theorem requestRead_spec {n : Nat} (hn : 0 < n) (v : Json) :
    (requestRead n v).inHand = ([v].takeWhile Json.isObject).filter isNonEmpty ∧
    ∀ g, (requestRead n v).buffer = some g → g = [] ∧ v.isObject = true := by
  have hopen : decide ((n : Int) ≤ 0) = false := by simpa using Nat.ne_of_gt hn
  unfold requestRead
  simp only [hopen]
  cases v with
  | object fs =>
      cases fs with
      | nil => exact ⟨rfl, fun g hg => ⟨(Option.some.inj hg).symm, rfl⟩⟩
      | cons f fs => exact ⟨rfl, fun g hg => ⟨(Option.some.inj hg).symm, rfl⟩⟩
  | _ => exact ⟨rfl, fun g hg => absurd hg (by simp [Json.objectLength, LinkPc.buffer])⟩

/-- A read does what the reader of the stream does. -/
theorem readPc_spec (jc : JsonC) (rcvbuf : Nat) (got : List Char) {r : Read Char}
    (hr : ∀ c, r = .bytes c → c ≠ []) :
    (readPc jc rcvbuf got r).inHand
      = ((delivered jc.parse (capacity rcvbuf) got [r]).takeWhile Json.isObject).filter
          isNonEmpty ∧
    ∀ g, (readPc jc rcvbuf got r).buffer = some g →
      pending jc.parse (capacity rcvbuf) got [r] = some g ∧
        ∀ v ∈ delivered jc.parse (capacity rcvbuf) got [r], v.isObject = true := by
  have hclosed : ∀ g, LinkPc.closed.buffer ≠ some g := fun g h => absurd h (by simp [LinkPc.buffer])
  cases r with
  | eof => exact ⟨rfl, fun g hg => absurd hg (hclosed g)⟩
  | error => exact ⟨rfl, fun g hg => absurd hg (hclosed g)⟩
  | bytes c =>
      cases hp : jc.parse (got ++ c) with
      | some v =>
          have hread : readPc jc rcvbuf got (.bytes c) = requestRead c.length v := by
            simp only [readPc, hp]
          obtain ⟨hhand, hbuffer⟩ :=
            requestRead_spec (List.length_pos_iff.mpr (hr c rfl)) v
          rw [hread, delivered_complete hp, pending_complete hp]
          refine ⟨hhand, ?_⟩
          intro g hg
          obtain ⟨rfl, hv⟩ := hbuffer g hg
          exact ⟨rfl, fun w hw => by rwa [List.mem_singleton.mp hw]⟩
      | none =>
          rw [delivered_incomplete hp, pending_incomplete hp]
          simp only [readPc, hp]
          by_cases hlt : (got ++ c).length < capacity rcvbuf
          · simp only [if_pos hlt]
            exact ⟨rfl, fun g hg => ⟨hg, fun w hw => absurd hw List.not_mem_nil⟩⟩
          · simp only [if_neg hlt]
            exact ⟨rfl, fun g hg => absurd hg (hclosed g)⟩

/-- A read that is possible keeps the trace. -/
theorem linkTrace_read (hd : LinkTrace jc rcvbuf d) {r : Read Char} {pc : LinkPc}
    (hread : d.afterRead jc rcvbuf r = some pc) :
    LinkTrace jc rcvbuf { d with
      unread := d.unread.drop (readLength r), pc := pc, reads := d.reads ++ [r] } := by
  unfold LinkState.afterRead at hread
  cases hpc : d.pc with
  | reading got =>
      simp only [hpc] at hread
      split_ifs at hread with hcan
      obtain rfl := Option.some.inj hread
      have hbytes : ∀ c, r = .bytes c → c ≠ [] := by
        intro c hc
        subst hc
        exact hcan.1
      obtain ⟨hhand, hnext⟩ := readPc_spec jc rcvbuf got hbytes
      obtain ⟨hpending, hobjects⟩ := hd.buffer got (by rw [hpc]; rfl)
      -- a read delivers what it completes, behind what was delivered before
      have hdelivered : delivered jc.parse (capacity rcvbuf) [] (d.reads ++ [r])
          = delivered jc.parse (capacity rcvbuf) [] d.reads
            ++ delivered jc.parse (capacity rcvbuf) got [r] := by
        rw [delivered_append, hpending]
      refine ⟨?_, ?_, ?_⟩
      · refine fits_append [r] d.reads [] hd.readable ?_
        intro g hg
        obtain rfl := Option.some.inj (hpending.symm.trans hg)
        cases r with
        | eof => trivial
        | error => trivial
        | bytes c =>
            refine ⟨⟨hcan.1, hcan.2.2.1⟩, ?_⟩
            split
            · trivial
            · exact fun _ => trivial
      · intro g hg
        obtain ⟨hpending', hobjects'⟩ := hnext g hg
        rw [pending_append [r] d.reads [] got hpending, hdelivered]
        refine ⟨hpending', ?_⟩
        intro v hv
        rcases List.mem_append.mp hv with hv | hv
        · exact hobjects v hv
        · exact hobjects' v hv
      · -- all that was delivered before is an object
        have hrequests := hd.requests
        rw [hpc, List.takeWhile_eq_self_iff.mpr hobjects] at hrequests
        have hhandled : Ipc.handled d.events
            = (delivered jc.parse (capacity rcvbuf) [] d.reads).filter isNonEmpty := by
          simpa [LinkPc.inHand] using hrequests
        rw [hdelivered, List.takeWhile_append_of_pos hobjects, List.filter_append, ← hhand]
        exact congrArg (· ++ _) hhandled
  | _ =>
      simp only [hpc] at hread
      exact absurd hread (by simp)

/-- Handing on the request keeps the trace. -/
theorem linkTrace_handled (hd : LinkTrace jc rcvbuf d) {dataIn : Json} {fdClosed : Bool}
    (hpc : d.pc = .handle dataIn fdClosed) (s : HelperState) (dataOut : Json) :
    LinkTrace jc rcvbuf (d.handled s dataIn dataOut fdClosed) := by
  refine hd.of_same ?_ ?_ ?_
  · unfold LinkState.handled
    split_ifs <;> rfl
  · rw [hpc]
    unfold LinkState.handled
    split_ifs <;> simp [LinkPc.inHand, Ipc.handled]
  · rw [hpc]
    unfold LinkState.handled
    intro got
    cases fdClosed <;> by_cases hnull : dataOut.isNull = true <;> simp [hnull, LinkPc.buffer]

theorem linkTrace_step (hd : LinkTrace jc rcvbuf d) (a : LinkAction)
    (hstep : linkStep jc rcvbuf d a = some d') : LinkTrace jc rcvbuf d' := by
  cases a with
  | send bytes =>
      obtain ⟨-, rfl⟩ := linkStep_send hstep
      exact hd.of_same rfl rfl (fun _ h => h)
  | close =>
      obtain ⟨-, rfl⟩ := linkStep_close hstep
      exact hd.of_same rfl rfl (fun _ h => h)
  | read r =>
      obtain ⟨pc, hread, rfl⟩ := linkStep_read hstep
      exact linkTrace_read hd hread
  | handle env =>
      obtain ⟨dataIn, fdClosed, s, dataOut, hpc, -, rfl⟩ := linkStep_handle hstep
      exact linkTrace_handled hd hpc s dataOut
  | reply =>
      obtain ⟨dataOut, hpc, rfl⟩ := linkStep_reply hstep
      refine hd.of_same rfl ?_ ?_
      · cases d.peerClosed <;> simp [hpc, LinkPc.inHand, Ipc.handled]
      · -- a server that was terminated has no buffer
        rw [hpc]
        cases d.peerClosed <;> simp [LinkPc.buffer]
  | other call =>
      obtain ⟨s, -, rfl⟩ := linkStep_other hstep
      exact hd.of_same rfl rfl (fun _ h => h)

theorem linkTrace_start (s : HelperState) : LinkTrace jc rcvbuf (.start s) where
  readable := trivial
  buffer := fun _ hgot => ⟨hgot, fun _ hv => absurd hv List.not_mem_nil⟩
  requests := rfl

/-- **The requests of a run** are those the server loop hands on for the same
reads, with the one that is still in hand. -/
theorem handed_eq (h0 : 0 < rcvbuf) (hB : rcvbuf ≤ maxRequestBufferSize) {s : HelperState}
    {actions : List LinkAction} (hrun : run (linkStep jc rcvbuf) (.start s) actions = some d)
    {σ : Type} (msgHandle : σ → Json → σ × Json) (s₀ : σ) :
    Ipc.handled d.events ++ d.pc.inHand
      = Ipc.handled (serveConnection jc rcvbuf msgHandle s₀ d.reads).1 := by
  have hd := run_invariant_all (I := LinkTrace jc rcvbuf)
    (fun _ a _ h hstep => linkTrace_step h a hstep) actions (linkTrace_start s) hrun
  rw [serveConnection_handled h0 hB s₀ d.reads hd.readable]
  exact hd.requests

end Requests

/-- A query that the server has read, and that is not handled yet. -/
theorem handed_eq_query :
    ∃ d, run (linkStep jsonText 212992) (.start (.init true))
        [.send (clientSendRequest jsonText getUiRectRequest),
          .read (.bytes (clientSendRequest jsonText getUiRectRequest)), .close] = some d ∧
      Ipc.handled d.events ++ d.pc.inHand
        = Ipc.handled (serveConnection jsonText 212992 (fun n _ => (n + 1, Json.null)) 0
            d.reads).1 := by
  obtain ⟨d, hrun⟩ := Option.isSome_iff_exists.mp
    (by decide +kernel : (run (linkStep jsonText 212992) (.start (.init true))
      [.send (clientSendRequest jsonText getUiRectRequest),
        .read (.bytes (clientSendRequest jsonText getUiRectRequest)), .close]).isSome = true)
  exact ⟨d, hrun, handed_eq (by decide) (by decide) hrun (fun n _ => (n + 1, Json.null)) 0⟩

/-! ## §3. The server survives. -/

/-- The server has a request in hand that gets a reply. -/
def OwesReply (jc : JsonC) : LinkPc → Prop
  | .handle dataIn fdClosed => fdClosed = false ∧ Answered jc dataIn
  | .reply _ => True
  | _ => False

instance (jc : JsonC) (pc : LinkPc) : Decidable (OwesReply jc pc) := by
  cases pc <;> unfold OwesReply <;> infer_instance

/-- The client does not close the connection while the server has a request in
hand that gets a reply, and behind the close no read delivers one. -/
def ClosesInTime (jc : JsonC) (rcvbuf : Nat) (d : LinkState) : LinkAction → Prop
  | .close => ¬ OwesReply jc d.pc
  | .read r => d.peerClosed = true → ∀ pc ∈ d.afterRead jc rcvbuf r, ¬ OwesReply jc pc
  | _ => True

instance (jc : JsonC) (rcvbuf : Nat) (d : LinkState) (a : LinkAction) :
    Decidable (ClosesInTime jc rcvbuf d a) := by
  cases a <;> unfold ClosesInTime <;> infer_instance

/-- The steps in which the server finishes the request it has in hand. -/
def LinkAction.finishes : LinkAction → Bool
  | .handle _ => true
  | .reply => true
  | _ => false

/-- The server was not terminated, and it will not be by finishing the request
it has in hand. -/
def Survives (jc : JsonC) (rcvbuf : Nat) (d : LinkState) : Prop :=
  ∀ more d', (∀ a ∈ more, a.finishes = true) →
    run (linkStep jc rcvbuf) d more = some d' → d'.pc ≠ .killed

/-- After the close, the server has no request in hand that gets a reply. -/
structure LinkInv (jc : JsonC) (d : LinkState) : Prop where
  helper : HelperOk jc d.helper
  alive : d.pc ≠ .killed
  inTime : d.peerClosed = true → ¬ OwesReply jc d.pc

section Steps

variable {jc : JsonC} {rcvbuf : Nat} {d d' : LinkState}

theorem requestRead_ne_killed (ret : Int) (dataIn : Json) : requestRead ret dataIn ≠ .killed := by
  unfold requestRead
  cases dataIn.objectLength with
  | none => simp
  | some n =>
      cases n with
      | zero => by_cases hret : ret ≤ 0 <;> simp [hret]
      | succ n => simp

theorem afterRead_ne_killed {r : Read Char} {pc : LinkPc}
    (hread : d.afterRead jc rcvbuf r = some pc) : pc ≠ .killed := by
  unfold LinkState.afterRead at hread
  cases hpc : d.pc with
  | reading got =>
      simp only [hpc] at hread
      split_ifs at hread with hcan
      obtain rfl := Option.some.inj hread
      unfold readPc
      split
      · exact requestRead_ne_killed _ _
      · exact requestRead_ne_killed _ _
      · split
        · exact requestRead_ne_killed _ _
        · split_ifs
          · simp
          · exact requestRead_ne_killed _ _
  | _ =>
      simp only [hpc] at hread
      exact absurd hread (by simp)

@[simp] theorem handled_helper (d : LinkState) (s : HelperState) (dataIn dataOut : Json)
    (fdClosed : Bool) : (d.handled s dataIn dataOut fdClosed).helper = s := by
  unfold LinkState.handled
  split_ifs <;> rfl

@[simp] theorem handled_peerClosed (d : LinkState) (s : HelperState) (dataIn dataOut : Json)
    (fdClosed : Bool) : (d.handled s dataIn dataOut fdClosed).peerClosed = d.peerClosed := by
  unfold LinkState.handled
  split_ifs <;> rfl

/-- Handling a request leaves the reply to be written, if there is one. -/
theorem handled_pc (d : LinkState) (s : HelperState) {dataIn dataOut : Json} (fdClosed : Bool)
    (hout : dataOut.isNull = true ↔ ¬ Answered jc dataIn) :
    (d.handled s dataIn dataOut fdClosed).pc ≠ .killed ∧
      (OwesReply jc (d.handled s dataIn dataOut fdClosed).pc ↔
        OwesReply jc (.handle dataIn fdClosed)) := by
  unfold LinkState.handled
  by_cases hnull : dataOut.isNull = true
  · have ha := hout.mp hnull
    cases fdClosed <;> simp [hnull, OwesReply, ha]
  · have ha : Answered jc dataIn := by
      by_contra hna
      exact hnull (hout.mpr hna)
    cases fdClosed <;> simp [hnull, OwesReply, ha]

/-- **One step** meets the condition if and only if it keeps the invariant. -/
theorem linkInv_step (hd : LinkInv jc d) (a : LinkAction)
    (hstep : linkStep jc rcvbuf d a = some d') :
    HelperOk jc d'.helper ∧ d'.pc ≠ .killed ∧
      (ClosesInTime jc rcvbuf d a ↔ (d'.peerClosed = true → ¬ OwesReply jc d'.pc)) := by
  cases a with
  | send bytes =>
      obtain ⟨-, rfl⟩ := linkStep_send hstep
      exact ⟨hd.helper, hd.alive, iff_of_true trivial hd.inTime⟩
  | close =>
      obtain ⟨-, rfl⟩ := linkStep_close hstep
      exact ⟨hd.helper, hd.alive, ⟨fun h _ => h, fun h => h rfl⟩⟩
  | read r =>
      obtain ⟨pc, hread, rfl⟩ := linkStep_read hstep
      refine ⟨hd.helper, afterRead_ne_killed hread, ?_⟩
      simp [ClosesInTime, hread]
  | handle env =>
      obtain ⟨dataIn, fdClosed, s, dataOut, hpc, hrun, rfl⟩ := linkStep_handle hstep
      have hs := mMessageHandle_ok hd.helper hrun
      obtain ⟨hne, howes⟩ := handled_pc d s fdClosed (reply_isNull_iff hd.helper hrun)
      refine ⟨by rwa [handled_helper], hne, iff_of_true trivial ?_⟩
      rw [handled_peerClosed, howes, ← hpc]
      exact hd.inTime
  | reply =>
      obtain ⟨dataOut, hpc, rfl⟩ := linkStep_reply hstep
      -- the reply is owed, so the client is still there
      have hopen : d.peerClosed = false := by
        by_contra hclosed
        have hinTime := hd.inTime (by simpa using hclosed)
        rw [hpc] at hinTime
        exact hinTime trivial
      refine ⟨hd.helper, by simp [hopen], iff_of_true trivial ?_⟩
      simp [hopen]
  | other call =>
      obtain ⟨s, hrun, rfl⟩ := linkStep_other hstep
      exact ⟨helperOk_step call hd.helper hrun, hd.alive, iff_of_true trivial hd.inTime⟩

theorem linkInv_start {s : HelperState} (hs : HelperOk jc s) : LinkInv jc (.start s) where
  helper := hs
  alive := by simp [LinkState.start]
  inTime := fun h => absurd h (by simp [LinkState.start])

/-- With the invariant, finishing a request does no harm. -/
theorem LinkInv.survives (hd : LinkInv jc d) : Survives jc rcvbuf d := by
  intro more d' hmore hrun
  have hkeep : ∀ e a e', LinkInv jc e → a.finishes = true →
      linkStep jc rcvbuf e a = some e' → LinkInv jc e' := by
    intro e a e' he ha hstep
    obtain ⟨hhelper, halive, hiff⟩ := linkInv_step he a hstep
    refine ⟨hhelper, halive, hiff.mp ?_⟩
    cases a with
    | handle env => trivial
    | reply => trivial
    | _ => exact absurd ha (by simp [LinkAction.finishes])
  exact (run_invariant hkeep more hd (meets_of_forall more d hmore) hrun).alive

/-- The reply is written, although the client is gone. -/
theorem killed_by_reply (jc : JsonC) (rcvbuf : Nat) {dataOut : Json}
    (hpc : d.pc = .reply dataOut) (hclosed : d.peerClosed = true) :
    ∃ d', linkStep jc rcvbuf d .reply = some d' ∧ d'.pc = .killed := by
  refine ⟨{ d with pc := .killed, events := d.events ++ [ConnEvent.reply dataOut] }, ?_, rfl⟩
  simp only [linkStep, hpc, hclosed]
  rfl

/-- A request that gets a reply ends the server if the client is gone. -/
theorem not_survives (hs : HelperOk jc d.helper) (hclosed : d.peerClosed = true)
    (howes : OwesReply jc d.pc) : ¬ Survives jc rcvbuf d := by
  intro hsurvives
  cases hpc : d.pc with
  | reply dataOut =>
      obtain ⟨d', hstep, hkilled⟩ := killed_by_reply jc rcvbuf hpc hclosed
      refine hsurvives [.reply] d' ?_ ?_ hkilled
      · intro a ha
        obtain rfl := List.mem_singleton.mp ha
        rfl
      · rw [run_cons hstep]
        rfl
  | handle dataIn fdClosed =>
      rw [hpc] at howes
      obtain ⟨rfl, ha⟩ := howes
      obtain ⟨s, dataOut, hrun, -⟩ :=
        mMessageHandle_answers .silent hs (messageSafe_of_answered ha)
      have hnull : dataOut.isNull = false := by
        by_contra hne
        exact (reply_isNull_iff hs hrun).mp (by simpa using hne) ha
      have hstep : linkStep jc rcvbuf d (.handle .silent)
          = some (d.handled s dataIn dataOut false) := by
        simp only [linkStep, hpc, hrun]
      have hreply : (d.handled s dataIn dataOut false).pc = .reply dataOut := by
        unfold LinkState.handled
        simp [hnull]
      obtain ⟨d', hstep', hkilled⟩ :=
        killed_by_reply jc rcvbuf hreply (by rwa [handled_peerClosed])
      refine hsurvives [.handle .silent, .reply] d' ?_ ?_ hkilled
      · simp [LinkAction.finishes]
      · rw [run_cons hstep, run_cons hstep']
        rfl
  | _ =>
      rw [hpc] at howes
      exact howes

/-- **When a client cannot kill the server.**  In every run of the connection,
whatever the client sends and however it is read, the server survives if and
only if the client never closes the connection while a request that gets a
reply is in hand, and no read delivers such a request behind the close. -/
theorem not_killed_iff {s : HelperState} (hs : HelperReachable jc s) (rcvbuf : Nat)
    (actions : List LinkAction) :
    Throughout (linkStep jc rcvbuf) (Survives jc rcvbuf) (.start s) actions
      ↔ Meets (linkStep jc rcvbuf) (ClosesInTime jc rcvbuf) (.start s) actions := by
  refine throughout_iff (I := LinkInv jc) (fun _ hd => hd.survives) ?_ ?_ actions
    (linkInv_start (helperOk_reachable hs))
  · intro d a hd hstuck
    -- an action that is not possible meets the condition
    cases a with
    | close =>
        intro howes
        simp only [linkStep] at hstuck
        split_ifs at hstuck with hclosed
        exact hd.inTime hclosed howes
    | read r =>
        intro _ pc hpc
        simp only [linkStep, Option.mem_def.mp hpc] at hstuck
        exact absurd hstuck (by simp)
    | _ => trivial
  · intro d a d' hd hstep
    obtain ⟨hhelper, halive, hiff⟩ := linkInv_step hd a hstep
    by_cases hP : ClosesInTime jc rcvbuf d a
    · exact .inl ⟨hP, hhelper, halive, hiff.mp hP⟩
    · refine .inr ⟨hP, ?_⟩
      have hbad := mt hiff.mpr hP
      push Not at hbad
      exact not_survives hhelper hbad.1 hbad.2

end Steps

/-! ### A query -/

/-- The client waits for the reply before it closes. -/
theorem query_answered :
    Throughout (linkStep jsonText 212992) (Survives jsonText 212992) (.start (.init true))
      [.send (clientSendRequest jsonText getUiRectRequest),
        .read (.bytes (clientSendRequest jsonText getUiRectRequest)), .handle .silent, .reply,
        .close, .read .eof] :=
  (not_killed_iff (.init true) 212992 _).mpr (by decide +kernel)

/-- The client closes behind its request. -/
def closesEarly : List LinkAction :=
  [.send (clientSendRequest jsonText getUiRectRequest), .close,
    .read (.bytes (clientSendRequest jsonText getUiRectRequest)), .handle .silent, .reply]

theorem closing_kills :
    ((run (linkStep jsonText 212992) (.start (.init true)) closesEarly).map LinkState.pc)
      = some .killed ∧
    ¬ Throughout (linkStep jsonText 212992) (fun d => d.pc ≠ .killed) (.start (.init true))
      closesEarly := by
  have hrun : ((run (linkStep jsonText 212992) (.start (.init true)) closesEarly).map
      LinkState.pc) = some .killed := by decide +kernel
  refine ⟨hrun, ?_⟩
  intro hall
  obtain ⟨d, hd, hpc⟩ := Option.map_eq_some_iff.mp hrun
  exact hall closesEarly [] d (List.append_nil _).symm hd hpc

end MesonDisplay.Client
