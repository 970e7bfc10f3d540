/-
  MesonDisplay.Client.MainLoop — main of drm-helper-client against the server.

  `main` makes its calls one after the other on one connection, and the server
  reads, handles and answers requests meanwhile.

  A message is what one write sends: a request, or the text `null` that
  `send_cmd_sync` sends behind its request.  The server reads every message
  with a read of its own, but it may read the `null` together with the request
  in front of it; what a `null` does to the server follows from `readPc`.  The
  two writes of `send_cmd_sync` are one step: the server may read the request
  before it reads the `null` all the same.

  Other threads and other connections change the state of the helper, but not
  the callbacks that are registered.  Closing the connection behind the last
  option is in `Disconnect`.

  Main results:
    * `serve_server` — a read hands a request on, or leaves the server stuck at
      a `null`.
    * `mainOk_step`, `mainOk_makeCall` — what holds in every run.
-/
import MesonDisplay.Client.Disconnect
import MesonDisplay.Client.Options

namespace MesonDisplay.Client

open MesonDisplay.Framing (Read)
open MesonDisplay.Helper
open MesonDisplay.Ipc (LibraryCall clientSendRequest isNonEmpty)

/-! ## §1. The client and the server. -/

/-- Where the client is. -/
inductive ClientPc where
  /-- Before its next option. -/
  | next
  /-- In `read_request`, called by `send_cmd_sync`. -/
  | reading (call : Nat)
  /-- Terminated by SIGPIPE, inside of `send_cmd_sync` if a call is given. -/
  | killed (call : Option Nat)
  deriving DecidableEq

/-- What a call of `send_cmd_sync` returned. -/
structure Returned where
  call : Nat
  /-- The call whose command was replied to; `none` at the end of the stream. -/
  replyTo : Option Nat
  value : Json
  deriving DecidableEq

/-- Messages and replies carry the number of the call they belong to. -/
structure MainState where
  helper : HelperState
  options : List MainOption
  /-- How many calls were made. -/
  calls : Nat
  client : ClientPc
  /-- The messages that were sent and not read yet. -/
  toServer : List (Nat × Json)
  server : LinkPc
  /-- The call of the request that the server has in hand. -/
  inHand : Nat
  /-- The replies that were written and not read yet. -/
  toClient : List (Nat × Json)
  /-- What `m_message_handle` replied. -/
  replied : List (Nat × Json)
  returned : List Returned

/-- The connection was accepted. -/
def MainState.start (s : HelperState) (options : List MainOption) : MainState where
  helper := s
  options := options
  calls := 0
  client := .next
  toServer := []
  server := .reading []
  inHand := 0
  toClient := []
  replied := []
  returned := []

inductive MainAction where
  /-- `main` takes its next option. -/
  | option
  /-- A reply arrives at the client; others that arrive with it are lost. -/
  | readReply (lost : Nat)
  /-- The client finds the end of the stream. -/
  | readEnd
  /-- The server reads a message, and the `null` behind it if `withNull`. -/
  | serve (withNull : Bool)
  /-- The server calls `msg_handle`. -/
  | handle (env : MessageEnv)
  /-- The server calls `send_request`. -/
  | reply
  /-- The state of the helper is changed from somewhere else. -/
  | other (call : HelperCall)

/-- The server does not have the connection any more. -/
def LinkPc.gone : LinkPc → Bool
  | .closed => true
  | .aborted => true
  | .killed => true
  | _ => false

/-- `send_cmd_sync` waits for a reply. -/
def waits : LibraryCall → Bool
  | .sendCmdSync _ _ => true
  | _ => false

/-- `main` makes a call. -/
def MainState.makeCall (d : MainState) (call : LibraryCall) : MainState :=
  let n := d.calls
  let d := { d with calls := d.calls + 1 }
  if d.server.gone then { d with client := .killed (if waits call then some n else none) }
  else
    { d with
      toServer := d.toServer ++ call.sends.map fun data => (n, data)
      client := if waits call then .reading n else .next }

/-- The end of `send_cmd_sync`. -/
def MainState.return (d : MainState) (call : Nat) (replyTo : Option Nat) (out : Json) :
    MainState :=
  { d with client := .next, returned := d.returned ++ [⟨call, replyTo, replyOf out⟩] }

/-- The server reads some messages at once. -/
def MainState.serve (jc : JsonC) (rcvbuf : Nat) (d : MainState) (call : Nat)
    (messages : List Json) (rest : List (Nat × Json)) (got : List Char) : MainState :=
  { d with
    toServer := rest
    inHand := call
    server := readPc jc rcvbuf got (.bytes (messages.flatMap (clientSendRequest jc))) }

/-- Behind `msg_handle`. -/
def MainState.handled (d : MainState) (s : HelperState) (dataOut : Json) (fdClosed : Bool) :
    MainState :=
  let d := { d with helper := s }
  if dataOut.isNull then { d with server := if fdClosed then .closed else .reading [] }
  else if fdClosed then { d with server := .closed }
  else { d with server := .reply dataOut, replied := d.replied ++ [(d.inHand, dataOut)] }

/-- `none` if the action is not possible now. -/
def mainStep (jc : JsonC) (rcvbuf : Nat) (d : MainState) : MainAction → Option MainState
  | .option =>
      match d.client, d.options with
      | .next, o :: options =>
          let d := { d with options := options }
          match o.call with
          | none => some d
          | some call => some (d.makeCall call)
      | _, _ => none
  | .readReply lost =>
      match d.client, d.toClient with
      | .reading call, (replyTo, out) :: rest =>
          some ({ d with toClient := rest.drop lost }.return call (some replyTo)
            (jc.received out))
      | _, _ => none
  | .readEnd =>
      match d.client, d.toClient with
      | .reading call, [] =>
          if d.server.gone then some (d.return call none .newObject) else none
      | _, _ => none
  | .serve withNull =>
      match d.server, d.toServer with
      | .reading got, (call, data) :: rest =>
          if withNull then
            match rest with
            | (_, .null) :: rest => some (d.serve jc rcvbuf call [data, .null] rest got)
            | _ => none
          else some (d.serve jc rcvbuf call [data] rest got)
      | _, _ => none
  | .handle env =>
      match d.server with
      | .handle dataIn fdClosed =>
          match mMessageHandle jc env d.helper dataIn with
          | .error _ => some { d with server := .aborted }
          | .ok (s, dataOut) => some (d.handled s dataOut fdClosed)
      | _ => none
  | .reply =>
      match d.server with
      | .reply dataOut =>
          some { d with server := .reading [], toClient := d.toClient ++ [(d.inHand, dataOut)] }
      | _ => none
  | .other call =>
      if call.isMessage ∧ d.server.busy then none
      else
        match call.run jc d.helper with
        | .error _ => none
        | .ok s => if s.interface = d.helper.interface then some { d with helper := s } else none

/-! ## §2. What each step does. -/

section Inversion

variable {jc : JsonC} {rcvbuf : Nat} {d d' : MainState}

theorem mainStep_option (hstep : mainStep jc rcvbuf d .option = some d') :
    ∃ o options, d.client = .next ∧ d.options = o :: options ∧
      ((o.call = none ∧ d' = { d with options := options }) ∨
        ∃ call, o.call = some call ∧ d' = { d with options := options }.makeCall call) := by
  simp only [mainStep] at hstep
  split at hstep
  · rename_i o options hclient hoptions
    refine ⟨o, options, hclient, hoptions, ?_⟩
    cases hcall : o.call with
    | none =>
        simp only [hcall] at hstep
        exact .inl ⟨rfl, (Option.some.inj hstep).symm⟩
    | some call =>
        simp only [hcall] at hstep
        exact .inr ⟨call, rfl, (Option.some.inj hstep).symm⟩
  · exact absurd hstep (by simp)

theorem mainStep_readReply {lost : Nat}
    (hstep : mainStep jc rcvbuf d (.readReply lost) = some d') :
    ∃ call replyTo out rest, d.client = .reading call ∧ d.toClient = (replyTo, out) :: rest ∧
      d' = { d with toClient := rest.drop lost }.return call (some replyTo) (jc.received out) := by
  simp only [mainStep] at hstep
  split at hstep
  · rename_i call replyTo out rest hclient hunread
    exact ⟨call, replyTo, out, rest, hclient, hunread, (Option.some.inj hstep).symm⟩
  · exact absurd hstep (by simp)

theorem mainStep_readEnd (hstep : mainStep jc rcvbuf d .readEnd = some d') :
    ∃ call, d.client = .reading call ∧ d.toClient = [] ∧ d.server.gone = true ∧
      d' = d.return call none .newObject := by
  simp only [mainStep] at hstep
  split at hstep
  · rename_i call hclient hunread
    split_ifs at hstep with hgone
    exact ⟨call, hclient, hunread, hgone, (Option.some.inj hstep).symm⟩
  · exact absurd hstep (by simp)

/-- The server reads the next message, and perhaps a `null` behind it. -/
theorem mainStep_serve {withNull : Bool}
    (hstep : mainStep jc rcvbuf d (.serve withNull) = some d') :
    ∃ got call data rest more rest', d.server = .reading got ∧
      d.toServer = (call, data) :: rest ∧
      ((more = [] ∧ rest' = rest) ∨ (∃ n, more = [.null] ∧ rest = (n, .null) :: rest')) ∧
      d' = d.serve jc rcvbuf call (data :: more) rest' got := by
  simp only [mainStep] at hstep
  split at hstep
  · rename_i got call data rest hserver hsend
    split_ifs at hstep with hwith
    · split at hstep
      · rename_i n rest'
        exact ⟨got, call, data, _, [.null], rest', hserver, hsend, .inr ⟨n, rfl, rfl⟩,
          (Option.some.inj hstep).symm⟩
      · exact absurd hstep (by simp)
    · exact ⟨got, call, data, rest, [], rest, hserver, hsend, .inl ⟨rfl, rfl⟩,
        (Option.some.inj hstep).symm⟩
  · exact absurd hstep (by simp)

theorem mainStep_handle {env : MessageEnv} (hstep : mainStep jc rcvbuf d (.handle env) = some d') :
    ∃ dataIn fdClosed, d.server = .handle dataIn fdClosed ∧
      ((∃ f, mMessageHandle jc env d.helper dataIn = .error f ∧
          d' = { d with server := .aborted }) ∨
        ∃ s dataOut, mMessageHandle jc env d.helper dataIn = .ok (s, dataOut) ∧
          d' = d.handled s dataOut fdClosed) := by
  simp only [mainStep] at hstep
  split at hstep
  · rename_i dataIn fdClosed hserver
    refine ⟨dataIn, fdClosed, hserver, ?_⟩
    split at hstep
    · rename_i f hrun
      exact .inl ⟨f, hrun, (Option.some.inj hstep).symm⟩
    · rename_i s dataOut hrun
      exact .inr ⟨s, dataOut, hrun, (Option.some.inj hstep).symm⟩
  · exact absurd hstep (by simp)

theorem mainStep_reply (hstep : mainStep jc rcvbuf d .reply = some d') :
    ∃ dataOut, d.server = .reply dataOut ∧
      d' = { d with
        server := .reading [], toClient := d.toClient ++ [(d.inHand, dataOut)] } := by
  simp only [mainStep] at hstep
  split at hstep
  · rename_i dataOut hserver
    exact ⟨dataOut, hserver, (Option.some.inj hstep).symm⟩
  · exact absurd hstep (by simp)

theorem mainStep_other {call : HelperCall} (hstep : mainStep jc rcvbuf d (.other call) = some d') :
    ∃ s, call.run jc d.helper = .ok s ∧ s.interface = d.helper.interface ∧
      d' = { d with helper := s } := by
  simp only [mainStep] at hstep
  split_ifs at hstep with hmessage
  split at hstep
  · exact absurd hstep (by simp)
  · rename_i s hrun
    split_ifs at hstep with hsame
    exact ⟨s, hrun, hsame, (Option.some.inj hstep).symm⟩

end Inversion

/-! ## §3. The server. -/

/-- The server does not get past a `null` in its buffer. -/
def LinkPc.Stuck : LinkPc → Prop
  | .reading got => "null".toList <+: got
  | .closed => True
  | _ => False

/-- The server has a request in hand. -/
def LinkPc.working : LinkPc → Bool
  | .handle _ _ => true
  | .reply _ => true
  | _ => false

theorem LinkPc.Stuck.not_working {pc : LinkPc} (h : pc.Stuck) : pc.working = false := by
  cases pc with
  | handle dataIn fdClosed => exact h.elim
  | reply dataOut => exact h.elim
  | _ => rfl

/-- What holds in every run: messages are requests or `null`, they are numbered
by the calls made so far, and replies come from `m_message_handle`. -/
structure MainOk (jc : JsonC) (d : MainState) : Prop where
  helper : HelperOk jc d.helper
  messages : ∀ m ∈ d.toServer, m.2 = .null ∨ IsCommand m.2
  buffer : ∀ got, d.server = .reading got → got = [] ∨ "null".toList <+: got
  sent : ∀ m ∈ d.toServer, m.1 < d.calls
  inHand : d.server.working = true → d.inHand < d.calls
  unread : ∀ m ∈ d.toClient, m.1 < d.calls ∧ m ∈ d.replied
  reply : ∀ out, d.server = .reply out → (d.inHand, out) ∈ d.replied
  request : ∀ dataIn fdClosed, d.server = .handle dataIn fdClosed → dataIn ≠ .null

section Server

variable {jc : JsonC} {rcvbuf : Nat} {d d' : MainState}

/-- A request is handed on, whatever is read together with it. -/
theorem readPc_command (hr : jc.ReadsObjects) {data : Json} (hdata : IsCommand data)
    (rest : List Char) :
    readPc jc rcvbuf [] (.bytes (clientSendRequest jc data ++ rest)) = .handle data false := by
  have hparse : jc.parse ([] ++ (clientSendRequest jc data ++ rest)) = some data := by
    rw [List.nil_append]
    exact JsonC.parse_eq_some.mpr
      ⟨hr.complete data hdata.1 rest, Json.ne_null_of_isObject hdata.1.2⟩
  have hlen : (clientSendRequest jc data ++ rest) ≠ [] := by
    intro hnil
    rw [hnil, List.append_nil, JsonC.parse_nil] at hparse
    exact absurd hparse (by simp)
  simp only [readPc, hparse]
  obtain ⟨fs, rfl⟩ := Json.isObject_iff.mp hdata.1.2
  cases fs with
  | nil => exact absurd hdata.2 (by simp [isNonEmpty, Json.objectLength])
  | cons f fs =>
      have hopen : decide (((clientSendRequest jc (.object (f :: fs)) ++ rest).length : Int) ≤ 0)
          = false := by
        have hpos := List.length_pos_iff.mpr hlen
        simp only [decide_eq_false_iff_not]
        omega
      show LinkPc.handle _ (decide _) = _
      rw [hopen]

/-- A text that starts with `null` is not read as a value. -/
theorem readPc_null (hn : jc.ReadsNull) {got c : List Char} (hnull : "null".toList <+: got ++ c) :
    (readPc jc rcvbuf got (.bytes c)).Stuck := by
  obtain ⟨rest, hrest⟩ := hnull
  have hparse : jc.parse (got ++ c) = none := by
    rw [← hrest]
    exact JsonC.parse_eq_none.mpr (hn.complete rest)
  simp only [readPc, hparse]
  split_ifs
  · exact ⟨rest, hrest⟩
  · trivial

/-- **One read**: a request goes to `msg_handle`, and a `null` in front stays in
the buffer. -/
theorem serve_server (rcvbuf : Nat) (hr : jc.ReadsObjects) (hn : jc.ReadsNull) (hd : MainOk jc d)
    {got : List Char} (hserver : d.server = .reading got) {call : Nat} {data : Json}
    {rest : List (Nat × Json)} (hsend : d.toServer = (call, data) :: rest) (more : List Json)
    (rest' : List (Nat × Json)) :
    (got = [] ∧ IsCommand data ∧
      (d.serve jc rcvbuf call (data :: more) rest' got).server = .handle data false) ∨
    ((got = [] → data = .null) ∧
      (d.serve jc rcvbuf call (data :: more) rest' got).server.Stuck) := by
  have hdata : data = .null ∨ IsCommand data := by
    refine hd.messages (call, data) ?_
    rw [hsend]
    exact List.mem_cons_self
  unfold MainState.serve
  simp only [List.flatMap_cons]
  rcases hd.buffer got hserver with rfl | hgot
  · rcases hdata with rfl | hdata
    · refine .inr ⟨fun _ => rfl, readPc_null hn ?_⟩
      rw [List.nil_append]
      exact ⟨_, by rw [clientSendRequest, hn.text]⟩
    · exact .inl ⟨rfl, hdata, readPc_command hr hdata _⟩
  · refine .inr ⟨?_, readPc_null hn (hgot.trans (List.prefix_append _ _))⟩
    intro hnil
    rw [hnil] at hgot
    exact absurd hgot (by decide)

/-- Reading some messages. -/
theorem mainOk_serve (hr : jc.ReadsObjects) (hn : jc.ReadsNull) (hd : MainOk jc d)
    {got : List Char} (hserver : d.server = .reading got) {call : Nat} {data : Json}
    {rest : List (Nat × Json)} (hsend : d.toServer = (call, data) :: rest) (more : List Json)
    {rest' : List (Nat × Json)} (hrest : ∀ m ∈ rest', m ∈ rest) :
    MainOk jc (d.serve jc rcvbuf call (data :: more) rest' got) := by
  have hmem : ∀ m ∈ rest', m ∈ d.toServer := by
    intro m hm
    rw [hsend]
    exact List.mem_cons_of_mem _ (hrest m hm)
  have hhead : (call, data) ∈ d.toServer := by
    rw [hsend]
    exact List.mem_cons_self
  have hpc := serve_server rcvbuf hr hn hd hserver hsend more rest'
  refine ⟨hd.helper, fun m hm => hd.messages m (hmem m hm), ?_,
    fun m hm => hd.sent m (hmem m hm), fun _ => hd.sent _ hhead, hd.unread, ?_, ?_⟩
  · intro got' hgot'
    rw [hgot'] at hpc
    rcases hpc with ⟨-, -, hpc⟩ | ⟨-, hstuck⟩
    · exact absurd hpc (by simp)
    · exact .inr hstuck
  · intro out hout
    rw [hout] at hpc
    rcases hpc with ⟨-, -, hpc⟩ | ⟨-, hstuck⟩
    · exact absurd hpc (by simp)
    · exact hstuck.elim
  · intro dataIn fdClosed hhandle
    rw [hhandle] at hpc
    rcases hpc with ⟨-, hcommand, hpc⟩ | ⟨-, hstuck⟩
    · obtain ⟨rfl, -⟩ := LinkPc.handle.inj hpc
      exact Json.ne_null_of_isObject hcommand.1.2
    · exact hstuck.elim

/-- Handling a request. -/
theorem mainOk_handled (hd : MainOk jc d) {dataIn dataOut : Json} {fdClosed : Bool}
    (hserver : d.server = .handle dataIn fdClosed) {s : HelperState} (hs : HelperOk jc s) :
    MainOk jc (d.handled s dataOut fdClosed) := by
  have hcall := hd.inHand (by rw [hserver]; rfl)
  unfold MainState.handled
  split_ifs with hnull hclosed
  · refine ⟨hs, hd.messages, ?_, hd.sent, ?_, hd.unread, ?_, ?_⟩ <;> simp [LinkPc.working]
  · refine ⟨hs, hd.messages, ?_, hd.sent, ?_, hd.unread, ?_, ?_⟩ <;> simp [LinkPc.working]
  · refine ⟨hs, hd.messages, ?_, hd.sent, ?_, hd.unread, ?_, ?_⟩ <;> simp [LinkPc.working]
  · refine ⟨hs, hd.messages, ?_, hd.sent, fun _ => hcall, ?_, ?_, ?_⟩
    · simp
    · exact fun m hm => ⟨(hd.unread m hm).1, List.mem_append_left _ (hd.unread m hm).2⟩
    · intro out hout
      obtain rfl := LinkPc.reply.inj hout
      exact List.mem_append_right _ List.mem_cons_self
    · simp

/-- A step that makes no call. -/
theorem mainOk_step (hr : jc.ReadsObjects) (hn : jc.ReadsNull) (hd : MainOk jc d)
    {a : MainAction} (ha : a ≠ .option) (hstep : mainStep jc rcvbuf d a = some d') :
    MainOk jc d' := by
  cases a with
  | option => exact absurd rfl ha
  | readReply lost =>
      obtain ⟨call, replyTo, out, rest, -, hunread, rfl⟩ := mainStep_readReply hstep
      refine ⟨hd.helper, hd.messages, hd.buffer, hd.sent, hd.inHand, ?_, hd.reply, hd.request⟩
      intro m hm
      -- what is unread was unread before
      refine hd.unread m ?_
      rw [hunread]
      exact List.mem_cons_of_mem _ (List.mem_of_mem_drop hm)
  | readEnd =>
      obtain ⟨call, -, -, -, rfl⟩ := mainStep_readEnd hstep
      exact ⟨hd.helper, hd.messages, hd.buffer, hd.sent, hd.inHand, hd.unread, hd.reply,
        hd.request⟩
  | serve withNull =>
      obtain ⟨got, call, data, rest, more, rest', hserver, hsend, hmore, rfl⟩ :=
        mainStep_serve hstep
      refine mainOk_serve hr hn hd hserver hsend more ?_
      rcases hmore with ⟨-, rfl⟩ | ⟨n, -, rfl⟩
      · exact fun _ hm => hm
      · exact fun _ hm => List.mem_cons_of_mem _ hm
  | handle env =>
      obtain ⟨dataIn, fdClosed, hserver, ⟨f, -, rfl⟩ | ⟨s, dataOut, hrun, rfl⟩⟩ :=
        mainStep_handle hstep
      -- the handler crashed or it returned; after a crash nothing is in hand
      · refine ⟨hd.helper, hd.messages, ?_, hd.sent, ?_, hd.unread, ?_, ?_⟩ <;>
          simp [LinkPc.working]
      · exact mainOk_handled hd hserver (mMessageHandle_ok hd.helper hrun)
  | reply =>
      obtain ⟨dataOut, hserver, rfl⟩ := mainStep_reply hstep
      refine ⟨hd.helper, hd.messages, ?_, hd.sent, ?_, ?_, ?_, ?_⟩
      · intro got hgot
        obtain rfl := LinkPc.reading.inj hgot
        exact .inl rfl
      · simp [LinkPc.working]
      · -- the reply that was written is the one that was there to be written
        intro m hm
        rcases List.mem_append.mp hm with hm | hm
        · exact hd.unread m hm
        · obtain rfl := List.mem_singleton.mp hm
          exact ⟨hd.inHand (by rw [hserver]; rfl), hd.reply dataOut hserver⟩
      · simp
      · simp
  | other call =>
      obtain ⟨s, hrun, -, rfl⟩ := mainStep_other hstep
      exact ⟨helperOk_step call hd.helper hrun, hd.messages, hd.buffer, hd.sent, hd.inHand,
        hd.unread, hd.reply, hd.request⟩

/-- The messages of a call. -/
theorem sends_eq {o : MainOption} {call : LibraryCall} (hcall : o.call = some call) :
    ∃ data, call.command = some data ∧ IsCommand data ∧
      call.sends = if waits call then [data, .null] else [data] := by
  obtain ⟨data, hdata, hcommand⟩ := call_command hcall
  refine ⟨data, hdata, hcommand, ?_⟩
  cases call with
  | sendCmd cmd opt =>
      have h : Ipc.sendCmd cmd opt = some data := hdata
      simp [LibraryCall.sends, waits, h]
  | setProperties cmd name value =>
      have h : Ipc.setProperties cmd name value = some data := hdata
      simp [LibraryCall.sends, waits, h]
  | sendCmdSync cmd opt =>
      have h : Ipc.sendCmd cmd opt = some data := hdata
      simp [LibraryCall.sends, waits, h]

theorem mainOk_makeCall (hd : MainOk jc d) {o : MainOption} {call : LibraryCall}
    (hcall : o.call = some call) : MainOk jc (d.makeCall call) := by
  obtain ⟨data, -, hcommand, hsends⟩ := sends_eq hcall
  have hlater : ∀ {n : Nat}, n < d.calls → n < d.calls + 1 := fun h => Nat.lt_succ_of_lt h
  unfold MainState.makeCall
  by_cases hgone : d.server.gone = true
  · simp only [if_pos hgone]
    exact ⟨hd.helper, hd.messages, hd.buffer, fun m hm => hlater (hd.sent m hm),
      fun h => hlater (hd.inHand h), fun m hm => ⟨hlater (hd.unread m hm).1, (hd.unread m hm).2⟩,
      hd.reply, hd.request⟩
  · simp only [if_neg hgone]
    refine ⟨hd.helper, ?_, hd.buffer, ?_, fun h => hlater (hd.inHand h),
      fun m hm => ⟨hlater (hd.unread m hm).1, (hd.unread m hm).2⟩, hd.reply, hd.request⟩
    · intro m hm
      rcases List.mem_append.mp hm with hm | hm
      · exact hd.messages m hm
      · obtain ⟨x, hx, rfl⟩ := List.mem_map.mp hm
        have hx' : x = data ∨ x = .null := by
          rw [hsends] at hx
          split_ifs at hx <;> simp at hx <;> simp [hx]
        rcases hx' with rfl | rfl
        · exact .inr hcommand
        · exact .inl rfl
    · intro m hm
      rcases List.mem_append.mp hm with hm | hm
      · exact hlater (hd.sent m hm)
      · obtain ⟨x, -, rfl⟩ := List.mem_map.mp hm
        exact Nat.lt_succ_self _

end Server

end MesonDisplay.Client
