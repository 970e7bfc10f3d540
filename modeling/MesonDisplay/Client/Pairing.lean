/-
  MesonDisplay.Client.Pairing — commands and their replies.

  No request has a number: `send_cmd_sync` takes the first reply that arrives
  for the one to its command.  This is right as long as nothing that was sent
  before it gets a reply, and its own command gets one.  `main` and the server
  decide on their own which commands these are.

  Main results:
    * `replies_paired_iff` — the runs in which every call of `send_cmd_sync`
      returns the reply to its own command.
-/
import MesonDisplay.Client.MainLoop

namespace MesonDisplay.Client

open MesonDisplay.Helper
open MesonDisplay.Ipc (LibraryCall)
open MesonDisplay.Runs
open MesonDisplay.Json (jsonText jsonText_readsObjects jsonText_readsNull)

/-! ## §1. Pairs. -/

/-- The call of `send_cmd_sync` that was made and has not returned. -/
def ClientPc.call : ClientPc → Option Nat
  | .next => none
  | .reading call => some call
  | .killed call => call

/-- Every call that returned got the reply that `m_message_handle` gave to its
own command, and no other reply is there to be read. -/
structure PairedNow (jc : JsonC) (d : MainState) : Prop where
  own : ∀ r ∈ d.returned, r.replyTo = some r.call ∧
    ∃ out, (r.call, out) ∈ d.replied ∧ r.value = replyOf (jc.received out)
  noneUnread : ∀ call, d.client = .reading call → ∀ m ∈ d.toClient, m.1 = call

/-- The steps in which a call that was made goes on. -/
def MainAction.finishes : MainAction → Bool
  | .option => false
  | .other _ => false
  | _ => true

/-- Replies are paired with commands, now and however a call that was made goes
on; and this call can return. -/
def Paired (jc : JsonC) (rcvbuf : Nat) (d : MainState) : Prop :=
  ∀ more d', (∀ a ∈ more, a.finishes = true) → run (mainStep jc rcvbuf) d more = some d' →
    PairedNow jc d' ∧
    (d'.client.call ≠ none → ∃ more' d'', (∀ a ∈ more', a.finishes = true) ∧
      run (mainStep jc rcvbuf) d' more' = some d'' ∧ d''.client = .next)

/-- A request that is handled without a fault and gets no reply. -/
def Harmless (jc : JsonC) (s : HelperState) (data : Json) : Prop :=
  data.isNull = false ∧ ¬ Answered jc data ∧ MessageSafe jc s data

instance (jc : JsonC) (s : HelperState) (data : Json) : Decidable (Harmless jc s data) :=
  inferInstanceAs (Decidable (_ ∧ _ ∧ _))

/-- The server is in select(), or has a harmless request in hand. -/
def ServerFree (jc : JsonC) (s : HelperState) : LinkPc → Prop
  | .reading got => got = []
  | .handle dataIn fdClosed => fdClosed = false ∧ Harmless jc s dataIn
  | _ => False

instance (jc : JsonC) (s : HelperState) : (pc : LinkPc) → Decidable (ServerFree jc s pc)
  | .reading got => inferInstanceAs (Decidable (got = []))
  | .handle dataIn fdClosed =>
      inferInstanceAs (Decidable (fdClosed = false ∧ Harmless jc s dataIn))
  | .reply _ | .closed | .aborted | .killed => inferInstanceAs (Decidable False)

/-- A call of `send_cmd_sync` is made in turn: its command gets a reply, all
that the server has still to read and to handle is harmless, and no reply is
unread. -/
structure InTurn (jc : JsonC) (d : MainState) (data : Json) : Prop where
  answered : Answered jc data
  free : ServerFree jc d.helper d.server
  harmless : ∀ m ∈ d.toServer, Harmless jc d.helper m.2
  read : d.toClient = []

instance (jc : JsonC) (d : MainState) (data : Json) : Decidable (InTurn jc d data) :=
  decidable_of_iff (Answered jc data ∧ ServerFree jc d.helper d.server ∧
      (∀ m ∈ d.toServer, Harmless jc d.helper m.2) ∧ d.toClient = [])
    ⟨fun h => ⟨h.1, h.2.1, h.2.2.1, h.2.2.2⟩, fun h => ⟨h.1, h.2, h.3, h.4⟩⟩

/-- The command of the next option, if `main` will wait for the reply. -/
def MainState.nextSync (d : MainState) : Option Json :=
  match d.client, d.options with
  | .next, o :: _ => (o.call.filter waits).bind LibraryCall.command
  | _, _ => none

/-- A call of `send_cmd_sync` that is made is made in turn. -/
def CallsInTurn (jc : JsonC) (d : MainState) : MainAction → Prop
  | .option => ∀ data ∈ d.nextSync, InTurn jc d data
  | _ => True

instance (jc : JsonC) (d : MainState) (a : MainAction) : Decidable (CallsInTurn jc d a) := by
  cases a <;> unfold CallsInTurn <;> infer_instance

/-! ## §2. A call in turn. -/

/-- What is left of a call that was made in turn. -/
inductive InCall (jc : JsonC) (d : MainState) (call : Nat) : Prop where
  /-- The server has read nothing of it. -/
  | queued (ms : List (Nat × Json)) (data : Json) (answered : Answered jc data)
      (free : ServerFree jc d.helper d.server)
      (harmless : ∀ m ∈ ms, Harmless jc d.helper m.2)
      (sent : d.toServer = ms ++ [(call, data), (call, .null)]) (read : d.toClient = [])
  | taken (data : Json) (answered : Answered jc data) (server : d.server = .handle data false)
      (inHand : d.inHand = call) (sent : d.toServer = [] ∨ d.toServer = [(call, .null)])
      (read : d.toClient = [])
  | replying (out : Json) (server : d.server = .reply out) (inHand : d.inHand = call)
      (sent : d.toServer = [] ∨ d.toServer = [(call, .null)]) (read : d.toClient = [])
  | replied (out : Json) (idle : d.server.working = false)
      (sent : d.toServer = [] ∨ (d.toServer = [(call, .null)] ∧ d.server = .reading []))
      (read : d.toClient = [(call, out)])

/-- Where the client is, and what is on the way. -/
def ClientOk (jc : JsonC) (d : MainState) : ClientPc → Prop
  | .next => ∀ m ∈ d.toServer.tail, m.2 ≠ .null
  | .reading call => InCall jc d call
  | .killed call => call = none

/-- In a run in which every call was made in turn. -/
structure PairInv (jc : JsonC) (d : MainState) : Prop where
  main : MainOk jc d
  own : ∀ r ∈ d.returned, r.replyTo = some r.call ∧
    ∃ out, (r.call, out) ∈ d.replied ∧ r.value = replyOf (jc.received out)
  client : ClientOk jc d d.client

section InTurn

variable {jc : JsonC} {rcvbuf : Nat} {d d' : MainState} {call : Nat}

theorem harmless_interface {s s' : HelperState} (hsame : s'.interface = s.interface) {data : Json}
    (h : Harmless jc s data) : Harmless jc s' data :=
  ⟨h.1, h.2.1, (messageSafe_interface hsame).mpr h.2.2⟩

theorem serverFree_interface {s s' : HelperState} (hsame : s'.interface = s.interface)
    {pc : LinkPc} (h : ServerFree jc s pc) : ServerFree jc s' pc := by
  cases pc with
  | handle dataIn fdClosed => exact ⟨h.1, harmless_interface hsame h.2⟩
  | _ => exact h

/-- A change of the helper from somewhere else. -/
theorem InCall.other (h : InCall jc d call) {s : HelperState}
    (hsame : s.interface = d.helper.interface) : InCall jc { d with helper := s } call := by
  cases h with
  | queued ms data answered free harmless sent read =>
      exact .queued ms data answered (serverFree_interface hsame free)
        (fun m hm => harmless_interface hsame (harmless m hm)) sent read
  | taken data answered server inHand sent read =>
      exact .taken data answered server inHand sent read
  | replying out server inHand sent read => exact .replying out server inHand sent read
  | replied out idle sent read => exact .replied out idle sent read

/-- A harmless request leaves the server in select(). -/
theorem handled_harmless (hs : HelperOk jc d.helper) {env : MessageEnv} {dataIn dataOut : Json}
    {s : HelperState} (hrun : mMessageHandle jc env d.helper dataIn = .ok (s, dataOut))
    (hharmless : ¬ Answered jc dataIn) :
    d.handled s dataOut false = { d with helper := s, server := .reading [] } := by
  have hnull := (reply_isNull_iff hs hrun).mpr hharmless
  unfold MainState.handled
  simp [hnull]

/-- A request that gets a reply leaves it to be written. -/
theorem handled_answered (hs : HelperOk jc d.helper) {env : MessageEnv} {dataIn dataOut : Json}
    {s : HelperState} (hrun : mMessageHandle jc env d.helper dataIn = .ok (s, dataOut))
    (ha : Answered jc dataIn) :
    d.handled s dataOut false = { d with
      helper := s, server := .reply dataOut, replied := d.replied ++ [(d.inHand, dataOut)] } := by
  have hnull : dataOut.isNull = false := by
    by_contra hne
    exact (reply_isNull_iff hs hrun).mp (by simpa using hne) ha
  unfold MainState.handled
  simp [hnull]

/-- A step of the server leaves the client where it is. -/
theorem server_frame {a : MainAction} (hoption : a ≠ .option) (hreply : ∀ lost, a ≠ .readReply lost)
    (hend : a ≠ .readEnd) (hstep : mainStep jc rcvbuf d a = some d') :
    d'.client = d.client ∧ d'.returned = d.returned ∧ (∀ m ∈ d.replied, m ∈ d'.replied) ∧
      d'.toServer <:+ d.toServer := by
  cases a with
  | option => exact absurd rfl hoption
  | readReply lost => exact absurd rfl (hreply lost)
  | readEnd => exact absurd rfl hend
  | serve withNull =>
      obtain ⟨got, n, data, rest, more, rest', -, hsend, hmore, rfl⟩ := mainStep_serve hstep
      refine ⟨rfl, rfl, fun m hm => hm, ?_⟩
      rw [hsend]
      rcases hmore with ⟨-, rfl⟩ | ⟨k, -, rfl⟩
      · exact List.suffix_cons _ _
      · exact (List.suffix_cons _ _).trans (List.suffix_cons _ _)
  | handle env =>
      obtain ⟨dataIn, fdClosed, -, ⟨f, -, rfl⟩ | ⟨s, dataOut, -, rfl⟩⟩ := mainStep_handle hstep
      · exact ⟨rfl, rfl, fun m hm => hm, List.suffix_rfl⟩
      · unfold MainState.handled
        split_ifs
        · exact ⟨rfl, rfl, fun m hm => hm, List.suffix_rfl⟩
        · exact ⟨rfl, rfl, fun m hm => hm, List.suffix_rfl⟩
        · exact ⟨rfl, rfl, fun m hm => hm, List.suffix_rfl⟩
        · exact ⟨rfl, rfl, fun m hm => List.mem_append_left _ hm, List.suffix_rfl⟩
  | reply =>
      obtain ⟨dataOut, -, rfl⟩ := mainStep_reply hstep
      exact ⟨rfl, rfl, fun m hm => hm, List.suffix_rfl⟩
  | other call =>
      obtain ⟨s, -, -, rfl⟩ := mainStep_other hstep
      exact ⟨rfl, rfl, fun m hm => hm, List.suffix_rfl⟩

theorem ne_null_of_answered {data : Json} (ha : Answered jc data) : data ≠ .null := by
  intro hnull
  subst hnull
  exact ha

/-- What the server reads if the next message is a request. -/
theorem serve_request (rcvbuf : Nat) (hr : jc.ReadsObjects) (hn : jc.ReadsNull)
    (hd : MainOk jc d) (hserver : d.server = .reading []) {n : Nat} {data : Json}
    {rest : List (Nat × Json)} (hsend : d.toServer = (n, data) :: rest) (hdata : data ≠ .null)
    (more : List Json) (rest' : List (Nat × Json)) :
    (d.serve jc rcvbuf n (data :: more) rest' []).server = .handle data false := by
  rcases serve_server rcvbuf hr hn hd hserver hsend more rest' with ⟨-, -, h⟩ | ⟨h, -⟩
  · exact h
  · exact absurd (h rfl) hdata

/-- The server reads something while a call is in turn and not taken yet. -/
theorem InCall.serve_queued (hr : jc.ReadsObjects) (hn : jc.ReadsNull) (hd : MainOk jc d)
    {ms : List (Nat × Json)} {data : Json} (answered : Answered jc data)
    (free : ServerFree jc d.helper d.server) (harmless : ∀ m ∈ ms, Harmless jc d.helper m.2)
    (sent : d.toServer = ms ++ [(call, data), (call, .null)]) (read : d.toClient = [])
    {withNull : Bool} (hstep : mainStep jc rcvbuf d (.serve withNull) = some d') :
    InCall jc d' call := by
  obtain ⟨got, n, x, rest, more, rest', hserver, hsend, hmore, rfl⟩ := mainStep_serve hstep
  rw [hserver] at free
  obtain rfl : got = [] := free
  rw [sent] at hsend
  cases ms with
  | nil =>
      -- the request itself, with its `null` or without it
      obtain ⟨hhead, rfl⟩ := List.cons.inj hsend
      obtain ⟨rfl, rfl⟩ := Prod.mk.inj hhead
      have hpc := serve_request rcvbuf hr hn hd hserver sent (ne_null_of_answered answered)
      refine .taken data answered (hpc more rest') rfl ?_ read
      rcases hmore with ⟨-, rfl⟩ | ⟨k, -, hrest⟩
      · exact .inr rfl
      · exact .inl (List.cons.inj hrest).2.symm
  | cons m ms =>
      obtain ⟨hm, hms⟩ := List.forall_mem_cons.mp harmless
      obtain ⟨rfl, rfl⟩ := List.cons.inj hsend
      have hpc := serve_request rcvbuf hr hn hd hserver sent (Json.isNull_eq_false.mp hm.1)
      rcases hmore with ⟨rfl, rfl⟩ | ⟨k, -, hrest⟩
      · refine .queued ms data answered ?_ hms rfl read
        rw [hpc]
        exact ⟨rfl, hm⟩
      · -- the message behind it is no `null`
        exfalso
        cases ms with
        | nil =>
            obtain ⟨hhead, -⟩ := List.cons.inj hrest
            exact ne_null_of_answered answered (Prod.mk.inj hhead).2
        | cons m' ms =>
            obtain ⟨rfl, -⟩ := List.cons.inj hrest
            exact Json.isNull_eq_false.mp (hms _ List.mem_cons_self).1 rfl

/-- Reading the next message, in turn. -/
theorem InCall.serve (hr : jc.ReadsObjects) (hn : jc.ReadsNull) (hd : MainOk jc d)
    (h : InCall jc d call) {withNull : Bool}
    (hstep : mainStep jc rcvbuf d (.serve withNull) = some d') : InCall jc d' call := by
  cases h with
  | queued ms data answered free harmless sent read =>
      exact InCall.serve_queued hr hn hd answered free harmless sent read hstep
  | taken data answered server inHand sent read =>
      obtain ⟨got, n, x, rest, more, rest', hserver, -⟩ := mainStep_serve hstep
      exact absurd (server.symm.trans hserver) (by simp)
  | replying out server inHand sent read =>
      obtain ⟨got, n, x, rest, more, rest', hserver, -⟩ := mainStep_serve hstep
      exact absurd (server.symm.trans hserver) (by simp)
  | replied out idle sent read =>
      obtain ⟨got, n, x, rest, more, rest', hserver, hsend, hmore, rfl⟩ := mainStep_serve hstep
      rcases sent with sent | ⟨sent, -⟩
      · exact absurd (sent.symm.trans hsend) (by simp)
      · -- only the `null` of the call is left
        obtain ⟨hhead, rfl⟩ := List.cons.inj (sent.symm.trans hsend)
        obtain ⟨rfl, rfl⟩ := Prod.mk.inj hhead
        rcases hmore with ⟨rfl, rfl⟩ | ⟨k, -, hrest⟩
        · refine .replied out ?_ (.inl rfl) read
          rcases serve_server rcvbuf hr hn hd hserver hsend [] [] with
            ⟨-, hcommand, -⟩ | ⟨-, hstuck⟩
          · exact absurd hcommand.1.2 (by simp [Json.isObject])
          · exact hstuck.not_working
        · exact absurd hrest (by simp)

/-- Handling a request, in turn. -/
theorem InCall.handle (hd : MainOk jc d) (h : InCall jc d call) {env : MessageEnv}
    (hstep : mainStep jc rcvbuf d (.handle env) = some d') : InCall jc d' call := by
  obtain ⟨dataIn, fdClosed, hserver, hcases⟩ := mainStep_handle hstep
  have hhandled : MessageSafe jc d.helper dataIn → ∃ s dataOut,
      mMessageHandle jc env d.helper dataIn = .ok (s, dataOut) ∧
        d' = d.handled s dataOut fdClosed := by
    intro hsafe
    rcases hcases with ⟨f, hf, -⟩ | hok
    · obtain ⟨s, dataOut, hrun, -⟩ := mMessageHandle_answers env hd.helper hsafe
      exact absurd (hf.symm.trans hrun) (by simp)
    · exact hok
  cases h with
  | queued ms data answered free harmless sent read =>
      rw [hserver] at free
      obtain ⟨rfl, hharmless⟩ := free
      obtain ⟨s, dataOut, hrun, rfl⟩ := hhandled hharmless.2.2
      rw [handled_harmless hd.helper hrun hharmless.2.1]
      exact .queued ms data answered rfl
        (fun m hm => harmless_interface (mMessageHandle_interface hrun) (harmless m hm))
        sent read
  | taken data answered server inHand sent read =>
      obtain ⟨rfl, rfl⟩ := LinkPc.handle.inj (server.symm.trans hserver)
      obtain ⟨s, dataOut, hrun, rfl⟩ := hhandled (messageSafe_of_answered answered)
      rw [handled_answered hd.helper hrun answered]
      exact .replying dataOut rfl inHand sent read
  | replying out server inHand sent read => exact absurd (server.symm.trans hserver) (by simp)
  | replied out idle sent read =>
      rw [hserver] at idle
      exact absurd idle (by simp [LinkPc.working])

/-- Writing a reply, in turn. -/
theorem InCall.reply (h : InCall jc d call)
    (hstep : mainStep jc rcvbuf d .reply = some d') : InCall jc d' call := by
  obtain ⟨dataOut, hserver, rfl⟩ := mainStep_reply hstep
  cases h with
  | queued ms data answered free harmless sent read =>
      rw [hserver] at free
      exact free.elim
  | taken data answered server inHand sent read => exact absurd (server.symm.trans hserver) (by simp)
  | replying out server inHand sent read =>
      refine .replied dataOut rfl ?_ ?_
      · rcases sent with sent | sent
        · exact .inl sent
        · exact .inr ⟨sent, rfl⟩
      · rw [read, inHand]
        rfl
  | replied out idle sent read =>
      rw [hserver] at idle
      exact absurd idle (by simp [LinkPc.working])

theorem tail_ne_null {ms ms' : List (Nat × Json)} (hsuffix : ms' <:+ ms)
    (hms : ∀ m ∈ ms.tail, m.2 ≠ .null) : ∀ m ∈ ms'.tail, m.2 ≠ .null := by
  obtain ⟨pre, rfl⟩ := hsuffix
  cases pre with
  | nil => exact hms
  | cons x pre => exact fun m hm => hms m (List.mem_append_right _ (List.mem_of_mem_tail hm))

/-- A step of the server keeps the invariant. -/
theorem pairInv_server (hr : jc.ReadsObjects) (hn : jc.ReadsNull) (hd : PairInv jc d)
    {a : MainAction} (hoption : a ≠ .option) (hreply : ∀ lost, a ≠ .readReply lost)
    (hend : a ≠ .readEnd) (hstep : mainStep jc rcvbuf d a = some d') : PairInv jc d' := by
  obtain ⟨hclient, hreturned, hreplied, hsuffix⟩ := server_frame hoption hreply hend hstep
  refine ⟨mainOk_step hr hn hd.main hoption hstep, ?_, ?_⟩
  · intro r hr'
    rw [hreturned] at hr'
    obtain ⟨hto, out, hout, hvalue⟩ := hd.own r hr'
    exact ⟨hto, out, hreplied _ hout, hvalue⟩
  · have hok := hd.client
    rw [hclient]
    cases hc : d.client with
    | next =>
        rw [hc] at hok
        exact tail_ne_null hsuffix hok
    | killed call =>
        rw [hc] at hok
        exact hok
    | reading call =>
        rw [hc] at hok
        have hcall : InCall jc d call := hok
        cases a with
        | option => exact absurd rfl hoption
        | readReply lost => exact absurd rfl (hreply lost)
        | readEnd => exact absurd rfl hend
        | serve withNull => exact hcall.serve hr hn hd.main hstep
        | handle env => exact hcall.handle hd.main hstep
        | reply => exact hcall.reply hstep
        | other c =>
            obtain ⟨s, -, hsame, rfl⟩ := mainStep_other hstep
            exact hcall.other hsame

/-- While a reply is there to be read, the call has it as its only one. -/
theorem InCall.replied_of_unread (h : InCall jc d call) (hunread : d.toClient ≠ []) :
    ∃ out, d.toClient = [(call, out)] ∧ ∀ m ∈ d.toServer.tail, m.2 ≠ .null := by
  cases h with
  | queued ms data answered free harmless sent read => exact absurd read hunread
  | taken data answered server inHand sent read => exact absurd read hunread
  | replying out server inHand sent read => exact absurd read hunread
  | replied out idle sent read =>
      refine ⟨out, read, ?_⟩
      rcases sent with sent | ⟨sent, -⟩
      · rw [sent]
        exact fun m hm => absurd hm List.not_mem_nil
      · rw [sent]
        exact fun m hm => absurd hm List.not_mem_nil

theorem PairInv.inCall (hd : PairInv jc d) (hclient : d.client = .reading call) :
    InCall jc d call := by
  have hok := hd.client
  rw [hclient] at hok
  exact hok

/-- The call returns the reply to its own command. -/
theorem pairInv_readReply (hr : jc.ReadsObjects) (hn : jc.ReadsNull) (hd : PairInv jc d)
    {lost : Nat} (hstep : mainStep jc rcvbuf d (.readReply lost) = some d') :
    PairInv jc d' := by
  have hmain := mainOk_step hr hn hd.main (by simp) hstep
  obtain ⟨call, replyTo, out, rest, hclient, hunread, rfl⟩ := mainStep_readReply hstep
  obtain ⟨out', hread, htail⟩ :=
    (hd.inCall hclient).replied_of_unread (by rw [hunread]; simp)
  obtain ⟨hpair, rfl⟩ := List.cons.inj (hunread.symm.trans hread)
  obtain ⟨rfl, rfl⟩ := Prod.mk.inj hpair
  refine ⟨hmain, ?_, htail⟩
  intro r hr'
  rcases List.mem_append.mp hr' with hr' | hr'
  · exact hd.own r hr'
  · obtain rfl := List.mem_singleton.mp hr'
    refine ⟨rfl, out, ?_, rfl⟩
    refine (hd.main.unread (replyTo, out) ?_).2
    rw [hunread]
    exact List.mem_cons_self

/-- The server that a call in turn is made to is there. -/
theorem ServerFree.not_gone {s : HelperState} {pc : LinkPc} (h : ServerFree jc s pc) :
    pc.gone = false := by
  cases pc with
  | reading got => rfl
  | handle dataIn fdClosed => rfl
  | _ => exact h.elim

/-- The stream does not end before the call returned. -/
theorem readEnd_impossible (hd : PairInv jc d) : mainStep jc rcvbuf d .readEnd ≠ some d' := by
  intro hstep
  obtain ⟨call, hclient, hunread, hgone, -⟩ := mainStep_readEnd hstep
  have hopen : d.server.gone = false := by
    cases hd.inCall hclient with
    | queued ms data answered free harmless sent read => exact free.not_gone
    | taken data answered server inHand sent read => rw [server]; rfl
    | replying out server inHand sent read => rw [server]; rfl
    | replied out idle sent read => exact absurd (hunread.symm.trans read) (by simp)
  exact absurd (hopen.symm.trans hgone) (by simp)

/-- **A step that makes no call** keeps the invariant. -/
theorem pairInv_step (hr : jc.ReadsObjects) (hn : jc.ReadsNull) (hd : PairInv jc d)
    {a : MainAction} (ha : a ≠ .option) (hstep : mainStep jc rcvbuf d a = some d') :
    PairInv jc d' := by
  cases a with
  | option => exact absurd rfl ha
  | readReply lost => exact pairInv_readReply hr hn hd hstep
  | readEnd => exact absurd hstep (readEnd_impossible hd)
  | _ => exact pairInv_server hr hn hd (by simp) (by simp) (by simp) hstep

/-- The pairs in a state with the invariant. -/
theorem PairInv.now (hd : PairInv jc d) : PairedNow jc d where
  own := hd.own
  noneUnread := by
    intro call hclient m hm
    obtain ⟨out, hread, -⟩ := (hd.inCall hclient).replied_of_unread (List.ne_nil_of_mem hm)
    rw [hread] at hm
    rw [List.mem_singleton.mp hm]

/-- The steps the server has in hand. -/
def LinkPc.work : LinkPc → Nat
  | .handle _ _ => 2
  | .reply _ => 1
  | _ => 0

theorem LinkPc.work_le (pc : LinkPc) : pc.work ≤ 2 := by
  cases pc <;> simp [LinkPc.work]

/-- How far the server is from having done everything. -/
def MainState.work (d : MainState) : Nat := 3 * d.toServer.length + d.server.work

/-- **Progress**: a call that was made in turn goes on. -/
theorem InCall.progress (rcvbuf : Nat) (hd : MainOk jc d) (hclient : d.client = .reading call)
    (h : InCall jc d call) :
    ∃ a d', a.finishes = true ∧ mainStep jc rcvbuf d a = some d' ∧
      (d'.client = .next ∨ d'.client = .reading call ∧ d'.work < d.work) := by
  cases h with
  | queued ms data answered free harmless sent read =>
      cases hserver : d.server with
      | reading got =>
          obtain ⟨m, rest, hsend⟩ : ∃ m rest, d.toServer = m :: rest := by
            rw [sent]
            cases ms with
            | nil => exact ⟨_, _, rfl⟩
            | cons m ms => exact ⟨m, _, rfl⟩
          -- a read makes the queue shorter, and one message is at most two steps
          refine ⟨.serve false, d.serve jc rcvbuf m.1 [m.2] rest got, rfl, ?_, .inr ⟨hclient, ?_⟩⟩
          · simp [mainStep, hserver, hsend]
          · have hle := (d.serve jc rcvbuf m.1 [m.2] rest got).server.work_le
            have hlen : (d.serve jc rcvbuf m.1 [m.2] rest got).toServer.length + 1
                = d.toServer.length := by
              rw [hsend]
              rfl
            unfold MainState.work
            omega
      | handle dataIn fdClosed =>
          rw [hserver] at free
          obtain ⟨rfl, hharmless⟩ := free
          obtain ⟨s, dataOut, hrun, -⟩ := mMessageHandle_answers .silent hd.helper hharmless.2.2
          refine ⟨.handle .silent, d.handled s dataOut false, rfl, ?_, .inr ?_⟩
          · simp only [mainStep, hserver, hrun]
          · rw [handled_harmless hd.helper hrun hharmless.2.1]
            refine ⟨hclient, ?_⟩
            simp [MainState.work, LinkPc.work, hserver]
      | _ =>
          rw [hserver] at free
          exact free.elim
  | taken data answered server inHand sent read =>
      obtain ⟨s, dataOut, hrun, -⟩ :=
        mMessageHandle_answers .silent hd.helper (messageSafe_of_answered answered)
      refine ⟨.handle .silent, d.handled s dataOut false, rfl, ?_, .inr ?_⟩
      · simp only [mainStep, server, hrun]
      · rw [handled_answered hd.helper hrun answered]
        refine ⟨hclient, ?_⟩
        simp [MainState.work, LinkPc.work, server]
  | replying out server inHand sent read =>
      refine ⟨.reply, { d with
          server := .reading [], toClient := d.toClient ++ [(d.inHand, out)] }, rfl, ?_,
        .inr ⟨hclient, ?_⟩⟩
      · simp only [mainStep, server]
      · simp [MainState.work, LinkPc.work, server]
  | replied out idle sent read =>
      refine ⟨.readReply 0, { d with toClient := [] }.return call (some call) (jc.received out),
        rfl, ?_, .inl rfl⟩
      simp only [mainStep, hclient, read]
      rfl

theorem finishes_ne_option {a : MainAction} (ha : a.finishes = true) : a ≠ .option := by
  intro h
  rw [h] at ha
  exact absurd ha (by simp [MainAction.finishes])

/-- So it returns. -/
theorem inCall_returns (hr : jc.ReadsObjects) (hn : jc.ReadsNull) (rcvbuf : Nat)
    (hd : PairInv jc d) (hclient : d.client = .reading call) :
    ∃ more d', (∀ a ∈ more, a.finishes = true) ∧
      run (mainStep jc rcvbuf) d more = some d' ∧ d'.client = .next := by
  induction hwork : d.work using Nat.strong_induction_on generalizing d with
  | _ n ih =>
      have hok := hd.client
      rw [hclient] at hok
      obtain ⟨a, d₁, ha, hstep, hnext | ⟨hclient₁, hlt⟩⟩ :=
        InCall.progress rcvbuf hd.main hclient hok
      · refine ⟨[a], d₁, by simpa using ha, ?_, hnext⟩
        rw [run_cons hstep]
        rfl
      · obtain ⟨more, d', hmore, hrun, hnext⟩ := ih d₁.work (hwork ▸ hlt)
          (pairInv_step hr hn hd (finishes_ne_option ha) hstep) hclient₁ rfl
        refine ⟨a :: more, d', List.forall_mem_cons.mpr ⟨ha, hmore⟩, ?_, hnext⟩
        rw [run_cons hstep]
        exact hrun

/-- With the invariant, replies are paired. -/
theorem PairInv.paired (hr : jc.ReadsObjects) (hn : jc.ReadsNull) (rcvbuf : Nat)
    (hd : PairInv jc d) : Paired jc rcvbuf d := by
  intro more d' hmore hrun
  have hd' : PairInv jc d' :=
    run_invariant (P := fun _ a => a.finishes = true)
      (fun _ _ _ h ha hstep => pairInv_step hr hn h (finishes_ne_option ha) hstep) more hd
      (meets_of_forall more d hmore) hrun
  refine ⟨hd'.now, ?_⟩
  intro hcall
  cases hclient : d'.client with
  | next =>
      rw [hclient] at hcall
      exact absurd rfl hcall
  | killed call =>
      have hok := hd'.client
      rw [hclient] at hok hcall
      exact absurd hok hcall
  | reading call => exact inCall_returns hr hn rcvbuf hd' hclient

end InTurn

/-! ## §3. A call out of turn. -/

/-- The calls that the server will reply to, from these messages: nothing behind
a `null` or a request that is not safe is handled. -/
def expected (jc : JsonC) (s : HelperState) : List (Nat × Json) → List Nat
  | [] => []
  | m :: ms =>
      if m.2.isNull = true ∨ ¬ MessageSafe jc s m.2 then []
      else if Answered jc m.2 then m.1 :: expected jc s ms
      else expected jc s ms

/-- The calls whose replies will arrive, in order. -/
def MainState.awaited (jc : JsonC) (d : MainState) : List Nat :=
  d.toClient.map Prod.fst ++
    match d.server with
    | .reading [] => expected jc d.helper d.toServer
    | .handle dataIn false => expected jc d.helper ((d.inHand, dataIn) :: d.toServer)
    | .reply _ => d.inHand :: expected jc d.helper d.toServer
    | _ => []

/-- A `null` behind the first message is the last one. -/
def NullLast (d : MainState) : Prop := ∀ m ∈ d.toServer.tail.dropLast, m.2 ≠ .null

section OutOfTurn

variable {jc : JsonC} {rcvbuf : Nat} {d d' : MainState} {call : Nat}

theorem expected_interface (jc : JsonC) {s s' : HelperState} (hsame : s'.interface = s.interface)
    (ms : List (Nat × Json)) : expected jc s' ms = expected jc s ms := by
  induction ms with
  | nil => rfl
  | cons m ms ih =>
      unfold expected
      rw [ih]
      simp only [messageSafe_interface hsame]

theorem expected_null (s : HelperState) (n : Nat) (ms : List (Nat × Json)) :
    expected jc s ((n, .null) :: ms) = [] := by
  unfold expected
  rw [if_pos (.inl rfl)]

/-- A server that is stuck or gone replies no more. -/
theorem awaited_stuck (h : d.server.Stuck ∨ d.server.gone = true) :
    d.awaited jc = d.toClient.map Prod.fst := by
  unfold MainState.awaited
  cases hserver : d.server with
  | reading got =>
      rw [hserver] at h
      have hgot : "null".toList <+: got := h.resolve_right (by simp [LinkPc.gone])
      cases got with
      | nil => exact absurd hgot (by decide)
      | cons c got => exact List.append_nil _
  | handle dataIn fdClosed =>
      rw [hserver] at h
      exact absurd h (by simp [LinkPc.Stuck, LinkPc.gone])
  | reply out =>
      rw [hserver] at h
      exact absurd h (by simp [LinkPc.Stuck, LinkPc.gone])
  | _ => exact List.append_nil _

theorem nullLast_suffix (hsuffix : d'.toServer <:+ d.toServer) (h : NullLast d) : NullLast d' := by
  unfold NullLast at *
  obtain ⟨pre, hpre⟩ := hsuffix
  rw [← hpre] at h
  cases pre with
  | nil => exact h
  | cons x pre =>
      intro m hm
      have hm' : m ∈ d'.toServer.dropLast := by
        rw [← List.tail_dropLast] at hm
        exact List.mem_of_mem_tail hm
      refine h m ?_
      have hne : d'.toServer ≠ [] := List.ne_nil_of_mem (List.mem_of_mem_dropLast hm')
      rw [List.cons_append, List.tail_cons, List.dropLast_append_of_ne_nil hne]
      exact List.mem_append_right _ hm'

theorem awaited_reading (hserver : d.server = .reading []) :
    d.awaited jc = d.toClient.map Prod.fst ++ expected jc d.helper d.toServer := by
  unfold MainState.awaited
  rw [hserver]

theorem awaited_handling {dataIn : Json} (hserver : d.server = .handle dataIn false) :
    d.awaited jc = d.toClient.map Prod.fst
      ++ expected jc d.helper ((d.inHand, dataIn) :: d.toServer) := by
  unfold MainState.awaited
  rw [hserver]

theorem awaited_replying {out : Json} (hserver : d.server = .reply out) :
    d.awaited jc = d.toClient.map Prod.fst
      ++ d.inHand :: expected jc d.helper d.toServer := by
  unfold MainState.awaited
  rw [hserver]

/-- A read that takes messages from the front. -/
theorem awaited_serve_messages (rcvbuf : Nat) (hr : jc.ReadsObjects) (hn : jc.ReadsNull)
    (hd : MainOk jc d) {got : List Char} (hserver : d.server = .reading got) {n : Nat}
    {data : Json} {rest : List (Nat × Json)} (hsend : d.toServer = (n, data) :: rest)
    (more : List Json) {rest' : List (Nat × Json)}
    (hrest : expected jc d.helper rest' = expected jc d.helper rest) :
    (d.serve jc rcvbuf n (data :: more) rest' got).awaited jc = d.awaited jc := by
  rcases serve_server rcvbuf hr hn hd hserver hsend more rest' with
    ⟨rfl, -, hpc⟩ | ⟨hnull, hstuck⟩
  · rw [awaited_handling hpc, awaited_reading hserver, hsend]
    show _ ++ expected jc d.helper ((n, data) :: rest') = _
    unfold expected
    rw [hrest]
    rfl
  · rw [awaited_stuck (.inl hstuck)]
    cases got with
    | nil =>
        obtain rfl := hnull rfl
        rw [awaited_reading hserver, hsend, expected_null, List.append_nil]
        rfl
    | cons c got =>
        rw [awaited_stuck]
        · rfl
        · rw [hserver]
          exact .inl ((hd.buffer _ hserver).resolve_left (by simp))

/-- Reading a message does not change what is awaited. -/
theorem awaited_serve (hr : jc.ReadsObjects) (hn : jc.ReadsNull) (hd : MainOk jc d)
    (hlast : NullLast d) {withNull : Bool}
    (hstep : mainStep jc rcvbuf d (.serve withNull) = some d') :
    d'.awaited jc = d.awaited jc := by
  obtain ⟨got, n, data, rest, more, rest', hserver, hsend, hmore, rfl⟩ := mainStep_serve hstep
  refine awaited_serve_messages rcvbuf hr hn hd hserver hsend more ?_
  rcases hmore with ⟨-, rfl⟩ | ⟨k, -, rfl⟩
  · rfl
  · -- nothing is behind the `null`
    obtain rfl : rest' = [] := by
      by_contra hne
      refine hlast (k, .null) ?_ rfl
      rw [hsend, List.tail_cons, List.dropLast_cons_of_ne_nil hne]
      exact List.mem_cons_self
    rw [expected_null]
    rfl

/-- A server that has seen the end of the stream replies no more. -/
theorem awaited_closing {dataIn : Json} (hserver : d.server = .handle dataIn true) :
    d.awaited jc = d.toClient.map Prod.fst := by
  unfold MainState.awaited
  rw [hserver]
  exact List.append_nil _

/-- Neither does handling a request. -/
theorem awaited_handle (hd : MainOk jc d) {env : MessageEnv}
    (hstep : mainStep jc rcvbuf d (.handle env) = some d') : d'.awaited jc = d.awaited jc := by
  obtain ⟨dataIn, fdClosed, hserver, ⟨f, hrun, rfl⟩ | ⟨s, dataOut, hrun, rfl⟩⟩ :=
    mainStep_handle hstep
  · -- a fault: the request was not safe
    rw [awaited_stuck (.inr rfl)]
    cases fdClosed with
    | true => exact (awaited_closing hserver).symm
    | false =>
        have hunsafe : ¬ MessageSafe jc d.helper dataIn := by
          intro hsafe
          obtain ⟨s, out, hok, -⟩ := mMessageHandle_answers env hd.helper hsafe
          exact absurd (hok.symm.trans hrun) (by simp)
        rw [awaited_handling hserver]
        unfold expected
        rw [if_pos (.inr hunsafe)]
        exact (List.append_nil _).symm
  · cases fdClosed with
    | true =>
        have hclosed : d.handled s dataOut true = { d with helper := s, server := .closed } := by
          unfold MainState.handled
          by_cases hnull : dataOut.isNull = true <;> simp [hnull]
        rw [hclosed, awaited_stuck (.inr rfl), awaited_closing hserver]
    | false =>
        have hne : dataIn.isNull = false :=
          Json.isNull_eq_false.mpr (hd.request dataIn false hserver)
        have hsafe : MessageSafe jc d.helper dataIn := by
          by_contra hunsafe
          obtain ⟨f, hf⟩ := mMessageHandle_faults env hunsafe
          exact absurd (hrun.symm.trans hf) (by simp)
        have hkept := expected_interface jc (mMessageHandle_interface hrun) d.toServer
        rw [awaited_handling hserver]
        unfold expected
        rw [if_neg (by simp [hne, hsafe])]
        by_cases ha : Answered jc dataIn
        · rw [if_pos ha, handled_answered hd.helper hrun ha, awaited_replying rfl]
          exact congrArg (fun l => _ ++ d.inHand :: l) hkept
        · rw [if_neg ha, handled_harmless hd.helper hrun ha, awaited_reading rfl]
          exact congrArg (_ ++ ·) hkept

/-- Neither does writing a reply. -/
theorem awaited_reply (hstep : mainStep jc rcvbuf d .reply = some d') :
    d'.awaited jc = d.awaited jc := by
  obtain ⟨dataOut, hserver, rfl⟩ := mainStep_reply hstep
  unfold MainState.awaited
  simp [hserver]

/-- Where a call is that was made: it waits for these replies, or it returned
the first of them, or none. -/
def Fate (jc : JsonC) (call : Nat) (replies : List Nat) (d : MainState) : Prop :=
  (d.client = .reading call ∧ MainOk jc d ∧ NullLast d ∧ d.awaited jc = replies) ∨
  (∃ r ∈ d.returned, r.call = call ∧ (r.replyTo = none ∨ r.replyTo = replies.head?))

/-- **The first reply counts.** -/
theorem fate_step (hr : jc.ReadsObjects) (hn : jc.ReadsNull) {replies : List Nat}
    (h : Fate jc call replies d) {a : MainAction} (ha : a.finishes = true)
    (hstep : mainStep jc rcvbuf d a = some d') : Fate jc call replies d' := by
  have hserver : (∀ lost, a ≠ .readReply lost) → a ≠ .readEnd → Fate jc call replies d' := by
    intro hreply hend
    obtain ⟨hclient, hreturned, -, hsuffix⟩ :=
      server_frame (finishes_ne_option ha) hreply hend hstep
    rcases h with ⟨hcall, hd, hlast, hawaited⟩ | ⟨r, hr', hfate⟩
    · refine .inl ⟨hclient.trans hcall, mainOk_step hr hn hd (finishes_ne_option ha) hstep,
        nullLast_suffix hsuffix hlast, ?_⟩
      rw [← hawaited]
      cases a with
      | serve withNull => exact awaited_serve hr hn hd hlast hstep
      | handle env => exact awaited_handle hd hstep
      | reply => exact awaited_reply hstep
      | readReply lost => exact absurd rfl (hreply lost)
      | readEnd => exact absurd rfl hend
      | option => exact absurd ha (by simp [MainAction.finishes])
      | other c => exact absurd ha (by simp [MainAction.finishes])
    · exact .inr ⟨r, hreturned ▸ hr', hfate⟩
  cases a with
  | readReply lost =>
      obtain ⟨n, replyTo, out, rest, hclient, hunread, rfl⟩ := mainStep_readReply hstep
      rcases h with ⟨hcall, hd, hlast, hawaited⟩ | ⟨r, hr', hfate⟩
      · obtain rfl := ClientPc.reading.inj (hclient.symm.trans hcall)
        refine .inr ⟨_, List.mem_append_right _ List.mem_cons_self, rfl, .inr ?_⟩
        rw [← hawaited]
        unfold MainState.awaited
        rw [hunread]
        rfl
      · exact .inr ⟨r, List.mem_append_left _ hr', hfate⟩
  | readEnd =>
      obtain ⟨n, hclient, -, -, rfl⟩ := mainStep_readEnd hstep
      rcases h with ⟨hcall, -⟩ | ⟨r, hr', hfate⟩
      · obtain rfl := ClientPc.reading.inj (hclient.symm.trans hcall)
        exact .inr ⟨_, List.mem_append_right _ List.mem_cons_self, rfl, .inl rfl⟩
      · exact .inr ⟨r, List.mem_append_left _ hr', hfate⟩
  | _ => exact hserver (by simp) (by simp)

/-- If the first reply is one to another command, or there is none, the call does
not return its own. -/
theorem not_paired (hr : jc.ReadsObjects) (hn : jc.ReadsNull) (hd : MainOk jc d)
    (hlast : NullLast d) (hclient : d.client = .reading call)
    (hfirst : (d.awaited jc).head? ≠ some call) : ¬ Paired jc rcvbuf d := by
  intro hpaired
  obtain ⟨more, d', hmore, hrun, hnext⟩ :=
    (hpaired [] d (by simp) rfl).2 (by rw [hclient]; simp [ClientPc.call])
  have hfate : Fate jc call (d.awaited jc) d' :=
    run_invariant (P := fun _ a => a.finishes = true)
      (fun _ _ _ h ha hstep => fate_step hr hn h ha hstep) more
      (.inl ⟨hclient, hd, hlast, rfl⟩) (meets_of_forall more d hmore) hrun
  rcases hfate with ⟨hreading, -⟩ | ⟨r, hr', hcall, hto⟩
  · exact absurd (hreading.symm.trans hnext) (by simp)
  · have hown := ((hpaired more d' hmore hrun).1.own r hr').1
    rw [hcall] at hown
    rcases hto with hto | hto
    · exact absurd (hto.symm.trans hown) (by simp)
    · exact hfirst (hto.symm.trans hown)

/-- A client that was terminated in a call does not return from it. -/
theorem not_paired_killed (hclient : d.client = .killed (some call)) : ¬ Paired jc rcvbuf d := by
  intro hpaired
  obtain ⟨more, d', hmore, hrun, hnext⟩ :=
    (hpaired [] d (by simp) rfl).2 (by rw [hclient]; simp [ClientPc.call])
  have hkilled : d'.client = .killed (some call) := by
    refine run_invariant (P := fun _ a => a.finishes = true)
      (I := fun d => d.client = .killed (some call)) ?_ more hclient
      (meets_of_forall more d hmore) hrun
    intro e a e' he ha hstep
    cases a with
    | readReply lost => simp [mainStep, he] at hstep
    | readEnd => simp [mainStep, he] at hstep
    | option => exact absurd ha (by simp [MainAction.finishes])
    | other c => exact absurd ha (by simp [MainAction.finishes])
    | _ =>
        obtain ⟨hsame, -⟩ := server_frame (by simp) (by simp) (by simp) hstep
        rw [hsame, he]
  exact absurd (hkilled.symm.trans hnext) (by simp)

/-- Where the reply to the last request comes first, the ones before it are
harmless, and it gets a reply. -/
theorem expected_head {s : HelperState} {n : Nat} {data : Json} (ms : List (Nat × Json))
    (holder : ∀ m ∈ ms, m.1 < n)
    (hhead : (expected jc s (ms ++ [(n, data), (n, .null)])).head? = some n) :
    (∀ m ∈ ms, Harmless jc s m.2) ∧ Answered jc data := by
  induction ms with
  | nil =>
      refine ⟨fun _ hm => absurd hm List.not_mem_nil, ?_⟩
      by_contra hna
      rw [List.nil_append] at hhead
      unfold expected at hhead
      rw [expected_null] at hhead
      split_ifs at hhead <;> simp at hhead
  | cons m ms ih =>
      obtain ⟨hm, hms⟩ := List.forall_mem_cons.mp holder
      rw [List.cons_append] at hhead
      unfold expected at hhead
      split_ifs at hhead with hbad ha
      · exact absurd hhead (by simp)
      · rw [List.head?_cons] at hhead
        exact absurd (Option.some.inj hhead) (Nat.ne_of_lt hm)
      · obtain ⟨hharmless, hdata⟩ := ih hms hhead
        push Not at hbad
        exact ⟨List.forall_mem_cons.mpr ⟨⟨by simpa using hbad.1, ha, hbad.2⟩, hharmless⟩, hdata⟩

/-! ## §4. Runs. -/

theorem makeCall_gone (d : MainState) (call : LibraryCall) (hgone : d.server.gone = true) :
    d.makeCall call = { d with
      calls := d.calls + 1
      client := .killed (if waits call then some d.calls else none) } := by
  unfold MainState.makeCall
  simp only [if_pos hgone]

theorem makeCall_open (d : MainState) (call : LibraryCall) (hopen : d.server.gone = false) :
    d.makeCall call = { d with
      calls := d.calls + 1
      toServer := d.toServer ++ call.sends.map fun data => (d.calls, data)
      client := if waits call then .reading d.calls else .next } := by
  unfold MainState.makeCall
  simp [hopen]

/-- The messages that were sent, without the one in front and without a `null`
that is the last. -/
theorem tail_sent {ms : List (Nat × Json)} {n : Nat} {data : Json}
    (hms : ∀ m ∈ ms.tail, m.2 ≠ .null) (hdata : data ≠ .null) :
    (∀ m ∈ (ms ++ [(n, data)]).tail, m.2 ≠ .null) ∧
      ∀ m ∈ (ms ++ [(n, data), (n, .null)]).tail.dropLast, m.2 ≠ .null := by
  cases ms with
  | nil => exact ⟨fun m hm => absurd hm List.not_mem_nil, fun m hm => absurd hm List.not_mem_nil⟩
  | cons x ms =>
      have hall : ∀ m ∈ ms ++ [(n, data)], m.2 ≠ .null := by
        intro m hm
        rcases List.mem_append.mp hm with hm | hm
        · exact hms m hm
        · rw [List.mem_singleton.mp hm]
          exact hdata
      refine ⟨hall, ?_⟩
      rw [List.cons_append, List.tail_cons, List.dropLast_append_of_ne_nil (by simp)]
      exact hall

theorem PairInv.tail (hd : PairInv jc d) (hclient : d.client = .next) :
    ∀ m ∈ d.toServer.tail, m.2 ≠ .null := by
  have hok := hd.client
  rw [hclient] at hok
  exact hok

/-- A call that does not wait. -/
theorem pairInv_send (hd : PairInv jc d) (hclient : d.client = .next) {o : MainOption}
    {call : LibraryCall} (hcall : o.call = some call) (hwaits : waits call = false) :
    PairInv jc (d.makeCall call) := by
  obtain ⟨data, -, hcommand, hsends⟩ := sends_eq hcall
  have hmain := mainOk_makeCall hd.main hcall
  cases hgone : d.server.gone with
  | true =>
      rw [makeCall_gone d call hgone] at hmain ⊢
      simp only [hwaits] at hmain ⊢
      exact ⟨hmain, hd.own, rfl⟩
  | false =>
      rw [makeCall_open d call hgone] at hmain ⊢
      simp only [hsends, hwaits] at hmain ⊢
      exact ⟨hmain, hd.own,
        (tail_sent (hd.tail hclient) (Json.ne_null_of_isObject hcommand.1.2)).1⟩

/-- A call that waits, made in turn. -/
theorem pairInv_sync (hd : PairInv jc d) {o : MainOption} {call : LibraryCall}
    (hcall : o.call = some call) (hwaits : waits call = true) {data : Json}
    (hsends : call.sends = [data, .null]) (hturn : InTurn jc d data) :
    PairInv jc (d.makeCall call) := by
  have hmain := mainOk_makeCall hd.main hcall
  rw [makeCall_open d call hturn.free.not_gone] at hmain ⊢
  simp only [hsends, hwaits] at hmain ⊢
  exact ⟨hmain, hd.own, .queued d.toServer data hturn.answered hturn.free hturn.harmless rfl
    hturn.read⟩

/-- A call whose reply will be the first was made in turn. -/
theorem inTurn_of_first (hd : MainOk jc d) {data : Json}
    (hfirst : (MainState.awaited jc { d with
      toServer := d.toServer ++ [(d.calls, data), (d.calls, .null)] }).head? = some d.calls) :
    InTurn jc d data := by
  have hread : d.toClient = [] := by
    cases hunread : d.toClient with
    | nil => rfl
    | cons m ms =>
        have holder := (hd.unread m (by rw [hunread]; exact List.mem_cons_self)).1
        unfold MainState.awaited at hfirst
        rw [hunread] at hfirst
        exact absurd (Option.some.inj hfirst) (Nat.ne_of_lt holder)
  unfold MainState.awaited at hfirst
  rw [hread] at hfirst
  cases hserver : d.server with
  | reading got =>
      simp only [hserver, List.map_nil, List.nil_append] at hfirst
      cases got with
      | nil =>
          obtain ⟨hharmless, ha⟩ := expected_head d.toServer hd.sent hfirst
          exact ⟨ha, by rw [hserver]; rfl, hharmless, hread⟩
      | cons c got => exact absurd hfirst (by simp)
  | handle dataIn fdClosed =>
      simp only [hserver, List.map_nil, List.nil_append] at hfirst
      cases fdClosed with
      | false =>
          have hinHand := hd.inHand (by rw [hserver]; rfl)
          change (expected jc d.helper (((d.inHand, dataIn) :: d.toServer)
            ++ [(d.calls, data), (d.calls, .null)])).head? = some d.calls at hfirst
          obtain ⟨hharmless, ha⟩ := expected_head ((d.inHand, dataIn) :: d.toServer)
            (List.forall_mem_cons.mpr ⟨hinHand, hd.sent⟩) hfirst
          obtain ⟨hfree, hms⟩ := List.forall_mem_cons.mp hharmless
          exact ⟨ha, by rw [hserver]; exact ⟨rfl, hfree⟩, hms, hread⟩
      | true => exact absurd hfirst (by simp)
  | reply out =>
      simp only [hserver, List.map_nil, List.nil_append, List.head?_cons] at hfirst
      exact absurd (Option.some.inj hfirst) (Nat.ne_of_lt (hd.inHand (by rw [hserver]; rfl)))
  | _ =>
      simp only [hserver] at hfirst
      exact absurd hfirst (by simp)

/-- A call that waits, made out of turn. -/
theorem not_paired_sync (hr : jc.ReadsObjects) (hn : jc.ReadsNull) (hd : PairInv jc d)
    (hclient : d.client = .next) {o : MainOption} {call : LibraryCall}
    (hcall : o.call = some call) (hwaits : waits call = true) {data : Json}
    (hcommand : IsCommand data) (hsends : call.sends = [data, .null])
    (hturn : ¬ InTurn jc d data) : ¬ Paired jc rcvbuf (d.makeCall call) := by
  have hmain := mainOk_makeCall hd.main hcall
  cases hgone : d.server.gone with
  | true =>
      rw [makeCall_gone d call hgone]
      simp only [hwaits]
      exact not_paired_killed rfl
  | false =>
      rw [makeCall_open d call hgone] at hmain ⊢
      simp only [hsends, hwaits] at hmain ⊢
      exact not_paired hr hn hmain
        (tail_sent (hd.tail hclient) (Json.ne_null_of_isObject hcommand.1.2)).2 rfl
        (fun hfirst => hturn (inTurn_of_first hd.main hfirst))

theorem nextSync_eq (hclient : d.client = .next) {o : MainOption} {options : List MainOption}
    (hoptions : d.options = o :: options) :
    d.nextSync = (o.call.filter waits).bind LibraryCall.command := by
  unfold MainState.nextSync
  rw [hclient, hoptions]

/-- The invariant does not depend on the options that are left. -/
theorem PairInv.options (hd : PairInv jc d) (hclient : d.client = .next)
    (options : List MainOption) : PairInv jc { d with options := options } := by
  refine ⟨⟨hd.main.helper, hd.main.messages, hd.main.buffer, hd.main.sent, hd.main.inHand,
    hd.main.unread, hd.main.reply, hd.main.request⟩, hd.own, ?_⟩
  show ClientOk jc { d with options := options } d.client
  rw [hclient]
  exact hd.tail hclient

/-- **A step of `main`** meets the condition and keeps the invariant, or does
neither. -/
theorem option_step (hr : jc.ReadsObjects) (hn : jc.ReadsNull) (hd : PairInv jc d)
    (hstep : mainStep jc rcvbuf d .option = some d') :
    CallsInTurn jc d .option ∧ PairInv jc d' ∨
      ¬ CallsInTurn jc d .option ∧ ¬ Paired jc rcvbuf d' := by
  obtain ⟨o, options, hclient, hoptions, hcases⟩ := mainStep_option hstep
  have hnext := nextSync_eq hclient hoptions
  have hd₀ := hd.options hclient options
  unfold CallsInTurn
  rcases hcases with ⟨hcall, rfl⟩ | ⟨call, hcall, rfl⟩
  · rw [hcall] at hnext
    exact .inl ⟨fun data hdata => absurd (hnext ▸ hdata) (by simp), hd₀⟩
  · rw [hcall] at hnext
    obtain ⟨data, hdata, hcommand, hsends⟩ := sends_eq hcall
    cases hwaits : waits call with
    | false =>
        refine .inl ⟨?_, pairInv_send hd₀ hclient hcall hwaits⟩
        rw [hnext]
        simp [Option.filter, hwaits]
    | true =>
        rw [hwaits, if_pos rfl] at hsends
        have hsync : d.nextSync = some data := by
          rw [hnext]
          simp [Option.filter, hwaits, hdata]
        rw [hsync]
        by_cases hturn : InTurn jc d data
        · refine .inl ⟨fun x hx => by rwa [← Option.some.inj hx], ?_⟩
          exact pairInv_sync hd₀ hcall hwaits hsends
            ⟨hturn.answered, hturn.free, hturn.harmless, hturn.read⟩
        · refine .inr ⟨fun h => hturn (h data rfl), ?_⟩
          exact not_paired_sync hr hn hd₀ hclient hcall hwaits hcommand hsends
            fun h => hturn ⟨h.answered, h.free, h.harmless, h.read⟩

theorem pairInv_start {s : HelperState} (hs : HelperOk jc s) (options : List MainOption) :
    PairInv jc (.start s options) where
  main := by
    refine ⟨hs, ?_, ?_, ?_, ?_, ?_, ?_, ?_⟩ <;> simp [MainState.start, LinkPc.working]
  own := fun _ h => absurd h List.not_mem_nil
  client := fun _ h => absurd h List.not_mem_nil

end OutOfTurn

/-- **When replies are paired with commands.**  In every run of `main` with any
options, every call of `send_cmd_sync` returns the reply to its own command, and
finds no other reply, if and only if every such call is made in turn. -/
theorem replies_paired_iff {jc : JsonC} (hr : jc.ReadsObjects) (hn : jc.ReadsNull)
    {s : HelperState} (hs : HelperReachable jc s) (rcvbuf : Nat) (options : List MainOption)
    (actions : List MainAction) :
    Throughout (mainStep jc rcvbuf) (Paired jc rcvbuf) (.start s options) actions
      ↔ Meets (mainStep jc rcvbuf) (CallsInTurn jc) (.start s options) actions := by
  refine throughout_iff (I := PairInv jc) (fun _ hd => hd.paired hr hn rcvbuf) ?_ ?_ actions
    (pairInv_start (helperOk_reachable hs) options)
  · intro d a _ hstuck
    cases a with
    | option =>
        -- an option that cannot be taken makes no call
        intro data hdata
        simp only [mainStep] at hstuck
        split at hstuck
        · split at hstuck <;> exact absurd hstuck (by simp)
        · rename_i hno
          unfold MainState.nextSync at hdata
          split at hdata
          · rename_i o options hclient hoptions
            exact absurd hoptions (hno o options hclient)
          · exact absurd hdata (by simp)
    | _ => trivial
  · intro d a d' hd hstep
    by_cases hoption : a = .option
    · subst hoption
      exact option_step hr hn hd hstep
    · refine .inl ⟨?_, pairInv_step hr hn hd hoption hstep⟩
      cases a with
      | option => exact absurd rfl hoption
      | _ => trivial

/-! ### Raw commands -/

theorem isCString_uiRect : isCString "ui-rect" = true := by decide

theorem isCString_setUiRect : isCString "set ui rect" = true := by decide

theorem isCString_getModes : isCString "get modes" = true := by decide

/-- Where every message is read on its own: the request is read, handled and
replied to, and the client reads the reply. -/
def roundTrip (withNull : Bool) : List MainAction :=
  [.serve withNull, .handle .silent, .reply, .readReply 0]

/-- A raw command without a reply, between two queries. -/
theorem query_behind_raw :
    Throughout (mainStep jsonText 212992) (Paired jsonText 212992)
      (.start (.init true)
        [.get ⟨"ui-rect", isCString_uiRect⟩, .rawCmd ⟨"set ui rect", isCString_setUiRect⟩,
          .get ⟨"ui-rect", isCString_uiRect⟩])
      ([.option] ++ roundTrip true ++ [.option, .option, .serve false, .handle .silent]
        ++ roundTrip true) :=
  (replies_paired_iff jsonText_readsObjects jsonText_readsNull (.init true) 212992 _ _).mpr
    (by decide +kernel)

/-- `drm-helper-client -r "get modes" -G ui-rect`. -/
def rawQuery : MainState :=
  .start (.init true)
    [.rawCmd ⟨"get modes", isCString_getModes⟩, .get ⟨"ui-rect", isCString_uiRect⟩]

/-- Every message is read on its own. -/
def rawQueryRun : List MainAction := [.option, .option] ++ roundTrip false

/-- `get ui rect` returns the reply to `get modes`. -/
theorem raw_reply_taken :
    ((run (mainStep jsonText 212992) rawQuery rawQueryRun).map fun d =>
        d.returned.map fun r => (r.call, r.replyTo)) = some [(1, some 0)] ∧
    ¬ Throughout (mainStep jsonText 212992) (PairedNow jsonText) rawQuery rawQueryRun := by
  have hrun : ((run (mainStep jsonText 212992) rawQuery rawQueryRun).map fun d =>
      d.returned.map fun r => (r.call, r.replyTo)) = some [(1, some 0)] := by decide +kernel
  refine ⟨hrun, ?_⟩
  intro hall
  obtain ⟨d, hd, hreturned⟩ := Option.map_eq_some_iff.mp hrun
  have hnow := hall rawQueryRun [] d (List.append_nil _).symm hd
  cases hlist : d.returned with
  | nil => simp [hlist] at hreturned
  | cons r rs =>
      have hown := (hnow.own r (by rw [hlist]; exact List.mem_cons_self)).1
      simp only [hlist, List.map_cons, List.cons.injEq, Prod.mk.injEq] at hreturned
      obtain ⟨⟨hcall, hto⟩, -⟩ := hreturned
      rw [hcall, hto] at hown
      exact absurd hown (by decide)

end MesonDisplay.Client
