/-
  MesonDisplay.Ipc.ServerRounds — the server as one object for all its clients.

  Whatever the rounds of `server_routine_start` do with their table, to the
  clients the server is a sequential object: it takes one connection after the
  other, hands what it read there to `msg_handle` in the state that the request
  before left, and answers on the same connection before it reads the next one.
  No open connection that is ready waits for a later round.

  Main results:
    * `scan_serves` — one scan serves the connections that select() reports.
    * `serverRounds_serves` — so does a run, round after round.
    * `mem_reported` — which connections these are.
    * `serves_in_order` — all of it, from the start of the thread.
-/
import MesonDisplay.Ipc.ConnectionTable
import Mathlib.Data.List.Sort

namespace MesonDisplay.Ipc

variable {σ : Type} {msgHandle : σ → Json → σ × Json}

/-! ## §1. A sequential server. -/

/-- A connection that is ready: its descriptor, what `read_request` returns
there, and the value it delivers. -/
structure Delivery where
  fd : Int
  conn : Option Nat
  ret : Int
  dataIn : Json

/-- The state behind `msg_handle`, and whether json-c stopped the process. -/
structure Service (σ : Type) where
  handler : σ
  aborted : Bool
  deriving DecidableEq

/-- One connection is read, and what was read is answered there.  A connection
that ended with the request gets no answer. -/
def Service.serve (msgHandle : σ → Json → σ × Json) (t : Service σ) (d : Delivery) :
    Service σ × List ServerEvent :=
  if t.aborted then (t, [])
  else
    match d.dataIn.objectLength with
    | none => ({ t with aborted := true }, [.read d.fd d.conn])
    | some 0 => (t, [.read d.fd d.conn])
    | some (_ + 1) =>
        let (handler, dataOut) := msgHandle t.handler d.dataIn
        ({ t with handler := handler },
          .read d.fd d.conn :: .request d.fd (.handle d.dataIn) ::
            if dataOut = .null then []
            else [.request d.fd (if 0 < d.ret then .reply dataOut else .noReceiver dataOut)])

/-- One connection after the other. -/
def Service.serveAll (msgHandle : σ → Json → σ × Json) (t : Service σ) :
    List Delivery → Service σ × List ServerEvent
  | [] => (t, [])
  | d :: ds =>
      let (t₁, events₁) := t.serve msgHandle d
      let (t₂, events₂) := t₁.serveAll msgHandle ds
      (t₂, events₁ ++ events₂)

theorem Service.serveAll_cons (t : Service σ) (d : Delivery) (ds : List Delivery) :
    t.serveAll msgHandle (d :: ds) =
      (((t.serve msgHandle d).1.serveAll msgHandle ds).1,
        (t.serve msgHandle d).2 ++ ((t.serve msgHandle d).1.serveAll msgHandle ds).2) := rfl

theorem Service.serveAll_append (ds ds' : List Delivery) : ∀ t : Service σ,
    t.serveAll msgHandle (ds ++ ds') =
      (((t.serveAll msgHandle ds).1.serveAll msgHandle ds').1,
        (t.serveAll msgHandle ds).2 ++ ((t.serveAll msgHandle ds).1.serveAll msgHandle ds').2) := by
  induction ds with
  | nil => exact fun t => rfl
  | cons d ds ih =>
      intro t
      rw [List.cons_append, Service.serveAll_cons, Service.serveAll_cons, ih]
      simp only [List.append_assoc]

theorem Service.serveAll_singleton (t : Service σ) (d : Delivery) :
    t.serveAll msgHandle [d] = t.serve msgHandle d :=
  Prod.ext rfl (List.append_nil _)

/-- What the server is to its clients. -/
def ServerState.service (s : ServerState σ) : Service σ where
  handler := s.handler
  aborted := s.aborted

/-- What it read, handled and answered. -/
def conversation (events : List ServerEvent) : List ServerEvent :=
  events.filter fun
    | .read _ _ => true
    | .request _ _ => true
    | _ => false

theorem conversation_append (es es' : List ServerEvent) :
    conversation (es ++ es') = conversation es ++ conversation es' := List.filter_append ..

theorem conversation_requests (i : Int) (events : List ConnEvent) :
    conversation (events.map (.request i)) = events.map (.request i) := by
  refine List.filter_eq_self.mpr fun e he => ?_
  obtain ⟨ce, -, rfl⟩ := List.mem_map.mp he
  rfl

/-! ## §2. What the rounds are given. -/

/-- The descriptors that are read: those that select() reported, but for the
listening socket. -/
def toRead (set : Finset Int) (setupSfd : Int) (is : List Int) : List Int :=
  is.filter fun i => i ∈ set ∧ i ≠ setupSfd

/-- The connections that a round is to read. -/
def reported (s : ServerState σ) (input : RoundInput) : List Int :=
  match input.ready with
  | none => []
  | some ready =>
      toRead (s.ctx.socketSet.filter fun fd => ready fd = true) s.ctx.setupSfd
        (fdsBelow (s.ctx.maxFd + 1))

/-- What is read from a connection of a round. -/
def RoundInput.delivery (input : RoundInput) (k : Kernel) (fd : Int) : Delivery where
  fd := fd
  conn := k.conn fd
  ret := (input.readRequest fd).1
  dataIn := (input.readRequest fd).2

/-- What the rounds of a run are given, in the order of the connections that
select() reports in each. -/
def deliveries (msgHandle : σ → Json → σ × Json) (s : ServerState σ) :
    List RoundInput → List Delivery
  | [] => []
  | input :: inputs =>
      (reported s input).map (input.delivery s.kernel) ++
        deliveries msgHandle (serverRound msgHandle s input).1 inputs

theorem toRead_cons (set : Finset Int) (setupSfd i : Int) (is : List Int) :
    toRead set setupSfd (i :: is) = toRead set setupSfd [i] ++ toRead set setupSfd is := by
  unfold toRead
  rw [← List.singleton_append, List.filter_append]

theorem mem_toRead {set : Finset Int} {setupSfd i : Int} {is : List Int} :
    i ∈ toRead set setupSfd is ↔ i ∈ is ∧ i ∈ set ∧ i ≠ setupSfd := by
  unfold toRead
  rw [List.mem_filter, decide_eq_true_iff]

theorem fdsBelow_sorted (count : Int) : (fdsBelow count).Pairwise (· < ·) := by
  unfold fdsBelow
  refine List.pairwise_map.mpr (List.pairwise_lt_range.imp ?_)
  intro a b hab
  exact Int.ofNat_lt.mpr hab

theorem mem_fdsBelow {count fd : Int} : fd ∈ fdsBelow count ↔ 0 ≤ fd ∧ fd < count := by
  unfold fdsBelow
  rw [List.mem_map]
  constructor
  · rintro ⟨n, hn, rfl⟩
    rw [List.mem_range] at hn
    constructor
    · exact Int.natCast_nonneg n
    · show (n : Int) < count
      omega
  · rintro ⟨h0, hlt⟩
    exact ⟨fd.toNat, List.mem_range.mpr (by omega), Int.toNat_of_nonneg h0⟩

/-- **What select() reports** is every open connection that is ready: the table
has them all, and no descriptor is above the greatest one. -/
theorem mem_reported {s : ServerState σ} (hagrees : s.Agrees) {input : RoundInput}
    {ready : Int → Bool} (hready : input.ready = some ready) (fd : Int) :
    fd ∈ reported s input ↔ (s.kernel.conn fd).isSome = true ∧ ready fd = true := by
  obtain ⟨live, hctx, hopens⟩ := hagrees
  unfold reported
  rw [hready, hopens.conn_isSome fd]
  show fd ∈ toRead _ _ _ ↔ _
  rw [mem_toRead, mem_fdsBelow, Finset.mem_filter, hctx.socketSet, Finset.mem_insert,
    List.mem_toFinset]
  constructor
  · rintro ⟨-, ⟨hset, hfd⟩, hsetup⟩
    exact ⟨hset.resolve_left hsetup, hfd⟩
  · rintro ⟨hlive, hfd⟩
    have hmax : fd ≤ s.ctx.maxFd := by
      refine hctx.maxFd.2 ?_
      rw [hctx.socketSet]
      exact Finset.mem_insert_of_mem (List.mem_toFinset.mpr hlive)
    have hsetup : fd ≠ s.ctx.setupSfd := fun h => hctx.setup_notMem (h ▸ hlive)
    exact ⟨⟨hctx.nonneg fd hlive, by omega⟩, ⟨.inr hlive, hfd⟩, hsetup⟩

theorem reported_sorted (s : ServerState σ) (input : RoundInput) :
    (reported s input).Pairwise (· < ·) := by
  unfold reported
  cases input.ready with
  | none => exact .nil
  | some ready => exact (fdsBelow_sorted _).filter _

/-! ## §3. The rounds serve in order. -/

/-- Steps from `s` to `s'` with the given events are those of the sequential
server. -/
def Serves (msgHandle : σ → Json → σ × Json) (s s' : ServerState σ)
    (events : List ServerEvent) (ds : List Delivery) : Prop :=
  s.service.serveAll msgHandle ds = (s'.service, conversation events)

theorem Serves.refl (s : ServerState σ) : Serves msgHandle s s [] [] := rfl

theorem Serves.trans {s s₁ s₂ : ServerState σ} {es es' : List ServerEvent}
    {ds ds' : List Delivery} (h : Serves msgHandle s s₁ es ds)
    (h' : Serves msgHandle s₁ s₂ es' ds') :
    Serves msgHandle s s₂ (es ++ es') (ds ++ ds') := by
  unfold Serves at h h' ⊢
  rw [Service.serveAll_append, h, conversation_append]
  show ((s₁.service.serveAll msgHandle ds').1,
    conversation es ++ (s₁.service.serveAll msgHandle ds').2) = _
  rw [h']

/-- A server that was stopped does nothing, whatever is delivered. -/
theorem Serves.aborted {s : ServerState σ} (hab : s.aborted = true) (ds : List Delivery) :
    Serves msgHandle s s [] ds := by
  unfold Serves
  induction ds with
  | nil => rfl
  | cons d ds ih =>
      have hserve : s.service.serve msgHandle d = (s.service, []) := if_pos hab
      rw [Service.serveAll_cons, hserve, ih]
      rfl

/-- A new client is not read yet. -/
theorem acceptClient_serves (input : RoundInput) (s : ServerState σ) :
    Serves msgHandle s (acceptClient input s).1 (acceptClient input s).2 [] := by
  unfold acceptClient
  cases socketAccept s.ctx s.kernel input.acceptFd with
  | none => exact .refl s
  | some fd => rfl

/-- What `readClient` makes of the result of `handleRequest`. -/
theorem readClient_handled (input : RoundInput) (i : Int) (s : ServerState σ) :
    ((readClient msgHandle input i s).1.service, conversation (readClient msgHandle input i s).2) =
      match handleRequest msgHandle s.handler (decide ((input.readRequest i).1 ≤ 0))
        (input.readRequest i).2 with
      | none => ({ s.service with aborted := true }, [.read i (s.kernel.conn i)])
      | some (handler, events) =>
          ({ s.service with handler := handler },
            .read i (s.kernel.conn i) :: events.map (.request i)) := by
  have hservice : ∀ gone : Bool, (if gone = true then
      { s with ctx := s.ctx.removeClient i, kernel := s.kernel.close i } else s).service
        = s.service := by
    intro gone
    cases gone <;> rfl
  unfold readClient
  cases hhandled : handleRequest msgHandle s.handler (decide ((input.readRequest i).1 ≤ 0))
      (input.readRequest i).2 with
  | none =>
      simp only [hhandled]
      refine Prod.ext ?_ rfl
      exact congrArg (fun t : Service σ => { t with aborted := true }) (hservice _)
  | some p =>
      simp only [hhandled]
      refine Prod.ext ?_ ?_
      · exact congrArg (fun t : Service σ => { t with handler := p.1 }) (hservice _)
      · exact congrArg (ServerEvent.read i (s.kernel.conn i) :: ·) (conversation_requests i p.2)

theorem replyEvents_ret (ret : Int) (dataOut : Json) :
    replyEvents (decide (ret ≤ 0)) dataOut =
      if dataOut = .null then []
      else [if 0 < ret then .reply dataOut else .noReceiver dataOut] := by
  unfold replyEvents
  by_cases hnull : dataOut = .null
  · rw [if_pos hnull, if_pos (Json.isNull_eq_true.mpr hnull)]
  · rw [if_neg hnull, if_neg (fun h => hnull (Json.isNull_eq_true.mp h))]
    by_cases hret : 0 < ret
    · rw [if_pos hret, if_neg (by simp [hret])]
    · rw [if_neg hret, if_pos (by simp; omega)]

/-- **One connection.**  It is read, what was read is handled, and the answer
goes back. -/
theorem readClient_serves (input : RoundInput) (i : Int) {s : ServerState σ}
    (hrun : s.aborted = false) :
    Serves msgHandle s (readClient msgHandle input i s).1 (readClient msgHandle input i s).2
      [input.delivery s.kernel i] := by
  unfold Serves
  rw [Service.serveAll_singleton, readClient_handled]
  unfold Service.serve handleRequest RoundInput.delivery
  rw [if_neg (by rw [show s.service.aborted = false from hrun]; exact Bool.false_ne_true)]
  cases (input.readRequest i).2.objectLength with
  | none => rfl
  | some n =>
      cases n with
      -- an empty object is not handed on
      | zero => rfl
      | succ n =>
          refine Prod.ext rfl ?_
          simp only [replyEvents_ret, List.map_cons]
          congr 2
          show _ = (if _ then [] else [_]).map _
          rw [apply_ite (List.map (ServerEvent.request i))]
          rfl

/-- One body of the scan. -/
theorem scanFd_serves (input : RoundInput) (set : Finset Int) (i : Int) (s : ServerState σ) :
    Serves msgHandle s (scanFd msgHandle input set i s).1 (scanFd msgHandle input set i s).2
      ((toRead set s.ctx.setupSfd [i]).map (input.delivery s.kernel)) := by
  unfold scanFd
  by_cases hab : s.aborted = true
  · rw [if_pos hab]
    exact .aborted hab _
  · rw [if_neg hab]
    by_cases hi : i ∈ set
    · rw [if_pos hi]
      by_cases hsetup : s.ctx.setupSfd = i
      · rw [if_pos hsetup, show toRead set s.ctx.setupSfd [i] = [] by simp [toRead, hsetup]]
        exact acceptClient_serves input s
      · rw [if_neg hsetup, show toRead set s.ctx.setupSfd [i] = [i] by
          simp [toRead, hi, Ne.symm hsetup]]
        exact readClient_serves input i (Bool.eq_false_iff.mpr hab)
    · rw [if_neg hi, show toRead set s.ctx.setupSfd [i] = [] by simp [toRead, hi]]
      exact .refl s

/-- **A scan** serves what was reported, with the connections of its start. -/
theorem scan_serves (input : RoundInput) (set : Finset Int) (is : List Int) (hnd : is.Nodup) :
    ∀ s : ServerState σ, (∀ i ∈ is, i ∈ set → i ≠ s.ctx.setupSfd →
        (s.kernel.conn i).isSome = true) →
      Serves msgHandle s (scan msgHandle input set is s).1 (scan msgHandle input set is s).2
        ((toRead set s.ctx.setupSfd is).map (input.delivery s.kernel)) := by
  induction is with
  | nil => exact fun s _ => .refl s
  | cons i is ih =>
      intro s hopen
      obtain ⟨hi, hnd'⟩ := List.nodup_cons.mp hnd
      have hstep := @scanFd_scanStep σ msgHandle input set i s
      -- What is scanned later keeps its connection.
      have hkeep : ∀ j ∈ is, j ∈ set → j ≠ s.ctx.setupSfd →
          (scanFd msgHandle input set i s).1.kernel.conn j = s.kernel.conn j := by
        intro j hj hjset hjsetup
        obtain ⟨c, hc⟩ := Option.isSome_iff_exists.mp
          (hopen j (List.mem_cons_of_mem i hj) hjset hjsetup)
        rw [hc, hstep.conn j c (fun h => hi (h ▸ hj)) hc]
      have hrest := ih hnd' (scanFd msgHandle input set i s).1 (by
        intro j hj hjset hjsetup
        rw [hstep.setupSfd] at hjsetup
        rw [hkeep j hj hjset hjsetup]
        exact hopen j (List.mem_cons_of_mem i hj) hjset hjsetup)
      have hsame : (toRead set s.ctx.setupSfd is).map
            (input.delivery (scanFd msgHandle input set i s).1.kernel)
          = (toRead set s.ctx.setupSfd is).map (input.delivery s.kernel) := by
        refine List.map_congr_left fun j hj => ?_
        obtain ⟨hjis, hjset, hjsetup⟩ := mem_toRead.mp hj
        unfold RoundInput.delivery
        rw [hkeep j hjis hjset hjsetup]
      rw [hstep.setupSfd, hsame] at hrest
      rw [toRead_cons, List.map_append]
      exact (scanFd_serves input set i s).trans hrest

theorem serverRound_serves {s : ServerState σ} (hsel : s.Selectable) (input : RoundInput) :
    Serves msgHandle s (serverRound msgHandle s input).1 (serverRound msgHandle s input).2
      ((reported s input).map (input.delivery s.kernel)) := by
  unfold serverRound reported
  cases input.ready with
  | none => exact .refl s
  | some ready =>
      exact scan_serves input _ _ (fdsBelow_nodup _) s (hsel.reported ready _)

/-- **A run** serves what its rounds are given. -/
theorem serverRounds_serves (inputs : List RoundInput) :
    ∀ s : ServerState σ, s.Selectable →
      Serves msgHandle s (serverRounds msgHandle s inputs).1 (serverRounds msgHandle s inputs).2
        (deliveries msgHandle s inputs) := by
  induction inputs with
  | nil => exact fun s _ => .refl s
  | cons input inputs ih =>
      intro s hsel
      exact (serverRound_serves hsel input).trans
        (ih _ (serverRound_selectable s input hsel))

/-- **The server serves in order.**  In any number of rounds, what it reads,
hands to `msg_handle` and answers is what a sequential server does with the
connections that the rounds are given, one after the other, and so is the state
of the handler.  While there are no more clients than slots, a round is given
every open connection that is ready, each once. -/
theorem serves_in_order (serverSocket : Int) (h0 : 0 ≤ serverSocket) (handler : σ)
    (inputs : List RoundInput)
    (hfew : FewClients (serverRoutine msgHandle serverSocket handler inputs).2) :
    let s := (serverRoutine msgHandle serverSocket handler inputs).1
    Service.serveAll msgHandle ⟨handler, false⟩
        (deliveries msgHandle (serverListening serverSocket handler) inputs) =
      (s.service, conversation (serverRoutine msgHandle serverSocket handler inputs).2) ∧
    ∀ input ready, input.ready = some ready →
      (reported s input).Pairwise (· < ·) ∧
      ∀ fd, fd ∈ reported s input ↔ (s.kernel.conn fd).isSome = true ∧ ready fd = true := by
  intro s
  have hfew' : FewClients (serverRounds msgHandle (serverListening serverSocket handler)
      inputs).2 := fun fd n hmem => hfew fd n (List.mem_cons_of_mem _ hmem)
  have hagrees : s.Agrees := (serverRounds_keeps inputs
    (serverListening serverSocket handler)).agrees (serverListening_agrees h0 handler) hfew'
  have hserves := @serverRounds_serves σ msgHandle inputs _
    (serverListening_selectable serverSocket handler)
  refine ⟨hserves, ?_⟩
  intro input ready hready
  exact ⟨reported_sorted s input, mem_reported hagrees hready⟩

/-! ### Two clients in one round -/

/-- A handler that answers a request with how many there were before it. -/
def countingHandle (count : Int) (_ : Json) : Int × Json := (count + 1, .int count)

/-- Every descriptor is ready: another client comes, the one at 4 asks, and the
one at 5 asks and is gone. -/
def allReady : RoundInput where
  ready := some fun _ => true
  acceptFd := 6
  readRequest := fun fd => (if fd = 4 then 1 else 0, getUiRectRequest)

/-- The first one is answered before the second one is read, for which it is
too late. -/
theorem serves_in_order_two_clients :
    (serverRoutine countingHandle 3 0 [roundFor 3 4, roundFor 3 5, allReady]).1.service
        = ⟨2, false⟩ ∧
      conversation (serverRoutine countingHandle 3 0
          [roundFor 3 4, roundFor 3 5, allReady]).2 =
        [.read 4 (some 0), .request 4 (.handle getUiRectRequest), .request 4 (.reply (.int 0)),
          .read 5 (some 1), .request 5 (.handle getUiRectRequest),
          .request 5 (.noReceiver (.int 1))] := by
  have hfew : FewClients (serverRoutine countingHandle 3 0
      [roundFor 3 4, roundFor 3 5, allReady]).2 := by
    rw [show (serverRoutine countingHandle 3 0 [roundFor 3 4, roundFor 3 5, allReady]).2 =
        [.fdSet 3, .accept 4 1, .store 0, .fdSet 4, .accept 5 2, .store 1, .fdSet 5,
          .accept 6 3, .store 2, .fdSet 6, .read 4 (some 0),
          .request 4 (.handle getUiRectRequest), .request 4 (.reply (.int 0)),
          .read 5 (some 1), .request 5 (.handle getUiRectRequest),
          .request 5 (.noReceiver (.int 1))] by decide +kernel]
    intro fd n hmem
    have hn : n = 1 ∨ n = 2 ∨ n = 3 := by
      simp at hmem
      omega
    show n ≤ 50
    omega
  obtain ⟨hserves, -⟩ := serves_in_order 3 (by decide) 0 _ hfew
  have hspec : Service.serveAll countingHandle ⟨0, false⟩
      (deliveries countingHandle (serverListening 3 0) [roundFor 3 4, roundFor 3 5, allReady]) =
        (⟨2, false⟩, [.read 4 (some 0), .request 4 (.handle getUiRectRequest),
          .request 4 (.reply (.int 0)), .read 5 (some 1), .request 5 (.handle getUiRectRequest),
          .request 5 (.noReceiver (.int 1))]) := by
    decide +kernel
  exact Prod.ext_iff.mp (hserves.symm.trans hspec)

end MesonDisplay.Ipc
