/-
  MesonDisplay.Ipc.Server — the connection table of the server loop.

  `server_routine_start` keeps its connections three times: in the array
  `sfd` with `connector_count`, in the `fd_set` for select(), and in
  `max_fd`.  The kernel keeps them as open file descriptors; a number may be
  used again by a later connection.

  The loop is translated round by round.  A round takes what the kernel
  answers in it: which descriptors select() reports, which unused number
  accept() returns, and what `read_request` returns for each connection.  The
  functions record what they do as events.  What a connection does with the
  object it read is `handleRequest`, shared with `Connection`.
-/
import MesonDisplay.Ipc.Connection
import MesonDisplay.Lib.Slots
import Mathlib.Data.List.ReduceOption
import Mathlib.Data.Finset.Basic
import Mathlib.Data.Finset.Filter
import Mathlib.Data.Finset.Dedup
import Mathlib.Order.Bounds.Defs

namespace MesonDisplay.Ipc

open MesonDisplay.Slots

/-! ## §1. The server context. -/

/-- `MAX_CONNECTOR`. -/
def maxConnector : Nat := 50

/-- `FD_SETSIZE`. -/
def fdSetSize : Int := 1024

/-- `server_status`. -/
inductive ServerStatus where
  | inited
  | listening
  | goingToStop
  | stoped
  deriving DecidableEq

/-- The fields of `server_ctx` that the loop uses.  `socketSet` is the set an
`fd_set` stands for. -/
structure ServerCtx where
  setupSfd : Int
  socketSet : Finset Int
  connectorCount : Nat
  /-- The array of `MAX_CONNECTOR` descriptors. -/
  sfd : List Int
  maxFd : Int
  status : ServerStatus

/-- `server_create`, once the socket is there. -/
def serverCreate (serverSocket : Int) : ServerCtx where
  setupSfd := serverSocket
  socketSet := {serverSocket}
  connectorCount := 0
  sfd := List.replicate maxConnector (-1)
  maxFd := serverSocket
  status := .inited

/-- The stores after a successful accept().  A store behind the end of `sfd`
is undefined in C; here it is recorded by the caller and stores nothing. -/
def ServerCtx.addClient (ctx : ServerCtx) (fd : Int) : ServerCtx :=
  { ctx with
    sfd := ctx.sfd.set ctx.connectorCount fd
    connectorCount := ctx.connectorCount + 1
    socketSet := insert fd ctx.socketSet
    maxFd := if fd < ctx.maxFd then ctx.maxFd else fd }

/-- The loop over `sfd` that removes the descriptor `fd`.  It runs up to the
`connectorCount` that it changes itself; `tmp` grows, so `fuel` is enough if it
is the count at the start. -/
def removeLoop (fd : Int) : (fuel tmp connectorCount : Nat) → (sfd : List Int) →
    (max : Int) → Nat × List Int × Int
  | 0, _, connectorCount, sfd, max => (connectorCount, sfd, max)
  | fuel + 1, tmp, connectorCount, sfd, max =>
      if tmp < connectorCount then
        let (connectorCount, sfd) :=
          if sfd.getD tmp (-1) = fd then
            (connectorCount - 1,
              (sfd.set tmp (sfd.getD (connectorCount - 1) (-1))).set
                (connectorCount - 1) (-1))
          else (connectorCount, sfd)
        let max := if max < sfd.getD tmp (-1) then sfd.getD tmp (-1) else max
        removeLoop fd fuel (tmp + 1) connectorCount sfd max
      else (connectorCount, sfd, max)

/-- What happens to the table when `read_request` reports that a client is
gone. -/
def ServerCtx.removeClient (ctx : ServerCtx) (fd : Int) : ServerCtx :=
  let (connectorCount, sfd, max) :=
    removeLoop fd ctx.connectorCount 0 ctx.connectorCount ctx.sfd 0
  { ctx with
    socketSet := ctx.socketSet.erase fd
    connectorCount := connectorCount
    sfd := sfd
    maxFd := if max < ctx.setupSfd then ctx.setupSfd else max }

/-! ## §2. The kernel. -/

/-- The accepted connections of the process.  Connections are numbered in the
order in which they are accepted; a descriptor is only a name for one. -/
structure Kernel where
  /-- The connection that is open under a descriptor. -/
  conn : Int → Option Nat
  accepted : Nat
  /-- What each call of close() has closed; `none` if it was given a number
  under which nothing was open. -/
  closes : List (Option Nat)

/-- No connection was accepted yet. -/
def Kernel.init : Kernel where
  conn := fun _ => none
  accepted := 0
  closes := []

/-- The connections closed so far. -/
def Kernel.closed (k : Kernel) : List Nat := k.closes.reduceOption

/-- The number of clients connected: accepted and not closed. -/
def Kernel.connected (k : Kernel) : Nat := k.accepted - k.closed.length

def Kernel.accept (k : Kernel) (fd : Int) : Kernel :=
  { k with
    conn := fun x => if x = fd then some k.accepted else k.conn x
    accepted := k.accepted + 1 }

/-- `close(fd)`; the call is recorded also if nothing is open under `fd`. -/
def Kernel.close (k : Kernel) (fd : Int) : Kernel :=
  { k with
    conn := fun x => if x = fd then none else k.conn x
    closes := k.closes ++ [k.conn fd] }

/-- `socket_accept`: the kernel uses the number `choice` for the connection if
it is free, otherwise there is no connection. -/
def socketAccept (ctx : ServerCtx) (k : Kernel) (choice : Int) : Option Int :=
  if 0 ≤ choice ∧ choice ≠ ctx.setupSfd ∧ k.conn choice = none then some choice
  else none

/-! ## §3. The loop. -/

/-- What the loop does. -/
inductive ServerEvent where
  /-- A connection was accepted; `connected` clients are connected then. -/
  | accept (fd : Int) (connected : Nat)
  /-- `ctx->sfd[index] = fd`. -/
  | store (index : Nat)
  /-- `FD_SET(fd, &ctx->socket_set)`. -/
  | fdSet (fd : Int)
  /-- `read_request(fd, &data_in)`, with the connection `fd` stands for. -/
  | read (fd : Int) (conn : Option Nat)
  | request (fd : Int) (event : ConnEvent)
  deriving DecidableEq

/-- What the kernel and `read_request` answer in one round. -/
structure RoundInput where
  /-- The descriptors select() reports; `none` if it fails. -/
  ready : Option (Int → Bool)
  acceptFd : Int
  /-- The result of `read_request`, and the value it delivers. -/
  readRequest : Int → Int × Json

/-- The server thread and what it works on. -/
structure ServerState (σ : Type) where
  ctx : ServerCtx
  kernel : Kernel
  /-- The state behind `msg_handle`. -/
  handler : σ
  /-- json-c failed an assertion: nothing happens any more. -/
  aborted : Bool

section Loop

variable {σ : Type} (msgHandle : σ → Json → σ × Json)

/-- The branch of the scan for `setup_sfd`. -/
def acceptClient (input : RoundInput) (s : ServerState σ) :
    ServerState σ × List ServerEvent :=
  match socketAccept s.ctx s.kernel input.acceptFd with
  | none => (s, [])
  | some fd =>
      ({ s with ctx := s.ctx.addClient fd, kernel := s.kernel.accept fd },
        [.accept fd (s.kernel.accept fd).connected, .store s.ctx.connectorCount,
          .fdSet fd])

/-- The branch of the scan for a connection. -/
def readClient (input : RoundInput) (i : Int) (s : ServerState σ) :
    ServerState σ × List ServerEvent :=
  let (ret, dataIn) := input.readRequest i
  let fdClosed := decide (ret ≤ 0)
  let s' : ServerState σ :=
    if fdClosed then
      { s with ctx := s.ctx.removeClient i, kernel := s.kernel.close i }
    else s
  match handleRequest msgHandle s.handler fdClosed dataIn with
  | none => ({ s' with aborted := true }, [.read i (s.kernel.conn i)])
  | some (handler, events) =>
      ({ s' with handler := handler },
        .read i (s.kernel.conn i) :: events.map (.request i))

/-- The body of the scan, for the descriptor `i`. -/
def scanFd (input : RoundInput) (set : Finset Int) (i : Int) (s : ServerState σ) :
    ServerState σ × List ServerEvent :=
  if s.aborted then (s, [])
  else if i ∈ set then
    if s.ctx.setupSfd = i then acceptClient input s
    else readClient msgHandle input i s
  else (s, [])

/-- The scan over some descriptors, in this order. -/
def scan (input : RoundInput) (set : Finset Int) :
    List Int → ServerState σ → ServerState σ × List ServerEvent
  | [], s => (s, [])
  | i :: is, s =>
      let (s₁, events₁) := scanFd msgHandle input set i s
      let (s₂, events₂) := scan input set is s₁
      (s₂, events₁ ++ events₂)

/-- The descriptors `0, …, count - 1`. -/
def fdsBelow (count : Int) : List Int := (List.range count.toNat).map Int.ofNat

/-- One round of the `while` loop: select() and the scan of what it reports. -/
def serverRound (s : ServerState σ) (input : RoundInput) :
    ServerState σ × List ServerEvent :=
  match input.ready with
  | none => (s, [])
  | some ready =>
      scan msgHandle input (s.ctx.socketSet.filter (fun fd => ready fd = true))
        (fdsBelow (s.ctx.maxFd + 1)) s

/-- Round after round. -/
def serverRounds (s : ServerState σ) :
    List RoundInput → ServerState σ × List ServerEvent
  | [] => (s, [])
  | input :: inputs =>
      let (s₁, events₁) := serverRound msgHandle s input
      let (s₂, events₂) := serverRounds s₁ inputs
      (s₂, events₁ ++ events₂)

/-- The thread enters its loop, with the socket `server_create` made. -/
def serverListening (serverSocket : Int) (handler : σ) : ServerState σ where
  ctx := { serverCreate serverSocket with status := .listening }
  kernel := Kernel.init
  handler := handler
  aborted := false

/-- A run of the thread, in any number of rounds, with the `FD_SET` of
`server_create` in front. -/
def serverRoutine (serverSocket : Int) (handler : σ) (inputs : List RoundInput) :
    ServerState σ × List ServerEvent :=
  let (s, events) := serverRounds msgHandle (serverListening serverSocket handler) inputs
  (s, .fdSet serverSocket :: events)

/-- The thread after its loop, once the status is `SERVER_GOINGTOSTOP`: the
first `i` entries are closed and emptied. -/
def closeClients : (i : Nat) → ServerState σ → ServerState σ
  | 0, s => s
  | i + 1, s =>
      let s := closeClients i s
      { s with
        kernel := s.kernel.close (s.ctx.sfd.getD i (-1))
        ctx := { s.ctx with sfd := s.ctx.sfd.set i (-1) } }

/-- `server_destory` asks the thread to stop. -/
def ServerState.askedToStop (s : ServerState σ) : ServerState σ :=
  { s with ctx := { s.ctx with status := .goingToStop } }

/-- The `if (ctx->status == SERVER_GOINGTOSTOP)` block. -/
def serverStop (s : ServerState σ) : ServerState σ :=
  if s.ctx.status = .goingToStop then
    let s := closeClients s.ctx.connectorCount s
    { s with ctx := { s.ctx with connectorCount := 0, status := .stoped } }
  else s

end Loop

end MesonDisplay.Ipc
