/-
  MesonDisplay.Ipc.SocketNames — who answers under the name of a server.

  `server_create` and `client_create` bind a socket to a path: they unlink the
  path and bind it, in two system calls.  `server_destory` and `client_destory`
  close the socket and unlink the path, whoever bound it.  Any number of
  contexts, in any processes, make these calls in any order.  The type of a
  context is short enough for the fields it is copied to.

  A run is the list of these calls with what they return.  Which server is the
  newest one is read off the list.

  Main results:
    * `server_path_iff` — only servers of one type share a path.
    * `reaches_newest` — a client is connected to the last server of its type
      that bound the path, as long as no server of the type was created or
      destroyed behind that.
-/
import MesonDisplay.Lib.Runs
import Mathlib.Logic.Function.Basic

namespace MesonDisplay.Ipc

open MesonDisplay.Runs

/-! ## §1. The paths. -/

/-- SOCKET_PATH. -/
def socketPath : String := "/tmp/0x1socket_ipc/"

/-- SERVER_SOCKET_PATH. -/
def serverSocketPath (type : String) : String := socketPath ++ "0x1socket_ipc_server_" ++ type

/-- CLIENT_SOCKET_PATH. -/
def clientSocketPath (type : String) (pid : Nat) : String :=
  socketPath ++ "0x1socket_ipc_client_" ++ type ++ toString pid

/-- A context is one of a server or of a client, for good. -/
inductive Owner where
  | server (type : String)
  | client (type : String) (pid : Nat)
  deriving DecidableEq

def Owner.path : Owner → String
  | .server type => serverSocketPath type
  | .client type pid => clientSocketPath type pid

theorem append_inj_left {pre a b : String} (h : pre ++ a = pre ++ b) : a = b := by
  have hlist := congrArg String.toList h
  rw [String.toList_append, String.toList_append] at hlist
  exact String.toList_inj.mp (List.append_cancel_left hlist)

/-- **Only servers of the type** use the path of a server. -/
theorem server_path_iff (o : Owner) (type : String) :
    o.path = serverSocketPath type ↔ o = .server type := by
  constructor
  · intro h
    cases o with
    | server type' => exact congrArg Owner.server (append_inj_left h)
    | client type' pid =>
        -- The paths differ behind the directory.
        have hlist := congrArg String.toList h
        simp [Owner.path, serverSocketPath, clientSocketPath, socketPath] at hlist
  · rintro rfl
    rfl

/-! ## §2. The calls. -/

/-- Where a context is.  `gone` is a context that was destroyed, or that could
not be created. -/
inductive CtxPhase where
  | fresh
  | unlinking
  | binding
  | listening
  | serving
  | connecting
  | connected (peer : Nat)
  | removing
  | gone
  deriving DecidableEq

/-- Where the contexts are, and the names in the directory with the sockets
behind them. -/
structure NameState where
  phase : Nat → CtxPhase
  names : String → Option Nat

def NameState.start : NameState where
  phase := fun _ => .fresh
  names := fun _ => none

/-- The system calls, with what they return where they may fail. -/
inductive NameCall where
  /-- `socket` for a new context. -/
  | socket (ctx : Nat)
  /-- `unlink` in `socket_create`. -/
  | unlink (ctx : Nat)
  | bind (ctx : Nat) (ok : Bool)
  | listen (ctx : Nat) (ok : Bool)
  | connect (ctx : Nat)
  /-- `close` in `server_destory` and `client_destory`. -/
  | close (ctx : Nat)
  /-- `unlink` behind it. -/
  | remove (ctx : Nat)
  deriving DecidableEq

def NameState.move (s : NameState) (ctx : Nat) (phase : CtxPhase) : NameState :=
  { s with phase := Function.update s.phase ctx phase }

/-- The path of the context has this name now. -/
def NameState.rename (s : NameState) (o : Owner) (bound : Option Nat) : NameState :=
  { s with names := Function.update s.names o.path bound }

/-- The server behind a path that accepts connections. -/
def NameState.listener (s : NameState) (path : String) : Option Nat :=
  match s.names path with
  | none => none
  | some k => if s.phase k = .serving then some k else none

variable (owner : Nat → Owner)

def NameState.step (s : NameState) : NameCall → Option NameState
  | .socket ctx =>
      match s.phase ctx with
      | .fresh => some (s.move ctx .unlinking)
      | _ => none
  | .unlink ctx =>
      match s.phase ctx with
      | .unlinking => some ((s.rename (owner ctx) none).move ctx .binding)
      | _ => none
  | .bind ctx true =>
      match s.phase ctx, s.names (owner ctx).path with
      | .binding, none =>
          some ((s.rename (owner ctx) (some ctx)).move ctx
            (match owner ctx with
              | .server _ => .listening
              | .client _ _ => .connecting))
      -- Where another context was faster, it fails with EADDRINUSE.
      | _, _ => none
  | .bind ctx false =>
      match s.phase ctx with
      | .binding => some (s.move ctx .gone)
      | _ => none
  | .listen ctx ok =>
      match s.phase ctx with
      | .listening => some (s.move ctx (if ok then .serving else .gone))
      | _ => none
  | .connect ctx =>
      match owner ctx, s.phase ctx with
      | .client type _, .connecting =>
          match s.listener (serverSocketPath type) with
          | some k => some (s.move ctx (.connected k))
          | none => some (s.move ctx .gone)
      | _, _ => none
  | .close ctx =>
      match s.phase ctx with
      | .serving => some (s.move ctx .removing)
      | .connected _ => some (s.move ctx .removing)
      | _ => none
  | .remove ctx =>
      match s.phase ctx with
      | .removing => some ((s.rename (owner ctx) none).move ctx .gone)
      | _ => none

/-! ## §3. The newest server. -/

/-- The context whose name the call changes. -/
def NameCall.renames : NameCall → Option Nat
  | .unlink ctx => some ctx
  | .bind ctx true => some ctx
  | .remove ctx => some ctx
  | _ => none

/-- In the list of calls the context is the last server of the type that bound
the path, and no server of the type bound or unlinked it behind that. -/
def Newest (calls : List NameCall) (type : String) (k : Nat) : Prop :=
  owner k = .server type ∧
    ∃ before after, calls = before ++ .bind k true :: after ∧
      ∀ call ∈ after, ∀ ctx, call.renames = some ctx → owner ctx ≠ .server type

/-- A client that connects behind these calls reaches the newest server, if that
accepts connections, and nobody else; without one it is not created. -/
def Reaches (calls : List NameCall) (s : NameState) : Prop :=
  ∀ ctx type pid, owner ctx = .client type pid → s.phase ctx = .connecting →
    ∃ s', s.step owner (.connect ctx) = some s' ∧
      ((∃ k, s'.phase ctx = .connected k ∧ s.phase k = .serving ∧ Newest owner calls type k) ∨
        s'.phase ctx = .gone ∧ ∀ k, Newest owner calls type k → s.phase k ≠ .serving)

variable {owner}

/-- One call more: the server is the one that the call binds, or it was the
newest one and the call changes no name of the type. -/
theorem newest_snoc_iff (calls : List NameCall) (call : NameCall) (type : String) (k : Nat) :
    Newest owner (calls ++ [call]) type k ↔
      owner k = .server type ∧ call = .bind k true ∨
        Newest owner calls type k ∧
          ∀ ctx, call.renames = some ctx → owner ctx ≠ .server type := by
  constructor
  · rintro ⟨hserver, before, after, hcalls, hafter⟩
    rcases List.eq_nil_or_concat after with rfl | ⟨after', last, rfl⟩
    · have hlast := (List.append_inj' hcalls rfl).2
      exact .inl ⟨hserver, List.head_eq_of_cons_eq hlast⟩
    · rw [List.concat_eq_append, ← List.cons_append, ← List.append_assoc] at hcalls
      obtain ⟨hinit, hlast⟩ := List.append_inj' hcalls rfl
      obtain rfl := List.head_eq_of_cons_eq hlast
      rw [List.concat_eq_append] at hafter
      exact .inr ⟨⟨hserver, before, after', hinit, fun c hc =>
        hafter c (List.mem_append_left _ hc)⟩, hafter call (List.mem_append_right _ List.mem_cons_self)⟩
  · rintro (⟨hserver, rfl⟩ | ⟨⟨hserver, before, after, rfl, hafter⟩, hcall⟩)
    · exact ⟨hserver, calls, [], rfl, fun _ hc => absurd hc List.not_mem_nil⟩
    · refine ⟨hserver, before, after ++ [call], by simp, fun c hc => ?_⟩
      rcases List.mem_append.mp hc with hc | hc
      · exact hafter c hc
      · obtain rfl := List.mem_singleton.mp hc
        exact hcall

variable {s s' : NameState}

/-- What a call does to the names. -/
theorem step_names {call : NameCall} (hstep : s.step owner call = some s') :
    s'.names =
      match call.renames with
      | none => s.names
      | some ctx =>
          Function.update s.names (owner ctx).path
            (if call = .bind ctx true then some ctx else none) := by
  cases call with
  | socket ctx =>
      simp only [NameState.step] at hstep
      split at hstep
      next => exact Option.some.inj hstep ▸ rfl
      next => exact absurd hstep (by simp)
  | unlink ctx =>
      simp only [NameState.step] at hstep
      split at hstep
      next => exact Option.some.inj hstep ▸ rfl
      next => exact absurd hstep (by simp)
  | bind ctx ok =>
      cases ok with
      | true =>
          simp only [NameState.step] at hstep
          split at hstep
          next =>
              obtain rfl := Option.some.inj hstep
              simp only [NameCall.renames, if_true]
              rfl
          next => exact absurd hstep (by simp)
      | false =>
          simp only [NameState.step] at hstep
          split at hstep
          next => exact Option.some.inj hstep ▸ rfl
          next => exact absurd hstep (by simp)
  | listen ctx ok =>
      simp only [NameState.step] at hstep
      split at hstep
      next => exact Option.some.inj hstep ▸ rfl
      next => exact absurd hstep (by simp)
  | connect ctx =>
      simp only [NameState.step] at hstep
      split at hstep
      next =>
          split at hstep
          next => exact Option.some.inj hstep ▸ rfl
          next => exact Option.some.inj hstep ▸ rfl
      next => exact absurd hstep (by simp)
  | close ctx =>
      simp only [NameState.step] at hstep
      split at hstep
      next => exact Option.some.inj hstep ▸ rfl
      next => exact Option.some.inj hstep ▸ rfl
      next => exact absurd hstep (by simp)
  | remove ctx =>
      simp only [NameState.step] at hstep
      split at hstep
      next => exact Option.some.inj hstep ▸ rfl
      next => exact absurd hstep (by simp)

/-- What every call keeps: the path of a type names the newest server. -/
def Named (owner : Nat → Owner) (calls : List NameCall) (s : NameState) : Prop :=
  ∀ type k, s.names (serverSocketPath type) = some k ↔ Newest owner calls type k

theorem start_named : Named owner [] NameState.start := by
  intro type k
  refine iff_of_false nofun ?_
  rintro ⟨-, before, after, hcalls, -⟩
  exact absurd hcalls (by simp)

theorem step_named {calls : List NameCall} {call : NameCall} (h : Named owner calls s)
    (hstep : s.step owner call = some s') : Named owner (calls ++ [call]) s' := by
  intro type k
  rw [newest_snoc_iff, step_names hstep]
  cases hrenames : call.renames with
  | none =>
      have hne : call ≠ .bind k true := by
        rintro rfl
        exact absurd hrenames (by simp [NameCall.renames])
      simp [hne, h type k]
  | some ctx =>
      simp only [Option.some.injEq, forall_eq']
      by_cases hserver : owner ctx = .server type
      · -- a server of the type: the call decides alone
        rw [(server_path_iff (owner ctx) type).mpr hserver, Function.update_self]
        simp only [hserver, ne_eq, not_true_eq_false, and_false, or_false]
        constructor
        · intro hk
          split at hk
          next hbind =>
              obtain rfl := Option.some.inj hk
              exact ⟨hserver, hbind⟩
          next => exact absurd hk (by simp)
        · rintro ⟨-, rfl⟩
          obtain rfl : k = ctx := Option.some.inj hrenames
          exact if_pos rfl
      · have hpath : serverSocketPath type ≠ (owner ctx).path :=
          fun heq => hserver ((server_path_iff (owner ctx) type).mp heq.symm)
        rw [Function.update_of_ne hpath, h type k]
        constructor
        · exact fun hk => .inr ⟨hk, hserver⟩
        · rintro (⟨hk, rfl⟩ | ⟨hk, -⟩)
          · obtain rfl : k = ctx := Option.some.inj hrenames
            exact absurd hk hserver
          · exact hk

/-- The listener behind the path of a type is its newest server. -/
theorem listener_iff {calls : List NameCall} (h : Named owner calls s) (type : String) (k : Nat) :
    s.listener (serverSocketPath type) = some k ↔
      Newest owner calls type k ∧ s.phase k = .serving := by
  rw [← h]
  unfold NameState.listener
  cases hname : s.names (serverSocketPath type) with
  | none => exact iff_of_false nofun fun hk => absurd hk.1 (by simp)
  | some j =>
      by_cases hserving : s.phase j = .serving
      · simp only [if_pos hserving]
        constructor
        · intro hk
          obtain rfl := Option.some.inj hk
          exact ⟨rfl, hserving⟩
        · exact And.left
      · simp only [if_neg hserving]
        refine iff_of_false nofun ?_
        rintro ⟨hk, hk'⟩
        obtain rfl := Option.some.inj hk
        exact hserving hk'

theorem Named.reaches {calls : List NameCall} (h : Named owner calls s) :
    Reaches owner calls s := by
  intro ctx type pid howner hphase
  cases hlistener : s.listener (serverSocketPath type) with
  | some k =>
      obtain ⟨hnewest, hserving⟩ := (listener_iff h type k).mp hlistener
      refine ⟨s.move ctx (.connected k), ?_,
        .inl ⟨k, Function.update_self .., hserving, hnewest⟩⟩
      simp only [NameState.step, howner, hphase, hlistener]
  | none =>
      refine ⟨s.move ctx .gone, ?_, .inr ⟨Function.update_self .., fun k hnewest hserving => ?_⟩⟩
      · simp only [NameState.step, howner, hphase, hlistener]
      · have hfound := (listener_iff h type k).mpr ⟨hnewest, hserving⟩
        exact absurd (hlistener.symm.trans hfound) (by simp)

/-- **A client reaches the newest server.**  In every order of the calls of any
contexts: a client that connects gets the last server of its type that bound the
path, if that still accepts connections and no server of the type was begun,
failed or was destroyed behind it, be it an older one; otherwise it gets none. -/
theorem reaches_newest (owner : Nat → Owner) (calls : List NameCall) {s : NameState}
    (hrun : run (NameState.step owner) NameState.start calls = some s) :
    Reaches owner calls s :=
  (run_history_invariant (fun _ _ _ _ h hstep => step_named h hstep) calls start_named
    hrun).reaches

/-- Two servers of one type and a client of it. -/
def oneType : Nat → Owner
  | 0 => .server "display"
  | 1 => .server "display"
  | _ => .client "display" 7

/-- Both servers are created, the second one takes the path over. -/
def takenOver : List NameCall :=
  [.socket 0, .unlink 0, .bind 0 true, .listen 0 true, .socket 2, .unlink 2, .socket 1,
    .unlink 1, .bind 1 true, .bind 2 true, .listen 1 true]

theorem reaches_second_server :
    ∃ s, run (NameState.step oneType) NameState.start takenOver = some s ∧
      Reaches oneType takenOver s ∧
      (s.step oneType (.connect 2)).map (fun t => t.phase 2) = some (.connected 1) :=
  ⟨_, rfl, reaches_newest oneType takenOver rfl, rfl⟩

end MesonDisplay.Ipc
