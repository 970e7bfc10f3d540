/-
  MesonDisplay.Ipc.ConnectionTable — the server loop keeps its connections.

  The kernel's open connections are the abstract state: a list `live` of
  descriptors, each naming one connection.  `Table` says how the three records
  of `server_ctx` represent that list.  Every branch of the loop keeps both,
  as long as the table is not full when a client is accepted.

  Main results:
    * `reads_selected_connection` — a connection is read only if it was open
      when select() returned.
    * `connection_table` — the three records agree with the kernel between
      any two rounds, and close() is called once for every connection.
    * `stores_in_bounds_iff` — the table is written within its bounds exactly
      when there are never more clients than slots.
-/
import MesonDisplay.Ipc.Server
import Mathlib.Order.Bounds.Basic

namespace MesonDisplay.Ipc

open MesonDisplay.Slots

/-! ## §1. The removal loop. -/

section RemoveLoop

variable {fd : Int} {n : Nat}

/-- An entry that stays. -/
theorem removeLoop_keep {b : Int} (h : b ≠ fd) (fuel : Nat) (A B : List Int)
    (m : Int) :
    removeLoop fd (fuel + 1) A.length (A ++ b :: B).length
        (slots (-1) (A ++ b :: B) n) m
      = removeLoop fd fuel (A ++ [b]).length (A ++ [b] ++ B).length
          (slots (-1) (A ++ [b] ++ B) n) (max m b) := by
  have hlt : A.length < (A ++ b :: B).length := by simp
  have hmax : (if m < b then b else m) = max m b := by
    rw [max_def]
    split <;> split <;> omega
  rw [removeLoop, if_pos hlt]
  simp only [getD_slots_live, if_neg h, hmax]
  simp

/-- The loop is over. -/
theorem removeLoop_done {tmp count : Nat} (h : ¬ tmp < count) (fuel : Nat)
    (sfd : List Int) (m : Int) :
    removeLoop fd fuel tmp count sfd m = (count, sfd, m) := by
  cases fuel with
  | zero => rfl
  | succ fuel => rw [removeLoop, if_neg h]

/-- The entry that goes, when it is the last one. -/
theorem removeLoop_last (fuel : Nat) (A : List Int) {m : Int} (hm : 0 ≤ m) :
    removeLoop fd (fuel + 1) A.length (A ++ [fd]).length
        (slots (-1) (A ++ [fd]) n) m
      = (A.length, slots (-1) A (n + 1), m) := by
  have hlt : A.length < (A ++ [fd]).length := by simp
  have hcount : (A ++ [fd]).length - 1 = A.length := by simp
  rw [removeLoop, if_pos hlt]
  simp only [getD_slots_live, if_true, hcount, List.set_set, slots_dropLast,
    getD_slots_empty]
  -- the emptied slot does not count for the maximum
  have hmax : ¬ m < -1 := by omega
  rw [if_neg hmax, removeLoop_done (by omega)]

/-- The entry that goes, when the last entry takes its place. -/
theorem removeLoop_swap (fuel : Nat) (A : List Int) {B : List Int} {x : Int}
    {B' : List Int} (hB : lastFirst B = x :: B') (m : Int) :
    removeLoop fd (fuel + 1) A.length (A ++ fd :: B).length
        (slots (-1) (A ++ fd :: B) n) m
      = removeLoop fd fuel (A ++ [x]).length (A ++ [x] ++ B').length
          (slots (-1) (A ++ [x] ++ B') (n + 1)) (max m x) := by
  have hlt : A.length < (A ++ fd :: B).length := by simp
  have hcount : (A ++ fd :: B).length - 1 = (A ++ B).length := by simp
  have hlen : B.length = (x :: B').length := by
    rw [← hB]
    exact (lastFirst_perm B).length_eq.symm
  have hmax : (if m < x then x else m) = max m x := by
    rw [max_def]
    split <;> split <;> omega
  rw [removeLoop, if_pos hlt]
  simp only [getD_slots_live, if_true, hcount, slots_swapRemove, hB, hmax]
  simp [hlen]

/-- Nothing is removed behind the entry that went. -/
theorem removeLoop_absent (B : List Int) :
    ∀ (A : List Int) (m : Int) (fuel : Nat), B.length ≤ fuel → fd ∉ B →
      removeLoop fd fuel A.length (A ++ B).length (slots (-1) (A ++ B) n) m
        = ((A ++ B).length, slots (-1) (A ++ B) n, B.foldl max m) := by
  induction B with
  | nil =>
      intro A m fuel _ _
      rw [List.append_nil, removeLoop_done (Nat.lt_irrefl _)]
      rfl
  | cons b B ih =>
      intro A m fuel hfuel hfd
      obtain ⟨fuel, rfl⟩ := Nat.exists_eq_succ_of_ne_zero (n := fuel)
        (by rw [List.length_cons] at hfuel; omega)
      have hb : b ≠ fd := fun h => hfd (h ▸ List.mem_cons_self)
      rw [removeLoop_keep hb, ih (A ++ [b]) (max m b) fuel
        (by rw [List.length_cons] at hfuel; omega)
        (fun h => hfd (List.mem_cons_of_mem b h))]
      simp

/-- The loop from the entry behind `A`, with the maximum of `A` in `m`. -/
theorem removeLoop_from (B : List Int) :
    ∀ (A : List Int) (m : Int) (fuel : Nat), 0 ≤ m → B.Nodup → B.length ≤ fuel →
      ∃ R : List Int,
        removeLoop fd fuel A.length (A ++ B).length (slots (-1) (A ++ B) n) m
          = ((A ++ R).length, slots (-1) (A ++ R) (n + (B.length - R.length)),
              R.foldl max m) ∧
        R.Perm (B.erase fd) := by
  induction B with
  | nil =>
      intro A m fuel _ _ _
      refine ⟨[], ?_, .refl _⟩
      rw [List.append_nil, removeLoop_done (Nat.lt_irrefl _)]
      rfl
  | cons b B ih =>
      intro A m fuel hm hnd hfuel
      obtain ⟨hbB, hndB⟩ := List.nodup_cons.mp hnd
      rw [List.length_cons] at hfuel
      obtain ⟨fuel, rfl⟩ := Nat.exists_eq_succ_of_ne_zero (n := fuel) (by omega)
      -- `A` was passed already; the next entry is the descriptor, or is kept
      by_cases hb : b = fd
      · subst hb
        rw [List.erase_cons_head]
        cases hB : lastFirst B with
        | nil =>
            -- it is the last entry: the table only gets shorter
            have hnil : B = [] := by
              have := (lastFirst_perm B).length_eq
              rw [hB] at this
              exact List.length_eq_zero_iff.mp this.symm
            subst hnil
            refine ⟨[], ?_, .refl _⟩
            rw [removeLoop_last fuel A hm]
            simp
        | cons x B' =>
            -- the last entry takes its place, and is not looked at again
            have hperm : (x :: B').Perm B := hB ▸ lastFirst_perm B
            have hfdB' : b ∉ B' := fun h =>
              hbB (hperm.mem_iff.mp (List.mem_cons_of_mem x h))
            have hlen : B'.length + 1 = B.length := hperm.length_eq
            refine ⟨x :: B', ?_, hperm⟩
            rw [removeLoop_swap fuel A hB,
                removeLoop_absent B' (A ++ [x]) (max m x) fuel (by omega) hfdB']
            have hempty : (b :: B).length - (x :: B').length = 1 := by
              simp only [List.length_cons]
              omega
            rw [hempty]
            simp
      · obtain ⟨R, hR, hperm⟩ := ih (A ++ [b]) (max m b) fuel
          (le_trans hm (le_max_left m b)) hndB (by omega)
        refine ⟨b :: R, ?_, ?_⟩
        · rw [removeLoop_keep hb, hR]
          simp
        · rw [List.erase_cons_tail (by simpa using hb)]
          exact hperm.cons b

/-- **The removal loop.**  It removes the descriptor, keeps the other entries
in some order in front of the empty slots, and finds their maximum. -/
theorem removeLoop_spec {live : List Int} (hnd : live.Nodup) :
    ∃ R : List Int,
      removeLoop fd live.length 0 live.length (slots (-1) live n) 0
        = (R.length, slots (-1) R (n + (live.length - R.length)), R.foldl max 0) ∧
      R.Perm (live.erase fd) := by
  obtain ⟨R, hR, hperm⟩ := removeLoop_from live [] 0
    live.length (le_refl 0) hnd (Nat.le_refl _)
  exact ⟨R, by simpa using hR, hperm⟩

end RemoveLoop

/-! ## §2. The open connections. -/

/-- The kernel has exactly the connections `live` open: each descriptor names
one connection, and a connection that is not open was closed once. -/
structure Kernel.Opens (k : Kernel) (live : List Int) : Prop where
  nodup : live.Nodup
  conn_isSome : ∀ fd, (k.conn fd).isSome = true ↔ fd ∈ live
  known : ∀ fd c, k.conn fd = some c → c < k.accepted
  distinct : ∀ fd fd' c, k.conn fd = some c → k.conn fd' = some c → fd = fd'
  closed_nodup : k.closed.Nodup
  mem_closed : ∀ c, c ∈ k.closed ↔ c < k.accepted ∧ ∀ fd, k.conn fd ≠ some c
  count : live.length + k.closed.length = k.accepted

/-- Closing accepts nothing. -/
@[simp] theorem Kernel.close_accepted (k : Kernel) (fd : Int) :
    (k.close fd).accepted = k.accepted := rfl

theorem Kernel.close_conn (k : Kernel) (fd x : Int) :
    (k.close fd).conn x = if x = fd then none else k.conn x := rfl

theorem Kernel.close_closed (k : Kernel) (fd : Int) :
    (k.close fd).closed = k.closed ++ (k.conn fd).toList :=
  (List.reduceOption_append _ _).trans
    (congrArg (k.closed ++ ·) (List.reduceOption_singleton (k.conn fd)))

theorem Kernel.opens_init : Kernel.init.Opens [] where
  nodup := List.nodup_nil
  conn_isSome := by simp [Kernel.init]
  known := by simp [Kernel.init]
  distinct := by simp [Kernel.init]
  closed_nodup := List.nodup_nil
  mem_closed := by simp [Kernel.init, Kernel.closed]
  count := rfl

namespace Kernel.Opens

variable {k : Kernel} {live : List Int}

theorem perm (h : k.Opens live) {live' : List Int} (hp : live'.Perm live) :
    k.Opens live' where
  nodup := hp.nodup_iff.mpr h.nodup
  conn_isSome := fun fd => (h.conn_isSome fd).trans hp.mem_iff.symm
  known := h.known
  distinct := h.distinct
  closed_nodup := h.closed_nodup
  mem_closed := h.mem_closed
  count := by rw [hp.length_eq, h.count]

/-- What is open behind an `accept`: the new connection, or an old one. -/
theorem accept_cases (h : k.Opens live) {fd x : Int} {c : Nat}
    (hc : (k.accept fd).conn x = some c) :
    (x = fd ∧ c = k.accepted) ∨ (x ≠ fd ∧ k.conn x = some c ∧ c < k.accepted) := by
  change (if x = fd then some k.accepted else k.conn x) = some c at hc
  by_cases hx : x = fd
  · rw [if_pos hx] at hc
    exact .inl ⟨hx, (Option.some.inj hc).symm⟩
  · rw [if_neg hx] at hc
    exact .inr ⟨hx, hc, h.known x c hc⟩

/-- An accepted connection is open, under a number that was free. -/
theorem accept (h : k.Opens live) {fd : Int} (hfree : k.conn fd = none) :
    (k.accept fd).Opens (live ++ [fd]) := by
  have hfd : fd ∉ live := by
    intro hmem
    have hsome := (h.conn_isSome fd).mpr hmem
    rw [hfree] at hsome
    exact absurd hsome (by simp)
  have hconn : ∀ x, (k.accept fd).conn x = if x = fd then some k.accepted else k.conn x :=
    fun _ => rfl
  constructor
  · rw [← List.concat_eq_append]
    exact h.nodup.concat hfd
  · intro x
    rw [hconn, List.mem_append, List.mem_singleton]
    by_cases hx : x = fd
    · simp [hx]
    · rw [if_neg hx, h.conn_isSome]
      simp [hx]
  · intro x c hc
    show c < k.accepted + 1
    rcases h.accept_cases hc with ⟨-, rfl⟩ | ⟨-, -, hlt⟩
    · omega
    · omega
  · intro x y c hx hy
    -- the new connection has a number no open connection has
    rcases h.accept_cases hx with ⟨rfl, hcx⟩ | ⟨-, hcx, hltx⟩
    · rcases h.accept_cases hy with ⟨rfl, -⟩ | ⟨-, -, hlty⟩
      · rfl
      · omega
    · rcases h.accept_cases hy with ⟨-, hcy⟩ | ⟨-, hcy, -⟩
      · omega
      · exact h.distinct x y c hcx hcy
  · exact h.closed_nodup
  · intro c
    show c ∈ k.closed ↔ c < k.accepted + 1 ∧ ∀ x, (k.accept fd).conn x ≠ some c
    rw [h.mem_closed]
    constructor
    · intro ⟨hlt, hno⟩
      refine ⟨by omega, fun x hx => ?_⟩
      rcases h.accept_cases hx with ⟨-, hc⟩ | ⟨-, hc, -⟩
      · omega
      · exact hno x hc
    · intro ⟨hlt, hno⟩
      have hne : c ≠ k.accepted := by
        intro hc
        apply hno fd
        rw [hconn, if_pos rfl, hc]
      refine ⟨by omega, fun x hx => ?_⟩
      have hxf : x ≠ fd := by
        intro hxf
        rw [hxf, hfree] at hx
        exact absurd hx (by simp)
      apply hno x
      rw [hconn, if_neg hxf, hx]
  · show (live ++ [fd]).length + k.closed.length = k.accepted + 1
    have hcount := h.count
    rw [List.length_append, List.length_singleton]
    omega

/-- A closed connection is not open any more. -/
theorem close_mem (h : k.Opens live) {fd : Int} (hfd : fd ∈ live) :
    (k.close fd).Opens (live.erase fd) := by
  obtain ⟨c₀, hc₀⟩ := Option.isSome_iff_exists.mp ((h.conn_isSome fd).mpr hfd)
  have hconn := k.close_conn fd
  have hclosed : (k.close fd).closed = k.closed ++ [c₀] := by
    rw [k.close_closed, hc₀]
    rfl
  have hnew : c₀ ∉ k.closed := by
    intro hmem
    exact ((h.mem_closed c₀).mp hmem).2 fd hc₀
  -- what is open now was open before, under another descriptor
  have hold : ∀ x c, (k.close fd).conn x = some c → x ≠ fd ∧ k.conn x = some c := by
    intro x c hx
    rw [hconn] at hx
    by_cases hxf : x = fd
    · rw [if_pos hxf] at hx
      exact absurd hx (by simp)
    · rw [if_neg hxf] at hx
      exact ⟨hxf, hx⟩
  constructor
  · exact h.nodup.erase fd
  · intro x
    rw [hconn, h.nodup.mem_erase_iff]
    by_cases hxf : x = fd
    · simp [hxf]
    · simp [hxf, h.conn_isSome]
  · intro x c hx
    exact h.known x c (hold x c hx).2
  · intro x y c hx hy
    exact h.distinct x y c (hold x c hx).2 (hold y c hy).2
  · rw [hclosed, ← List.concat_eq_append]
    exact h.closed_nodup.concat hnew
  · intro c
    rw [hclosed, k.close_accepted, List.mem_append, List.mem_singleton, h.mem_closed]
    constructor
    · intro hc
      rcases hc with ⟨hlt, hno⟩ | rfl
      · exact ⟨hlt, fun x hx => hno x (hold x c hx).2⟩
      · refine ⟨h.known fd c hc₀, ?_⟩
        intro x hx
        obtain ⟨hxf, hx'⟩ := hold x c hx
        exact hxf (h.distinct x fd c hx' hc₀)
    · intro ⟨hlt, hno⟩
      by_cases hc : c = c₀
      · exact .inr hc
      · left
        refine ⟨hlt, ?_⟩
        intro x hx
        apply hno x
        rw [hconn]
        by_cases hxf : x = fd
        · rw [hxf, hc₀] at hx
          exact absurd (Option.some.inj hx).symm hc
        · rw [if_neg hxf, hx]
  · rw [hclosed, k.close_accepted, List.length_erase_of_mem hfd, List.length_append,
        List.length_singleton]
    have := h.count
    have := List.length_pos_of_mem hfd
    omega

/-- Closing a descriptor under which nothing is open is an error without
effect. -/
theorem close (h : k.Opens live) (fd : Int) : (k.close fd).Opens (live.erase fd) := by
  by_cases hfd : fd ∈ live
  · exact h.close_mem hfd
  · have hnone : k.conn fd = none := by
      have := (h.conn_isSome fd).not.mpr hfd
      simpa using this
    have hconn : ∀ x, (k.close fd).conn x = k.conn x := by
      intro x
      rw [k.close_conn]
      split_ifs with hx
      · rw [hx, hnone]
      · rfl
    have hclosed : (k.close fd).closed = k.closed := by
      rw [k.close_closed, hnone]
      exact List.append_nil _
    rw [List.erase_of_not_mem hfd]
    refine ⟨h.nodup, ?_, ?_, ?_, ?_, ?_, ?_⟩
    · simpa only [hconn] using h.conn_isSome
    · simpa only [hconn, k.close_accepted] using h.known
    · simpa only [hconn] using h.distinct
    · rw [hclosed]
      exact h.closed_nodup
    · simpa only [hconn, hclosed, k.close_accepted] using h.mem_closed
    · rw [hclosed]
      exact h.count

end Kernel.Opens

/-! ## §3. The table. -/

/-- The three records of `server_ctx` hold the clients `live`. -/
structure ServerCtx.Holds (ctx : ServerCtx) (live : List Int) : Prop where
  nonneg : ∀ fd ∈ live, 0 ≤ fd
  setup_nonneg : 0 ≤ ctx.setupSfd
  setup_notMem : ctx.setupSfd ∉ live
  socketSet : ctx.socketSet = insert ctx.setupSfd live.toFinset
  fits : live.length ≤ maxConnector
  sfd : ctx.sfd = slots (-1) live (maxConnector - live.length)
  count : ctx.connectorCount = live.length
  maxFd : IsGreatest (ctx.socketSet : Set Int) ctx.maxFd

theorem ServerCtx.holds_serverCreate {serverSocket : Int} (h0 : 0 ≤ serverSocket) :
    (serverCreate serverSocket).Holds [] where
  nonneg := fun fd h => absurd h (by simp)
  setup_nonneg := h0
  setup_notMem := by simp
  socketSet := rfl
  fits := Nat.zero_le _
  sfd := rfl
  count := rfl
  maxFd := by
    show IsGreatest ((({serverSocket} : Finset Int)) : Set Int) serverSocket
    rw [Finset.coe_singleton]
    exact isGreatest_singleton

namespace ServerCtx.Holds

variable {ctx : ServerCtx} {live : List Int}

/-- A client is added while the table has an empty slot. -/
theorem addClient (h : ctx.Holds live) {fd : Int} (h0 : 0 ≤ fd)
    (hsetup : fd ≠ ctx.setupSfd) (hroom : live.length < maxConnector) :
    (ctx.addClient fd).Holds (live ++ [fd]) where
  nonneg := by
    intro x hx
    rcases List.mem_append.mp hx with hx | hx
    · exact h.nonneg x hx
    · rw [List.mem_singleton.mp hx]
      exact h0
  setup_nonneg := h.setup_nonneg
  setup_notMem := by
    show ctx.setupSfd ∉ live ++ [fd]
    intro hx
    rcases List.mem_append.mp hx with hx | hx
    · exact h.setup_notMem hx
    · exact hsetup (List.mem_singleton.mp hx).symm
  socketSet := by
    show insert fd ctx.socketSet = insert ctx.setupSfd (live ++ [fd]).toFinset
    rw [h.socketSet]
    ext x
    simp only [Finset.mem_insert, List.mem_toFinset, List.mem_append, List.mem_singleton]
    -- the set grows by the new descriptor
    tauto
  fits := by
    rw [List.length_append, List.length_singleton]
    omega
  sfd := by
    show ctx.sfd.set ctx.connectorCount fd = _
    have hslots : maxConnector - live.length = (maxConnector - (live ++ [fd]).length) + 1 := by
      rw [List.length_append, List.length_singleton]
      omega
    -- the first empty slot takes the descriptor
    rw [h.sfd, h.count, hslots, slots_push]
  count := by
    show ctx.connectorCount + 1 = _
    rw [h.count, List.length_append, List.length_singleton]
  maxFd := by
    show IsGreatest ((insert fd ctx.socketSet : Finset Int) : Set Int)
      (if fd < ctx.maxFd then ctx.maxFd else fd)
    have hmax : (if fd < ctx.maxFd then ctx.maxFd else fd) = max fd ctx.maxFd := by
      rw [max_def]
      split <;> split <;> omega
    rw [hmax, Finset.coe_insert]
    exact h.maxFd.insert fd

/-- A client is removed. -/
theorem removeClient (h : ctx.Holds live) (hnd : live.Nodup) {fd : Int}
    (hne : fd ≠ ctx.setupSfd) :
    ∃ live', live'.Perm (live.erase fd) ∧ (ctx.removeClient fd).Holds live' := by
  -- what the loop leaves in the table: the other clients, and empty slots behind them
  obtain ⟨R, hR, hperm⟩ : ∃ R : List Int,
      removeLoop fd live.length 0 live.length
          (slots (-1) live (maxConnector - live.length)) 0
        = (R.length,
            slots (-1) R (maxConnector - live.length + (live.length - R.length)),
            R.foldl max 0) ∧ R.Perm (live.erase fd) :=
    removeLoop_spec hnd
  have hlen : R.length ≤ live.length := by
    rw [hperm.length_eq]
    exact List.length_erase_le
  have hmemR : ∀ x, x ∈ R ↔ x ∈ live ∧ x ≠ fd := by
    intro x
    rw [hperm.mem_iff, hnd.mem_erase_iff]
    tauto
  have hctx : ctx.removeClient fd = { ctx with
      socketSet := ctx.socketSet.erase fd
      connectorCount := R.length
      sfd := slots (-1) R (maxConnector - live.length + (live.length - R.length))
      maxFd := if R.foldl max 0 < ctx.setupSfd then ctx.setupSfd else R.foldl max 0 } := by
    unfold ServerCtx.removeClient
    rw [h.sfd, h.count, hR]
  have hset : ctx.socketSet.erase fd = insert ctx.setupSfd R.toFinset := by
    rw [h.socketSet]
    ext x
    simp only [Finset.mem_erase, Finset.mem_insert, List.mem_toFinset, hmemR]
    by_cases hx : x = ctx.setupSfd
    · simp [hx, hne.symm]
    · simp only [hx, false_or]
      tauto
  refine ⟨R, hperm, ?_⟩
  rw [hctx]
  exact {
    nonneg := fun x hx => h.nonneg x ((hmemR x).mp hx).1
    setup_nonneg := h.setup_nonneg
    setup_notMem := fun hx => h.setup_notMem ((hmemR _).mp hx).1
    socketSet := hset
    fits := by
      have := h.fits
      omega
    sfd := by
      have hempty : maxConnector - live.length + (live.length - R.length)
          = maxConnector - R.length := by
        have := h.fits
        omega
      show slots (-1) R (maxConnector - live.length + (live.length - R.length)) = _
      rw [hempty]
    count := rfl
    maxFd := by
      show IsGreatest ((ctx.socketSet.erase fd : Finset Int) : Set Int)
        (if R.foldl max 0 < ctx.setupSfd then ctx.setupSfd else R.foldl max 0)
      -- the loop starts its maximum at 0, not at `setup_sfd`
      obtain ⟨hzero, hle⟩ := le_foldl_max R 0
      have hsetup := h.setup_nonneg
      rw [hset, Finset.coe_insert]
      by_cases hlt : R.foldl max 0 < ctx.setupSfd
      · rw [if_pos hlt]
        refine ⟨Set.mem_insert _ _, ?_⟩
        intro x hx
        rcases hx with rfl | hx
        · exact le_refl _
        · have := hle x (by simpa using hx)
          omega
      · rw [if_neg hlt]
        refine ⟨?_, ?_⟩
        · -- without a client the maximum is 0, and so is `setup_sfd` then
          rcases foldl_max_mem R 0 with hmem | hmem
          · left
            omega
          · right
            simpa using hmem
        · intro x hx
          rcases hx with rfl | hx
          · omega
          · exact hle x (by simpa using hx) }

end ServerCtx.Holds

/-! ## §4. Steps and runs. -/

/-- Every store goes to a slot of the table. -/
def StoresInBounds (events : List ServerEvent) : Prop :=
  ∀ i, ServerEvent.store i ∈ events → i < maxConnector

/-- Never more clients are connected than the table has slots. -/
def FewClients (events : List ServerEvent) : Prop :=
  ∀ fd connected, ServerEvent.accept fd connected ∈ events → connected ≤ maxConnector

section Runs

variable {σ : Type} {msgHandle : σ → Json → σ × Json}

/-- The table and the kernel agree on the clients. -/
def ServerState.Agrees (s : ServerState σ) : Prop :=
  ∃ live, s.ctx.Holds live ∧ s.kernel.Opens live

/-- Steps from `s` to `s'` with the given events keep the table, and write
outside it exactly if there is a client too many. -/
structure Keeps (s s' : ServerState σ) (events : List ServerEvent) : Prop where
  fdSet : ∀ fd, .fdSet fd ∈ events ↔ ∃ connected, .accept fd connected ∈ events
  stores : s.Agrees → (StoresInBounds events ↔ FewClients events)
  agrees : s.Agrees → FewClients events → s'.Agrees

theorem Keeps.refl (s : ServerState σ) : Keeps s s [] where
  fdSet := by simp
  stores := fun _ => ⟨fun _ _ _ h => absurd h (by simp), fun _ _ h => absurd h (by simp)⟩
  agrees := fun h _ => h

theorem fewClients_append {es es' : List ServerEvent} :
    FewClients (es ++ es') ↔ FewClients es ∧ FewClients es' := by
  unfold FewClients
  simp only [List.mem_append, or_imp, forall_and]

theorem storesInBounds_append {es es' : List ServerEvent} :
    StoresInBounds (es ++ es') ↔ StoresInBounds es ∧ StoresInBounds es' := by
  unfold StoresInBounds
  simp only [List.mem_append, or_imp, forall_and]

/-- Steps after steps. -/
theorem Keeps.trans {s s₁ s₂ : ServerState σ} {es es' : List ServerEvent}
    (h : Keeps s s₁ es) (h' : Keeps s₁ s₂ es') : Keeps s s₂ (es ++ es') where
  fdSet := by
    intro fd
    simp only [List.mem_append, h.fdSet fd, h'.fdSet fd, exists_or]
  stores := by
    intro hs
    rw [fewClients_append, storesInBounds_append]
    constructor
    · intro ⟨hb, hb'⟩
      have hf := (h.stores hs).mp hb
      exact ⟨hf, (h'.stores (h.agrees hs hf)).mp hb'⟩
    · intro ⟨hf, hf'⟩
      exact ⟨(h.stores hs).mpr hf, (h'.stores (h.agrees hs hf)).mpr hf'⟩
  agrees := by
    intro hs hf
    rw [fewClients_append] at hf
    exact h'.agrees (h.agrees hs hf.1) hf.2

theorem socketAccept_eq_some {ctx : ServerCtx} {k : Kernel} {choice fd : Int}
    (h : socketAccept ctx k choice = some fd) :
    0 ≤ fd ∧ fd ≠ ctx.setupSfd ∧ k.conn fd = none := by
  unfold socketAccept at h
  by_cases hfree : 0 ≤ choice ∧ choice ≠ ctx.setupSfd ∧ k.conn choice = none
  · rw [if_pos hfree] at h
    rw [← Option.some.inj h]
    exact hfree
  · rw [if_neg hfree] at h
    exact absurd h (by simp)

/-- **Accepting a client.**  The slot written is the number of clients that are
connected already. -/
theorem acceptClient_keeps (input : RoundInput) (s : ServerState σ) :
    Keeps s (acceptClient input s).1 (acceptClient input s).2 := by
  unfold acceptClient
  cases hacc : socketAccept s.ctx s.kernel input.acceptFd with
  | none => exact Keeps.refl s
  | some fd =>
      obtain ⟨h0, hsetup, hfree⟩ := socketAccept_eq_some hacc
      -- whether the client is one too many, and whether its store is out of
      -- bounds, depend on the same count
      have hfew : ∀ live, s.kernel.Opens live →
          (FewClients [.accept fd (s.kernel.accept fd).connected,
            .store s.ctx.connectorCount, .fdSet fd] ↔ live.length < maxConnector) := by
        intro live hk
        have hconnected : (s.kernel.accept fd).connected = live.length + 1 := by
          show s.kernel.accepted + 1 - s.kernel.closed.length = _
          have := hk.count
          omega
        unfold FewClients
        rw [hconnected]
        constructor
        · intro h
          exact h fd (live.length + 1) (by simp)
        · intro h fd' n hmem
          obtain ⟨-, rfl⟩ : fd' = fd ∧ n = live.length + 1 := by simpa using hmem
          omega
      have hstores : ∀ live, s.ctx.Holds live →
          (StoresInBounds [.accept fd (s.kernel.accept fd).connected,
            .store s.ctx.connectorCount, .fdSet fd] ↔ live.length < maxConnector) := by
        intro live hctx
        unfold StoresInBounds
        rw [hctx.count]
        constructor
        · intro h
          exact h live.length (by simp)
        · intro h i hmem
          obtain rfl : i = live.length := by simpa using hmem
          exact h
      constructor
      · intro fd'
        simp
      · intro ⟨live, hctx, hk⟩
        exact (hstores live hctx).trans (hfew live hk).symm
      · intro ⟨live, hctx, hk⟩ h
        exact ⟨live ++ [fd], hctx.addClient h0 hsetup ((hfew live hk).mp h),
          hk.accept hfree⟩

/-- What reading a client records, apart from the reading. -/
theorem mem_readClient {input : RoundInput} {i : Int} {s : ServerState σ}
    {e : ServerEvent} (h : e ∈ (readClient msgHandle input i s).2) :
    e = .read i (s.kernel.conn i) ∨ ∃ ce, e = .request i ce := by
  unfold readClient at h
  cases hh : handleRequest msgHandle s.handler (decide ((input.readRequest i).1 ≤ 0))
      (input.readRequest i).2 with
  | none =>
      simp only [hh] at h
      exact .inl (List.mem_singleton.mp h)
  | some p =>
      simp only [hh] at h
      rcases List.mem_cons.mp h with h | h
      · exact .inl h
      · obtain ⟨ce, -, rfl⟩ := List.mem_map.mp h
        exact .inr ⟨ce, rfl⟩

/-- The table and the kernel after reading a client: unchanged, or without the
client. -/
theorem readClient_ctx (input : RoundInput) (i : Int) (s : ServerState σ) :
    ((readClient msgHandle input i s).1.ctx = s.ctx ∧
      (readClient msgHandle input i s).1.kernel = s.kernel) ∨
    ((readClient msgHandle input i s).1.ctx = s.ctx.removeClient i ∧
      (readClient msgHandle input i s).1.kernel = s.kernel.close i) := by
  unfold readClient
  generalize input.readRequest i = r
  obtain ⟨ret, dataIn⟩ := r
  by_cases hret : ret ≤ 0
  · right
    simp only [hret, decide_true, if_true]
    cases handleRequest msgHandle s.handler true dataIn with
    | none => exact ⟨rfl, rfl⟩
    | some p => exact ⟨rfl, rfl⟩
  · left
    simp only [hret, decide_false, Bool.false_eq_true, if_false]
    cases handleRequest msgHandle s.handler false dataIn with
    | none => exact ⟨rfl, rfl⟩
    | some p => exact ⟨rfl, rfl⟩

/-- **Reading a client.**  No slot is written; a client that is gone leaves the
table and the kernel together. -/
theorem readClient_keeps (input : RoundInput) {i : Int} {s : ServerState σ}
    (hne : i ≠ s.ctx.setupSfd) :
    Keeps s (readClient msgHandle input i s).1 (readClient msgHandle input i s).2 := by
  -- reading a client stores nothing into the table
  have hno : ∀ j, .store j ∉ (readClient msgHandle input i s).2 := by
    intro j hmem
    rcases mem_readClient hmem with h | ⟨ce, h⟩
    · exact absurd h (by simp)
    · exact absurd h (by simp)
  have hacc : ∀ fd n, .accept fd n ∉ (readClient msgHandle input i s).2 := by
    intro fd n hmem
    rcases mem_readClient hmem with h | ⟨ce, h⟩
    · exact absurd h (by simp)
    · exact absurd h (by simp)
  have hset : ∀ fd, .fdSet fd ∉ (readClient msgHandle input i s).2 := by
    intro fd hmem
    rcases mem_readClient hmem with h | ⟨ce, h⟩
    · exact absurd h (by simp)
    · exact absurd h (by simp)
  constructor
  · intro fd
    simp [hacc, hset]
  · intro _
    exact ⟨fun _ fd n h => absurd h (hacc fd n), fun _ j h => absurd h (hno j)⟩
  · intro ⟨live, hctx, hk⟩ _
    rcases readClient_ctx input i s with ⟨hc, hkern⟩ | ⟨hc, hkern⟩
    · exact ⟨live, hc ▸ hctx, hkern ▸ hk⟩
    · obtain ⟨live', hperm, hctx'⟩ := hctx.removeClient hk.nodup hne
      exact ⟨live', hc ▸ hctx', hkern ▸ (hk.close i).perm hperm⟩

theorem scanFd_keeps (input : RoundInput) (set : Finset Int) (i : Int)
    (s : ServerState σ) :
    Keeps s (scanFd msgHandle input set i s).1 (scanFd msgHandle input set i s).2 := by
  unfold scanFd
  by_cases hab : s.aborted = true
  · rw [if_pos hab]
    exact Keeps.refl s
  · rw [if_neg hab]
    by_cases hi : i ∈ set
    · rw [if_pos hi]
      by_cases hsetup : s.ctx.setupSfd = i
      · rw [if_pos hsetup]
        exact acceptClient_keeps input s
      · rw [if_neg hsetup]
        exact readClient_keeps input (fun h => hsetup h.symm)
    · rw [if_neg hi]
      exact Keeps.refl s

theorem scan_keeps (input : RoundInput) (set : Finset Int) (is : List Int) :
    ∀ s : ServerState σ,
      Keeps s (scan msgHandle input set is s).1 (scan msgHandle input set is s).2 := by
  induction is with
  | nil =>
      intro s
      exact Keeps.refl s
  | cons i is ih =>
      intro s
      exact (scanFd_keeps input set i s).trans (ih _)

theorem serverRound_keeps (s : ServerState σ) (input : RoundInput) :
    Keeps s (serverRound msgHandle s input).1 (serverRound msgHandle s input).2 := by
  unfold serverRound
  cases input.ready with
  | none => exact Keeps.refl s
  | some ready => exact scan_keeps _ _ _ s

/-- **Runs keep the table.**  Any number of rounds. -/
theorem serverRounds_keeps (inputs : List RoundInput) :
    ∀ s : ServerState σ,
      Keeps s (serverRounds msgHandle s inputs).1 (serverRounds msgHandle s inputs).2 := by
  induction inputs with
  | nil =>
      intro s
      exact Keeps.refl s
  | cons input inputs ih =>
      intro s
      exact (serverRound_keeps s input).trans (ih _)

theorem serverListening_agrees {serverSocket : Int} (h0 : 0 ≤ serverSocket) (h : σ) :
    (serverListening serverSocket h).Agrees := by
  have hctx := ServerCtx.holds_serverCreate h0
  exact ⟨[], ⟨hctx.nonneg, hctx.setup_nonneg, hctx.setup_notMem, hctx.socketSet,
    hctx.fits, hctx.sfd, hctx.count, hctx.maxFd⟩, Kernel.opens_init⟩

end Runs

/-- A round in which select() reports `fd` alone, and a client at `fd` is
gone. -/
def roundFor (fd : Int) (acceptFd : Int) : RoundInput where
  ready := some (fun x => x == fd)
  acceptFd := acceptFd
  readRequest := fun _ => (0, Json.newObject)

/-! ## §5. Readiness within a round. -/

section Readiness

variable {σ : Type} {msgHandle : σ → Json → σ × Json}

/-- What select() waits for is open. -/
structure ServerState.Selectable (s : ServerState σ) : Prop where
  conn_isSome : ∀ fd ∈ s.ctx.socketSet, fd ≠ s.ctx.setupSfd →
    (s.kernel.conn fd).isSome = true
  setup : s.kernel.conn s.ctx.setupSfd = none
  known : ∀ fd c, s.kernel.conn fd = some c → c < s.kernel.accepted

/-- One body of the scan: what it does to the set and to the connections. -/
structure ScanStep (i : Int) (s s' : ServerState σ) : Prop where
  setupSfd : s'.ctx.setupSfd = s.ctx.setupSfd
  selectable : s.Selectable → s'.Selectable
  conn : ∀ fd c, fd ≠ i → s.kernel.conn fd = some c → s'.kernel.conn fd = some c

theorem ScanStep.refl (i : Int) (s : ServerState σ) : ScanStep i s s where
  setupSfd := rfl
  selectable := id
  conn := fun _ _ _ h => h

/-- A new connection gets a number that was free, so no open connection is
renamed. -/
theorem acceptClient_scanStep (input : RoundInput) (i : Int) (s : ServerState σ) :
    ScanStep i s (acceptClient input s).1 := by
  unfold acceptClient
  cases hacc : socketAccept s.ctx s.kernel input.acceptFd with
  | none => exact ScanStep.refl i s
  | some fd =>
      obtain ⟨-, hsetup, hfree⟩ := socketAccept_eq_some hacc
      have hconn : ∀ x, (s.kernel.accept fd).conn x
          = if x = fd then some s.kernel.accepted else s.kernel.conn x := fun _ => rfl
      constructor
      · rfl
      · intro hs
        constructor
        · intro x hx hne
          show ((s.kernel.accept fd).conn x).isSome = true
          rw [hconn]
          by_cases hxf : x = fd
          · simp [hxf]
          · rw [if_neg hxf]
            exact hs.conn_isSome x (Finset.mem_of_mem_insert_of_ne hx hxf) hne
        · show (s.kernel.accept fd).conn s.ctx.setupSfd = none
          rw [hconn, if_neg (fun h => hsetup h.symm)]
          exact hs.setup
        · intro x c hx
          have hx' : (s.kernel.accept fd).conn x = some c := hx
          rw [hconn] at hx'
          show c < s.kernel.accepted + 1
          by_cases hxf : x = fd
          · rw [if_pos hxf] at hx'
            have := Option.some.inj hx'
            omega
          · rw [if_neg hxf] at hx'
            have := hs.known x c hx'
            omega
      · intro x c _ hx
        show (s.kernel.accept fd).conn x = some c
        -- the number of the new connection was free
        have hxf : x ≠ fd := by
          intro h
          rw [h, hfree] at hx
          exact absurd hx (by simp)
        rw [hconn, if_neg hxf]
        exact hx

/-- A client that leaves takes its number out of the set. -/
theorem readClient_scanStep (input : RoundInput) {i : Int} {s : ServerState σ}
    (hne : i ≠ s.ctx.setupSfd) :
    ScanStep i s (readClient msgHandle input i s).1 := by
  rcases readClient_ctx input i s with ⟨hc, hk⟩ | ⟨hc, hk⟩
  · constructor
    · rw [hc]
    · intro hs
      exact ⟨by rw [hc, hk]; exact hs.conn_isSome, by rw [hc, hk]; exact hs.setup,
        by rw [hk]; exact hs.known⟩
    · intro x c _ hx
      rw [hk]
      exact hx
  -- the client is gone: its number is free again
  · have hsetup : (s.ctx.removeClient i).setupSfd = s.ctx.setupSfd := rfl
    have hset : (s.ctx.removeClient i).socketSet = s.ctx.socketSet.erase i := rfl
    constructor
    · rw [hc, hsetup]
    · intro hs
      constructor
      · intro x hx hxs
        rw [hc, hset] at hx
        rw [hc, hsetup] at hxs
        obtain ⟨hxi, hx⟩ := Finset.mem_erase.mp hx
        rw [hk, Kernel.close_conn, if_neg hxi]
        exact hs.conn_isSome x hx hxs
      · rw [hc, hk, hsetup, Kernel.close_conn, if_neg (fun h => hne h.symm)]
        exact hs.setup
      · intro x c hx
        rw [hk, Kernel.close_conn] at hx
        rw [hk, Kernel.close_accepted]
        by_cases hxi : x = i
        · rw [if_pos hxi] at hx
          exact absurd hx (by simp)
        · rw [if_neg hxi] at hx
          exact hs.known x c hx
    · intro x c hxi hx
      rw [hk, Kernel.close_conn, if_neg hxi]
      exact hx

/-- A call of close() that closes a connection leaves a record of one. -/
theorem readClient_closes (input : RoundInput) {i : Int} {s : ServerState σ}
    (hopen : (s.kernel.conn i).isSome = true) (hs : none ∉ s.kernel.closes) :
    none ∉ (readClient msgHandle input i s).1.kernel.closes := by
  rcases readClient_ctx input i s with ⟨-, hk⟩ | ⟨-, hk⟩
  · rw [hk]
    exact hs
  · rw [hk]
    intro hmem
    rcases List.mem_append.mp hmem with hmem | hmem
    · exact hs hmem
    · rw [← List.mem_singleton.mp hmem] at hopen
      exact absurd hopen (by simp)

theorem scanFd_closes (input : RoundInput) {set : Finset Int} {i : Int} {s : ServerState σ}
    (hopen : i ∈ set → i ≠ s.ctx.setupSfd → (s.kernel.conn i).isSome = true)
    (hs : none ∉ s.kernel.closes) :
    none ∉ (scanFd msgHandle input set i s).1.kernel.closes := by
  unfold scanFd
  split_ifs with hab hi hsetup
  · exact hs
  · unfold acceptClient
    split
    · exact hs
    · exact hs
  · exact readClient_closes input (hopen hi fun h => hsetup h.symm) hs
  · exact hs

theorem scanFd_scanStep (input : RoundInput) (set : Finset Int) (i : Int)
    (s : ServerState σ) : ScanStep i s (scanFd msgHandle input set i s).1 := by
  unfold scanFd
  by_cases hab : s.aborted = true
  · rw [if_pos hab]
    exact ScanStep.refl i s
  · rw [if_neg hab]
    by_cases hi : i ∈ set
    · rw [if_pos hi]
      by_cases hsetup : s.ctx.setupSfd = i
      · rw [if_pos hsetup]
        exact acceptClient_scanStep input i s
      · rw [if_neg hsetup]
        exact readClient_scanStep input (fun h => hsetup h.symm)
    · rw [if_neg hi]
      exact ScanStep.refl i s

/-- The scan reads only the descriptor it is at, and only if select() reported
it. -/
theorem read_mem_scanFd {input : RoundInput} {set : Finset Int} {i : Int}
    {s : ServerState σ} {fd : Int} {c : Option Nat}
    (h : .read fd c ∈ (scanFd msgHandle input set i s).2) :
    fd = i ∧ i ∈ set ∧ i ≠ s.ctx.setupSfd ∧ c = s.kernel.conn i := by
  unfold scanFd at h
  by_cases hab : s.aborted = true
  · rw [if_pos hab] at h
    exact absurd h (by simp)
  · rw [if_neg hab] at h
    by_cases hi : i ∈ set
    · rw [if_pos hi] at h
      by_cases hsetup : s.ctx.setupSfd = i
      · rw [if_pos hsetup] at h
        unfold acceptClient at h
        cases hacc : socketAccept s.ctx s.kernel input.acceptFd with
        | none => simp [hacc] at h
        | some fd => simp [hacc] at h
      · rw [if_neg hsetup] at h
        rcases mem_readClient h with h | ⟨ce, h⟩
        · obtain ⟨rfl, rfl⟩ : fd = i ∧ c = s.kernel.conn i := by simpa using h
          exact ⟨rfl, hi, fun he => hsetup he.symm, rfl⟩
        · exact absurd h (by simp)
    · rw [if_neg hi] at h
      exact absurd h (by simp)

/-- **A scan.**  Over descriptors that are all different, the connections of
those still to be scanned are the ones they had at the start.  So what is read
was open, and what is closed. -/
theorem scan_reads (input : RoundInput) (set : Finset Int) (is : List Int)
    (hnd : is.Nodup) :
    ∀ s : ServerState σ, s.Selectable →
      (scan msgHandle input set is s).1.Selectable ∧
      ((∀ i ∈ is, i ∈ set → i ≠ s.ctx.setupSfd → (s.kernel.conn i).isSome = true) →
        (none ∉ s.kernel.closes → none ∉ (scan msgHandle input set is s).1.kernel.closes) ∧
        ∀ fd c, .read fd c ∈ (scan msgHandle input set is s).2 →
          fd ∈ is ∧ fd ∈ set ∧ fd ≠ s.ctx.setupSfd ∧ c = s.kernel.conn fd) := by
  induction is with
  | nil =>
      intro s hs
      exact ⟨hs, fun _ => ⟨id, fun fd c h => absurd h (by simp [scan])⟩⟩
  | cons i is ih =>
      intro s hs
      obtain ⟨hi, hnd'⟩ := List.nodup_cons.mp hnd
      have hstep := @scanFd_scanStep σ msgHandle input set i s
      obtain ⟨hsel, hreads⟩ := ih hnd' (scanFd msgHandle input set i s).1
        (hstep.selectable hs)
      refine ⟨hsel, ?_⟩
      intro hopen
      -- what is scanned later keeps its connection in this step
      have hkeep : ∀ j ∈ is, j ∈ set → j ≠ s.ctx.setupSfd →
          (scanFd msgHandle input set i s).1.kernel.conn j = s.kernel.conn j := by
        intro j hj hjset hjsetup
        obtain ⟨cj, hcj⟩ := Option.isSome_iff_exists.mp
          (hopen j (List.mem_cons_of_mem i hj) hjset hjsetup)
        have hji : j ≠ i := fun h => hi (h ▸ hj)
        rw [hcj, hstep.conn j cj hji hcj]
      obtain ⟨hcloses, hreads'⟩ := hreads (by
        intro j hj hjset hjsetup
        rw [hstep.setupSfd] at hjsetup
        rw [hkeep j hj hjset hjsetup]
        exact hopen j (List.mem_cons_of_mem i hj) hjset hjsetup)
      refine ⟨fun hnone => hcloses (scanFd_closes input (hopen i List.mem_cons_self) hnone), ?_⟩
      intro fd c hmem
      have hmem' : .read fd c ∈ (scanFd msgHandle input set i s).2 ++
          (scan msgHandle input set is (scanFd msgHandle input set i s).1).2 := hmem
      rcases List.mem_append.mp hmem' with hmem' | hmem'
      · obtain ⟨rfl, hset, hne, hc⟩ := read_mem_scanFd hmem'
        exact ⟨List.mem_cons_self, hset, hne, hc⟩
      · obtain ⟨hfd, hset, hne, hc⟩ := hreads' fd c hmem'
        rw [hstep.setupSfd] at hne
        rw [hkeep fd hfd hset hne] at hc
        exact ⟨List.mem_cons_of_mem i hfd, hset, hne, hc⟩

theorem fdsBelow_nodup (count : Int) : (fdsBelow count).Nodup :=
  List.nodup_range.map (fun _ _ h => Int.ofNat.inj h)

theorem serverRound_selectable (s : ServerState σ) (input : RoundInput)
    (hs : s.Selectable) : (serverRound msgHandle s input).1.Selectable := by
  unfold serverRound
  cases input.ready with
  | none => exact hs
  | some ready => exact (scan_reads input _ _ (fdsBelow_nodup _) s hs).1

theorem serverRounds_selectable (inputs : List RoundInput) :
    ∀ s : ServerState σ, s.Selectable →
      (serverRounds msgHandle s inputs).1.Selectable := by
  induction inputs with
  | nil => exact fun s hs => hs
  | cons input inputs ih =>
      intro s hs
      exact ih _ (serverRound_selectable s input hs)

/-- What select() reports is open when the scan begins. -/
theorem ServerState.Selectable.reported {s : ServerState σ} (hs : s.Selectable)
    (ready : Int → Bool) (is : List Int) :
    ∀ i ∈ is, i ∈ s.ctx.socketSet.filter (fun fd => ready fd = true) → i ≠ s.ctx.setupSfd →
      (s.kernel.conn i).isSome = true :=
  fun i _ hi hne => hs.conn_isSome i (Finset.mem_filter.mp hi).1 hne

/-- **Nothing is closed twice**: every call of close() is for a connection that
is open. -/
theorem serverRounds_closes (inputs : List RoundInput) :
    ∀ s : ServerState σ, s.Selectable → none ∉ s.kernel.closes →
      none ∉ (serverRounds msgHandle s inputs).1.kernel.closes := by
  induction inputs with
  | nil => exact fun s _ hnone => hnone
  | cons input inputs ih =>
      intro s hs hnone
      have hround : none ∉ (serverRound msgHandle s input).1.kernel.closes := by
        unfold serverRound
        cases input.ready with
        | none => exact hnone
        | some ready =>
            exact ((scan_reads input _ _ (fdsBelow_nodup _) s hs).2
              (hs.reported ready _)).1 hnone
      exact ih _ (serverRound_selectable s input hs) hround

theorem serverListening_selectable (serverSocket : Int) (h : σ) :
    (serverListening serverSocket h).Selectable where
  conn_isSome := by
    intro fd hfd hne
    exact absurd (Finset.mem_singleton.mp hfd) hne
  setup := rfl
  known := fun fd c h => absurd h (by simp [serverListening, Kernel.init])

/-- **No stale readiness.**  After any number of rounds, a connection that a
round reads is the one that was open under its descriptor when select()
returned; in particular it was accepted in an earlier round. -/
theorem reads_selected_connection (serverSocket : Int) (handler : σ)
    (inputs : List RoundInput) (input : RoundInput) (fd : Int) (conn : Option Nat)
    (hread : .read fd conn ∈ (serverRound msgHandle
      (serverRoutine msgHandle serverSocket handler inputs).1 input).2) :
    let selected := (serverRoutine msgHandle serverSocket handler inputs).1
    conn = selected.kernel.conn fd ∧
    ∃ c, conn = some c ∧ c < selected.kernel.accepted := by
  intro selected
  have hsel : selected.Selectable :=
    serverRounds_selectable inputs _ (serverListening_selectable serverSocket handler)
  change .read fd conn ∈ (serverRound msgHandle selected input).2 at hread
  unfold serverRound at hread
  cases hready : input.ready with
  | none =>
      rw [hready] at hread
      exact absurd hread (by simp)
  | some ready =>
      rw [hready] at hread
      obtain ⟨-, hset, hne, hc⟩ := ((scan_reads input _ _ (fdsBelow_nodup _) selected
        hsel).2 (hsel.reported ready _)).2 fd conn hread
      obtain ⟨c, hc'⟩ := Option.isSome_iff_exists.mp
        (hsel.conn_isSome fd (Finset.mem_filter.mp hset).1 hne)
      exact ⟨hc, c, by rw [hc, hc'], hsel.known fd c hc'⟩

end Readiness

/-- A client leaves and its number is given to a new one in the same round:
the old connection is read, and not the new one. -/
theorem reads_selected_connection_reuse :
    ∃ c, some 0 = some c ∧ c < (serverRoutine silentHandle 5 () [roundFor 5 3]).1.kernel.accepted :=
  (@reads_selected_connection Unit silentHandle 5 () [roundFor 5 3]
    { ready := some (fun _ => true)
      acceptFd := 3
      readRequest := fun _ => (0, Json.newObject) } 3 (some 0) (by decide +kernel)).2

/-! ## §6. The connection table between rounds. -/

section Table

variable {σ : Type} {msgHandle : σ → Json → σ × Json}

/-- Closing the first `i` clients leaves the others, and their slots. -/
theorem closeClients_opens {s : ServerState σ} {live : List Int}
    (hctx : s.ctx.Holds live) (hk : s.kernel.Opens live) :
    ∀ i, i ≤ live.length →
      (closeClients i s).kernel.Opens (live.drop i) ∧
      (none ∉ s.kernel.closes → none ∉ (closeClients i s).kernel.closes) ∧
      ∀ j, i ≤ j → (closeClients i s).ctx.sfd.getD j (-1) = s.ctx.sfd.getD j (-1) := by
  intro i
  induction i with
  | zero =>
      intro _
      exact ⟨hk, id, fun _ _ => rfl⟩
  | succ i ih =>
      intro hi
      obtain ⟨hopens, hcloses, hsfd⟩ := ih (by omega)
      have hdrop : live.drop i = live[i] :: live.drop (i + 1) :=
        List.drop_eq_getElem_cons (by omega)
      -- the slots from `i` on are still those of the table
      have hentry : (closeClients i s).ctx.sfd.getD i (-1) = live[i] := by
        have hsplit : live = live.take i ++ live[i] :: live.drop (i + 1) := by
          rw [← hdrop, List.take_append_drop]
        have hlen : (live.take i).length = i := by
          rw [List.length_take]
          omega
        have hget := @getD_slots_live Int (-1) (maxConnector - live.length) (live.take i) live[i]
          (live.drop (i + 1)) (-1)
        rw [← hsplit, hlen] at hget
        rw [hsfd i (Nat.le_refl i), hctx.sfd, hget]
      refine ⟨?_, ?_, ?_⟩
      · show ((closeClients i s).kernel.close _).Opens _
        rw [hentry]
        have h := hopens.close live[i]
        rw [hdrop, List.erase_cons_head] at h
        exact h
      · intro hnone hmem
        change none ∈ (closeClients i s).kernel.closes
          ++ [(closeClients i s).kernel.conn ((closeClients i s).ctx.sfd.getD i (-1))] at hmem
        rw [hentry] at hmem
        rcases List.mem_append.mp hmem with hmem | hmem
        · exact hcloses hnone hmem
        · have hopen := (hopens.conn_isSome live[i]).mpr (hdrop ▸ List.mem_cons_self)
          rw [← List.mem_singleton.mp hmem] at hopen
          exact absurd hopen (by simp)
      · intro j hj
        show ((closeClients i s).ctx.sfd.set i (-1)).getD j (-1) = _
        rw [← hsfd j (by omega), List.getD_eq_getElem?_getD, List.getElem?_set_ne (by omega),
            ← List.getD_eq_getElem?_getD]

theorem closeClients_accepted (s : ServerState σ) (i : Nat) :
    (closeClients i s).kernel.accepted = s.kernel.accepted := by
  induction i with
  | zero => rfl
  | succ i ih =>
      show ((closeClients i s).kernel.close _).accepted = _
      rw [Kernel.close_accepted, ih]

/-- Every call of close() closed a connection, and every connection was closed:
then there was one call for each. -/
theorem Kernel.Opens.closes_perm {k : Kernel} (h : k.Opens []) (hnone : none ∉ k.closes) :
    k.closes.Perm ((List.range k.accepted).map some) := by
  have hsome : k.closes = k.closed.map some := by
    have hall : ∀ l : List (Option Nat), none ∉ l → l = l.reduceOption.map some := by
      intro l
      induction l with
      | nil => exact fun _ => rfl
      | cons x l ih =>
          intro hx
          obtain ⟨hx, hl⟩ := not_or.mp (mt List.mem_cons.mpr hx)
          obtain ⟨c, rfl⟩ := Option.ne_none_iff_exists'.mp (fun h => hx h.symm)
          rw [List.reduceOption_cons_of_some, List.map_cons, ← ih hl]
    exact hall k.closes hnone
  rw [hsome]
  refine List.Perm.map some ((List.perm_ext_iff_of_nodup h.closed_nodup List.nodup_range).mpr ?_)
  intro c
  rw [h.mem_closed, List.mem_range]
  refine and_iff_left_of_imp fun _ fd hfd => ?_
  have hopen := (h.conn_isSome fd).mp (by rw [hfd]; rfl)
  exact absurd hopen (by simp)

/-- **The connection table.**  As long as there are never more clients than
slots, after any number of rounds: the entries of `sfd` are the descriptors in
`socket_set` other than `setup_sfd`, each once; the slots behind them hold -1;
`max_fd` is the greatest descriptor of the set.  A thread that stops there has
called close() once for every connection it accepted, and for nothing else. -/
theorem connection_table (serverSocket : Int) (h0 : 0 ≤ serverSocket) (handler : σ)
    (inputs : List RoundInput)
    (hfew : FewClients (serverRoutine msgHandle serverSocket handler inputs).2) :
    let s := (serverRoutine msgHandle serverSocket handler inputs).1
    let stopped := serverStop s.askedToStop
    (s.ctx.sfd.take s.ctx.connectorCount).Nodup ∧
    (s.ctx.sfd.take s.ctx.connectorCount).toFinset = s.ctx.socketSet.erase s.ctx.setupSfd ∧
    (∀ i, s.ctx.connectorCount ≤ i → i < maxConnector → s.ctx.sfd[i]? = some (-1)) ∧
    IsGreatest (s.ctx.socketSet : Set Int) s.ctx.maxFd ∧
    stopped.ctx.status = .stoped ∧
    stopped.kernel.accepted = s.kernel.accepted ∧
    stopped.kernel.closes.Perm ((List.range s.kernel.accepted).map some) := by
  intro s stopped
  have hkeeps := @serverRounds_keeps σ msgHandle inputs
    (serverListening serverSocket handler)
  have hfew' : FewClients (serverRounds msgHandle (serverListening serverSocket handler)
      inputs).2 := fun fd n hmem => hfew fd n (List.mem_cons_of_mem _ hmem)
  -- the list of the connections that table, set and kernel agree on
  obtain ⟨live, hctx, hk⟩ : s.Agrees :=
    hkeeps.agrees (serverListening_agrees h0 handler) hfew'
  have htake : s.ctx.sfd.take s.ctx.connectorCount = live := by
    rw [hctx.sfd, hctx.count, take_slots]
  -- the loop behind the listening loop closes all of them
  obtain ⟨hopens, hcloses, -⟩ := @closeClients_opens σ s.askedToStop live
    ⟨hctx.nonneg, hctx.setup_nonneg, hctx.setup_notMem, hctx.socketSet, hctx.fits,
      hctx.sfd, hctx.count, hctx.maxFd⟩ hk live.length (Nat.le_refl _)
  have hstopped : stopped.kernel = (closeClients live.length s.askedToStop).kernel := by
    show (closeClients s.ctx.connectorCount s.askedToStop).kernel = _
    rw [hctx.count]
  have haccepted : stopped.kernel.accepted = s.kernel.accepted := by
    rw [hstopped, closeClients_accepted]
    rfl
  rw [List.drop_length, ← hstopped] at hopens
  rw [← hstopped] at hcloses
  refine ⟨htake ▸ hk.nodup, ?_, ?_, hctx.maxFd, rfl, ?_, ?_⟩
  · rw [htake, hctx.socketSet, Finset.erase_insert]
    simpa using hctx.setup_notMem
  · intro i hi hlt
    have := hctx.fits
    rw [hctx.count] at hi
    rw [hctx.sfd]
    exact getElem?_slots_empty hi (by omega)
  · exact haccepted
  · rw [← haccepted]
    refine hopens.closes_perm (hcloses ?_)
    exact serverRounds_closes inputs _ (serverListening_selectable serverSocket handler)
      List.not_mem_nil

end Table

/-! ### Two clients, the first of which leaves -/

/-- The first client leaves, the second one is still there at the end. -/
theorem connection_table_two_clients :
    (serverStop (serverRoutine silentHandle 3 ()
      [roundFor 3 4, roundFor 3 5, roundFor 4 4]).1.askedToStop).kernel.closes.Perm
        [some 0, some 1] := by
  have hevents : (serverRoutine silentHandle 3 ()
      [roundFor 3 4, roundFor 3 5, roundFor 4 4]).2
      = [.fdSet 3, .accept 4 1, .store 0, .fdSet 4, .accept 5 2, .store 1, .fdSet 5,
          .read 4 (some 0)] := by
    decide +kernel
  have hfew : FewClients (serverRoutine silentHandle 3 ()
      [roundFor 3 4, roundFor 3 5, roundFor 4 4]).2 := by
    rw [hevents]
    intro fd n hmem
    have hn : n = 1 ∨ n = 2 := by
      simp at hmem
      omega
    show n ≤ 50
    omega
  exact (connection_table 3 (by decide) () _ hfew).2.2.2.2.2.2

/-! ## §7. The bounds of the table. -/

section Bounds

variable {σ : Type} {msgHandle : σ → Json → σ × Json}

/-- **When the table is written within its bounds.**  Every store goes to one
of the `MAX_CONNECTOR` slots, and every descriptor given to FD_SET is below
`FD_SETSIZE`, if and only if the listening socket is, and every accepted client
is, and no client is accepted while `MAX_CONNECTOR` clients are connected. -/
theorem stores_in_bounds_iff (serverSocket : Int) (h0 : 0 ≤ serverSocket)
    (handler : σ) (inputs : List RoundInput) :
    let events := (serverRoutine msgHandle serverSocket handler inputs).2
    (StoresInBounds events ∧ ∀ fd, .fdSet fd ∈ events → fd < fdSetSize) ↔
      serverSocket < fdSetSize ∧
      ∀ fd connected, .accept fd connected ∈ events →
        connected ≤ maxConnector ∧ fd < fdSetSize := by
  intro events
  have hkeeps := @serverRounds_keeps σ msgHandle inputs
    (serverListening serverSocket handler)
  have hstores := hkeeps.stores (serverListening_agrees h0 handler)
  have hevents : events = .fdSet serverSocket :: (serverRounds msgHandle
      (serverListening serverSocket handler) inputs).2 := rfl
  -- the first event is no store and no accept
  have hstores' : StoresInBounds events ↔ FewClients events := by
    rw [hevents]
    constructor
    · intro h fd n hmem
      have hmem' := (List.mem_cons.mp hmem).resolve_left (by simp)
      exact hstores.mp (fun i hi => h i (List.mem_cons_of_mem _ hi)) fd n hmem'
    · intro h i hmem
      have hmem' := (List.mem_cons.mp hmem).resolve_left (by simp)
      exact hstores.mpr (fun fd n hn => h fd n (List.mem_cons_of_mem _ hn)) i hmem'
  -- FD_SET is given the listening socket and the accepted descriptors
  have hset : ∀ fd, .fdSet fd ∈ events ↔
      fd = serverSocket ∨ ∃ n, .accept fd n ∈ events := by
    intro fd
    rw [hevents]
    simp [hkeeps.fdSet fd]
  rw [hstores']
  constructor
  · intro ⟨hfew, hfd⟩
    refine ⟨hfd serverSocket ((hset _).mpr (.inl rfl)), ?_⟩
    intro fd n hmem
    exact ⟨hfew fd n hmem, hfd fd ((hset fd).mpr (.inr ⟨n, hmem⟩))⟩
  · intro ⟨hsocket, hacc⟩
    refine ⟨fun fd n hmem => (hacc fd n hmem).1, ?_⟩
    intro fd hmem
    rcases (hset fd).mp hmem with rfl | ⟨n, hn⟩
    · exact hsocket
    · exact (hacc fd n hn).2

end Bounds

/-- Two clients fit. -/
theorem two_clients_in_bounds :
    StoresInBounds (serverRoutine silentHandle 3 () [roundFor 3 4, roundFor 3 5]).2 := by
  have hevents : (serverRoutine silentHandle 3 () [roundFor 3 4, roundFor 3 5]).2
      = [.fdSet 3, .accept 4 1, .store 0, .fdSet 4, .accept 5 2, .store 1, .fdSet 5] := by
    decide +kernel
  refine ((stores_in_bounds_iff 3 (by decide) () _).mpr ⟨by decide, ?_⟩).1
  rw [hevents]
  intro fd n hmem
  have hn : (fd = 4 ∧ n = 1) ∨ (fd = 5 ∧ n = 2) := by
    simpa using hmem
  show n ≤ 50 ∧ fd < 1024
  omega

/-- The client after the fiftieth one is stored behind the table. -/
theorem client_behind_table :
    ServerEvent.store 50 ∈ (serverRoutine silentHandle 3 ()
      ((List.range 51).map (fun i => roundFor 3 (4 + i)))).2 ∧
    ¬ 50 < maxConnector := by
  decide +kernel

end MesonDisplay.Ipc
