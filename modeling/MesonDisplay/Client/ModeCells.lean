/-
  MesonDisplay.Client.ModeCells — the lists of the client, cell by cell.

  `dump_modes` builds its lists from the front, through a pointer to the link
  that is still NULL.  It frees the last mode again if that cannot be read.
  `free_connection_list` frees the lists from the back.

  Main results:
    * `dumpModeCells_spec`, `dumpConnectionCells_spec` — the loops build the
      lists of `dumpModeList` and `dumpConnections`.
    * `dumpModes_freed` — what `dump_modes` allocates, `free_connection_list`
      frees, each cell once.
-/
import MesonDisplay.Client.Modes
import MesonDisplay.Lib.Cells

namespace MesonDisplay.Client

open MesonDisplay.Cells
open MesonDisplay.Helper
open MesonDisplay.LinkedList (ok_bind error_bind)

/-! ## §1. The cells. -/

/-- `drm_output_mode_list` and `drm_connection_list`. -/
inductive ClientCell where
  | mode (mode : DrmOutputMode) (next : Option Nat)
  | connection (conn : DrmConnection) (modes next : Option Nat)
  deriving DecidableEq, Repr

/-- Cells as calloc() gives them. -/
def ClientCell.zeroMode : ClientCell := .mode ⟨"", 0, 0, 0⟩ none

def ClientCell.zeroConnection : ClientCell := .connection ⟨0, 0, 0, 0, 0, 0, 0, []⟩ none none

inductive LinkField where
  | modes
  | next
  deriving DecidableEq, Repr

/-- What `curr` and `curr_mode` point to. -/
inductive Link where
  | conn
  | field (f : LinkField) (a : Nat)
  deriving DecidableEq, Repr

def ClientCell.setLink (p : Option Nat) : LinkField → ClientCell → ClientCell
  | .next, .mode info _ => .mode info p
  | .modes, .mode info next => .mode info next
  | .next, .connection conn modes _ => .connection conn modes p
  | .modes, .connection conn _ next => .connection conn p next

/-- The memory, the variable `conn`, and how often calloc() was called. -/
structure DumpState where
  memory : Memory ClientCell
  conn : Option Nat
  calls : Nat

/-! ## §2. dump_modes. -/

def DumpState.calloc (al : Allocator ClientCell) (s : DumpState) (cell : ClientCell) :
    Option Nat × DumpState :=
  if al.ok s.calls then
    let a := al.pick s.calls s.memory
    (some a, { s with memory := s.memory.insert a cell, calls := s.calls + 1 })
  else (none, { s with calls := s.calls + 1 })

/-- Writes into a cell. -/
def DumpState.write (s : DumpState) (a : Nat) (f : ClientCell → ClientCell) :
    Except Fault DumpState :=
  match s.memory.lookup a with
  | some cell => .ok { s with memory := s.memory.insert a (f cell) }
  | none => .error .badPointer

/-- `*curr = p`. -/
def DumpState.store (s : DumpState) (p : Option Nat) : Link → Except Fault DumpState
  | .conn => .ok { s with conn := p }
  | .field f a => s.write a (ClientCell.setLink p f)

/-- `free`. -/
def release (m : Memory ClientCell) (a : Nat) : Except Fault (Memory ClientCell) :=
  if a ∈ m then .ok (m.erase a) else .error .badPointer

def freeModesFrom : Nat → Memory ClientCell → Option Nat → Except Fault (Memory ClientCell)
  | _, m, none => .ok m
  | 0, _, some _ => .error .endless
  | fuel + 1, m, some a =>
      match m.lookup a with
      | some (.mode _ next) => do
          let m ← freeModesFrom fuel m next
          release m a
      | _ => .error .badPointer

/-- `free_modes`; where the pointer is NULL, it is not called.  A list that is
longer than the memory has no end. -/
def freeModes (m : Memory ClientCell) (p : Option Nat) : Except Fault (Memory ClientCell) :=
  freeModesFrom m.keys.card m p

def ClientCell.setMode (mode : DrmOutputMode) : ClientCell → ClientCell
  | .mode _ next => .mode mode next
  | cell => cell

def ClientCell.setConnection (conn : DrmConnection) : ClientCell → ClientCell
  | .connection _ modes next => .connection conn modes next
  | cell => cell

/-- The inner loop of `dump_modes`. -/
def dumpModeCells (jc : JsonC) (al : Allocator ClientCell) :
    DumpState → Link → List (String × Json) → Except Fault DumpState
  | s, _, [] => .ok s
  | s, curr, (_, value) :: fs => do
      let (p, s) := s.calloc al .zeroMode
      let s ← s.store p curr
      match p with
      | none => .ok s
      | some a =>
          match jsonFormatToDrmOutputMode jc value with
          | none => do
              let m ← freeModes s.memory (some a)
              { s with memory := m }.store none curr
          | some mode => do
              let s ← s.write a (ClientCell.setMode mode)
              dumpModeCells jc al s (.field .next a) fs

/-- The outer loop. -/
def dumpConnectionCells (jc : JsonC) (al : Allocator ClientCell) :
    DumpState → Link → List (String × Json) → Except Fault DumpState
  | s, _, [] => .ok s
  | s, curr, (_, val) :: fs => do
      let (p, s) := s.calloc al .zeroConnection
      let s ← s.store p curr
      match p with
      | none => .ok s
      | some a => do
          let s ← s.write a (ClientCell.setConnection (readConnection jc val))
          match val.objectGet "modes" with
          | .null => .ok s
          | .object modes => do
              let s ← dumpModeCells jc al s (.field .modes a) modes
              dumpConnectionCells jc al s (.field .next a) fs
          | _ => .error .foreachNonObject

/-- `dump_modes`: the list, and the memory behind the call. -/
def dumpModesIn (jc : JsonC) (al : Allocator ClientCell) (m : Memory ClientCell) (data : Json) :
    Except Fault (Option Nat × Memory ClientCell) :=
  match data with
  | .null => .ok (none, m)
  | .object fs => do
      let s ← dumpConnectionCells jc al ⟨m, none, 0⟩ .conn fs
      .ok (s.conn, s.memory)
  | _ => .error .foreachNonObject

/-! ## §3. free_connection_list. -/

def freeConnectionsFrom :
    Nat → Memory ClientCell → Option Nat → Except Fault (Memory ClientCell)
  | _, m, none => .ok m
  | 0, _, some _ => .error .endless
  | fuel + 1, m, some a =>
      match m.lookup a with
      | some (.connection _ _ next) => do
          let m ← freeConnectionsFrom fuel m next
          match m.lookup a with
          | some (.connection _ modes _) => do
              let m ← freeModes m modes
              release m a
          | _ => .error .badPointer
      | _ => .error .badPointer

/-- `free_connection_list`. -/
def freeConnectionList (m : Memory ClientCell) (p : Option Nat) :
    Except Fault (Memory ClientCell) :=
  freeConnectionsFrom m.keys.card m p

/-! ## §4. The lists. -/

/-- The list of modes at a pointer, and its cells in order. -/
def ModesAt (m : Memory ClientCell) : Option Nat → List DrmOutputMode → List Nat → Prop
  | p, [], as => p = none ∧ as = []
  | p, mode :: modes, as => ∃ a next rest, p = some a ∧ as = a :: rest ∧
      m.lookup a = some (.mode mode next) ∧ ModesAt m next modes rest

/-- The list of connections at a pointer.  The cells of a connection are its
own, those of its modes, and those of the connections behind it. -/
def ConnectionsAt (m : Memory ClientCell) : Option Nat → List DrmConnection → List Nat → Prop
  | p, [], as => p = none ∧ as = []
  | p, conn :: conns, as => ∃ a modes next modeCells rest, p = some a ∧
      as = a :: (modeCells ++ rest) ∧
      m.lookup a = some (.connection { conn with modes := [] } modes next) ∧
      ModesAt m modes conn.modes modeCells ∧ ConnectionsAt m next conns rest

variable {m m' : Memory ClientCell} {as : List Nat}

theorem ModesAt.mem {modes : List DrmOutputMode} :
    ∀ {p : Option Nat} {as : List Nat}, ModesAt m p modes as → ∀ a ∈ as, a ∈ m := by
  induction modes with
  | nil =>
      rintro p as ⟨-, rfl⟩ a ha
      exact absurd ha List.not_mem_nil
  | cons mode modes ih =>
      rintro p as ⟨b, next, rest, -, rfl, hb, hrest⟩ a ha
      rcases List.mem_cons.mp ha with rfl | ha
      · exact Finmap.mem_of_lookup_eq_some hb
      · exact ih hrest a ha

theorem ModesAt.congr {modes : List DrmOutputMode} :
    ∀ {p : Option Nat} {as : List Nat}, ModesAt m p modes as →
      (∀ a ∈ as, m'.lookup a = m.lookup a) → ModesAt m' p modes as := by
  induction modes with
  | nil => exact fun h _ => h
  | cons mode modes ih =>
      rintro p as ⟨b, next, rest, hp, rfl, hb, hrest⟩ hsame
      refine ⟨b, next, rest, hp, rfl, (hsame b List.mem_cons_self).trans hb, ih hrest ?_⟩
      exact fun a ha => hsame a (List.mem_cons_of_mem b ha)

theorem ConnectionsAt.mem {conns : List DrmConnection} :
    ∀ {p : Option Nat} {as : List Nat}, ConnectionsAt m p conns as → ∀ a ∈ as, a ∈ m := by
  induction conns with
  | nil =>
      rintro p as ⟨-, rfl⟩ a ha
      exact absurd ha List.not_mem_nil
  | cons conn conns ih =>
      rintro p as ⟨b, modes, next, modeCells, rest, -, rfl, hb, hmodes, hrest⟩ a ha
      rcases List.mem_cons.mp ha with rfl | ha
      · exact Finmap.mem_of_lookup_eq_some hb
      · rcases List.mem_append.mp ha with ha | ha
        · exact hmodes.mem a ha
        · exact ih hrest a ha

/-! ## §5. Freeing a list. -/

theorem release_eq {a : Nat} (ha : a ∈ m) : release m a = .ok (m.erase a) := if_pos ha

theorem mem_eraseAll {a : Nat} (ha : a ∈ m) (hnot : a ∉ as) : a ∈ eraseAll as m := by
  obtain ⟨cell, hcell⟩ := Finmap.mem_iff.mp ha
  refine Finmap.mem_of_lookup_eq_some (b := cell) ?_
  rw [lookup_eraseAll, if_neg hnot]
  exact hcell

theorem freeModesFrom_eq {modes : List DrmOutputMode} :
    ∀ {fuel : Nat} {p : Option Nat} {as : List Nat}, ModesAt m p modes as → as.Nodup →
      as.length ≤ fuel → freeModesFrom fuel m p = .ok (eraseAll as m) := by
  induction modes with
  | nil =>
      rintro fuel p as ⟨rfl, rfl⟩ - -
      unfold freeModesFrom
      rfl
  | cons mode modes ih =>
      rintro fuel p as ⟨a, next, rest, rfl, rfl, ha, hrest⟩ hnodup hfuel
      obtain ⟨hnot, hnodup'⟩ := List.nodup_cons.mp hnodup
      cases fuel with
      | zero => exact absurd hfuel (by simp)
      | succ fuel =>
          rw [freeModesFrom]
          simp only [ha]
          rw [ih hrest hnodup' (Nat.le_of_succ_le_succ hfuel), ok_bind]
          exact release_eq (mem_eraseAll (Finmap.mem_of_lookup_eq_some ha) hnot)

theorem freeModes_eq {modes : List DrmOutputMode} {p : Option Nat} (h : ModesAt m p modes as)
    (hnodup : as.Nodup) : freeModes m p = .ok (eraseAll as m) :=
  freeModesFrom_eq h hnodup (length_le_card hnodup h.mem)

/-- A connection is freed behind the ones that follow it, and its modes before
it. -/
theorem freeConnectionsFrom_eq {conns : List DrmConnection} :
    ∀ {fuel : Nat} {p : Option Nat} {as : List Nat}, ConnectionsAt m p conns as → as.Nodup →
      as.length ≤ fuel → freeConnectionsFrom fuel m p = .ok (eraseAll as m) := by
  induction conns with
  | nil =>
      rintro fuel p as ⟨rfl, rfl⟩ - -
      unfold freeConnectionsFrom
      rfl
  | cons conn conns ih =>
      rintro fuel p as ⟨a, modes, next, modeCells, rest, rfl, rfl, ha, hmodes, hrest⟩ hnodup hfuel
      obtain ⟨hnot, hnodup'⟩ := List.nodup_cons.mp hnodup
      obtain ⟨hnodupModes, hnodupRest, hdisjoint⟩ := List.nodup_append.mp hnodup'
      have hnotRest : a ∉ rest := fun h => hnot (List.mem_append_right _ h)
      cases fuel with
      | zero => exact absurd hfuel (by simp)
      | succ fuel =>
          have hfuel' : rest.length ≤ fuel := by
            simp only [List.length_cons, List.length_append] at hfuel
            omega
          -- The connections behind it share no cell with it and its modes.
          have ha' : (eraseAll rest m).lookup a =
              some (.connection { conn with modes := [] } modes next) := by
            rw [lookup_eraseAll, if_neg hnotRest]
            exact ha
          have hmodes' : ModesAt (eraseAll rest m) modes conn.modes modeCells := by
            refine hmodes.congr fun x hx => ?_
            rw [lookup_eraseAll, if_neg fun hx' => hdisjoint x hx x hx' rfl]
          rw [freeConnectionsFrom]
          simp only [ha]
          rw [ih hrest hnodupRest hfuel', ok_bind]
          simp only [ha']
          rw [freeModes_eq hmodes' hnodupModes, ok_bind, ← eraseAll_append]
          exact release_eq (mem_eraseAll (Finmap.mem_of_lookup_eq_some ha) hnot)

theorem freeConnectionList_eq {conns : List DrmConnection} {p : Option Nat}
    (h : ConnectionsAt m p conns as) (hnodup : as.Nodup) :
    freeConnectionList m p = .ok (eraseAll as m) :=
  freeConnectionsFrom_eq h hnodup (length_le_card hnodup h.mem)

/-! ## §6. Building a list. -/

variable {jc : JsonC} {al : Allocator ClientCell} {s s' : DumpState}

theorem write_eq {a : Nat} {cell : ClientCell} (h : s.memory.lookup a = some cell)
    (f : ClientCell → ClientCell) :
    s.write a f = .ok { s with memory := s.memory.insert a (f cell) } := by
  unfold DumpState.write
  rw [h]

/-- The link is in a variable, or in a cell that is there. -/
def DumpState.Live (s : DumpState) : Link → Prop
  | .conn => True
  | .field _ a => a ∈ s.memory

/-- The link is NULL. -/
def DumpState.Null (s : DumpState) : Link → Prop
  | .conn => s.conn = none
  | .field f a => ∃ cell, s.memory.lookup a = some cell ∧ cell.setLink none f = cell

/-- The variable and the cells, with `p` in the link. -/
def DumpState.linkedConn (s : DumpState) (p : Option Nat) : Link → Option Nat
  | .conn => p
  | .field _ _ => s.conn

def DumpState.linkedCell (s : DumpState) (p : Option Nat) : Link → Nat → Option ClientCell
  | .conn, x => s.memory.lookup x
  | .field f a, x =>
      if x = a then (s.memory.lookup a).map (ClientCell.setLink p f) else s.memory.lookup x

theorem store_eq {curr : Link} (hlive : s.Live curr) (p : Option Nat) :
    ∃ s', s.store p curr = .ok s' ∧ s'.calls = s.calls ∧ s'.conn = s.linkedConn p curr ∧
      ∀ x, s'.memory.lookup x = s.linkedCell p curr x := by
  cases curr with
  | conn => exact ⟨_, rfl, rfl, rfl, fun _ => rfl⟩
  | field f a =>
      obtain ⟨cell, hcell⟩ := Finmap.mem_iff.mp hlive
      refine ⟨_, write_eq hcell _, rfl, rfl, fun x => ?_⟩
      unfold DumpState.linkedCell
      dsimp only
      by_cases hx : x = a
      · rw [hx, Finmap.lookup_insert, hcell, if_pos rfl]
        rfl
      · rw [Finmap.lookup_insert_of_ne _ hx, if_neg hx]

theorem DumpState.Null.live {curr : Link} (h : s.Null curr) : s.Live curr := by
  cases curr with
  | conn => trivial
  | field f a =>
      obtain ⟨cell, hcell, -⟩ := h
      exact Finmap.mem_of_lookup_eq_some hcell

theorem DumpState.Null.linkedConn {curr : Link} (h : s.Null curr) :
    s.linkedConn none curr = s.conn := by
  cases curr with
  | conn => exact h.symm
  | field f a => rfl

theorem DumpState.Null.linkedCell {curr : Link} (h : s.Null curr) (x : Nat) :
    s.linkedCell none curr x = s.memory.lookup x := by
  cases curr with
  | conn => rfl
  | field f a =>
      obtain ⟨cell, hcell, hset⟩ := h
      unfold DumpState.linkedCell
      dsimp only
      by_cases hx : x = a
      · rw [if_pos hx, hx, hcell, Option.map_some, hset]
      · rw [if_neg hx]

/-- What a loop that begins at a link has built: `p` is in the link, and the
cells are new ones. -/
structure Built (s s' : DumpState) (curr : Link) (p : Option Nat) (as : List Nat) : Prop where
  nodup : as.Nodup
  fresh : ∀ a ∈ as, a ∉ s.memory
  conn : s'.conn = s.linkedConn p curr
  lookup : ∀ x ∉ as, s'.memory.lookup x = s.linkedCell p curr x

/-- The loop built nothing. -/
theorem built_null {curr : Link} (hnull : s.Null curr) (hconn : s'.conn = s.conn)
    (hlookup : ∀ x, s'.memory.lookup x = s.memory.lookup x) : Built s s' curr none [] where
  nodup := List.nodup_nil
  fresh := fun _ ha => absurd ha List.not_mem_nil
  conn := hconn.trans hnull.linkedConn.symm
  lookup := fun x _ => (hlookup x).trans (hnull.linkedCell x).symm

theorem Built.field_self {f : LinkField} {a : Nat} {p : Option Nat} {cell : ClientCell}
    (h : Built s s' (.field f a) p as) (ha : s.memory.lookup a = some cell) :
    s'.memory.lookup a = some (cell.setLink p f) := by
  have hnot : a ∉ as := fun hmem => h.fresh a hmem (Finmap.mem_of_lookup_eq_some ha)
  rw [h.lookup a hnot]
  unfold DumpState.linkedCell
  dsimp only
  rw [if_pos rfl, ha]
  rfl

theorem Built.field_other {f : LinkField} {a x : Nat} {p : Option Nat}
    (h : Built s s' (.field f a) p as) (hx : x ∉ as) (hne : x ≠ a) :
    s'.memory.lookup x = s.memory.lookup x := by
  rw [h.lookup x hx]
  exact if_neg hne

theorem Built.mem {curr : Link} {p : Option Nat} (h : Built s s' curr p as) {x : Nat}
    (hx : x ∈ s.memory) : x ∈ s'.memory := by
  obtain ⟨cell, hcell⟩ := Finmap.mem_iff.mp hx
  rw [Finmap.mem_iff, h.lookup x fun hmem => h.fresh x hmem hx]
  unfold DumpState.linkedCell
  cases curr with
  | conn => exact ⟨cell, hcell⟩
  | field f a =>
      dsimp only
      by_cases ha : x = a
      · rw [if_pos ha, ← ha, hcell]
        exact ⟨_, rfl⟩
      · rw [if_neg ha]
        exact ⟨cell, hcell⟩

/-- What a loop builds at a link of one of the new cells is built as well. -/
theorem Built.extend {curr : Link} {p q : Option Nat} {a : Nat} {f : LinkField} {as' : List Nat}
    {s₃ : DumpState} (h : Built s s' curr p as) (ha : a ∈ as) (hmem : ∀ x ∈ as, x ∈ s'.memory)
    (h' : Built s' s₃ (.field f a) q as') : Built s s₃ curr p (as ++ as') where
  nodup := by
    refine List.nodup_append.mpr ⟨h.nodup, h'.nodup, ?_⟩
    rintro x hx _ hx' rfl
    exact h'.fresh x hx' (hmem x hx)
  fresh := by
    intro x hx
    rcases List.mem_append.mp hx with hx | hx
    · exact h.fresh x hx
    · exact fun hold => h'.fresh x hx (h.mem hold)
  conn := h'.conn.trans h.conn
  lookup := by
    intro x hx
    obtain ⟨hx₁, hx₂⟩ := not_or.mp (mt List.mem_append.mpr hx)
    have hne : x ≠ a := by
      rintro rfl
      exact hx₁ ha
    exact (h'.field_other hx₂ hne).trans (h.lookup x hx₁)

/-! ## §7. One cell more. -/

/-- A new cell at a link, with everything else as it was. -/
structure Grown (s s' : DumpState) (curr : Link) (a : Nat) (cell : ClientCell) : Prop where
  built : Built s s' curr (some a) [a]
  calls : s'.calls = s.calls + 1
  self : s'.memory.lookup a = some cell

theorem Grown.fresh {curr : Link} {a : Nat} {cell : ClientCell} (h : Grown s s' curr a cell) :
    a ∉ s.memory := h.built.fresh a List.mem_cons_self

theorem Grown.other {curr : Link} {a x : Nat} {cell : ClientCell} (h : Grown s s' curr a cell)
    (hx : x ≠ a) : s'.memory.lookup x = s.linkedCell (some a) curr x :=
  h.built.lookup x (mt List.mem_singleton.mp hx)

theorem linkedCell_calloc {curr : Link} {a x : Nat} {cell : ClientCell} (p : Option Nat)
    (hlive : s.Live curr) (ha : a ∉ s.memory) (hx : x ≠ a) :
    DumpState.linkedCell { s with memory := s.memory.insert a cell, calls := s.calls + 1 } p curr x
      = s.linkedCell p curr x := by
  unfold DumpState.linkedCell
  cases curr with
  | conn => exact Finmap.lookup_insert_of_ne _ hx
  | field f b =>
      have hb : b ≠ a := by
        rintro rfl
        exact ha hlive
      dsimp only
      rw [Finmap.lookup_insert_of_ne _ hx, Finmap.lookup_insert_of_ne _ hb]

theorem live_calloc {curr : Link} (a : Nat) (cell : ClientCell) (hlive : s.Live curr) :
    DumpState.Live { s with memory := s.memory.insert a cell, calls := s.calls + 1 } curr := by
  cases curr with
  | conn => trivial
  | field f b => exact Finmap.mem_insert.mpr (.inr hlive)

/-- calloc() and `*curr = ...`, if it succeeds. -/
theorem calloc_ok {curr : Link} (hlive : s.Live curr) (hok : al.ok s.calls = true)
    (cell : ClientCell) :
    ∃ a s₁ s₂, s.calloc al cell = (some a, s₁) ∧ s₁.store (some a) curr = .ok s₂ ∧
      Grown s s₂ curr a cell := by
  have hfresh : al.pick s.calls s.memory ∉ s.memory := al.unused _ _
  obtain ⟨s₂, hstore, hcalls, hconn, hlookup⟩ :=
    store_eq (live_calloc (al.pick s.calls s.memory) cell hlive) (some (al.pick s.calls s.memory))
  refine ⟨_, _, s₂, if_pos hok, hstore, ⟨List.nodup_singleton _, ?_, ?_, ?_⟩, hcalls, ?_⟩
  · intro x hx
    rw [List.mem_singleton.mp hx]
    exact hfresh
  · rw [hconn]
    cases curr <;> rfl
  · intro x hx
    rw [hlookup]
    exact linkedCell_calloc _ hlive hfresh (mt List.mem_singleton.mpr hx)
  · rw [hlookup]
    unfold DumpState.linkedCell
    cases curr with
    | conn => exact Finmap.lookup_insert _
    | field f b =>
        have hb : al.pick s.calls s.memory ≠ b := by
          rintro rfl
          exact hfresh hlive
        dsimp only
        rw [if_neg hb]
        exact Finmap.lookup_insert _

/-- And if it fails. -/
theorem calloc_failed {curr : Link} (hnull : s.Null curr) (hok : ¬ al.ok s.calls = true)
    (cell : ClientCell) :
    ∃ s₁ s₂, s.calloc al cell = (none, s₁) ∧ s₁.store none curr = .ok s₂ ∧
      s₂.calls = s.calls + 1 ∧ Built s s₂ curr none [] := by
  have hlive : DumpState.Live { s with calls := s.calls + 1 } curr := by
    cases curr with
    | conn => trivial
    | field f a => exact hnull.live
  obtain ⟨s₂, hstore, hcalls, hconn, hlookup⟩ := store_eq hlive none
  refine ⟨_, s₂, if_neg hok, hstore, hcalls, built_null hnull ?_ fun x => ?_⟩
  · rw [hconn, ← hnull.linkedConn]
    cases curr <;> rfl
  · rw [hlookup, ← hnull.linkedCell]
    cases curr <;> rfl

/-- Writes into the new cell. -/
theorem Grown.write {curr : Link} {a : Nat} {cell : ClientCell} (h : Grown s s' curr a cell)
    (f : ClientCell → ClientCell) :
    ∃ s₃, s'.write a f = .ok s₃ ∧ Grown s s₃ curr a (f cell) := by
  refine ⟨_, write_eq h.self f, ⟨h.built.nodup, h.built.fresh, h.built.conn, fun x hx => ?_⟩,
    h.calls, Finmap.lookup_insert _⟩
  have hne : x ≠ a := mt List.mem_singleton.mpr hx
  exact (Finmap.lookup_insert_of_ne _ hne).trans (h.other hne)

theorem Grown.mem {curr : Link} {a : Nat} {cell : ClientCell} (h : Grown s s' curr a cell) :
    ∀ x ∈ [a], x ∈ s'.memory := by
  intro x hx
  rw [List.mem_singleton.mp hx]
  exact Finmap.mem_of_lookup_eq_some h.self

theorem Grown.null {curr : Link} {a : Nat} {cell : ClientCell} (h : Grown s s' curr a cell)
    {f : LinkField} (hset : cell.setLink none f = cell) : s'.Null (.field f a) :=
  ⟨cell, h.self, hset⟩

theorem setLink_setLink (p q : Option Nat) (f : LinkField) (cell : ClientCell) :
    (cell.setLink p f).setLink q f = cell.setLink q f := by
  cases f <;> cases cell <;> rfl

/-- The new cell is freed again, and the link is NULL again. -/
theorem Grown.undo {curr : Link} {a : Nat} {cell : ClientCell} (h : Grown s s' curr a cell)
    (hnull : s.Null curr) :
    ∃ s₃, DumpState.store { s' with memory := s'.memory.erase a } none curr = .ok s₃ ∧
      s₃.calls = s.calls + 1 ∧ Built s s₃ curr none [] := by
  have hself : s.memory.lookup a = none := Finmap.lookup_eq_none.mpr h.fresh
  cases curr with
  | conn =>
      refine ⟨_, rfl, h.calls, built_null hnull hnull.symm fun x => ?_⟩
      show (s'.memory.erase a).lookup x = _
      by_cases hx : x = a
      · rw [hx, Finmap.lookup_erase, hself]
      · rw [Finmap.lookup_erase_ne hx, h.other hx]
        rfl
  | field f b =>
      obtain ⟨c, hc, hset⟩ := hnull
      have hb : b ≠ a := by
        rintro rfl
        exact absurd (hself.symm.trans hc) (by simp)
      have hc' : (s'.memory.erase a).lookup b = some (c.setLink (some a) f) := by
        rw [Finmap.lookup_erase_ne hb, h.other hb]
        unfold DumpState.linkedCell
        dsimp only
        rw [if_pos rfl, hc]
        rfl
      refine ⟨_, write_eq hc' _, h.calls, built_null ⟨c, hc, hset⟩ h.built.conn fun x => ?_⟩
      show ((s'.memory.erase a).insert b ((c.setLink (some a) f).setLink none f)).lookup x = _
      rw [setLink_setLink, hset]
      by_cases hx : x = b
      · rw [hx, Finmap.lookup_insert, hc]
      · rw [Finmap.lookup_insert_of_ne _ hx]
        by_cases hxa : x = a
        · rw [hxa, Finmap.lookup_erase, hself]
        · rw [Finmap.lookup_erase_ne hxa, h.other hxa]
          exact if_neg hx

/-! ## §8. The loops. -/

/-- **The inner loop** builds the list of `dumpModeList`. -/
theorem dumpModeCells_spec (jc : JsonC) (al : Allocator ClientCell) (fs : List (String × Json)) :
    ∀ {s : DumpState} {curr : Link}, s.Null curr →
      ∃ s' p as, dumpModeCells jc al s curr fs = .ok s' ∧
        s'.calls = (dumpModeList jc al.ok s.calls fs).2 ∧ Built s s' curr p as ∧
        ModesAt s'.memory p (dumpModeList jc al.ok s.calls fs).1 as := by
  induction fs with
  | nil =>
      intro s curr hnull
      exact ⟨s, none, [], rfl, rfl, built_null hnull rfl fun _ => rfl, rfl, rfl⟩
  | cons field fs ih =>
      obtain ⟨key, value⟩ := field
      intro s curr hnull
      rw [dumpModeCells, dumpModeList]
      by_cases hok : al.ok s.calls = true
      · obtain ⟨a, s₁, s₂, hcalloc, hstore, hgrown⟩ := calloc_ok hnull.live hok .zeroMode
        rw [hcalloc, if_pos hok]
        dsimp only
        rw [hstore, ok_bind]
        cases hmode : jsonFormatToDrmOutputMode jc value with
        | none =>
            have hone : ModesAt s₂.memory (some a) [⟨"", 0, 0, 0⟩] [a] :=
              ⟨a, none, [], rfl, rfl, hgrown.self, rfl, rfl⟩
            obtain ⟨s₃, hstore', hcalls, hbuilt⟩ := hgrown.undo hnull
            dsimp only
            rw [freeModes_eq hone (List.nodup_singleton a), ok_bind]
            exact ⟨s₃, none, [], hstore', hcalls, hbuilt, rfl, rfl⟩
        | some mode =>
            obtain ⟨s₃, hwrite, hgrown'⟩ := hgrown.write (ClientCell.setMode mode)
            dsimp only
            rw [hwrite, ok_bind]
            obtain ⟨s', p, as, hrun, hcalls, hbuilt, hmodes⟩ :=
              ih (hgrown'.null (f := .next) rfl)
            rw [hgrown'.calls] at hcalls hmodes
            refine ⟨s', some a, [a] ++ as, hrun, hcalls,
              hgrown'.built.extend List.mem_cons_self hgrown'.mem hbuilt, ?_⟩
            exact ⟨a, p, as, rfl, rfl, hbuilt.field_self hgrown'.self, hmodes⟩
      · obtain ⟨s₁, s₂, hcalloc, hstore, hcalls, hbuilt⟩ :=
          calloc_failed hnull hok .zeroMode
        rw [hcalloc, if_neg hok]
        dsimp only
        rw [hstore, ok_bind]
        exact ⟨s₂, none, [], rfl, hcalls, hbuilt, rfl, rfl⟩

/-- What a call does, compared with what it should build. -/
def Builds (s : DumpState) (curr : Link) (r : Except Fault DumpState)
    (conns : Except Fault (List DrmConnection)) : Prop :=
  match conns with
  | .error e => r = .error e
  | .ok conns => ∃ s' p as, r = .ok s' ∧ Built s s' curr p as ∧
      ConnectionsAt s'.memory p conns as

/-- **The outer loop** builds the list of `dumpConnections`. -/
theorem dumpConnectionCells_spec (jc : JsonC) (al : Allocator ClientCell)
    (fs : List (String × Json)) :
    ∀ {s : DumpState} {curr : Link}, s.Null curr →
      Builds s curr (dumpConnectionCells jc al s curr fs)
        (dumpConnections jc al.ok s.calls fs) := by
  induction fs with
  | nil =>
      intro s curr hnull
      exact ⟨s, none, [], rfl, built_null hnull rfl fun _ => rfl, rfl, rfl⟩
  | cons field fs ih =>
      obtain ⟨key, val⟩ := field
      intro s curr hnull
      rw [dumpConnectionCells, dumpConnections]
      by_cases hok : al.ok s.calls = true
      · obtain ⟨a, s₁, s₂, hcalloc, hstore, hgrown⟩ := calloc_ok hnull.live hok .zeroConnection
        obtain ⟨s₃, hwrite, hgrown'⟩ :=
          hgrown.write (ClientCell.setConnection (readConnection jc val))
        rw [hcalloc, if_pos hok]
        dsimp only
        rw [hstore, ok_bind]
        rw [hwrite, ok_bind]
        have hself : s₃.memory.lookup a = some (.connection (readConnection jc val) none none) :=
          hgrown'.self
        cases hmodes : val.objectGet "modes" with
        | null =>
            have hnext : Built s₃ s₃ (.field .next a) none [] :=
              built_null (hgrown'.null rfl) rfl fun _ => rfl
            refine ⟨s₃, some a, [a] ++ [], rfl,
              hgrown'.built.extend List.mem_cons_self hgrown'.mem hnext, ?_⟩
            exact ⟨a, none, none, [], [], rfl, rfl, hself, ⟨rfl, rfl⟩, rfl, rfl⟩
        | object modes =>
            obtain ⟨s₄, pm, modeCells, hrun, hcalls, hbuilt, hat⟩ :=
              dumpModeCells_spec jc al modes (hgrown'.null (f := .modes) rfl)
            rw [hgrown'.calls] at hcalls hat
            dsimp only
            rw [hrun, ok_bind]
            have hself' := hbuilt.field_self hself
            have hnull' : s₄.Null (.field .next a) := ⟨_, hself', rfl⟩
            have hrest := ih hnull'
            rw [hcalls] at hrest
            have hone := hgrown'.built.extend List.mem_cons_self hgrown'.mem hbuilt
            have hmem : ∀ x ∈ [a] ++ modeCells, x ∈ s₄.memory := by
              intro x hx
              rcases List.mem_append.mp hx with hx | hx
              · exact hbuilt.mem (hgrown'.mem x hx)
              · exact hat.mem x hx
            cases hconns : dumpConnections jc al.ok
                (dumpModeList jc al.ok (s.calls + 1) modes).2 fs with
            | error e =>
                rw [hconns] at hrest
                exact hrest
            | ok conns =>
                rw [hconns] at hrest
                obtain ⟨s₅, p, as, hrun', hbuilt', hat'⟩ := hrest
                have ha : a ∈ [a] ++ modeCells := List.mem_cons_self
                refine ⟨s₅, some a, [a] ++ modeCells ++ as, hrun',
                  hone.extend ha hmem hbuilt', ?_⟩
                refine ⟨a, pm, p, modeCells, as, rfl, rfl, hbuilt'.field_self hself', ?_, hat'⟩
                -- The connections behind it leave its modes alone.
                refine hat.congr fun x hx => hbuilt'.field_other ?_ ?_
                · exact fun hx' => hbuilt'.fresh x hx' (hat.mem x hx)
                · rintro rfl
                  exact hbuilt.fresh x hx (Finmap.mem_of_lookup_eq_some hself)
        | _ => rfl
      · obtain ⟨s₁, s₂, hcalloc, hstore, hcalls, hbuilt⟩ :=
          calloc_failed hnull hok .zeroConnection
        rw [hcalloc, if_neg hok]
        dsimp only
        rw [hstore, ok_bind]
        exact ⟨s₂, none, [], rfl, hbuilt, rfl, rfl⟩

/-! ## §9. A query. -/

/-- What `dump_modes` should do: fault where it has to; otherwise the list is in
new cells and nothing else is different, and freeing the list gives the memory
back. -/
def Owned (m : Memory ClientCell) (r : Except Fault (Option Nat × Memory ClientCell))
    (conns : Except Fault (List DrmConnection)) : Prop :=
  match conns with
  | .error e => r = .error e
  | .ok conns => ∃ p m' as, r = .ok (p, m') ∧ ConnectionsAt m' p conns as ∧ as.Nodup ∧
      (∀ a ∈ as, a ∉ m) ∧ SameOff as m m' ∧ freeConnectionList m' p = .ok m

/-- **What `dump_modes` allocates, `free_connection_list` frees.**  For every
reply, and whichever calls of calloc() fail, the cells hold the list of
`dumpModes`, no pointer to a cell that is not there is followed, and each cell is
freed once. -/
theorem dumpModes_freed (jc : JsonC) (al : Allocator ClientCell) (m : Memory ClientCell)
    (data : Json) : Owned m (dumpModesIn jc al m data) (dumpModes jc al.ok data) := by
  unfold dumpModesIn dumpModes
  cases data with
  | null =>
      refine ⟨none, m, [], rfl, ⟨rfl, rfl⟩, List.nodup_nil, ?_, fun _ _ => rfl, ?_⟩
      · exact fun a ha => absurd ha List.not_mem_nil
      · have hempty : ConnectionsAt m none [] [] := ⟨rfl, rfl⟩
        exact freeConnectionList_eq hempty List.nodup_nil
  | object fs =>
      have hnull : DumpState.Null ⟨m, none, 0⟩ .conn := rfl
      have hspec := dumpConnectionCells_spec jc al fs hnull
      dsimp only at hspec ⊢
      cases hconns : dumpConnections jc al.ok 0 fs with
      | error e =>
          rw [hconns] at hspec
          show _ = Except.error e
          rw [hspec]
          rfl
      | ok conns =>
          rw [hconns] at hspec
          obtain ⟨s', p, as, hrun, hbuilt, hat⟩ := hspec
          have hconn : s'.conn = p := hbuilt.conn
          have hsame : SameOff as m s'.memory := hbuilt.lookup
          refine ⟨p, s'.memory, as, ?_, hat, hbuilt.nodup, hbuilt.fresh, hsame, ?_⟩
          · rw [hrun, ← hconn]
            rfl
          · rw [freeConnectionList_eq hat hbuilt.nodup, eraseAll_eq hsame hbuilt.fresh]
  | _ => rfl

end MesonDisplay.Client
