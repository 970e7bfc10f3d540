/-
  MesonDisplay.Ipc.ReadRequest — `read_and_check_complete` and `read_request`.

  A request has no length and no terminator.  `read_request` grows a buffer in
  blocks of `g_max_rcvbuf_size` bytes and, after every `read()`, asks json-c
  whether the bytes received so far are a complete value.

  The two functions are translated loop by loop, as functions of the bytes
  received.  The reads a call will see are a list of outcomes; a call that
  needs more than the list has is still blocked inside `read()`.
-/
import MesonDisplay.Lib.Framing
import MesonDisplay.Json.Value

namespace MesonDisplay.Ipc

open MesonDisplay.Framing

/-! ## §1. The two loops. -/

/-- `MAX_REQUEST_BUFFER_SIZE`. -/
def maxRequestBufferSize : Nat := 1024 * 1024 * 3

/-- How `read_and_check_complete` ends.  `ret` is `none` while the local of
the source has no value yet. -/
inductive BlockResult where
  | blocked (buffer : List Char)
  | returned (ret : Option Int) (data : Json) (buffer : List Char)
      (rest : List (Read Char))

/-- The `while (nleft > 0)` loop of `read_and_check_complete`. -/
def readAndCheckComplete (jc : JsonC) :
    (buffer : List Char) → (nleft : Nat) → (ret : Option Int) → (data : Json) →
      List (Read Char) → BlockResult
  | buffer, 0, ret, data, reads => .returned ret data buffer reads
  | buffer, _ + 1, _, _, [] => .blocked buffer
  | buffer, _ + 1, _, data, .error :: reads =>
      .returned (some (-1)) data buffer reads
  | buffer, _ + 1, _, _, .eof :: reads =>
      .returned (some 0) (jc.tokenerParse buffer) buffer reads
  | buffer, nleft + 1, _, _, .bytes c :: reads =>
      let data := jc.tokenerParse (buffer ++ c)
      if data.isNull then
        readAndCheckComplete jc (buffer ++ c) (nleft + 1 - c.length)
          (some c.length) data reads
      else .returned (some c.length) data (buffer ++ c) reads

/-- How `read_request` ends. -/
inductive ReadResult where
  | blocked (buffer : List Char)
  | returned (ret : Int) (data : Json) (rest : List (Read Char))
  /-- A division by zero, or a read of a variable that was never assigned. -/
  | undefined

/-- The end of `read_request`, after its loop: an empty object stands in for
a value that did not arrive. -/
def readRequestEnd (ret : Option Int) (data : Option Json)
    (reads : List (Read Char)) : ReadResult :=
  match data, ret with
  | some d, some r =>
      if d.isNull then .returned (if 0 < r then -1 else r) Json.newObject reads
      else .returned r d reads
  | _, _ => .undefined

/-- The `for (i = 0; i < max_cyc; i++)` loop of `read_request`, with `cycles`
iterations left; `alloc i` tells whether the `i`-th `realloc` succeeds. -/
def readRequestLoop (jc : JsonC) (rcvbuf : Nat) (alloc : Nat → Bool) :
    (cycles i : Nat) → (ret : Option Int) → (data : Option Json) →
      (buffer : List Char) → List (Read Char) → ReadResult
  | 0, _, ret, data, _, reads => readRequestEnd ret data reads
  | cycles + 1, i, _, data, buffer, reads =>
      if alloc i then
        match readAndCheckComplete jc buffer rcvbuf none .null reads with
        | .blocked b => .blocked b
        | .returned none _ _ _ => .undefined
        | .returned (some r) d b rest =>
            if d.isNull = false ∨ r ≤ 0 then readRequestEnd (some r) (some d) rest
            else
              readRequestLoop jc rcvbuf alloc cycles (i + 1) (some r) (some d) b rest
      else readRequestEnd (some (-1)) data reads

/-- `read_request`; `data` is what `*data` holds on entry, `none` for an
uninitialised pointer. -/
def readRequest (jc : JsonC) (rcvbuf : Nat) (alloc : Nat → Bool)
    (data : Option Json) (reads : List (Read Char)) : ReadResult :=
  if rcvbuf = 0 then .undefined
  else
    readRequestLoop jc rcvbuf alloc (maxRequestBufferSize / rcvbuf) 0 none data
      [] reads

/-! ## §2. Blocks and capacity. -/

/-- The bytes `read_request` receives at most: a whole number of blocks. -/
def capacity (rcvbuf : Nat) : Nat := maxRequestBufferSize / rcvbuf * rcvbuf

/-- The bytes a `read()` asks for with `n` bytes received: the rest of the
current block. -/
def room (rcvbuf n : Nat) : Nat := rcvbuf - n % rcvbuf

theorem capacity_pos {rcvbuf : Nat} (h0 : 0 < rcvbuf)
    (h : rcvbuf ≤ maxRequestBufferSize) : 0 < capacity rcvbuf :=
  Nat.mul_pos (Nat.div_pos h h0) h0

/-- A block size is usable if at least one block fits the maximum. -/
theorem capacity_pos_iff {rcvbuf : Nat} :
    0 < capacity rcvbuf ↔ 0 < rcvbuf ∧ rcvbuf ≤ maxRequestBufferSize := by
  constructor
  · intro h
    have hpos : 0 < rcvbuf := Nat.pos_of_mul_pos_left h
    refine ⟨hpos, ?_⟩
    by_contra hgt
    have : maxRequestBufferSize / rcvbuf = 0 := Nat.div_eq_of_lt (by omega)
    rw [capacity, this, Nat.zero_mul] at h
    exact absurd h (Nat.lt_irrefl 0)
  · intro hB
    exact capacity_pos hB.1 hB.2

/-- Within block `i`, the bytes asked for are those up to its end. -/
theorem room_of_block {rcvbuf i n : Nat} (hlo : i * rcvbuf ≤ n)
    (hhi : n < (i + 1) * rcvbuf) : room rcvbuf n = (i + 1) * rcvbuf - n := by
  have hmod : n % rcvbuf = n - i * rcvbuf := by
    rw [Nat.mod_eq_sub_mul_div, Nat.mul_comm,
        Nat.div_eq_of_lt_le (by omega) (by omega)]
  rw [Nat.add_mul] at hhi ⊢
  unfold room
  omega

/-- A read never runs past the capacity. -/
theorem add_room_le_capacity {rcvbuf n : Nat} (h0 : 0 < rcvbuf)
    (h : n < capacity rcvbuf) : n + room rcvbuf n ≤ capacity rcvbuf := by
  have hlo : n / rcvbuf * rcvbuf ≤ n := Nat.div_mul_le_self n rcvbuf
  have hhi : n < (n / rcvbuf + 1) * rcvbuf := by
    rw [Nat.add_mul, Nat.one_mul]
    exact Nat.lt_div_mul_add h0
  rw [room_of_block hlo hhi]
  have hblock : n / rcvbuf < maxRequestBufferSize / rcvbuf := by
    apply Nat.div_lt_of_lt_mul
    rw [Nat.mul_comm]
    exact h
  have : (n / rcvbuf + 1) * rcvbuf ≤ capacity rcvbuf :=
    Nat.mul_le_mul_right _ hblock
  omega

/-- The reads a call of `read_request` may see: nothing empty, and no read
returns more than the rest of the current block. -/
abbrev Readable (jc : JsonC) (rcvbuf : Nat) (reads : List (Read Char)) : Prop :=
  Fits jc.parse (capacity rcvbuf) (room rcvbuf) [] reads

end MesonDisplay.Ipc
