/-
  MesonDisplay.Ipc.ReadBuffer — the receive buffer of `read_request`.

  Here the two functions work on the block of memory they allocate: a block of
  zeroes is appended for every iteration, `read()` stores into it, and
  `json_tokener_parse` is given the whole block.  Every read and every parse
  is an event.  `collect` is the same without blocks: one recursion over the
  reads.

  Main results:
    * `readRequestBuffer_eq` — the nested loops do what `collect` does.
    * `readRequest_eq` — the result is a function of the bytes received.
    * `readRequest_refines` — it is what one collection of bytes delivers.
-/
import MesonDisplay.Ipc.ReadRequest

namespace MesonDisplay.Ipc

open MesonDisplay.Framing

/-! ## §1. The buffer. -/

/-- The zero byte. -/
def nul : Char := Char.ofNat 0

/-- What `read_request` does with its buffer: a `read()` of so many bytes, and
a call of `json_tokener_parse` with so many bytes received. -/
inductive ReadEvent where
  | read (asked : Nat)
  | parse (buffer : List Char) (received : Nat)

/-- The bytes `c` are stored at `pos`. -/
def store (buffer : List Char) (pos : Nat) (c : List Char) : List Char :=
  buffer.take pos ++ c ++ buffer.drop (pos + c.length)

/-- `read_and_check_complete`, on the buffer. -/
def readAndCheckBuffer (jc : JsonC) :
    (buffer : List Char) → (nowPos nleft : Nat) → (ret : Option Int) → (data : Json) →
      List (Read Char) → BlockResult × List ReadEvent
  | buffer, _, 0, ret, data, reads => (.returned ret data buffer reads, [])
  | buffer, nowPos, nleft + 1, _, _, [] =>
      (.blocked (buffer.take nowPos), [.read (nleft + 1)])
  | buffer, _, nleft + 1, _, data, .error :: reads =>
      (.returned (some (-1)) data buffer reads, [.read (nleft + 1)])
  | buffer, nowPos, nleft + 1, _, _, .eof :: reads =>
      (.returned (some 0) (jc.tokenerParse (buffer.take nowPos)) buffer reads,
        [.read (nleft + 1), .parse buffer nowPos])
  | buffer, nowPos, nleft + 1, _, _, .bytes c :: reads =>
      let buffer := store buffer nowPos c
      let received := nowPos + c.length
      let data := jc.tokenerParse (buffer.take received)
      let events := [.read (nleft + 1), .parse buffer received]
      if data.isNull then
        let (result, events') := readAndCheckBuffer jc buffer received
          (nleft + 1 - c.length) (some c.length) data reads
        (result, events ++ events')
      else (.returned (some c.length) data buffer reads, events)

/-- The `for` loop of `read_request`.  `realloc` keeps the old bytes, `memset`
clears the new ones. -/
def readRequestBufferLoop (jc : JsonC) (rcvbuf : Nat) (alloc : Nat → Bool) :
    (cycles i : Nat) → (ret : Option Int) → (data : Option Json) →
      (buffer : List Char) → List (Read Char) → ReadResult × List ReadEvent
  | 0, _, ret, data, _, reads => (readRequestEnd ret data reads, [])
  | cycles + 1, i, _, data, buffer, reads =>
      if alloc i then
        match readAndCheckBuffer jc (buffer ++ List.replicate rcvbuf nul) buffer.length
            rcvbuf none .null reads with
        | (.blocked b, events) => (.blocked b, events)
        | (.returned none _ _ _, events) => (.undefined, events)
        | (.returned (some r) d b rest, events) =>
            if d.isNull = false ∨ r ≤ 0 then (readRequestEnd (some r) (some d) rest, events)
            else
              let (result, events') :=
                readRequestBufferLoop jc rcvbuf alloc cycles (i + 1) (some r) (some d) b rest
              (result, events ++ events')
      else (readRequestEnd (some (-1)) data reads, [])

/-- `read_request`, on the buffer. -/
def readRequestBuffer (jc : JsonC) (rcvbuf : Nat) (alloc : Nat → Bool)
    (data : Option Json) (reads : List (Read Char)) : ReadResult × List ReadEvent :=
  if rcvbuf = 0 then (.undefined, [])
  else
    readRequestBufferLoop jc rcvbuf alloc (maxRequestBufferSize / rcvbuf) 0 none data
      [] reads

/-! ## §2. Without blocks. -/

/-- The buffer that holds `got` once the block that `before` bytes reach into
is allocated. -/
def padded (rcvbuf before : Nat) (got : List Char) : List Char :=
  got ++ List.replicate ((before / rcvbuf + 1) * rcvbuf - got.length) nul

/-- `read_request` with `got` received. -/
def collect (jc : JsonC) (rcvbuf : Nat) (alloc : Nat → Bool) (data : Option Json) :
    (got : List Char) → List (Read Char) → ReadResult × List ReadEvent
  | got, reads =>
      if capacity rcvbuf ≤ got.length then (.returned (-1) Json.newObject reads, [])
      else if alloc (got.length / rcvbuf) = false then
        (readRequestEnd (some (-1)) (if got = [] then data else some .null) reads, [])
      else
        match reads with
        | [] => (.blocked got, [.read (room rcvbuf got.length)])
        | .eof :: rest =>
            (.returned 0 Json.newObject rest,
              [.read (room rcvbuf got.length),
                .parse (padded rcvbuf got.length got) got.length])
        | .error :: rest =>
            (.returned (-1) Json.newObject rest, [.read (room rcvbuf got.length)])
        | .bytes c :: rest =>
            let events := [.read (room rcvbuf got.length),
              .parse (padded rcvbuf got.length (got ++ c)) (got ++ c).length]
            if (jc.tokenerParse (got ++ c)).isNull then
              let (result, events') := collect jc rcvbuf alloc data (got ++ c) rest
              (result, events ++ events')
            else (.returned c.length (jc.tokenerParse (got ++ c)) rest, events)

/-- The reader goes on with `n` bytes: they are below the capacity, and the
block is allocated. -/
def GoesOn (rcvbuf : Nat) (alloc : Nat → Bool) (n : Nat) : Prop :=
  n < capacity rcvbuf ∧ alloc (n / rcvbuf) = true

/-- The reads a call may see: no read that is made returns nothing, or more
than the rest of the current block. -/
abbrev Offered (jc : JsonC) (rcvbuf : Nat) (alloc : Nat → Bool) (got : List Char)
    (reads : List (Read Char)) : Prop :=
  FitsMessage jc.parse (GoesOn rcvbuf alloc) (room rcvbuf) got reads

section Blocks

variable {jc : JsonC} {rcvbuf : Nat} {alloc : Nat → Bool} {data : Option Json}

theorem collect_full {got : List Char} (h : capacity rcvbuf ≤ got.length)
    (reads : List (Read Char)) :
    collect jc rcvbuf alloc data got reads = (.returned (-1) Json.newObject reads, []) := by
  unfold collect
  rw [if_pos h]

theorem collect_fails {got : List Char} (h : got.length < capacity rcvbuf)
    (halloc : alloc (got.length / rcvbuf) = false) (reads : List (Read Char)) :
    collect jc rcvbuf alloc data got reads
      = (readRequestEnd (some (-1)) (if got = [] then data else some .null) reads, []) := by
  unfold collect
  rw [if_neg (Nat.not_le_of_lt h), if_pos halloc]

section GoesOn

variable {got : List Char} (hg : GoesOn rcvbuf alloc got.length)
include hg

theorem collect_nil :
    collect jc rcvbuf alloc data got []
      = (.blocked got, [.read (room rcvbuf got.length)]) := by
  unfold collect
  rw [if_neg (Nat.not_le_of_lt hg.1), if_neg (by simp [hg.2])]

theorem collect_eof (rest : List (Read Char)) :
    collect jc rcvbuf alloc data got (.eof :: rest)
      = (.returned 0 Json.newObject rest,
          [.read (room rcvbuf got.length),
            .parse (padded rcvbuf got.length got) got.length]) := by
  unfold collect
  rw [if_neg (Nat.not_le_of_lt hg.1), if_neg (by simp [hg.2])]

theorem collect_error (rest : List (Read Char)) :
    collect jc rcvbuf alloc data got (.error :: rest)
      = (.returned (-1) Json.newObject rest, [.read (room rcvbuf got.length)]) := by
  unfold collect
  rw [if_neg (Nat.not_le_of_lt hg.1), if_neg (by simp [hg.2])]

theorem collect_incomplete {c : List Char} (hc : jc.tokenerParse (got ++ c) = .null)
    (rest : List (Read Char)) :
    collect jc rcvbuf alloc data got (.bytes c :: rest)
      = ((collect jc rcvbuf alloc data (got ++ c) rest).1,
          [.read (room rcvbuf got.length),
            .parse (padded rcvbuf got.length (got ++ c)) (got ++ c).length]
          ++ (collect jc rcvbuf alloc data (got ++ c) rest).2) := by
  rw [collect, if_neg (Nat.not_le_of_lt hg.1), if_neg (by simp [hg.2])]
  simp only [hc, Json.isNull, if_true]

theorem collect_complete {c : List Char} (hc : jc.tokenerParse (got ++ c) ≠ .null)
    (rest : List (Read Char)) :
    collect jc rcvbuf alloc data got (.bytes c :: rest)
      = (.returned c.length (jc.tokenerParse (got ++ c)) rest,
          [.read (room rcvbuf got.length),
            .parse (padded rcvbuf got.length (got ++ c)) (got ++ c).length]) := by
  rw [collect, if_neg (Nat.not_le_of_lt hg.1), if_neg (by simp [hg.2])]
  simp only [Json.isNull_eq_false.mpr hc, Bool.false_eq_true, if_false]

end GoesOn

/-- The bytes are stored behind those received. -/
theorem store_padded {got c : List Char} {n : Nat} (hc : c.length ≤ n) :
    store (got ++ List.replicate n nul) got.length c
      = (got ++ c) ++ List.replicate (n - c.length) nul := by
  unfold store
  rw [List.take_left, List.drop_append, List.drop_replicate]
  have hdrop : got.drop (got.length + c.length) = [] :=
    List.drop_eq_nil_of_le (Nat.le_add_right _ _)
  have hrest : n - (got.length + c.length - got.length) = n - c.length := by omega
  rw [hdrop, List.nil_append, hrest]

/-- What is parsed behind a read: the bytes received. -/
theorem take_store {got c : List Char} {n : Nat} (hc : c.length ≤ n) :
    (store (got ++ List.replicate n nul) got.length c).take (got.length + c.length)
      = got ++ c := by
  have hlen : (got ++ c).length = got.length + c.length := List.length_append
  rw [store_padded hc, ← hlen, List.take_left]

/-! ## §3. The loops do the same. -/

/-- Within block `i` the number of bytes says which one it is. -/
theorem goesOn_of_block {i n : Nat} (hlo : i * rcvbuf ≤ n) (hhi : n < (i + 1) * rcvbuf)
    (hcap : (i + 1) * rcvbuf ≤ capacity rcvbuf) (halloc : alloc i = true) :
    GoesOn rcvbuf alloc n := by
  refine ⟨Nat.lt_of_lt_of_le hhi hcap, ?_⟩
  rw [Nat.div_eq_of_lt_le hlo hhi, halloc]

/-- The next block is within the capacity. -/
theorem block_le_capacity {i cycles : Nat} (hcap : capacity rcvbuf = (i + (cycles + 1)) * rcvbuf) :
    (i + 1) * rcvbuf ≤ capacity rcvbuf := by
  rw [hcap]
  exact Nat.mul_le_mul_right _ (by omega)

theorem capacity_behind_block {i cycles : Nat}
    (hcap : capacity rcvbuf = (i + (cycles + 1)) * rcvbuf) :
    capacity rcvbuf = (i + 1 + cycles) * rcvbuf := by
  rw [hcap, Nat.add_assoc i 1, Nat.add_comm 1]

/-- Events in front of an outcome. -/
def after (events : List ReadEvent) (r : ReadResult × List ReadEvent) :
    ReadResult × List ReadEvent := (r.1, events ++ r.2)

/-- What one block contributes: the call ends with it, or the block is full
and the collection goes on from there. -/
inductive BufferEnd (jc : JsonC) (rcvbuf : Nat) (alloc : Nat → Bool) (data : Option Json)
    (lim : Nat) : BlockResult × List ReadEvent → ReadResult × List ReadEvent → Prop where
  | blocked (b : List Char) (events : List ReadEvent) :
      BufferEnd jc rcvbuf alloc data lim (.blocked b, events) (.blocked b, events)
  | ended (r : Int) (d : Json) (b : List Char) (rest : List (Read Char))
      (events : List ReadEvent) (hend : d.isNull = false ∨ r ≤ 0) :
      BufferEnd jc rcvbuf alloc data lim (.returned (some r) d b rest, events)
        (readRequestEnd (some r) (some d) rest, events)
  | next (n : Nat) (b : List Char) (rest : List (Read Char)) (events : List ReadEvent)
      (hn : 0 < n) (hlen : b.length = lim) (hnull : jc.tokenerParse b = .null)
      (hoff : Offered jc rcvbuf alloc b rest) :
      BufferEnd jc rcvbuf alloc data lim (.returned (some n) .null b rest, events)
        (after events (collect jc rcvbuf alloc data b rest))

theorem BufferEnd.after {lim : Nat} {br : BlockResult} {events : List ReadEvent}
    {r : ReadResult × List ReadEvent} (pre : List ReadEvent)
    (h : BufferEnd jc rcvbuf alloc data lim (br, events) r) :
    BufferEnd jc rcvbuf alloc data lim (br, pre ++ events) (after pre r) := by
  cases h with
  | blocked b => exact .blocked b _
  | ended r d b rest _ hend => exact .ended r d b rest _ hend
  | next n b rest _ hn hlen hnull hoff =>
      have hassoc : Ipc.after pre (Ipc.after events (collect jc rcvbuf alloc data b rest))
          = Ipc.after (pre ++ events) (collect jc rcvbuf alloc data b rest) := by
        unfold Ipc.after
        rw [List.append_assoc]
      rw [hassoc]
      exact .next n b rest _ hn hlen hnull hoff

/-- **One block.**  The rest of block `i`, from a buffer that is not full. -/
theorem readAndCheckBuffer_end (data : Option Json) {i lim : Nat} (hlim : lim = (i + 1) * rcvbuf)
    (hcap : lim ≤ capacity rcvbuf) (halloc : alloc i = true) (reads : List (Read Char)) :
    ∀ (got : List Char) (ret : Option Int), i * rcvbuf ≤ got.length → got.length < lim →
      jc.tokenerParse got = .null → Offered jc rcvbuf alloc got reads →
      BufferEnd jc rcvbuf alloc data lim
        (readAndCheckBuffer jc (got ++ List.replicate (lim - got.length) nul) got.length
          (lim - got.length) ret .null reads)
        (collect jc rcvbuf alloc data got reads) := by
  -- within the block the number of bytes says which one it is
  have hblock : ∀ got : List Char, i * rcvbuf ≤ got.length → got.length < lim →
      got.length / rcvbuf = i := by
    intro got hlo hhi
    exact Nat.div_eq_of_lt_le hlo (hlim ▸ hhi)
  have hgoes : ∀ got : List Char, i * rcvbuf ≤ got.length → got.length < lim →
      GoesOn rcvbuf alloc got.length :=
    fun got hlo hhi => goesOn_of_block hlo (hlim ▸ hhi) (hlim ▸ hcap) halloc
  induction reads with
  | nil =>
      intro got ret hlo hhi _ _
      obtain ⟨k, hk⟩ : ∃ k, lim - got.length = k + 1 :=
        Nat.exists_eq_succ_of_ne_zero (by omega)
      have hroom : room rcvbuf got.length = k + 1 := by
        rw [room_of_block hlo (hlim ▸ hhi), ← hlim, hk]
      rw [collect_nil (hgoes got hlo hhi), hroom, hk, readAndCheckBuffer, List.take_left]
      exact .blocked got _
  | cons r reads ih =>
      intro got ret hlo hhi hnull hoff
      have hg := hgoes got hlo hhi
      obtain ⟨k, hk⟩ : ∃ k, lim - got.length = k + 1 :=
        Nat.exists_eq_succ_of_ne_zero (by omega)
      have hroom : room rcvbuf got.length = k + 1 := by
        rw [room_of_block hlo (hlim ▸ hhi), ← hlim, hk]
      have hpadded : ∀ got' : List Char, padded rcvbuf got.length got'
          = got' ++ List.replicate (lim - got'.length) nul := by
        intro got'
        unfold padded
        rw [hblock got hlo hhi, hlim]
      cases r with
      | eof =>
          rw [collect_eof hg, hroom, hpadded, hk, readAndCheckBuffer, List.take_left, hnull]
          exact .ended 0 .null _ reads _ (.inr (Int.le_refl _))
      | error =>
          rw [collect_error hg, hroom, hk, readAndCheckBuffer]
          exact .ended (-1) .null _ reads _ (.inr (by omega))
      | bytes c =>
          obtain ⟨⟨hne, hcroom⟩, hnext⟩ := hoff hg
          have hcpos : 0 < c.length := List.length_pos_iff.mpr hne
          rw [hroom] at hcroom
          have hlen : (got ++ c).length = got.length + c.length := List.length_append
          have hstore : store (got ++ List.replicate (k + 1) nul) got.length c
              = (got ++ c) ++ List.replicate (lim - (got ++ c).length) nul := by
            rw [store_padded hcroom]
            congr 2
            omega
          have hevents : [ReadEvent.read (k + 1), .parse (store (got ++
                List.replicate (k + 1) nul) got.length c) (got.length + c.length)]
              = [.read (room rcvbuf got.length),
                  .parse (padded rcvbuf got.length (got ++ c)) (got ++ c).length] := by
            rw [hroom, hpadded, hstore, hlen]
          rw [hk, readAndCheckBuffer, hevents, take_store hcroom]
          by_cases hp : jc.tokenerParse (got ++ c) = .null
          · rw [collect_incomplete hg hp]
            simp only [hp, Json.isNull, if_true]
            have hleft : k + 1 - c.length = lim - (got ++ c).length := by omega
            rw [hstore, ← hlen, hleft]
            refine BufferEnd.after _ ?_
            have hoff' := hnext (JsonC.parse_eq_none.mpr hp)
            rcases Nat.lt_or_eq_of_le (show (got ++ c).length ≤ lim by omega) with hl | hl
            · -- the block has room left
              exact ih (got ++ c) _ (by omega) hl hp hoff'
            · -- the block is full
              rw [hl, Nat.sub_self, List.replicate_zero, List.append_nil, readAndCheckBuffer]
              exact BufferEnd.next c.length (got ++ c) reads [] hcpos hl hp hoff'
          · rw [collect_complete hg hp]
            simp only [Json.isNull_eq_false.mpr hp, Bool.false_eq_true, if_false]
            have hnn := Json.isNull_eq_false.mpr hp
            have hend : readRequestEnd (some (c.length : Int))
                (some (jc.tokenerParse (got ++ c))) reads
                = .returned c.length (jc.tokenerParse (got ++ c)) reads := by
              simp only [readRequestEnd, hnn, Bool.false_eq_true, if_false]
            rw [← hend]
            exact .ended _ _ _ reads _ (.inl hnn)

/-- **All blocks.**  The iterations that are left, from a buffer of whole
blocks. -/
theorem readRequestBufferLoop_eq (h0 : 0 < rcvbuf) :
    ∀ (cycles i : Nat) (ret : Option Int) (last : Option Json) (got : List Char)
      (reads : List (Read Char)), got.length = i * rcvbuf →
      capacity rcvbuf = (i + cycles) * rcvbuf →
      (cycles = 0 → ∃ n : Nat, 0 < n ∧ ret = some (n : Int)) →
      last = (if got = [] then data else some .null) → (cycles = 0 → got ≠ []) →
      jc.tokenerParse got = .null → Offered jc rcvbuf alloc got reads →
      readRequestBufferLoop jc rcvbuf alloc cycles i ret last got reads
        = collect jc rcvbuf alloc data got reads := by
  intro cycles
  induction cycles with
  -- a buffer that is filled up is given up
  | zero =>
      intro i ret last got reads hlen hcap hret hlast hne _ _
      obtain ⟨n, hn, rfl⟩ := hret rfl
      rw [if_neg (hne rfl)] at hlast
      have hfull : capacity rcvbuf ≤ got.length := by
        rw [hcap, hlen, Nat.add_zero]
      have hpos : (0 : Int) < n := by omega
      rw [collect_full hfull, readRequestBufferLoop, hlast]
      simp only [readRequestEnd, Json.isNull, if_true, if_pos hpos]
  | succ cycles ih =>
      intro i ret last got reads hlen hcap _ hlast _ hnull hoff
      have hsucc : (i + 1) * rcvbuf = i * rcvbuf + rcvbuf := by
        rw [Nat.add_mul, Nat.one_mul]
      have hlim : (i + 1) * rcvbuf ≤ capacity rcvbuf := block_le_capacity hcap
      have hdiv : got.length / rcvbuf = i := by
        rw [hlen, Nat.mul_div_cancel _ h0]
      rw [readRequestBufferLoop]
      cases halloc : alloc i with
      | false =>
          rw [collect_fails (by omega) (hdiv ▸ halloc), hlast, if_neg (by simp)]
      | true =>
          have hroom : (i + 1) * rcvbuf - got.length = rcvbuf := by omega
          have hblock := readAndCheckBuffer_end data rfl hlim halloc reads got none
            (Nat.le_of_eq hlen.symm) (by omega) hnull hoff
          rw [hroom] at hblock
          rw [if_pos rfl]
          generalize readAndCheckBuffer jc (got ++ List.replicate rcvbuf nul) got.length
            rcvbuf none .null reads = br at hblock
          generalize collect jc rcvbuf alloc data got reads = out at hblock
          -- how the block ended decides how the call ends
          cases hblock with
          | blocked b events => rfl
          | ended r d b rest events hend => simp only [if_pos hend]
          | next n b rest events hn hlenb hnullb hoffb =>
              have hcont : ¬ (Json.null.isNull = false ∨ (n : Int) ≤ 0) := by
                rw [not_or]
                exact ⟨by simp [Json.isNull], by omega⟩
              have hb : b ≠ [] := by
                intro hnil
                rw [hnil, List.length_nil] at hlenb
                omega
              have hrest := ih (i + 1) (some n) (some .null) b rest hlenb
                (capacity_behind_block hcap)
                (fun _ => ⟨n, hn, rfl⟩) (if_neg hb).symm (fun _ => hb) hnullb hoffb
              simp only [if_neg hcont, hrest]
              rfl

/-- **The nested loops are one collection.** -/
theorem readRequestBuffer_eq (h0 : 0 < rcvbuf) (hB : rcvbuf ≤ maxRequestBufferSize)
    (reads : List (Read Char)) (hoff : Offered jc rcvbuf alloc [] reads) :
    readRequestBuffer jc rcvbuf alloc data reads = collect jc rcvbuf alloc data [] reads := by
  have hcycles : 0 < maxRequestBufferSize / rcvbuf := Nat.div_pos hB h0
  unfold readRequestBuffer
  rw [if_neg (Nat.ne_of_gt h0)]
  refine readRequestBufferLoop_eq h0 _ 0 none data [] reads (by simp) ?_ (by omega) rfl
    (by omega) jc.tokenerParse_nil hoff
  rw [Nat.zero_add]
  rfl

/-! ## §4. The bytes received are all that matters. -/

/-- The ends of one block without and with the memory. -/
inductive SameBlock (jc : JsonC) (rcvbuf : Nat) (alloc : Nat → Bool) (lim : Nat) :
    BlockResult → BlockResult → Prop where
  | blocked (b : List Char) : SameBlock jc rcvbuf alloc lim (.blocked b) (.blocked b)
  | ended (r : Int) (d : Json) (b b' : List Char) (rest : List (Read Char))
      (hend : d.isNull = false ∨ r ≤ 0) :
      SameBlock jc rcvbuf alloc lim (.returned (some r) d b rest)
        (.returned (some r) d b' rest)
  | full (ret : Option Int) (d : Json) (b : List Char) (rest : List (Read Char))
      (hlen : b.length = lim) (hoff : Offered jc rcvbuf alloc b rest) :
      SameBlock jc rcvbuf alloc lim (.returned ret d b rest) (.returned ret d b rest)

/-- **One block, with and without the memory.** -/
theorem readAndCheckBuffer_same {i lim : Nat} (hlim : lim = (i + 1) * rcvbuf)
    (hcap : lim ≤ capacity rcvbuf) (halloc : alloc i = true) (reads : List (Read Char)) :
    ∀ (got : List Char) (ret : Option Int) (d : Json), i * rcvbuf ≤ got.length →
      got.length ≤ lim → Offered jc rcvbuf alloc got reads →
      SameBlock jc rcvbuf alloc lim
        (readAndCheckComplete jc got (lim - got.length) ret d reads)
        (readAndCheckBuffer jc (got ++ List.replicate (lim - got.length) nul) got.length
          (lim - got.length) ret d reads).1 := by
  -- no room is left, and neither of the two reads
  have hfull : ∀ (got : List Char) (ret : Option Int) (d : Json) (rest : List (Read Char)),
      got.length = lim → Offered jc rcvbuf alloc got rest →
      SameBlock jc rcvbuf alloc lim
        (readAndCheckComplete jc got (lim - got.length) ret d rest)
        (readAndCheckBuffer jc (got ++ List.replicate (lim - got.length) nul) got.length
          (lim - got.length) ret d rest).1 := by
    intro got ret d rest hlen hoff
    rw [hlen, Nat.sub_self, List.replicate_zero, List.append_nil, readAndCheckComplete,
      readAndCheckBuffer]
    exact .full ret d got rest hlen hoff
  induction reads with
  | nil =>
      intro got ret d _ hhi hoff
      rcases Nat.lt_or_eq_of_le hhi with hlt | hlen
      · obtain ⟨k, hk⟩ : ∃ k, lim - got.length = k + 1 :=
          Nat.exists_eq_succ_of_ne_zero (by omega)
        rw [hk, readAndCheckComplete, readAndCheckBuffer, List.take_left]
        exact .blocked got
      · exact hfull got ret d [] hlen hoff
  | cons r reads ih =>
      intro got ret d hlo hhi hoff
      rcases Nat.lt_or_eq_of_le hhi with hlt | hlen
      · obtain ⟨k, hk⟩ : ∃ k, lim - got.length = k + 1 :=
          Nat.exists_eq_succ_of_ne_zero (by omega)
        rw [hk]
        cases r with
        | eof =>
            rw [readAndCheckComplete, readAndCheckBuffer, List.take_left]
            exact .ended 0 _ _ _ reads (.inr (Int.le_refl _))
        | error =>
            rw [readAndCheckComplete, readAndCheckBuffer]
            exact .ended (-1) d _ _ reads (.inr (by omega))
        | bytes c =>
            have hg : GoesOn rcvbuf alloc got.length :=
              goesOn_of_block hlo (hlim ▸ hlt) (hlim ▸ hcap) halloc
            obtain ⟨⟨-, hcroom⟩, hnext⟩ := hoff hg
            rw [room_of_block hlo (hlim ▸ hlt), ← hlim, hk] at hcroom
            have hlen : (got ++ c).length = got.length + c.length := List.length_append
            rw [readAndCheckComplete, readAndCheckBuffer, take_store hcroom]
            by_cases hp : jc.tokenerParse (got ++ c) = .null
            · have hleft : k + 1 - c.length = lim - (got ++ c).length := by omega
              simp only [hp, Json.isNull, if_true]
              rw [store_padded hcroom, ← hlen, hleft]
              exact ih (got ++ c) _ .null (by omega) (by omega)
                (hnext (JsonC.parse_eq_none.mpr hp))
            · have hnn := Json.isNull_eq_false.mpr hp
              simp only [hnn, Bool.false_eq_true, if_false]
              exact .ended _ _ _ _ reads (.inl hnn)
      · exact hfull got ret d (r :: reads) hlen hoff

theorem readRequestLoop_eq (h0 : 0 < rcvbuf) :
    ∀ (cycles i : Nat) (ret : Option Int) (last : Option Json) (got : List Char)
      (reads : List (Read Char)), got.length = i * rcvbuf →
      capacity rcvbuf = (i + cycles) * rcvbuf → Offered jc rcvbuf alloc got reads →
      readRequestLoop jc rcvbuf alloc cycles i ret last got reads
        = (readRequestBufferLoop jc rcvbuf alloc cycles i ret last got reads).1 := by
  intro cycles
  induction cycles with
  | zero => exact fun _ _ _ _ _ _ _ _ => rfl
  | succ cycles ih =>
      intro i ret last got reads hlen hcap hoff
      have hsucc : (i + 1) * rcvbuf = i * rcvbuf + rcvbuf := by
        rw [Nat.add_mul, Nat.one_mul]
      have hlim : (i + 1) * rcvbuf ≤ capacity rcvbuf := block_le_capacity hcap
      rw [readRequestLoop, readRequestBufferLoop]
      cases halloc : alloc i with
      | false => rfl
      | true =>
          have hroom : (i + 1) * rcvbuf - got.length = rcvbuf := by omega
          have hsame := readAndCheckBuffer_same rfl hlim halloc reads got none .null
            (Nat.le_of_eq hlen.symm) (by omega) hoff
          rw [hroom] at hsame
          rw [if_pos rfl, if_pos rfl]
          generalize readAndCheckBuffer jc (got ++ List.replicate rcvbuf nul) got.length
            rcvbuf none .null reads = br at hsame
          obtain ⟨br, events⟩ := br
          generalize readAndCheckComplete jc got rcvbuf none .null reads = old at hsame
          cases hsame with
          | blocked b => rfl
          | ended r d b b' rest hend => simp only [if_pos hend]
          | full ret d b rest hlenb hoffb =>
              cases ret with
              | none => rfl
              | some r =>
                  by_cases hend : d.isNull = false ∨ r ≤ 0
                  · simp only [if_pos hend]
                  · simp only [if_neg hend]
                    exact ih (i + 1) (some r) (some d) b rest hlenb
                      (capacity_behind_block hcap) hoffb

/-- **The memory does not matter**: the result is a function of the bytes
received. -/
theorem readRequest_eq (data : Option Json) (reads : List (Read Char))
    (hoff : Offered jc rcvbuf alloc [] reads) :
    readRequest jc rcvbuf alloc data reads
      = (readRequestBuffer jc rcvbuf alloc data reads).1 := by
  unfold readRequest readRequestBuffer
  by_cases h0 : rcvbuf = 0
  · rw [if_pos h0, if_pos h0]
  · rw [if_neg h0, if_neg h0]
    refine readRequestLoop_eq (Nat.pos_of_ne_zero h0) _ 0 none data [] reads (by simp) ?_ hoff
    rw [Nat.zero_add]
    rfl

/-! ## §5. One collection of bytes. -/

/-- What a result of `read_request` says about the message. -/
def Returns : ReadResult → Assembled Json Char → Prop
  | r, .value v rest => ∃ n : Int, 0 < n ∧ r = .returned n v rest
  | r, .eof rest => r = .returned 0 Json.newObject rest
  | r, .error rest => r = .returned (-1) Json.newObject rest
  | r, .full rest => r = .returned (-1) Json.newObject rest
  | r, .waiting got => r = .blocked got

/-- Where the allocations succeed, the reader goes on below the capacity. -/
theorem goesOn_all {n : Nat} : GoesOn rcvbuf (fun _ => true) n ↔ n < capacity rcvbuf :=
  and_iff_left rfl

theorem returns_collect (data : Option Json) (reads : List (Read Char)) :
    ∀ got : List Char, got.length < capacity rcvbuf →
      Offered jc rcvbuf (fun _ => true) got reads →
      Returns (collect jc rcvbuf (fun _ => true) data got reads).1
        (assemble jc.parse (capacity rcvbuf) got reads) := by
  induction reads with
  | nil =>
      intro got hlt _
      rw [collect_nil (goesOn_all.mpr hlt)]
      rfl
  | cons r reads ih =>
      intro got hlt hoff
      have hg : GoesOn rcvbuf (fun _ => true) got.length := goesOn_all.mpr hlt
      cases r with
      | eof =>
          rw [collect_eof hg]
          rfl
      | error =>
          rw [collect_error hg]
          rfl
      | bytes c =>
          obtain ⟨⟨hne, -⟩, hnext⟩ := hoff hg
          have hcpos : 0 < c.length := List.length_pos_iff.mpr hne
          cases hp : jc.parse (got ++ c) with
          | some v =>
              obtain ⟨rfl, hv⟩ := JsonC.parse_eq_some.mp hp
              rw [collect_complete hg hv, assemble_complete hp]
              exact ⟨c.length, by omega, rfl⟩
          | none =>
              rw [collect_incomplete hg (JsonC.parse_eq_none.mp hp), assemble_incomplete hp]
              by_cases hfull : (got ++ c).length < capacity rcvbuf
              · rw [if_pos hfull]
                exact ih (got ++ c) hfull (hnext hp)
              · rw [if_neg hfull, collect_full (Nat.le_of_not_lt hfull)]
                rfl

/-- **`read_request` collects one message.**  For every block size and every
sequence of reads a kernel can return, the nested loops deliver what a single
collection of at most `capacity rcvbuf` bytes delivers. -/
theorem readRequest_refines (h0 : 0 < rcvbuf)
    (hB : rcvbuf ≤ maxRequestBufferSize) (data : Option Json)
    (reads : List (Read Char)) (hfit : Readable jc rcvbuf reads) :
    Returns (readRequest jc rcvbuf (fun _ => true) data reads)
      (assemble jc.parse (capacity rcvbuf) [] reads) := by
  have hoff : Offered jc rcvbuf (fun _ => true) [] reads :=
    Fits.message (fun _ hg => hg.1) reads [] hfit
  rw [readRequest_eq data reads hoff, readRequestBuffer_eq h0 hB reads hoff]
  exact returns_collect data reads [] (capacity_pos h0 hB) hoff

end Blocks

end MesonDisplay.Ipc
