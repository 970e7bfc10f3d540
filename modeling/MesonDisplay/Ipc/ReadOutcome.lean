/-
  MesonDisplay.Ipc.ReadOutcome — what `read_request` returns, and when it is
  safe.

  `Outcome` says what a call returns in terms of the chunks that arrive: which
  of them complete a value, and what comes before one is complete.  The block
  size enters only through the capacity.

  Main results:
    * `read_request_spec` — the outcome for every sequence of reads.
    * `parses_terminated_iff` — every string given to the parser is terminated
      unless a read fills the buffer exactly.
    * `read_request_defined_iff` — the block sizes for which the call is
      defined.
-/
import MesonDisplay.Ipc.ReadBuffer
import MesonDisplay.Json.Text

namespace MesonDisplay.Ipc

open MesonDisplay.Framing MesonDisplay.Json

/-! ## §1. Outcomes. -/

/-- None of the beginnings of the chunks is a value. -/
def Incomplete (jc : JsonC) (chunks : List (List Char)) : Prop :=
  ∀ k, k ≤ chunks.length → jc.tokenerParse (chunks.take k).flatten = .null

/-- What `read_request` returns, with room for `cap` bytes. -/
inductive Outcome (jc : JsonC) (cap : Nat) (reads : List (Read Char)) :
    ReadResult → Prop where
  /-- The chunk `c` completes a value. -/
  | value (chunks : List (List Char)) (c : List Char) (rest : List (Read Char))
      (hreads : reads = chunks.map .bytes ++ .bytes c :: rest) (hc : 0 < c.length)
      (hnot : Incomplete jc chunks) (hcap : chunks.flatten.length < cap)
      (hv : jc.tokenerParse (chunks ++ [c]).flatten ≠ .null) :
      Outcome jc cap reads
        (.returned c.length (jc.tokenerParse (chunks ++ [c]).flatten) rest)
  | eof (chunks : List (List Char)) (rest : List (Read Char))
      (hreads : reads = chunks.map .bytes ++ .eof :: rest)
      (hnot : Incomplete jc chunks) (hcap : chunks.flatten.length < cap) :
      Outcome jc cap reads (.returned 0 Json.newObject rest)
  | error (chunks : List (List Char)) (rest : List (Read Char))
      (hreads : reads = chunks.map .bytes ++ .error :: rest)
      (hnot : Incomplete jc chunks) (hcap : chunks.flatten.length < cap) :
      Outcome jc cap reads (.returned (-1) Json.newObject rest)
  /-- The chunk `c` uses up the capacity. -/
  | full (chunks : List (List Char)) (c : List Char) (rest : List (Read Char))
      (hreads : reads = chunks.map .bytes ++ .bytes c :: rest)
      (hnot : Incomplete jc (chunks ++ [c])) (hcap : chunks.flatten.length < cap)
      (hfull : cap ≤ (chunks ++ [c]).flatten.length) :
      Outcome jc cap reads (.returned (-1) Json.newObject rest)
  /-- The call waits for the next read. -/
  | blocked (chunks : List (List Char)) (hreads : reads = chunks.map .bytes)
      (hnot : Incomplete jc chunks) (hcap : chunks.flatten.length < cap) :
      Outcome jc cap reads (.blocked chunks.flatten)

section Outcome

variable {jc : JsonC} {rcvbuf : Nat}

theorem flatten_concat (chunks : List (List Char)) (c : List Char) :
    (chunks ++ [c]).flatten = chunks.flatten ++ c := by
  rw [List.flatten_append, List.flatten_cons, List.flatten_nil, List.append_nil]

theorem incomplete_nil : Incomplete jc [] := by
  intro k _
  rw [List.take_nil]
  exact jc.tokenerParse_nil

theorem incomplete_concat {chunks : List (List Char)} {c : List Char} :
    Incomplete jc (chunks ++ [c])
      ↔ Incomplete jc chunks ∧ jc.tokenerParse (chunks.flatten ++ c) = .null := by
  rw [← flatten_concat]
  have hlen : (chunks ++ [c]).length = chunks.length + 1 := by
    rw [List.length_append, List.length_singleton]
  constructor
  · intro h
    refine ⟨fun k hk => ?_, ?_⟩
    · have hparse := h k (by omega)
      rwa [List.take_append_of_le_length hk] at hparse
    · have hparse := h (chunks ++ [c]).length (Nat.le_refl _)
      rwa [List.take_length] at hparse
  · intro h k hk
    rcases Nat.lt_or_eq_of_le hk with hlt | heq
    · have hk' : k ≤ chunks.length := by omega
      rw [List.take_append_of_le_length hk']
      exact h.1 k hk'
    · rw [heq, List.take_length]
      exact h.2

theorem reads_concat (chunks : List (List Char)) (c : List Char)
    (rest : List (Read Char)) :
    (chunks ++ [c]).map Read.bytes ++ rest = chunks.map .bytes ++ .bytes c :: rest := by
  rw [List.map_append, List.append_assoc]
  rfl

/-- What is collected behind some chunks is an outcome of all of them. -/
theorem outcome_collect (data : Option Json) (reads : List (Read Char)) :
    ∀ chunks : List (List Char), Incomplete jc chunks →
      chunks.flatten.length < capacity rcvbuf →
      Offered jc rcvbuf (fun _ => true) chunks.flatten reads →
      Outcome jc (capacity rcvbuf) (chunks.map .bytes ++ reads)
        (collect jc rcvbuf (fun _ => true) data chunks.flatten reads).1 := by
  induction reads with
  | nil =>
      intro chunks hnot hcap _
      rw [collect_nil (goesOn_all.mpr hcap)]
      exact .blocked chunks (List.append_nil _) hnot hcap
  | cons r reads ih =>
      intro chunks hnot hcap hoff
      have hg : GoesOn rcvbuf (fun _ => true) chunks.flatten.length :=
        goesOn_all.mpr hcap
      cases r with
      | eof =>
          rw [collect_eof hg]
          exact .eof chunks reads rfl hnot hcap
      | error =>
          rw [collect_error hg]
          exact .error chunks reads rfl hnot hcap
      | bytes c =>
          obtain ⟨⟨hne, -⟩, hnext⟩ := hoff hg
          by_cases hp : jc.tokenerParse (chunks.flatten ++ c) = .null
          · have hnot' : Incomplete jc (chunks ++ [c]) := incomplete_concat.mpr ⟨hnot, hp⟩
            rw [collect_incomplete hg hp, ← flatten_concat, ← reads_concat]
            by_cases hlt : (chunks ++ [c]).flatten.length < capacity rcvbuf
            · refine ih (chunks ++ [c]) hnot' hlt ?_
              rw [flatten_concat]
              exact hnext (JsonC.parse_eq_none.mpr hp)
            · rw [collect_full (Nat.le_of_not_lt hlt)]
              exact .full chunks c reads (reads_concat _ _ _) hnot' hcap
                (Nat.le_of_not_lt hlt)
          · rw [collect_complete hg hp, ← flatten_concat]
            exact .value chunks c reads rfl (List.length_pos_iff.mpr hne) hnot hcap
              (by rwa [flatten_concat])

/-- Chunks that are incomplete and below the capacity are all collected. -/
theorem collect_chunks (data : Option Json) (chunks : List (List Char)) :
    ∀ tail : List (Read Char), Incomplete jc chunks →
      chunks.flatten.length < capacity rcvbuf →
      (collect jc rcvbuf (fun _ => true) data [] (chunks.map .bytes ++ tail)).1
        = (collect jc rcvbuf (fun _ => true) data chunks.flatten tail).1 := by
  induction chunks using List.reverseRecOn with
  | nil => exact fun _ _ _ => rfl
  | append_singleton chunks c ih =>
      intro tail hnot hcap
      obtain ⟨hfirst, hp⟩ := incomplete_concat.mp hnot
      have hlt : chunks.flatten.length < capacity rcvbuf := by
        rw [flatten_concat, List.length_append] at hcap
        omega
      rw [reads_concat, ih _ hfirst hlt, collect_incomplete (goesOn_all.mpr hlt) hp,
        flatten_concat]

/-- The outcome is the one that is collected. -/
theorem collect_eq_of_outcome (data : Option Json) {reads : List (Read Char)}
    {r : ReadResult} (h : Outcome jc (capacity rcvbuf) reads r) :
    (collect jc rcvbuf (fun _ => true) data [] reads).1 = r := by
  cases h with
  | value chunks c rest hreads hc hnot hcap hv =>
      rw [flatten_concat] at hv ⊢
      rw [hreads, collect_chunks data chunks _ hnot hcap,
        collect_complete (goesOn_all.mpr hcap) hv]
  | eof chunks rest hreads hnot hcap =>
      rw [hreads, collect_chunks data chunks _ hnot hcap, collect_eof (goesOn_all.mpr hcap)]
  | error chunks rest hreads hnot hcap =>
      rw [hreads, collect_chunks data chunks _ hnot hcap,
        collect_error (goesOn_all.mpr hcap)]
  | full chunks c rest hreads hnot hcap hfull =>
      obtain ⟨hfirst, hp⟩ := incomplete_concat.mp hnot
      rw [flatten_concat] at hfull
      rw [hreads, collect_chunks data chunks _ hfirst hcap,
        collect_incomplete (goesOn_all.mpr hcap) hp, collect_full hfull]
  | blocked chunks hreads hnot hcap =>
      rw [hreads, ← List.append_nil (chunks.map Read.bytes),
        collect_chunks data chunks _ hnot hcap, collect_nil (goesOn_all.mpr hcap)]

theorem readRequest_collect (h0 : 0 < rcvbuf) (hB : rcvbuf ≤ maxRequestBufferSize)
    (data : Option Json) {reads : List (Read Char)}
    (hoff : Offered jc rcvbuf (fun _ => true) [] reads) :
    readRequest jc rcvbuf (fun _ => true) data reads
      = (collect jc rcvbuf (fun _ => true) data [] reads).1 := by
  rw [readRequest_eq data reads hoff, readRequestBuffer_eq h0 hB reads hoff]

/-- **The outcome of `read_request`.** -/
theorem readRequest_iff_outcome (h0 : 0 < rcvbuf) (hB : rcvbuf ≤ maxRequestBufferSize)
    (data : Option Json) {reads : List (Read Char)}
    (hoff : Offered jc rcvbuf (fun _ => true) [] reads) (r : ReadResult) :
    readRequest jc rcvbuf (fun _ => true) data reads = r
      ↔ Outcome jc (capacity rcvbuf) reads r := by
  rw [readRequest_collect h0 hB data hoff]
  constructor
  · rintro rfl
    exact outcome_collect data reads [] incomplete_nil (capacity_pos h0 hB) hoff
  · exact collect_eq_of_outcome data

/-! ## §2. Infinite sequences. -/

/-- The first `n` reads of an infinite sequence. -/
def firstReads (reads : Nat → Read Char) (n : Nat) : List (Read Char) :=
  (List.range n).map reads

theorem firstReads_add (reads : Nat → Read Char) (n m : Nat) :
    firstReads reads (n + m)
      = firstReads reads n ++ firstReads (fun j => reads (n + j)) m := by
  unfold firstReads
  rw [List.range_add, List.map_append, List.map_map]
  rfl

/-- What comes behind the reads of a call does not change its outcome. -/
theorem outcome_rest {cap : Nat} {reads : List (Read Char)} {ret : Int} {v : Json}
    {rest : List (Read Char)} (h : Outcome jc cap reads (.returned ret v rest)) :
    ∃ used, reads = used ++ rest ∧
      ∀ rest', Outcome jc cap (used ++ rest') (.returned ret v rest') := by
  cases h with
  | value chunks c _ hreads hc hnot hcap hv =>
      exact ⟨(chunks ++ [c]).map .bytes, hreads.trans (reads_concat _ _ _).symm,
        fun rest' => .value chunks c rest' (reads_concat _ _ _) hc hnot hcap hv⟩
  | eof chunks _ hreads hnot hcap =>
      refine ⟨chunks.map .bytes ++ [.eof], ?_, fun rest' => ?_⟩
      · rw [hreads, List.append_assoc]
        rfl
      · exact .eof chunks rest' (by simp) hnot hcap
  | error chunks _ hreads hnot hcap =>
      refine ⟨chunks.map .bytes ++ [.error], ?_, fun rest' => ?_⟩
      · rw [hreads, List.append_assoc]
        rfl
      · exact .error chunks rest' (by simp) hnot hcap
  | full chunks c _ hreads hnot hcap hfull =>
      exact ⟨(chunks ++ [c]).map .bytes, hreads.trans (reads_concat _ _ _).symm,
        fun rest' => .full chunks c rest' (reads_concat _ _ _) hnot hcap hfull⟩

/-- Chunks that are not empty have as many bytes as there are chunks. -/
theorem length_le_flatten {chunks : List (List Char)} (hne : ∀ c ∈ chunks, c ≠ []) :
    chunks.length ≤ chunks.flatten.length := by
  induction chunks with
  | nil => exact Nat.le_refl _
  | cons c chunks ih =>
      have hc := List.length_pos_iff.mpr (hne c List.mem_cons_self)
      have hrest := ih (fun d hd => hne d (List.mem_cons_of_mem _ hd))
      rw [List.flatten_cons, List.length_append, List.length_cons]
      omega

/-- The chunks that a call collects are not empty. -/
theorem offered_chunks {chunks : List (List Char)} :
    Incomplete jc chunks → chunks.flatten.length < capacity rcvbuf →
      ∀ tail, Offered jc rcvbuf (fun _ => true) [] (chunks.map .bytes ++ tail) →
        (∀ c ∈ chunks, c ≠ []) ∧
          Offered jc rcvbuf (fun _ => true) chunks.flatten tail := by
  induction chunks using List.reverseRecOn with
  | nil => exact fun _ _ _ hoff => ⟨fun c hc => absurd hc List.not_mem_nil, hoff⟩
  | append_singleton chunks c ih =>
      intro hnot hcap tail hoff
      obtain ⟨hfirst, hp⟩ := incomplete_concat.mp hnot
      rw [flatten_concat, List.length_append] at hcap
      rw [reads_concat] at hoff
      obtain ⟨hne, hoff'⟩ := ih hfirst (by omega) _ hoff
      obtain ⟨⟨hcne, -⟩, hrest⟩ := hoff' (goesOn_all.mpr (by omega))
      refine ⟨fun d hd => ?_, ?_⟩
      · rcases List.mem_append.mp hd with hd | hd
        · exact hne d hd
        · rw [List.mem_singleton.mp hd]
          exact hcne
      · rw [flatten_concat]
        exact hrest (JsonC.parse_eq_none.mpr hp)

/-- A call that is offered an infinite sequence returns. -/
theorem readRequest_returns (h0 : 0 < rcvbuf) (hB : rcvbuf ≤ maxRequestBufferSize)
    (data : Option Json) {reads : Nat → Read Char}
    (hoff : ∀ n, Offered jc rcvbuf (fun _ => true) [] (firstReads reads n)) :
    ∃ n ret v, ∀ m, readRequest jc rcvbuf (fun _ => true) data (firstReads reads (n + m))
      = .returned ret v (firstReads (fun j => reads (n + j)) m) := by
  -- so many chunks do not fit
  obtain ⟨N, hN⟩ : ∃ N, N = capacity rcvbuf := ⟨_, rfl⟩
  have hlenN : (firstReads reads N).length = N := by
    unfold firstReads
    rw [List.length_map, List.length_range]
  have hout := (readRequest_iff_outcome h0 hB data (hoff N) _).mp rfl
  cases hr : readRequest jc rcvbuf (fun _ => true) data (firstReads reads N) with
  | undefined =>
      rw [hr] at hout
      cases hout
  | blocked b =>
      exfalso
      rw [hr] at hout
      cases hout with
      | blocked chunks hreads hnot hcap =>
          have hoffN := hoff N
          rw [hreads, ← List.append_nil (chunks.map Read.bytes)] at hoffN
          have hle := length_le_flatten (offered_chunks hnot hcap [] hoffN).1
          rw [hreads, List.length_map] at hlenN
          omega
  | returned ret v rest =>
      rw [hr] at hout
      obtain ⟨used, hused, hall⟩ := outcome_rest hout
      have hlen : used.length + rest.length = N := by
        rw [← hlenN, hused, List.length_append]
      have hfirst : firstReads reads used.length = used := by
        have hsplit := firstReads_add reads used.length rest.length
        rw [hlen, hused] at hsplit
        exact (List.append_inj_left hsplit (by simp [firstReads])).symm
      refine ⟨used.length, ret, v, fun m => ?_⟩
      rw [readRequest_iff_outcome h0 hB data (hoff _), firstReads_add, hfirst]
      exact hall _

/-- **`read_request` is specified by the chunks.**  Its result is the outcome
of the reads; with an infinite sequence it returns after finitely many of them;
and two block sizes of one capacity give the same result. -/
theorem read_request_spec (h0 : 0 < rcvbuf) (hB : rcvbuf ≤ maxRequestBufferSize)
    (data : Option Json) :
    (∀ reads, Offered jc rcvbuf (fun _ => true) [] reads → ∀ r,
      (readRequest jc rcvbuf (fun _ => true) data reads = r
        ↔ Outcome jc (capacity rcvbuf) reads r)) ∧
    (∀ reads : Nat → Read Char,
      (∀ n, Offered jc rcvbuf (fun _ => true) [] (firstReads reads n)) →
      ∃ n ret v, ∀ m,
        readRequest jc rcvbuf (fun _ => true) data (firstReads reads (n + m))
          = .returned ret v (firstReads (fun j => reads (n + j)) m)) ∧
    (∀ rcvbuf', 0 < rcvbuf' → rcvbuf' ≤ maxRequestBufferSize →
      capacity rcvbuf' = capacity rcvbuf → ∀ reads,
      Offered jc rcvbuf (fun _ => true) [] reads →
      Offered jc rcvbuf' (fun _ => true) [] reads →
      readRequest jc rcvbuf' (fun _ => true) data reads
        = readRequest jc rcvbuf (fun _ => true) data reads) := by
  refine ⟨fun reads hoff r => readRequest_iff_outcome h0 hB data hoff r,
    fun reads hoff => readRequest_returns h0 hB data hoff, ?_⟩
  intro rcvbuf' h0' hB' hcap reads hoff hoff'
  rw [readRequest_iff_outcome h0' hB' data hoff', hcap,
    ← readRequest_iff_outcome h0 hB data hoff]

end Outcome

/-- An object that arrives in two reads, one block each. -/
theorem object_in_two_reads :
    readRequest jsonText 1 (fun _ => true) none [.bytes ['{'], .bytes ['}']]
      = .returned 1 (.object []) [] := by
  have hopen : jsonText.tokenerParse ['{'] = .null := by decide +kernel
  have hobject : jsonText.tokenerParse ['{', '}'] = .object [] := by decide +kernel
  have hoff : Offered jsonText 1 (fun _ => true) [] [.bytes ['{'], .bytes ['}']] :=
    fun _ => ⟨⟨by simp, by decide⟩, fun _ _ => ⟨⟨by simp, by decide⟩, fun _ => trivial⟩⟩
  have hv : jsonText.tokenerParse ([['{']] ++ [['}']]).flatten = .object [] := hobject
  have hout : Outcome jsonText (capacity 1) [.bytes ['{'], .bytes ['}']]
      (.returned 1 (jsonText.tokenerParse ([['{']] ++ [['}']]).flatten) []) := by
    refine .value [['{']] ['}'] [] rfl (by decide) ?_ (by decide) ?_
    · exact incomplete_concat.mpr ⟨incomplete_nil, hopen⟩
    · rw [hv]
      simp
  rw [hv] at hout
  exact ((read_request_spec (by decide) (by decide) none).1 _ hoff _).mpr hout

/-! ## §3. The strings given to the parser. -/

/-- At or behind the bytes received there is a zero byte in the buffer. -/
def Terminated : ReadEvent → Prop
  | .read _ => True
  | .parse buffer received => ∃ k, received ≤ k ∧ buffer[k]? = some nul

/-- With these chunks received the call makes another read: they are incomplete
and below the capacity, and the blocks up to the next byte are allocated. -/
structure ReadsOn (jc : JsonC) (rcvbuf : Nat) (alloc : Nat → Bool)
    (chunks : List (List Char)) : Prop where
  incomplete : Incomplete jc chunks
  below : chunks.flatten.length < capacity rcvbuf
  allocated : ∀ i, i ≤ chunks.flatten.length / rcvbuf → alloc i = true

/-- A read behind `chunks` fills the buffer exactly. -/
def FillsFrom (jc : JsonC) (rcvbuf : Nat) (alloc : Nat → Bool)
    (chunks : List (List Char)) (reads : List (Read Char)) : Prop :=
  ∃ (more : List (List Char)) (c : List Char) (rest : List (Read Char)),
    reads = more.map .bytes ++ .bytes c :: rest ∧
      ReadsOn jc rcvbuf alloc (chunks ++ more) ∧
      rcvbuf ∣ (chunks ++ more ++ [c]).flatten.length

/-- A read of the call fills the buffer exactly: it leaves a multiple of the
block size. -/
def FillsBuffer (jc : JsonC) (rcvbuf : Nat) (alloc : Nat → Bool)
    (reads : List (Read Char)) : Prop :=
  FillsFrom jc rcvbuf alloc [] reads

section Parses

variable {jc : JsonC} {rcvbuf : Nat} {alloc : Nat → Bool} {data : Option Json}

theorem padded_terminated_iff (rcvbuf before : Nat) (got : List Char) :
    Terminated (.parse (padded rcvbuf before got) got.length)
      ↔ got.length < (before / rcvbuf + 1) * rcvbuf := by
  unfold Terminated padded
  constructor
  · rintro ⟨k, hk, hnul⟩
    have hlt := (List.getElem?_eq_some_iff.mp hnul).1
    rw [List.length_append, List.length_replicate] at hlt
    omega
  · intro hlt
    refine ⟨got.length, Nat.le_refl _, ?_⟩
    rw [List.getElem?_append_right (Nat.le_refl _), Nat.sub_self, List.getElem?_replicate,
      if_pos (by omega)]

/-- Within a block, the end is the only multiple of the block size ahead. -/
theorem dvd_iff_block_end {before n : Nat} (hlo : before < n)
    (hhi : n ≤ (before / rcvbuf + 1) * rcvbuf) :
    rcvbuf ∣ n ↔ ¬ n < (before / rcvbuf + 1) * rcvbuf := by
  constructor
  · rintro ⟨k, rfl⟩ hlt
    rw [Nat.mul_comm rcvbuf k] at hlo hlt
    have hk : k < before / rcvbuf + 1 := Nat.lt_of_mul_lt_mul_right hlt
    have hle : k * rcvbuf ≤ before / rcvbuf * rcvbuf :=
      Nat.mul_le_mul_right _ (Nat.le_of_lt_succ hk)
    have hdiv := Nat.div_mul_le_self before rcvbuf
    omega
  · intro hge
    rw [Nat.le_antisymm hhi (Nat.le_of_not_lt hge)]
    exact Nat.dvd_mul_left _ _

theorem lt_block_end (h0 : 0 < rcvbuf) (n : Nat) : n < (n / rcvbuf + 1) * rcvbuf := by
  rw [Nat.add_mul, Nat.one_mul]
  exact Nat.lt_div_mul_add h0

/-- The string that a chunk completes is terminated unless the chunk reaches the
end of the block. -/
theorem terminated_chunk_iff {got c : List Char} (h0 : 0 < rcvbuf)
    (hc : c ≠ [] ∧ c.length ≤ room rcvbuf got.length) :
    Terminated (.parse (padded rcvbuf got.length (got ++ c)) (got ++ c).length)
      ↔ ¬ rcvbuf ∣ (got ++ c).length := by
  obtain ⟨hne, hroom⟩ := hc
  have hpos := List.length_pos_iff.mpr hne
  have hlen : (got ++ c).length = got.length + c.length := List.length_append
  have hhi := lt_block_end h0 got.length
  rw [room_of_block (Nat.div_mul_le_self _ _) hhi] at hroom
  have hend : rcvbuf ∣ (got ++ c).length
      ↔ ¬ (got ++ c).length < (got.length / rcvbuf + 1) * rcvbuf :=
    dvd_iff_block_end (by omega) (by omega)
  rw [padded_terminated_iff, hend, not_not]

theorem ReadsOn.left {chunks more : List (List Char)}
    (h : ReadsOn jc rcvbuf alloc (chunks ++ more)) : ReadsOn jc rcvbuf alloc chunks := by
  have hle : chunks.flatten.length ≤ (chunks ++ more).flatten.length := by
    rw [List.flatten_append, List.length_append]
    omega
  refine ⟨fun k hk => ?_, Nat.lt_of_le_of_lt hle h.below, fun i hi => ?_⟩
  · have hparse := h.incomplete k (by
      rw [List.length_append]
      omega)
    rwa [List.take_append_of_le_length hk] at hparse
  · exact h.allocated i (Nat.le_trans hi (Nat.div_le_div_right hle))

/-- Where the blocks in use are allocated, the next one decides. -/
theorem readsOn_iff {chunks : List (List Char)} (hnot : Incomplete jc chunks)
    (hused : ∀ i, i * rcvbuf < chunks.flatten.length → alloc i = true) (h0 : 0 < rcvbuf) :
    ReadsOn jc rcvbuf alloc chunks ↔ GoesOn rcvbuf alloc chunks.flatten.length := by
  constructor
  · exact fun h => ⟨h.below, h.allocated _ (Nat.le_refl _)⟩
  · intro h
    refine ⟨hnot, h.1, fun i hi => ?_⟩
    rcases Nat.lt_or_eq_of_le hi with hlt | rfl
    · refine hused i ?_
      have hmul : i * rcvbuf < chunks.flatten.length / rcvbuf * rcvbuf :=
        Nat.mul_lt_mul_of_pos_right hlt h0
      have hdiv := Nat.div_mul_le_self chunks.flatten.length rcvbuf
      omega
    · exact h.2

/-- The first read fills the buffer, or a later one does. -/
theorem fillsFrom_bytes {chunks : List (List Char)} {c : List Char}
    {reads : List (Read Char)} (hon : ReadsOn jc rcvbuf alloc chunks) :
    FillsFrom jc rcvbuf alloc chunks (.bytes c :: reads)
      ↔ rcvbuf ∣ (chunks ++ [c]).flatten.length ∨
        FillsFrom jc rcvbuf alloc (chunks ++ [c]) reads := by
  constructor
  · rintro ⟨more, d, rest, hreads, hmore, hdvd⟩
    cases more with
    | nil =>
        obtain ⟨hcd, -⟩ := List.cons_eq_cons.mp hreads
        obtain rfl : c = d := by simpa using hcd
        rw [List.append_nil] at hdvd
        exact .inl hdvd
    | cons m more =>
        obtain ⟨hcm, hrest⟩ := List.cons_eq_cons.mp hreads
        obtain rfl : c = m := by simpa using hcm
        have hsplit : chunks ++ c :: more = chunks ++ [c] ++ more := List.append_cons _ _ _
        rw [hsplit] at hmore hdvd
        exact .inr ⟨more, d, rest, hrest, hmore, hdvd⟩
  · rintro (hdvd | ⟨more, d, rest, rfl, hmore, hdvd⟩)
    · refine ⟨[], c, reads, rfl, ?_, ?_⟩
      · rwa [List.append_nil]
      · rwa [List.append_nil]
    · have hsplit : chunks ++ [c] ++ more = chunks ++ c :: more :=
        (List.append_cons _ _ _).symm
      rw [hsplit] at hmore hdvd
      exact ⟨c :: more, d, rest, rfl, hmore, hdvd⟩

/-- Only a read that returns bytes fills the buffer. -/
theorem not_fillsFrom_of_stop {chunks : List (List Char)} {reads : List (Read Char)}
    (hstop : ∀ c rest, reads ≠ .bytes c :: rest) :
    ¬ FillsFrom jc rcvbuf alloc chunks reads := by
  rintro ⟨more, c, rest, rfl, -, -⟩
  cases more with
  | nil => exact hstop c rest rfl
  | cons m more => exact hstop m _ rfl

/-- Where the call does not read on, nothing is filled. -/
theorem terminated_iff_of_stopped (h0 : 0 < rcvbuf) {chunks : List (List Char)}
    (reads : List (Read Char)) (hnot : Incomplete jc chunks)
    (hused : ∀ i, i * rcvbuf < chunks.flatten.length → alloc i = true)
    (hg : ¬ GoesOn rcvbuf alloc chunks.flatten.length) :
    (∀ e ∈ (collect jc rcvbuf alloc data chunks.flatten reads).2, Terminated e) ↔
      ¬ FillsFrom jc rcvbuf alloc chunks reads := by
  have hevents : (collect jc rcvbuf alloc data chunks.flatten reads).2 = [] := by
    by_cases hlt : chunks.flatten.length < capacity rcvbuf
    · have halloc : alloc (chunks.flatten.length / rcvbuf) = false := by
        rw [← Bool.not_eq_true]
        exact fun h => hg ⟨hlt, h⟩
      rw [collect_fails hlt halloc]
    · rw [collect_full (Nat.le_of_not_lt hlt)]
  rw [hevents]
  refine ⟨fun _ hfill => ?_, fun _ e he => absurd he List.not_mem_nil⟩
  obtain ⟨more, _, _, _, hon, _⟩ := hfill
  exact hg ((readsOn_iff hnot hused h0).mp hon.left)

/-- A chunk stays within the block that was allocated for it. -/
theorem allocated_behind_chunk {chunks : List (List Char)} {c : List Char} (h0 : 0 < rcvbuf)
    (hon : ReadsOn jc rcvbuf alloc chunks) (hroom : c.length ≤ room rcvbuf chunks.flatten.length)
    {i : Nat} (hi : i * rcvbuf < (chunks ++ [c]).flatten.length) : alloc i = true := by
  refine hon.allocated i ?_
  have hhi := lt_block_end h0 chunks.flatten.length
  rw [room_of_block (Nat.div_mul_le_self _ _) hhi] at hroom
  rw [flatten_concat, List.length_append] at hi
  have hlt : i * rcvbuf < (chunks.flatten.length / rcvbuf + 1) * rcvbuf := by
    omega
  exact Nat.le_of_lt_succ (Nat.lt_of_mul_lt_mul_right hlt)

/-- Of a read and a parse, only the parse asks for something. -/
theorem terminated_read_parse {asked received : Nat} {buffer : List Char}
    {events : List ReadEvent} :
    (∀ e ∈ [.read asked, .parse buffer received] ++ events, Terminated e) ↔
      Terminated (.parse buffer received) ∧ ∀ e ∈ events, Terminated e := by
  rw [List.forall_mem_append, List.forall_mem_cons, List.forall_mem_singleton]
  exact and_congr_left' (and_iff_right trivial)

/-- The strings behind some chunks. -/
theorem collect_terminated_iff (h0 : 0 < rcvbuf) (reads : List (Read Char)) :
    ∀ chunks : List (List Char), Incomplete jc chunks →
      (∀ i, i * rcvbuf < chunks.flatten.length → alloc i = true) →
      Offered jc rcvbuf alloc chunks.flatten reads →
      ((∀ e ∈ (collect jc rcvbuf alloc data chunks.flatten reads).2, Terminated e) ↔
        ¬ FillsFrom jc rcvbuf alloc chunks reads) := by
  induction reads with
  | nil =>
      intro chunks hnot hused _
      by_cases hg : GoesOn rcvbuf alloc chunks.flatten.length
      · rw [collect_nil hg, List.forall_mem_singleton]
        exact iff_of_true trivial (not_fillsFrom_of_stop (by simp))
      · exact terminated_iff_of_stopped h0 [] hnot hused hg
  | cons r reads ih =>
      intro chunks hnot hused hoff
      by_cases hg : GoesOn rcvbuf alloc chunks.flatten.length
      · have hon := (readsOn_iff hnot hused h0).mpr hg
        cases r with
        | eof =>
            rw [collect_eof hg, ← List.append_nil [_, _], terminated_read_parse,
              padded_terminated_iff]
            refine iff_of_true ⟨lt_block_end h0 _, by simp⟩ (not_fillsFrom_of_stop (by simp))
        | error =>
            rw [collect_error hg, List.forall_mem_singleton]
            exact iff_of_true trivial (not_fillsFrom_of_stop (by simp))
        | bytes c =>
            obtain ⟨hc, hnext⟩ := hoff hg
            -- the zero is behind the chunk unless the chunk fills its block
            have hchunk := terminated_chunk_iff h0 hc
            rw [← flatten_concat] at hchunk
            rw [fillsFrom_bytes hon, not_or]
            by_cases hp : jc.tokenerParse (chunks.flatten ++ c) = .null
            · -- the call reads on behind the chunk
              have hnot' : Incomplete jc (chunks ++ [c]) := incomplete_concat.mpr ⟨hnot, hp⟩
              have hoff' := hnext (JsonC.parse_eq_none.mpr hp)
              rw [← flatten_concat] at hoff'
              have hrest := ih (chunks ++ [c]) hnot'
                (fun i hi => allocated_behind_chunk h0 hon hc.2 hi) hoff'
              rw [collect_incomplete hg hp, ← flatten_concat, terminated_read_parse, hchunk, hrest]
            -- the text is complete, so no later chunk counts
            · have hnone : ¬ FillsFrom jc rcvbuf alloc (chunks ++ [c]) reads := by
                rintro ⟨more, _, _, _, hmore, _⟩
                exact hp (incomplete_concat.mp hmore.left.incomplete).2
              rw [collect_complete hg hp, ← flatten_concat, ← List.append_nil [_, _],
                terminated_read_parse, hchunk]
              exact and_congr_right fun _ => iff_of_true (by simp) hnone
      · exact terminated_iff_of_stopped h0 (r :: reads) hnot hused hg

/-- Without a usable block size nothing is read. -/
theorem readRequestBuffer_of_capacity_zero (h : capacity rcvbuf = 0)
    (reads : List (Read Char)) :
    readRequestBuffer jc rcvbuf alloc data reads = (.undefined, [])
      ∨ readRequestBuffer jc rcvbuf alloc data reads = (readRequestEnd none data reads, []) := by
  unfold readRequestBuffer
  by_cases h0 : rcvbuf = 0
  · rw [if_pos h0]
    exact .inl rfl
  · have hdiv : maxRequestBufferSize / rcvbuf = 0 :=
      (Nat.mul_eq_zero.mp h).resolve_right h0
    rw [if_neg h0, hdiv]
    exact .inr rfl

/-- **The strings given to the parser** are terminated, all of them, unless a
read that the call makes fills the buffer exactly. -/
theorem parses_terminated_iff (jc : JsonC) (rcvbuf : Nat) (alloc : Nat → Bool)
    (data : Option Json) (reads : List (Read Char))
    (hoff : Offered jc rcvbuf alloc [] reads) :
    (∀ e ∈ (readRequestBuffer jc rcvbuf alloc data reads).2, Terminated e)
      ↔ ¬ FillsBuffer jc rcvbuf alloc reads := by
  by_cases hcap : capacity rcvbuf = 0
  · have hevents : (readRequestBuffer jc rcvbuf alloc data reads).2 = [] := by
      rcases readRequestBuffer_of_capacity_zero hcap reads with h | h <;> rw [h]
    rw [hevents]
    refine ⟨fun _ hfill => ?_, fun _ e he => absurd he List.not_mem_nil⟩
    obtain ⟨more, _, _, _, hon, _⟩ := hfill
    have hbelow := hon.below
    omega
  · obtain ⟨h0, hB⟩ := capacity_pos_iff.mp (Nat.pos_of_ne_zero hcap)
    rw [readRequestBuffer_eq h0 hB reads hoff]
    exact collect_terminated_iff h0 reads [] incomplete_nil
      (fun i hi => absurd hi (Nat.not_lt_zero _)) hoff

end Parses

/-- An object in a block of four bytes. -/
theorem short_object_terminated :
    (readRequestBuffer jsonText 4 (fun _ => true) none [.bytes ['{', '}']]).2.isEmpty = false ∧
    ∀ e ∈ (readRequestBuffer jsonText 4 (fun _ => true) none [.bytes ['{', '}']]).2,
      Terminated e := by
  refine ⟨by decide +kernel, ?_⟩
  have hoff : Offered jsonText 4 (fun _ => true) [] [.bytes ['{', '}']] :=
    fun _ => ⟨⟨by simp, by decide⟩, fun _ => trivial⟩
  have hon : ReadsOn jsonText 4 (fun _ => true) [] :=
    ⟨incomplete_nil, by decide, fun _ _ => rfl⟩
  refine (parses_terminated_iff jsonText 4 (fun _ => true) none _ hoff).mpr ?_
  unfold FillsBuffer
  rw [fillsFrom_bytes hon, not_or]
  exact ⟨by decide, not_fillsFrom_of_stop (by simp)⟩

/-- The first 212992 bytes of a message, with blocks of that size: the parser is
given a string without an end. -/
theorem full_block_not_terminated :
    Offered jsonText 212992 (fun _ => true) [] [.bytes (List.replicate 212992 ' ')] ∧
    ∃ e ∈ (readRequestBuffer jsonText 212992 (fun _ => true) none
      [.bytes (List.replicate 212992 ' ')]).2, ¬ Terminated e := by
  have hlen : (List.replicate 212992 ' ').length = 212992 := List.length_replicate ..
  have hoff : Offered jsonText 212992 (fun _ => true) []
      [.bytes (List.replicate 212992 ' ')] := by
    refine fun _ => ⟨⟨?_, ?_⟩, fun _ => trivial⟩
    · exact List.ne_nil_of_length_pos (by rw [hlen]; decide)
    · rw [hlen]
      decide
  have hon : ReadsOn jsonText 212992 (fun _ => true) [] :=
    ⟨incomplete_nil, by decide, fun _ _ => rfl⟩
  refine ⟨hoff, ?_⟩
  by_contra hnone
  have hterm : ∀ e ∈ (readRequestBuffer jsonText 212992 (fun _ => true) none
      [.bytes (List.replicate 212992 ' ')]).2, Terminated e :=
    fun e he => by_contra fun hnot => hnone ⟨e, he, hnot⟩
  rw [readRequestBuffer_eq (by decide) (by decide) _ hoff] at hterm
  refine (collect_terminated_iff (by decide) _ [] incomplete_nil
    (fun i hi => absurd hi (Nat.not_lt_zero _)) hoff).mp hterm ?_
  refine (fillsFrom_bytes hon).mpr (.inl ?_)
  rw [flatten_concat, List.flatten_nil, List.nil_append]
  exact ⟨1, hlen.trans (Nat.mul_one _).symm⟩

/-! ## §4. The block sizes. -/

/-- What `socket_create` leaves in `g_max_rcvbuf_size`; `getsockopt` is `none`
if the call fails. -/
def maxRcvbufSize (gMaxRcvbufSize : Nat) (getsockopt : Option Nat) : Nat :=
  if gMaxRcvbufSize = 0 then
    match getsockopt with
    | some size => size
    | none => gMaxRcvbufSize
  else gMaxRcvbufSize

/-- Who calls `read_request`. -/
inductive ReadCaller where
  /-- `server_routine_start`. -/
  | server
  /-- `client_send_request_wait_reply`. -/
  | client
  deriving DecidableEq

/-- What the pointer it passes points to: the server sets `data_in` to NULL, the
client does not initialise `out`. -/
def ReadCaller.dataIn : ReadCaller → Option Json
  | .server => some .null
  | .client => none

/-- `read_request` of one of its callers. -/
def callReadRequest (jc : JsonC) (rcvbuf : Nat) (alloc : Nat → Bool) (caller : ReadCaller)
    (reads : List (Read Char)) : ReadResult × List ReadEvent :=
  readRequestBuffer jc rcvbuf alloc caller.dataIn reads

/-- No division by zero and no value that was never assigned; and something is
read unless there is no memory for the first block. -/
def ReadDefined (alloc : Nat → Bool) (r : ReadResult × List ReadEvent) : Prop :=
  r.1 ≠ .undefined ∧ ((∃ asked, .read asked ∈ r.2) ∨ alloc 0 = false)

section Defined

variable {jc : JsonC} {rcvbuf : Nat} {alloc : Nat → Bool}

/-- A block that has room assigns the result. -/
theorem readAndCheckBuffer_assigned (reads : List (Read Char)) :
    ∀ (buffer : List Char) (nowPos nleft : Nat) (ret : Option Int) (data : Json),
      0 < nleft ∨ ret ≠ none → ∀ d b rest,
        (readAndCheckBuffer jc buffer nowPos nleft ret data reads).1
          ≠ .returned none d b rest := by
  -- without room the block ends with what was assigned before
  have hzero : ∀ (reads : List (Read Char)) (buffer : List Char) (nowPos : Nat)
      (ret : Option Int) (data : Json), 0 < 0 ∨ ret ≠ none → ∀ d b rest,
      (readAndCheckBuffer jc buffer nowPos 0 ret data reads).1 ≠ .returned none d b rest := by
    intro reads buffer nowPos ret data hret d b rest h
    rw [readAndCheckBuffer] at h
    rcases hret with hret | hret
    · exact absurd hret (Nat.lt_irrefl _)
    · exact hret (BlockResult.returned.inj h).1
  induction reads with
  | nil =>
      intro buffer nowPos nleft ret data hret d b rest h
      cases nleft with
      | zero => exact hzero [] buffer nowPos ret data hret d b rest h
      | succ k =>
          rw [readAndCheckBuffer] at h
          exact absurd h (by simp)
  | cons r reads ih =>
      intro buffer nowPos nleft ret data hret d b rest h
      cases nleft with
      | zero => exact hzero (r :: reads) buffer nowPos ret data hret d b rest h
      | succ k =>
          cases r with
          | eof =>
              rw [readAndCheckBuffer] at h
              exact absurd h (by simp)
          | error =>
              rw [readAndCheckBuffer] at h
              exact absurd h (by simp)
          | bytes c =>
              rw [readAndCheckBuffer] at h
              revert h
              by_cases hp : (jc.tokenerParse ((store buffer nowPos c).take
                  (nowPos + c.length))).isNull = true
              · simp only [if_pos hp]
                exact ih _ _ _ _ _ (.inr (by simp)) d b rest
              · simp only [if_neg hp]
                simp

/-- The first thing a block does is to read. -/
theorem readAndCheckBuffer_reads (buffer : List Char) (nowPos k : Nat) (ret : Option Int)
    (data : Json) (reads : List (Read Char)) :
    .read (k + 1) ∈ (readAndCheckBuffer jc buffer nowPos (k + 1) ret data reads).2 := by
  cases reads with
  | nil =>
      rw [readAndCheckBuffer]
      exact List.mem_cons_self
  | cons r reads =>
      cases r with
      | eof =>
          rw [readAndCheckBuffer]
          exact List.mem_cons_self
      | error =>
          rw [readAndCheckBuffer]
          exact List.mem_cons_self
      | bytes c =>
          rw [readAndCheckBuffer]
          by_cases hp : (jc.tokenerParse ((store buffer nowPos c).take
              (nowPos + c.length))).isNull = true
          · simp only [if_pos hp]
            exact List.mem_cons_self
          · simp only [if_neg hp]
            exact List.mem_cons_self

theorem readRequestEnd_assigned (r : Int) (d : Json) (reads : List (Read Char)) :
    readRequestEnd (some r) (some d) reads ≠ .undefined := by
  unfold readRequestEnd
  by_cases hd : d.isNull = true
  · simp [hd]
  · simp [hd]

/-- Once `ret` and `*data` are assigned, they stay so. -/
theorem readRequestBufferLoop_assigned (h0 : 0 < rcvbuf) (cycles : Nat) :
    ∀ (i : Nat) (ret : Int) (data : Json) (buffer : List Char) (reads : List (Read Char)),
      (readRequestBufferLoop jc rcvbuf alloc cycles i (some ret) (some data) buffer
        reads).1 ≠ .undefined := by
  induction cycles with
  | zero => exact fun _ ret data _ reads => readRequestEnd_assigned ret data reads
  | succ cycles ih =>
      intro i ret data buffer reads
      rw [readRequestBufferLoop]
      cases alloc i with
      | false => exact readRequestEnd_assigned (-1) data reads
      | true =>
          have hret : ∀ d b rest, (readAndCheckBuffer jc (buffer ++ List.replicate rcvbuf nul)
              buffer.length rcvbuf none .null reads).1 ≠ .returned none d b rest :=
            readAndCheckBuffer_assigned reads _ _ _ none .null (.inl h0)
          rw [if_pos rfl]
          generalize readAndCheckBuffer jc (buffer ++ List.replicate rcvbuf nul)
            buffer.length rcvbuf none .null reads = br at hret
          obtain ⟨br, events⟩ := br
          cases br with
          | blocked b => simp
          | returned ret' d b rest =>
              cases ret' with
              | none => exact absurd rfl (hret d b rest)
              | some r =>
                  by_cases hstop : d.isNull = false ∨ r ≤ 0
                  · simp only [if_pos hstop]
                    exact readRequestEnd_assigned r d rest
                  · simp only [if_neg hstop]
                    exact ih (i + 1) r d b rest

/-- With memory for the first block the call reads, and is defined. -/
theorem readRequestBuffer_defined (h0 : 0 < rcvbuf) (hB : rcvbuf ≤ maxRequestBufferSize)
    (halloc : alloc 0 = true) (data : Option Json) (reads : List (Read Char)) :
    (readRequestBuffer jc rcvbuf alloc data reads).1 ≠ .undefined ∧
      .read rcvbuf ∈ (readRequestBuffer jc rcvbuf alloc data reads).2 := by
  obtain ⟨k, hk⟩ : ∃ k, maxRequestBufferSize / rcvbuf = k + 1 :=
    Nat.exists_eq_succ_of_ne_zero (Nat.ne_of_gt (Nat.div_pos hB h0))
  obtain ⟨n, hn⟩ : ∃ n, rcvbuf = n + 1 := Nat.exists_eq_succ_of_ne_zero (Nat.ne_of_gt h0)
  have hret : ∀ d b rest, (readAndCheckBuffer jc ([] ++ List.replicate rcvbuf nul)
      ([] : List Char).length rcvbuf none .null reads).1 ≠ .returned none d b rest :=
    readAndCheckBuffer_assigned reads _ _ _ none .null (.inl h0)
  have hread : .read rcvbuf ∈ (readAndCheckBuffer jc ([] ++ List.replicate rcvbuf nul)
      ([] : List Char).length rcvbuf none .null reads).2 := by
    rw [hn]
    exact readAndCheckBuffer_reads _ _ n none .null reads
  unfold readRequestBuffer
  rw [if_neg (Nat.ne_of_gt h0), hk, readRequestBufferLoop, if_pos halloc]
  generalize readAndCheckBuffer jc ([] ++ List.replicate rcvbuf nul)
    ([] : List Char).length rcvbuf none .null reads = br at hret hread
  obtain ⟨br, events⟩ := br
  cases br with
  | blocked b => exact ⟨by simp, hread⟩
  | returned ret d b rest =>
      cases ret with
      | none => exact absurd rfl (hret d b rest)
      | some r =>
          by_cases hstop : d.isNull = false ∨ r ≤ 0
          · simp only [if_pos hstop]
            exact ⟨readRequestEnd_assigned r d rest, hread⟩
          · simp only [if_neg hstop]
            exact ⟨readRequestBufferLoop_assigned h0 k 1 r d b rest,
              List.mem_append_left _ hread⟩

/-- **The block sizes of a defined call.**  Whatever `socket_create` has left in
`g_max_rcvbuf_size`, a call is defined exactly when at least one block fits the
maximum, and, for the client, the first block can be allocated. -/
theorem read_request_defined_iff (jc : JsonC) (gMaxRcvbufSize : Nat)
    (getsockopt : Option Nat) (alloc : Nat → Bool) (caller : ReadCaller)
    (reads : List (Read Char)) :
    ReadDefined alloc (callReadRequest jc (maxRcvbufSize gMaxRcvbufSize getsockopt) alloc
        caller reads)
      ↔ 0 < maxRcvbufSize gMaxRcvbufSize getsockopt ∧
        maxRcvbufSize gMaxRcvbufSize getsockopt ≤ maxRequestBufferSize ∧
        (alloc 0 = true ∨ caller = .server) := by
  generalize maxRcvbufSize gMaxRcvbufSize getsockopt = rcvbuf
  unfold ReadDefined callReadRequest
  by_cases hcap : 0 < capacity rcvbuf
  · obtain ⟨h0, hB⟩ := capacity_pos_iff.mp hcap
    cases halloc : alloc 0 with
    | true =>
        obtain ⟨hdef, hread⟩ :=
          readRequestBuffer_defined h0 hB halloc caller.dataIn reads
        exact ⟨fun _ => ⟨h0, hB, .inl rfl⟩, fun _ => ⟨hdef, .inl ⟨rcvbuf, hread⟩⟩⟩
    | false =>
        -- the loop ends at once, with the result assigned but not the output
        have hcall : readRequestBuffer jc rcvbuf alloc caller.dataIn reads
            = (readRequestEnd (some (-1)) caller.dataIn reads, []) := by
          obtain ⟨k, hk⟩ : ∃ k, maxRequestBufferSize / rcvbuf = k + 1 :=
            Nat.exists_eq_succ_of_ne_zero (Nat.ne_of_gt (Nat.div_pos hB h0))
          unfold readRequestBuffer
          rw [if_neg (Nat.ne_of_gt h0), hk, readRequestBufferLoop, if_neg (by simp [halloc])]
        rw [hcall]
        cases caller with
        | server =>
            exact ⟨fun _ => ⟨h0, hB, .inr rfl⟩, fun _ =>
              ⟨by simp [ReadCaller.dataIn, readRequestEnd, Json.isNull], .inr rfl⟩⟩
        | client =>
            constructor
            · exact fun h => absurd rfl h.1
            · rintro ⟨-, -, h | h⟩
              · exact absurd h (by simp)
              · exact absurd h (by simp)
  · have hzero : capacity rcvbuf = 0 := Nat.eq_zero_of_not_pos hcap
    have hundefined : (readRequestBuffer jc rcvbuf alloc caller.dataIn reads).1
        = .undefined := by
      rcases readRequestBuffer_of_capacity_zero hzero reads with h | h
      · rw [h]
      · rw [h]
        unfold readRequestEnd
        cases caller.dataIn <;> rfl
    constructor
    · exact fun h => absurd hundefined h.1
    · rintro ⟨h0, hB, -⟩
      exact absurd (capacity_pos_iff.mpr ⟨h0, hB⟩) hcap

end Defined

/-- The socket option cannot be read, the size stays 0, and the server divides
by it. -/
theorem zero_size_undefined :
    maxRcvbufSize 0 none = 0 ∧
    (callReadRequest jsonText (maxRcvbufSize 0 none) (fun _ => true) .server []).1 = .undefined ∧
    ¬ ReadDefined (fun _ => true) (callReadRequest jsonText (maxRcvbufSize 0 none)
      (fun _ => true) .server []) :=
  ⟨rfl, rfl, fun hdefined => hdefined.1 rfl⟩

end MesonDisplay.Ipc
