/-
  MesonDisplay.Lib.Framing — recovering messages from a byte stream.

  A writer puts the texts of a list of messages on a stream, one after the
  other and with nothing between them.  A reader sees the stream as a list of
  reads, each returning some more bytes.  It collects bytes until what it has
  collected parses, hands the parsed value on, and starts the next message
  from an EMPTY buffer.  Whatever the last read of a message returned beyond
  that message is dropped.

  Main results:
    * `not_sublist_of_late` — a reader that starts later than the first byte
      of a message never delivers all the messages from there on.
    * `sublist_delivered_iff` — the reader delivers every message exactly
      when each one fits the buffer and ends where a read ends.

  The byte type, the value type and the parser are parameters.
-/
import Mathlib.Data.List.Basic

namespace MesonDisplay.Framing

variable {α β : Type}

/-! ## §1. Reads and the reader. -/

/-- What one read of a stream returns. -/
inductive Read (β : Type) where
  | bytes (c : List β)
  | eof
  | error
  deriving Repr, DecidableEq

/-- The values handed on by a reader that has `got` in its buffer.  It gives
up at the end of the stream, on an error, and when `cap` bytes do not parse. -/
def delivered (parse : List β → Option α) (cap : Nat) :
    List β → List (Read β) → List α
  | got, .bytes c :: rs =>
      match parse (got ++ c) with
      | some v => v :: delivered parse cap [] rs
      | none =>
          if (got ++ c).length < cap then delivered parse cap (got ++ c) rs
          else []
  | _, _ => []

/-- What the reader has in its buffer afterwards; `none` once it gave up. -/
def pending (parse : List β → Option α) (cap : Nat) :
    List β → List (Read β) → Option (List β)
  | got, [] => some got
  | got, .bytes c :: rs =>
      match parse (got ++ c) with
      | some _ => pending parse cap [] rs
      | none =>
          if (got ++ c).length < cap then pending parse cap (got ++ c) rs
          else none
  | _, _ :: _ => none

/-- The outcome of collecting one message. -/
inductive Assembled (α β : Type) where
  /-- The bytes received parse to `v`; `rest` is yet to be read. -/
  | value (v : α) (rest : List (Read β))
  | eof (rest : List (Read β))
  | error (rest : List (Read β))
  /-- `cap` bytes were received and do not parse. -/
  | full (rest : List (Read β))
  /-- The reader waits for more, with `got` in its buffer. -/
  | waiting (got : List β)

/-- Collect one message, with `got` in the buffer already. -/
def assemble (parse : List β → Option α) (cap : Nat) :
    List β → List (Read β) → Assembled α β
  | got, [] => .waiting got
  | _, .eof :: rs => .eof rs
  | _, .error :: rs => .error rs
  | got, .bytes c :: rs =>
      match parse (got ++ c) with
      | some v => .value v rs
      | none =>
          if (got ++ c).length < cap then assemble parse cap (got ++ c) rs
          else .full rs

/-- The reads are possible ones: each returns at least one byte and no more
than the reader asks for, which is `room n` with `n` bytes in its buffer. -/
def Fits (parse : List β → Option α) (cap : Nat) (room : Nat → Nat) :
    List β → List (Read β) → Prop
  | got, .bytes c :: rs =>
      (c ≠ [] ∧ c.length ≤ room got.length) ∧
        match parse (got ++ c) with
        | some _ => Fits parse cap room [] rs
        | none =>
            (got ++ c).length < cap → Fits parse cap room (got ++ c) rs
  | _, _ => True

/-- The reads of one message are possible ones.  `goesOn n` says whether the
reader asks for more with `n` bytes in its buffer. -/
def FitsMessage (parse : List β → Option α) (goesOn : Nat → Prop) (room : Nat → Nat) :
    List β → List (Read β) → Prop
  | got, .bytes c :: rs =>
      goesOn got.length →
        (c ≠ [] ∧ c.length ≤ room got.length) ∧
          (parse (got ++ c) = none → FitsMessage parse goesOn room (got ++ c) rs)
  | _, _ => True

section StepLemmas

variable {parse : List β → Option α} {cap : Nat} {room : Nat → Nat}
  {got c : List β} {rs : List (Read β)} {v : α}

theorem delivered_complete (h : parse (got ++ c) = some v) :
    delivered parse cap got (.bytes c :: rs)
      = v :: delivered parse cap [] rs := by
  simp [delivered, h]

theorem delivered_incomplete (h : parse (got ++ c) = none) :
    delivered parse cap got (.bytes c :: rs)
      = if (got ++ c).length < cap then delivered parse cap (got ++ c) rs
        else [] := by
  simp [delivered, h]

theorem pending_complete (h : parse (got ++ c) = some v) :
    pending parse cap got (.bytes c :: rs) = pending parse cap [] rs := by
  simp [pending, h]

theorem pending_incomplete (h : parse (got ++ c) = none) :
    pending parse cap got (.bytes c :: rs)
      = if (got ++ c).length < cap then pending parse cap (got ++ c) rs
        else none := by
  simp [pending, h]

theorem assemble_complete (h : parse (got ++ c) = some v) :
    assemble parse cap got (.bytes c :: rs) = .value v rs := by
  simp [assemble, h]

theorem assemble_incomplete (h : parse (got ++ c) = none) :
    assemble parse cap got (.bytes c :: rs)
      = if (got ++ c).length < cap then assemble parse cap (got ++ c) rs
        else .full rs := by
  simp [assemble, h]

/-- The deliveries of a reader, one message at a time. -/
theorem delivered_eq (got : List β) (rs : List (Read β)) :
    delivered parse cap got rs
      = match assemble parse cap got rs with
        | .value v rest => v :: delivered parse cap [] rest
        | _ => [] := by
  induction rs generalizing got with
  | nil => rfl
  | cons r rs ih =>
      cases r with
      | eof => rfl
      | error => rfl
      | bytes c =>
          cases hp : parse (got ++ c) with
          | some v => rw [delivered_complete hp, assemble_complete hp]
          | none =>
              rw [delivered_incomplete hp, assemble_incomplete hp]
              split
              · exact ih _
              · rfl

theorem pending_eq (got : List β) (rs : List (Read β)) :
    pending parse cap got rs
      = match assemble parse cap got rs with
        | .value _ rest => pending parse cap [] rest
        | .waiting g => some g
        | _ => none := by
  induction rs generalizing got with
  | nil => rfl
  | cons r rs ih =>
      cases r with
      | eof => rfl
      | error => rfl
      | bytes c =>
          cases hp : parse (got ++ c) with
          | some v => rw [pending_complete hp, assemble_complete hp]
          | none =>
              rw [pending_incomplete hp, assemble_incomplete hp]
              split
              · exact ih _
              · rfl

/-- Later reads go on from what the earlier ones leave in the buffer. -/
theorem delivered_append (rs' : List (Read β)) (rs : List (Read β)) : ∀ got,
    delivered parse cap got (rs ++ rs')
      = delivered parse cap got rs ++
        (match pending parse cap got rs with
        | some g => delivered parse cap g rs'
        | none => []) := by
  induction rs with
  | nil => exact fun _ => rfl
  | cons r rs ih =>
      intro got
      cases r with
      | eof => rfl
      | error => rfl
      | bytes c =>
          rw [List.cons_append]
          cases hp : parse (got ++ c) with
          | some v =>
              rw [delivered_complete hp, delivered_complete hp, pending_complete hp, ih]
              rfl
          | none =>
              rw [delivered_incomplete hp, delivered_incomplete hp, pending_incomplete hp]
              by_cases hlt : (got ++ c).length < cap
              · rw [if_pos hlt, if_pos hlt, if_pos hlt, ih]
              · rw [if_neg hlt, if_neg hlt, if_neg hlt]
                rfl

theorem pending_append (rs' : List (Read β)) (rs : List (Read β)) : ∀ got,
    (∀ g, pending parse cap got rs = some g →
      pending parse cap got (rs ++ rs') = pending parse cap g rs') := by
  induction rs with
  | nil =>
      intro got g hg
      obtain rfl := Option.some.inj hg
      rfl
  | cons r rs ih =>
      intro got g hg
      cases r with
      | eof => exact absurd hg (by simp [pending])
      | error => exact absurd hg (by simp [pending])
      | bytes c =>
          rw [List.cons_append]
          cases hp : parse (got ++ c) with
          | some v =>
              rw [pending_complete hp] at hg ⊢
              exact ih [] g hg
          | none =>
              rw [pending_incomplete hp] at hg ⊢
              by_cases hlt : (got ++ c).length < cap
              · rw [if_pos hlt] at hg ⊢
                exact ih _ g hg
              · rw [if_neg hlt] at hg
                exact absurd hg (by simp)

theorem fits_append (rs' : List (Read β)) (rs : List (Read β)) : ∀ got,
    Fits parse cap room got rs →
      (∀ g, pending parse cap got rs = some g → Fits parse cap room g rs') →
        Fits parse cap room got (rs ++ rs') := by
  induction rs with
  | nil => exact fun got _ hnext => hnext got rfl
  | cons r rs ih =>
      intro got hfit hnext
      cases r with
      | eof => trivial
      | error => trivial
      | bytes c =>
          obtain ⟨hc, hrest⟩ : (c ≠ [] ∧ c.length ≤ room got.length) ∧ _ := hfit
          refine ⟨hc, ?_⟩
          cases hp : parse (got ++ c) with
          | some v =>
              rw [hp] at hrest
              rw [pending_complete hp] at hnext
              exact ih [] hrest hnext
          | none =>
              rw [hp] at hrest
              rw [pending_incomplete hp] at hnext
              intro hlt
              rw [if_pos hlt] at hnext
              exact ih _ (hrest hlt) hnext

/-- Where the whole stream is possible, its first message is. -/
theorem Fits.message {goesOn : Nat → Prop} (hgoes : ∀ n, goesOn n → n < cap)
    (rs : List (Read β)) : ∀ got, Fits parse cap room got rs →
      FitsMessage parse goesOn room got rs := by
  induction rs with
  | nil => exact fun _ _ => trivial
  | cons r rs ih =>
      intro got hfit
      cases r with
      | eof => trivial
      | error => trivial
      | bytes c =>
          obtain ⟨hc, hrest⟩ : (c ≠ [] ∧ c.length ≤ room got.length) ∧ _ := hfit
          intro _
          refine ⟨hc, fun hp => ?_⟩
          rw [hp] at hrest
          by_cases hlt : (got ++ c).length < cap
          · exact ih _ (hrest hlt)
          · -- nothing is read any more
            cases rs with
            | nil => trivial
            | cons r rs =>
                cases r with
                | eof => trivial
                | error => trivial
                | bytes c' => exact fun hg => absurd (hgoes _ hg) hlt

/-- Collecting a message consumes at least one read, and the reads that are
left are possible ones again. -/
theorem assemble_value {got : List β} {rs rest : List (Read β)} {v : α}
    (hfit : Fits parse cap room got rs)
    (h : assemble parse cap got rs = .value v rest) :
    rest.length < rs.length ∧ Fits parse cap room [] rest := by
  induction rs generalizing got with
  | nil => simp [assemble] at h
  | cons r rs ih =>
      cases r with
      | eof => simp [assemble] at h
      | error => simp [assemble] at h
      | bytes c =>
          obtain ⟨-, hnext⟩ : (c ≠ [] ∧ c.length ≤ room got.length) ∧ _ := hfit
          cases hp : parse (got ++ c) with
          | some w =>
              rw [assemble_complete hp] at h
              rw [hp] at hnext
              obtain ⟨-, rfl⟩ : w = v ∧ rs = rest := by simpa using h
              exact ⟨Nat.lt_succ_self _, hnext⟩
          | none =>
              rw [assemble_incomplete hp] at h
              rw [hp] at hnext
              split at h
              · rename_i hlt
                obtain ⟨hlen, hf⟩ := ih (hnext hlt) h
                exact ⟨Nat.lt_succ_of_lt hlen, hf⟩
              · exact absurd h (by simp)

/-- A stream no beginning of which is a value stays in the buffer. -/
theorem pending_of_no_value {stream : List β}
    (hno : ∀ p, p <+: stream → parse p = none) (hlen : stream.length < cap) :
    ∀ (chunks : List (List β)) (got : List β), got ++ chunks.flatten = stream →
      delivered parse cap got (chunks.map Read.bytes) = [] ∧
      pending parse cap got (chunks.map Read.bytes) = some stream := by
  intro chunks
  induction chunks with
  | nil =>
      intro got hs
      obtain rfl : got = stream := by simpa using hs
      exact ⟨rfl, rfl⟩
  | cons c cs ih =>
      intro got hs
      have hs' : (got ++ c) ++ cs.flatten = stream := by simpa using hs
      have hp : parse (got ++ c) = none := hno _ ⟨cs.flatten, hs'⟩
      have hlt : (got ++ c).length < cap := by
        have := congrArg List.length hs'
        rw [List.length_append] at this
        omega
      rw [List.map_cons, delivered_incomplete hp, pending_incomplete hp,
          if_pos hlt, if_pos hlt]
      exact ih (got ++ c) hs'

/-- **Where a value comes from.**  A value is delivered by a read that
completes its text: the bytes in the buffer before the read, and those the
read returns, parse to it. -/
theorem mem_delivered_iff (rs : List (Read β)) (got : List β) (v : α) :
    v ∈ delivered parse cap got rs ↔
      ∃ j c g, rs[j]? = some (.bytes c) ∧
        pending parse cap got (rs.take j) = some g ∧ parse (g ++ c) = some v := by
  induction rs generalizing got with
  | nil => simp [delivered]
  | cons r rs ih =>
      -- a read after the first one sees the buffer the first one leaves
      have hcons : (∃ j c g, (r :: rs)[j]? = some (.bytes c) ∧
            pending parse cap got ((r :: rs).take j) = some g ∧
            parse (g ++ c) = some v) ↔
          (∃ c, r = .bytes c ∧ parse (got ++ c) = some v) ∨
          (∃ j c g, rs[j]? = some (.bytes c) ∧
            pending parse cap got (r :: rs.take j) = some g ∧
            parse (g ++ c) = some v) := by
        constructor
        · intro ⟨j, c, g, hj, hg, hp⟩
          cases j with
          | zero =>
              left
              obtain rfl : got = g := by simpa [pending] using hg
              exact ⟨c, by simpa using hj, hp⟩
          | succ j => exact .inr ⟨j, c, g, hj, hg, hp⟩
        · intro h
          rcases h with ⟨c, rfl, hp⟩ | ⟨j, c, g, hj, hg, hp⟩
          · exact ⟨0, c, got, rfl, rfl, hp⟩
          · exact ⟨j + 1, c, g, hj, hg, hp⟩
      rw [hcons]
      cases r with
      | eof => simp [delivered, pending]
      | error => simp [delivered, pending]
      | bytes c =>
          cases hp : parse (got ++ c) with
          | some w =>
              rw [delivered_complete hp, List.mem_cons, ih]
              simp only [pending_complete hp]
              refine or_congr_left ⟨?_, ?_⟩
              · intro h
                subst h
                exact ⟨c, rfl, hp⟩
              · intro ⟨c', hc, hv⟩
                obtain rfl : c = c' := by simpa using hc
                rw [hp] at hv
                exact (Option.some.inj hv).symm
          | none =>
              have hno : ¬ ∃ c', Read.bytes c = .bytes c' ∧
                  parse (got ++ c') = some v := by
                intro ⟨c', hc, hv⟩
                obtain rfl : c = c' := by simpa using hc
                rw [hp] at hv
                exact absurd hv (by simp)
              simp only [hno, false_or, pending_incomplete hp]
              rw [delivered_incomplete hp]
              split
              · exact ih _
              · simp

end StepLemmas

/-! ## §2. Self-delimiting texts. -/

/-- `print` gives each message of `M` a text that `parse` recognises as soon
as it is complete and not before, whatever bytes follow it. -/
structure SelfDelimiting (print : α → List β) (parse : List β → Option α)
    (M : α → Prop) : Prop where
  /-- The first complete value is returned, the bytes after it are ignored. -/
  complete : ∀ m, M m → ∀ rest, parse (print m ++ rest) = some m
  /-- An incomplete text is no value. -/
  incomplete : ∀ m, M m → ∀ p, p <+: print m → p ≠ print m → parse p = none

/-- No text that lies inside the text of a message, after its first byte,
reads back as that very message. -/
def NoLaterCopy (print : α → List β) (parse : List β → Option α)
    (M : α → Prop) : Prop :=
  ∀ m, M m → ∀ a w b, a ≠ [] → print m = a ++ w ++ b → parse w ≠ some m

/-- Every message ends where a read ends: the text of the first `k` messages
is what the first `j` reads returned, for some `j`. -/
def Aligned (print : α → List β) (msgs : List α) (chunks : List (List β)) :
    Prop :=
  ∀ k, ∃ j, (msgs.take k).flatMap print = (chunks.take j).flatten

section Delivery

variable {print : α → List β} {parse : List β → Option α} {M : α → Prop}
  {cap : Nat} {room : Nat → Nat}

/-- The text of a message of a self-delimiting code is not empty, provided
the empty text is no value. -/
theorem SelfDelimiting.print_ne_nil (hc : SelfDelimiting print parse M)
    (h0 : parse [] = none) {m : α} (hm : M m) : print m ≠ [] := by
  intro hp
  have h := hc.complete m hm []
  rw [hp, List.nil_append, h0] at h
  exact absurd h (by simp)

/-- Two prefixes of one stream: the shorter one is a prefix of the longer. -/
theorem prefix_of_append_eq {a b c d : List β} (h : a ++ b = c ++ d)
    (hl : a.length ≤ c.length) : a <+: c :=
  List.prefix_of_prefix_length_le (List.prefix_append a b)
    (h ▸ List.prefix_append c d) hl

/-! ## §3. A late reader. -/

/-- **A late reader misses a message.**  If the bytes `pre` in front of its
buffer belong to the messages `msgs`, the reader does not deliver them all. -/
theorem not_sublist_of_late (hn : NoLaterCopy print parse M) :
    ∀ (chunks : List (List β)) (got pre : List β) (msgs : List α),
      (∀ m ∈ msgs, M m) → pre ≠ [] →
      pre ++ got ++ chunks.flatten = msgs.flatMap print →
      ¬ msgs.Sublist (delivered parse cap got (chunks.map Read.bytes)) := by
  intro chunks
  induction chunks with
  | nil =>
      intro got pre msgs hm hpre hs hsub
      have hnil : msgs = [] := List.sublist_nil.mp (by simpa [delivered] using hsub)
      rw [hnil] at hs
      simp [hpre] at hs
  | cons c cs ih =>
      intro got pre msgs hm hpre hs hsub
      rw [List.map_cons] at hsub
      have hs' : pre ++ (got ++ c) ++ cs.flatten = msgs.flatMap print := by
        simpa using hs
      cases hp : parse (got ++ c) with
      | none =>
          rw [delivered_incomplete hp] at hsub
          split at hsub
          · exact ih (got ++ c) pre msgs hm hpre hs' hsub
          · have hnil := List.sublist_nil.mp hsub
            rw [hnil] at hs
            simp [hpre] at hs
      | some v =>
          rw [delivered_complete hp] at hsub
          have hnext : (pre ++ (got ++ c)) ++ [] ++ cs.flatten
              = msgs.flatMap print := by simpa using hs'
          cases hsub with
          | cons _ hskip =>
              exact ih [] (pre ++ (got ++ c)) msgs hm (by simp [hpre]) hnext hskip
          | cons_cons _ htake =>
              rename_i ms
              have hmv : M v := hm v List.mem_cons_self
              have hms : ∀ m ∈ ms, M m := fun m h => hm m (List.mem_cons_of_mem v h)
              rw [List.flatMap_cons] at hs'
              -- either the delivered text lies inside the text of `v`, or the
              -- next message is started late as well
              by_cases hlen : (pre ++ (got ++ c)).length ≤ (print v).length
              · obtain ⟨b, hb⟩ := prefix_of_append_eq hs' hlen
                exact hn v hmv pre (got ++ c) b hpre hb.symm hp
              · obtain ⟨x, hx⟩ := prefix_of_append_eq hs'.symm (by omega)
                have hxne : x ≠ [] := by
                  intro h0
                  rw [h0, List.append_nil] at hx
                  rw [hx] at hlen
                  exact hlen (Nat.le_refl _)
                have hrest : x ++ [] ++ cs.flatten = ms.flatMap print := by
                  rw [← hx, List.append_assoc] at hs'
                  simpa using List.append_cancel_left hs'
                exact ih [] x ms hms hxne hrest htake

/-! ## §4. Message ends and read ends. -/

/-- `Aligned`, seen from a reader that has `got` in its buffer. -/
def EndsFrom (print : α → List β) (msgs : List α) (got : List β)
    (chunks : List (List β)) : Prop :=
  ∀ k, ∃ j, (msgs.take (k + 1)).flatMap print = got ++ (chunks.take j).flatten

theorem endsFrom_nil_iff_aligned (msgs : List α) (chunks : List (List β)) :
    EndsFrom print msgs [] chunks ↔ Aligned print msgs chunks := by
  constructor
  · intro h k
    cases k with
    | zero => exact ⟨0, by simp⟩
    | succ k => simpa using h k
  · intro h k
    simpa using h (k + 1)

/-- A read that starts where no message ends can be added to the buffer. -/
theorem endsFrom_cons_iff {msgs : List α} {got c : List β}
    {cs : List (List β)}
    (h : ∀ k, (msgs.take (k + 1)).flatMap print ≠ got) :
    EndsFrom print msgs got (c :: cs) ↔ EndsFrom print msgs (got ++ c) cs := by
  refine forall_congr' fun k => ?_
  constructor
  · intro ⟨j, hj⟩
    cases j with
    | zero => exact absurd (by simpa using hj) (h k)
    | succ j => exact ⟨j, by simpa using hj⟩
  · intro ⟨j, hj⟩
    exact ⟨j + 1, by simpa using hj⟩

/-- A buffer that holds exactly the first message can be emptied. -/
theorem endsFrom_print_iff (m : α) (ms : List α) (cs : List (List β)) :
    EndsFrom print (m :: ms) (print m) cs ↔ EndsFrom print ms [] cs := by
  constructor
  · intro h k
    obtain ⟨j, hj⟩ := h (k + 1)
    rw [List.take_succ_cons, List.flatMap_cons] at hj
    exact ⟨j, by simpa using List.append_cancel_left hj⟩
  · intro h k
    cases k with
    | zero => exact ⟨0, by simp⟩
    | succ k =>
        obtain ⟨j, hj⟩ := h k
        refine ⟨j, ?_⟩
        rw [List.take_succ_cons, List.flatMap_cons, hj, List.nil_append]

/-- No message ends inside the first one. -/
theorem take_ne_of_inside {m : α} {ms : List α} {got : List β}
    (hpre : got <+: print m) (hne : got ≠ print m) (k : Nat) :
    ((m :: ms).take (k + 1)).flatMap print ≠ got := by
  intro h
  have hlen := congrArg List.length h
  rw [List.take_succ_cons, List.flatMap_cons, List.length_append] at hlen
  exact hne (hpre.eq_of_length_le (by omega))

/-- A buffer that holds more than the first message has missed its end. -/
theorem not_endsFrom_of_longer {m : α} {ms : List α} {w : List β}
    {cs : List (List β)} (h : (print m).length < w.length) :
    ¬ EndsFrom print (m :: ms) w cs := by
  intro hends
  obtain ⟨j, hj⟩ := hends 0
  have hlen := congrArg List.length hj
  simp only [List.take_succ_cons, List.take_zero, List.flatMap_cons,
    List.flatMap_nil, List.append_nil, List.length_append] at hlen
  omega

/-! ## §5. Exact recovery. -/

/-- What exact recovery says of a reader that has `got` in its buffer. -/
def RecoversFrom (print : α → List β) (parse : List β → Option α) (cap : Nat) (msgs : List α)
    (got : List β) (chunks : List (List β)) : Prop :=
  (msgs.Sublist (delivered parse cap got (chunks.map Read.bytes)) →
    (∀ x ∈ msgs, (print x).length ≤ cap) ∧ EndsFrom print msgs got chunks) ∧
  ((∀ x ∈ msgs, (print x).length ≤ cap) ∧ EndsFrom print msgs got chunks →
    delivered parse cap got (chunks.map Read.bytes) = msgs)

section Recovery

variable {m : α} {ms : List α} {got c : List β} {cs : List (List β)}

/-- The read stops inside the first message. -/
theorem recoversFrom_inside (hends : EndsFrom print (m :: ms) got (c :: cs)
      ↔ EndsFrom print (m :: ms) (got ++ c) cs)
    (hp : parse (got ++ c) = none) (hl : (got ++ c).length < (print m).length)
    (hrest : (got ++ c).length < cap → RecoversFrom print parse cap (m :: ms) (got ++ c) cs) :
    RecoversFrom print parse cap (m :: ms) got (c :: cs) := by
  unfold RecoversFrom
  rw [hends, List.map_cons, delivered_incomplete hp]
  by_cases hlt : (got ++ c).length < cap
  · rw [if_pos hlt]
    exact hrest hlt
  · rw [if_neg hlt]
    refine ⟨fun h => absurd (List.sublist_nil.mp h) (by simp), fun h => ?_⟩
    have hle := h.1 m List.mem_cons_self
    omega

/-- The read ends where the first message ends. -/
theorem recoversFrom_end (hends : EndsFrom print (m :: ms) got (c :: cs)
      ↔ EndsFrom print (m :: ms) (got ++ c) cs)
    (hp : parse (got ++ c) = some m) (hw : got ++ c = print m)
    (hmcap : (print m).length ≤ cap) (hrest : RecoversFrom print parse cap ms [] cs) :
    RecoversFrom print parse cap (m :: ms) got (c :: cs) := by
  obtain ⟨hto, hof⟩ := hrest
  unfold RecoversFrom
  rw [hends, List.map_cons, delivered_complete hp, List.cons_sublist_cons, hw,
    endsFrom_print_iff]
  constructor
  · intro hsub
    obtain ⟨hle, hal⟩ := hto hsub
    exact ⟨List.forall_mem_cons.mpr ⟨hmcap, hle⟩, hal⟩
  · intro ⟨hle, hal⟩
    rw [hof ⟨(List.forall_mem_cons.mp hle).2, hal⟩]

/-- The read runs past the first message: the next one is started late. -/
theorem recoversFrom_past (hends : EndsFrom print (m :: ms) got (c :: cs)
      ↔ EndsFrom print (m :: ms) (got ++ c) cs)
    (hp : parse (got ++ c) = some m) (hl : (print m).length < (got ++ c).length)
    (hlate : ¬ ms.Sublist (delivered parse cap [] (cs.map Read.bytes))) :
    RecoversFrom print parse cap (m :: ms) got (c :: cs) := by
  unfold RecoversFrom
  rw [hends, List.map_cons, delivered_complete hp, List.cons_sublist_cons]
  exact ⟨fun hsub => absurd hsub hlate, fun h => absurd h.2 (not_endsFrom_of_longer hl)⟩

end Recovery

/-- The induction behind exact recovery, over the reads: the buffer holds a
strict prefix of the first message that is still to come. -/
theorem delivered_from (hc : SelfDelimiting print parse M)
    (hn : NoLaterCopy print parse M) (h0 : parse [] = none)
    (hroom : ∀ n, n < cap → n + room n ≤ cap) (hcap : 0 < cap) :
    ∀ (chunks : List (List β)) (got : List β) (msgs : List α),
      (∀ x ∈ msgs, M x) →
      (∀ m ∈ msgs.head?, got <+: print m ∧ got ≠ print m) →
      got.length < cap →
      Fits parse cap room got (chunks.map Read.bytes) →
      got ++ chunks.flatten = msgs.flatMap print →
      RecoversFrom print parse cap msgs got chunks := by
  intro chunks
  induction chunks with
  | nil =>
      intro got msgs hm hhead _ _ hs
      cases msgs with
      | nil =>
          refine ⟨fun _ => ⟨fun x hx => absurd hx (by simp), fun k => ⟨0, ?_⟩⟩,
            fun _ => rfl⟩
          simpa using hs.symm
      | cons m ms =>
          -- the whole stream is in the buffer, yet the buffer is incomplete
          obtain ⟨hpre, hne⟩ := hhead m rfl
          have hlen := congrArg List.length hs
          simp only [List.flatten_nil, List.append_nil, List.flatMap_cons,
            List.length_append] at hlen
          exact absurd (hpre.eq_of_length_le (by omega)) hne
  | cons c cs ih =>
      intro got msgs hm hhead hlt hfit hs
      rw [List.map_cons] at hfit
      obtain ⟨⟨hcne, hcroom⟩, hnext⟩ : (c ≠ [] ∧ c.length ≤ room got.length) ∧ _ :=
        hfit
      have hs' : (got ++ c) ++ cs.flatten = msgs.flatMap print := by simpa using hs
      cases msgs with
      | nil => simp [hcne] at hs
      | cons m ms =>
          obtain ⟨hpre, hne⟩ := hhead m rfl
          have hmM : M m := hm m List.mem_cons_self
          have hms : ∀ x ∈ ms, M x := fun x h => hm x (List.mem_cons_of_mem m h)
          have hends : EndsFrom print (m :: ms) got (c :: cs)
              ↔ EndsFrom print (m :: ms) (got ++ c) cs :=
            endsFrom_cons_iff (take_ne_of_inside hpre hne)
          rw [List.flatMap_cons] at hs'
          rcases Nat.lt_trichotomy (got ++ c).length (print m).length with hl | hl | hl
          · have hw : got ++ c <+: print m := prefix_of_append_eq hs' (by omega)
            have hwne : got ++ c ≠ print m := fun h => by rw [h] at hl; omega
            have hp : parse (got ++ c) = none := hc.incomplete m hmM _ hw hwne
            rw [hp] at hnext
            apply recoversFrom_inside hends hp hl
            intro hlt'
            refine ih (got ++ c) (m :: ms) hm ?_ hlt' (hnext hlt') hs'
            intro m' hm'
            obtain rfl : m = m' := by simpa using hm'
            exact ⟨hw, hwne⟩
          · have hw : got ++ c = print m :=
              (prefix_of_append_eq hs' (by omega)).eq_of_length (by omega)
            have hp : parse (got ++ c) = some m := by
              have hcomplete := hc.complete m hmM []
              rwa [List.append_nil, ← hw] at hcomplete
            have hmcap : (print m).length ≤ cap := by
              rw [← hw, List.length_append]
              have hfits := hroom got.length hlt
              omega
            have hrest : [] ++ cs.flatten = ms.flatMap print := by
              rw [hw] at hs'
              exact List.append_cancel_left hs'
            rw [hp] at hnext
            apply recoversFrom_end hends hp hw hmcap
            exact ih [] ms hms
              (fun m' hm' => ⟨List.nil_prefix, (hc.print_ne_nil h0
                (hms m' (List.mem_of_mem_head? hm'))).symm⟩) hcap hnext hrest
          · obtain ⟨x, hx⟩ := prefix_of_append_eq hs'.symm (by omega)
            have hxne : x ≠ [] := by
              intro h
              rw [h, List.append_nil] at hx
              rw [hx] at hl
              omega
            have hp : parse (got ++ c) = some m := hx ▸ hc.complete m hmM x
            have hrest : x ++ [] ++ cs.flatten = ms.flatMap print := by
              rw [← hx, List.append_assoc] at hs'
              simpa using List.append_cancel_left hs'
            apply recoversFrom_past hends hp hl
            exact not_sublist_of_late hn cs [] x ms hms hxne hrest

/-- **Exact recovery.**  A reader that starts every message from an empty
buffer delivers all of them if and only if every text fits its capacity and
every message ends where a read ends. -/
theorem sublist_delivered_iff (hc : SelfDelimiting print parse M)
    (hn : NoLaterCopy print parse M) (h0 : parse [] = none)
    (hroom : ∀ n, n < cap → n + room n ≤ cap) (hcap : 0 < cap)
    (chunks : List (List β)) (msgs : List α) (hm : ∀ m ∈ msgs, M m)
    (hfit : Fits parse cap room [] (chunks.map Read.bytes))
    (hs : chunks.flatten = msgs.flatMap print) :
    (msgs.Sublist (delivered parse cap [] (chunks.map Read.bytes)) ↔
      (∀ m ∈ msgs, (print m).length ≤ cap) ∧ Aligned print msgs chunks) ∧
    (msgs.Sublist (delivered parse cap [] (chunks.map Read.bytes)) →
      delivered parse cap [] (chunks.map Read.bytes) = msgs) := by
  obtain ⟨hto, hof⟩ := delivered_from hc hn h0 hroom hcap chunks [] msgs hm
    (fun m hm' => ⟨List.nil_prefix,
      (hc.print_ne_nil h0 (hm m (List.mem_of_mem_head? hm'))).symm⟩) hcap hfit hs
  rw [endsFrom_nil_iff_aligned] at hto hof
  exact ⟨⟨hto, fun h => (hof h) ▸ List.Sublist.refl _⟩, fun h => hof (hto h)⟩

end Delivery

end MesonDisplay.Framing
