/-
  MesonDisplay.Lib.Frames — messages with a trailer.

  A writer may put bytes on the stream that belong to no message: behind a
  message, or alone.  A frame is a message with the bytes written behind it.
  The reader of `Framing` knows nothing of frames.  It may meet a trailer at
  the start of a buffer, and then collects bytes that may never parse.

  Main result:
    * `pending_of_readsFrame` — when every read starts inside the text of a
      message, and stops inside it or at the end of a frame, then the buffer
      is empty whenever a whole number of frames has been read.
-/
import MesonDisplay.Lib.Framing

namespace MesonDisplay.Framing

variable {α β : Type}

/-! ## §1. Frames. -/

/-- A message, if there is one, and the bytes written behind it. -/
structure Frame (α β : Type) where
  message : Option α
  trailer : List β

/-- The text of the message of a frame. -/
def Frame.text (print : α → List β) (f : Frame α β) : List β :=
  match f.message with
  | some m => print m
  | none => []

def Frame.bytes (print : α → List β) (f : Frame α β) : List β :=
  f.text print ++ f.trailer

/-- The bytes of the first `k` frames. -/
def firstFrames (print : α → List β) (frames : List (Frame α β)) (k : Nat) :
    List β :=
  (frames.take k).flatMap (Frame.bytes print)

/-- A read that returns `c`, with `before` read before it: it starts inside the
text of a message, and stops inside that text or at the end of a frame. -/
def ReadsFrame (print : α → List β) (frames : List (Frame α β))
    (before c : List β) : Prop :=
  ∃ k f, frames[k]? = some f ∧
    (firstFrames print frames k).length ≤ before.length ∧
    before.length < (firstFrames print frames k).length + (f.text print).length ∧
    ((before ++ c).length
        < (firstFrames print frames k).length + (f.text print).length ∨
      ∃ m, before ++ c = firstFrames print frames m)

section Positions

variable {print : α → List β} {frames : List (Frame α β)}

theorem firstFrames_succ {k : Nat} {f : Frame α β} (h : frames[k]? = some f) :
    firstFrames print frames (k + 1) = firstFrames print frames k ++ f.bytes print := by
  unfold firstFrames
  rw [List.take_add_one, h]
  simp

/-- Frames are laid out one behind the other. -/
theorem firstFrames_mono {k m : Nat} (h : k ≤ m) :
    (firstFrames print frames k).length ≤ (firstFrames print frames m).length := by
  have hsplit : frames.take m = frames.take k ++ (frames.take m).drop k := by
    have := (List.take_append_drop k (frames.take m)).symm
    rwa [List.take_take, Nat.min_eq_left h] at this
  unfold firstFrames
  rw [hsplit, List.flatMap_append, List.length_append]
  omega

/-- The stream, cut in front of a frame. -/
theorem stream_eq {k : Nat} {f : Frame α β} (h : frames[k]? = some f) :
    ∃ rest, frames.flatMap (Frame.bytes print)
      = firstFrames print frames k ++ f.text print ++ rest := by
  refine ⟨f.trailer ++ (frames.drop (k + 1)).flatMap (Frame.bytes print), ?_⟩
  have hcut : frames.flatMap (Frame.bytes print)
      = firstFrames print frames (k + 1)
        ++ (frames.drop (k + 1)).flatMap (Frame.bytes print) := by
    unfold firstFrames
    rw [← List.flatMap_append, List.take_append_drop]
  rw [hcut, firstFrames_succ h]
  simp [Frame.bytes]

/-- A frame is no shorter than its text. -/
theorem firstFrames_text_le {k m : Nat} {f : Frame α β} (h : frames[k]? = some f)
    (hm : k < m) :
    (firstFrames print frames k).length + (f.text print).length
      ≤ (firstFrames print frames m).length := by
  have hstep : (firstFrames print frames (k + 1)).length
      = (firstFrames print frames k).length + (f.bytes print).length := by
    rw [firstFrames_succ h, List.length_append]
  have hbytes : (f.bytes print).length = (f.text print).length + f.trailer.length := by
    unfold Frame.bytes
    rw [List.length_append]
  have hmono : (firstFrames print frames (k + 1)).length
      ≤ (firstFrames print frames m).length := firstFrames_mono hm
  omega

/-! ## §2. Where the reader is. -/

/-- After `before` the reader has `g` in its buffer: nothing at the end of a
frame, or the start of the message of a frame. -/
def AtFrame (print : α → List β) (frames : List (Frame α β))
    (before g : List β) : Prop :=
  ∃ m, before = firstFrames print frames m ++ g ∧
    (g = [] ∨ ∃ f, frames[m]? = some f ∧ g.length < (f.text print).length)

/-- At the end of a frame the buffer is empty. -/
theorem atFrame_firstFrames {m : Nat} {g : List β}
    (h : AtFrame print frames (firstFrames print frames m) g) : g = [] := by
  obtain ⟨k, hk, hg⟩ := h
  rcases hg with hg | ⟨f, hf, hlt⟩
  · exact hg
  · have hlen := congrArg List.length hk
    rw [List.length_append] at hlen
    by_cases hkm : k < m
    · have hle : (firstFrames print frames k).length + (f.text print).length
          ≤ (firstFrames print frames m).length := firstFrames_text_le hf hkm
      omega
    · have hle : (firstFrames print frames m).length
          ≤ (firstFrames print frames k).length := firstFrames_mono (Nat.le_of_not_lt hkm)
      exact List.length_eq_zero_iff.mp (by omega)

/-- A read that starts inside the text of a message finds the start of just
that text in the buffer. -/
theorem atFrame_locate {before g : List β} {k : Nat} {f : Frame α β}
    (hat : AtFrame print frames before g) (hf : frames[k]? = some f)
    (hlo : (firstFrames print frames k).length ≤ before.length)
    (hhi : before.length
      < (firstFrames print frames k).length + (f.text print).length)
    {rest : List β} (hs : before ++ rest = frames.flatMap (Frame.bytes print)) :
    before = firstFrames print frames k ++ g ∧ g.length < (f.text print).length := by
  obtain ⟨m, hm, hg⟩ := hat
  have hlen := congrArg List.length hm
  rw [List.length_append] at hlen
  have hsame : (firstFrames print frames m).length = (firstFrames print frames k).length := by
    rcases Nat.lt_trichotomy m k with hmk | hmk | hmk
    · -- the buffer belongs to an earlier frame: that frame is over
      have hmono : (firstFrames print frames m).length
          ≤ (firstFrames print frames k).length := firstFrames_mono (Nat.le_of_lt hmk)
      rcases hg with rfl | ⟨f', hf', hlt⟩
      · simp only [List.length_nil] at hlen
        omega
      · have hle : (firstFrames print frames m).length + (f'.text print).length
            ≤ (firstFrames print frames k).length := firstFrames_text_le hf' hmk
        omega
    · rw [hmk]
    · -- the buffer belongs to a later frame: the read would start later
      have hle : (firstFrames print frames k).length + (f.text print).length
          ≤ (firstFrames print frames m).length := firstFrames_text_le hf hmk
      omega
  -- both starts are prefixes of the stream, and equally long
  obtain ⟨rest', hstream⟩ : ∃ rest', frames.flatMap (Frame.bytes print)
      = firstFrames print frames k ++ f.text print ++ rest' := stream_eq hf
  have heq : firstFrames print frames m = firstFrames print frames k := by
    rw [hm, hstream, List.append_assoc, List.append_assoc] at hs
    exact (List.append_inj hs hsame).1
  rw [← heq]
  refine ⟨hm, ?_⟩
  rw [heq] at hlen
  omega

/-! ## §3. Reading frames. -/

variable {parse : List β → Option α} {M : α → Prop} {cap : Nat}

/-- **One read.**  A read inside the text of a message leaves the start of the
message in the buffer; a read up to the end of a frame completes it. -/
theorem atFrame_step (hc : SelfDelimiting print parse M)
    (hM : ∀ f ∈ frames, ∀ m, f.message = some m → M m)
    {before g c rest : List β} (hat : AtFrame print frames before g)
    (hread : ReadsFrame print frames before c)
    (hs : before ++ (c ++ rest) = frames.flatMap (Frame.bytes print)) :
    (parse (g ++ c) = none ∧ AtFrame print frames (before ++ c) (g ++ c)) ∨
    (∃ v, M v ∧ parse (g ++ c) = some v ∧ AtFrame print frames (before ++ c) []) := by
  obtain ⟨k, f, hf, hlo, hhi, hstop⟩ := hread
  obtain ⟨hbefore, hg⟩ := atFrame_locate hat hf hlo hhi hs
  -- the frame holds a message: its text is not empty
  obtain ⟨msg, hmsg, htext⟩ : ∃ msg, f.message = some msg ∧ f.text print = print msg := by
    cases hfm : f.message with
    | none =>
        have hnil : f.text print = [] := by
          unfold Frame.text
          rw [hfm]
        rw [hnil] at hg
        exact absurd hg (Nat.not_lt_zero _)
    | some msg =>
        refine ⟨msg, rfl, ?_⟩
        unfold Frame.text
        rw [hfm]
  have hMmsg : M msg := hM f (List.mem_of_getElem? hf) msg hmsg
  obtain ⟨rest', hstream⟩ : ∃ rest', frames.flatMap (Frame.bytes print)
      = firstFrames print frames k ++ f.text print ++ rest' := stream_eq hf
  have hgc : (g ++ c) ++ rest = print msg ++ rest' := by
    rw [hstream, hbefore, htext, List.append_assoc, List.append_assoc] at hs
    have := List.append_cancel_left hs
    rw [List.append_assoc]
    exact this
  by_cases hin : (g ++ c).length < (print msg).length
  · left
    have hpre : g ++ c <+: print msg := prefix_of_append_eq hgc (by omega)
    have hne : g ++ c ≠ print msg := by
      intro h
      rw [h] at hin
      omega
    refine ⟨hc.incomplete msg hMmsg _ hpre hne, k, ?_, .inr ⟨f, hf, ?_⟩⟩
    · rw [hbefore, List.append_assoc]
    · rw [htext]
      exact hin
  · right
    obtain ⟨x, hx⟩ := prefix_of_append_eq hgc.symm (by omega)
    refine ⟨msg, hMmsg, ?_, ?_⟩
    · rw [← hx]
      exact hc.complete msg hMmsg x
    · rcases hstop with hlt | ⟨m, hm⟩
      · rw [hbefore, htext, List.append_assoc, List.length_append] at hlt
        omega
      · exact ⟨m, by rw [hm, List.append_nil], .inl rfl⟩

/-- All reads, from any point of the stream. -/
theorem atFrame_run (cap : Nat) (hc : SelfDelimiting print parse M)
    (hM : ∀ f ∈ frames, ∀ m, f.message = some m → M m) :
    ∀ (chunks : List (List β)) (before g rest : List β),
      AtFrame print frames before g →
      before ++ (chunks.flatten ++ rest) = frames.flatMap (Frame.bytes print) →
      (∀ j c, chunks[j]? = some c →
        ReadsFrame print frames (before ++ (chunks.take j).flatten) c) →
      (∀ v ∈ delivered parse cap g (chunks.map Read.bytes), M v) ∧
      ∀ g', pending parse cap g (chunks.map Read.bytes) = some g' →
        AtFrame print frames (before ++ chunks.flatten) g' := by
  intro chunks
  induction chunks with
  | nil =>
      intro before g rest hat _ _
      refine ⟨fun v hv => absurd hv (by simp [delivered]), ?_⟩
      intro g' hg'
      obtain rfl : g = g' := by simpa [pending] using hg'
      simpa using hat
  | cons c cs ih =>
      intro before g rest hat hs hreads
      have hs' : before ++ (c ++ (cs.flatten ++ rest))
          = frames.flatMap (Frame.bytes print) := by
        simpa using hs
      -- the condition on the reads, for the first one and for the others
      have hfirst : ReadsFrame print frames before c := by
        simpa using hreads 0 c rfl
      have hlater : ∀ j c', cs[j]? = some c' →
          ReadsFrame print frames (before ++ c ++ (cs.take j).flatten) c' := by
        intro j c' hj
        simpa using hreads (j + 1) c' hj
      have hnext : (before ++ c) ++ (cs.flatten ++ rest)
          = frames.flatMap (Frame.bytes print) := by
        simpa using hs'
      have hflat : before ++ (c :: cs).flatten = before ++ c ++ cs.flatten := by
        simp
      rw [List.map_cons, hflat]
      -- the first read completes nothing, or it completes `v`
      rcases atFrame_step hc hM hat hfirst hs' with ⟨hp, hat'⟩ | ⟨v, hv, hp, hat'⟩
      · rw [delivered_incomplete hp, pending_incomplete hp]
        by_cases hlt : (g ++ c).length < cap
        · rw [if_pos hlt, if_pos hlt]
          exact ih (before ++ c) (g ++ c) rest hat' hnext hlater
        · rw [if_neg hlt, if_neg hlt]
          exact ⟨fun v hv => absurd hv (by simp), fun g' hg' => absurd hg' (by simp)⟩
      · rw [delivered_complete hp, pending_complete hp]
        obtain ⟨hdel, hpend⟩ := ih (before ++ c) [] rest hat' hnext hlater
        refine ⟨?_, hpend⟩
        intro w hw
        rcases List.mem_cons.mp hw with rfl | hw
        · exact hv
        · exact hdel w hw

/-- **Whole frames leave nothing behind.**  If every read of a stream of frames
is one of `ReadsFrame`, the reader delivers messages only, and its buffer is
empty after any reads that return a whole number of frames, unless it gave up
on a message that is too long. -/
theorem pending_of_readsFrame (hc : SelfDelimiting print parse M)
    (hM : ∀ f ∈ frames, ∀ m, f.message = some m → M m)
    (chunks : List (List β)) (rest : List β)
    (hs : chunks.flatten ++ rest = frames.flatMap (Frame.bytes print))
    (hreads : ∀ j c, chunks[j]? = some c →
      ReadsFrame print frames (chunks.take j).flatten c)
    {m : Nat} (hend : chunks.flatten = firstFrames print frames m) :
    (∀ v ∈ delivered parse cap [] (chunks.map Read.bytes), M v) ∧
    ∀ g, pending parse cap [] (chunks.map Read.bytes) = some g → g = [] := by
  have hat : AtFrame print frames [] [] := ⟨0, rfl, .inl rfl⟩
  obtain ⟨hdel, hpend⟩ := atFrame_run cap hc hM chunks [] [] rest hat
    (by simpa using hs) (by simpa using hreads)
  refine ⟨hdel, ?_⟩
  intro g hg
  have h := hpend g hg
  rw [List.nil_append, hend] at h
  exact atFrame_firstFrames h

end Positions

end MesonDisplay.Framing
