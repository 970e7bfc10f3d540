/-
  MesonDisplay.Samples.FirstFree — the samples that draw into a free buffer.

  simple-dmabuf-drm.c shows the first buffer that is not busy.  Its buffers are
  filled when they are made and never again.

  simple-dmabuf-ion.c counts the busy buffers first, then takes the first free
  one.  It draws into a buffer as soon as the compositor gives it back: every
  byte is set to the next value of a counter.

  Main results:
    * `drm_aborts_iff` — when `redraw` of the first sample calls abort().
    * `ion_shows_what_it_drew` — what the compositor reads of the second one,
      and when its assertions fail.
-/
import MesonDisplay.Samples.FrameLoop

namespace MesonDisplay.Samples

open MesonDisplay.Lending MesonDisplay.Runs

/-! ## §1. simple-dmabuf-drm.c. -/

namespace DmabufDrm

/-- The first half of `redraw`. -/
def draw (_ : Unit) (busy : BufferIndex → Bool) (_ : Unit) : Drawn Unit :=
  match windowNextBuffer busy with
  | none => .abort .noBuffer
  | some i => .attach i ()

def client : Client Unit Unit where
  start := fun data _ => some data
  draw := draw
  release := fun data _ _ => some (data, true)
  testsRet := true

theorem client_starving : client.Starving .noBuffer fun _ _ _ => True where
  stop := id
  start := fun _ _ => trivial
  quit := fun _ _ _ => trivial
  attach := fun _ _ _ => trivial
  release := fun _ _ _ => trivial
  draw := by
    intro data held running busy env _ hnoted a
    rw [← windowNextBuffer_eq_none_iff hnoted]
    show draw data busy env = .abort a ↔ _
    unfold draw
    cases windowNextBuffer busy <;> simp [eq_comm]
  answers := fun _ _ => by simp [client]

/-- **"All buffers busy at redraw(). Server bug?"**  The sample gets there in a
run if and only if the compositor asks for a frame while it has all three
buffers; the first buffer is always found. -/
theorem drm_aborts_iff (xdgShell immediate : Bool) (es : List (Event Unit)) :
    Throughout client.step (fun w => ¬ w.Aborted) (Window.create () xdgShell immediate) es ↔
      Meets client.step (fun w e => ¬ e.Starves w) (Window.create () xdgShell immediate) es :=
  not_aborted_iff client_starving trivial xdgShell immediate es

end DmabufDrm

/-! ## §2. simple-dmabuf-ion.c. -/

namespace DmabufIon

/-- What is drawn. -/
structure Drawing where
  /-- The counter `tmp` of `queue_buffer`. -/
  tmp : UInt8
  /-- The byte in every place of a buffer. -/
  content : BufferIndex → UInt8
  /-- What was in the buffer when it was attached last. -/
  attached : BufferIndex → UInt8

/-- `queue_buffer`. -/
def queueBuffer (data : Drawing) (i : BufferIndex) : Drawing :=
  { data with
    tmp := data.tmp + 1
    content := Function.update data.content i (data.tmp + 1) }

/-- `queue_initial_buffers`. -/
def queueInitialBuffers : Drawing :=
  (List.finRange numBuffers).foldl queueBuffer ⟨0, fun _ => 0, fun _ => 0⟩

/-- `dequeue`; the function falls off its end if every buffer is busy. -/
def dequeue (busy : BufferIndex → Bool) : Option BufferIndex := windowNextBuffer busy

/-- The first half of `redraw`, with its two assertions. -/
def draw (data : Drawing) (busy : BufferIndex → Bool) (_ : Unit) : Drawn Drawing :=
  if numBusy busy < numBuffers then
    match dequeue busy with
    | none => .abort .noBuffer
    | some i =>
        if busy i then .abort .busyBuffer
        else .attach i { data with attached := Function.update data.attached i (data.content i) }
  else .abort .allBusy

/-- The test of `ret` in the loop of `main` is commented out. -/
def client : Client Drawing Unit where
  start := fun data _ => some data
  draw := draw
  release := fun data i _ => some (queueBuffer data i, true)
  testsRet := false

/-- The compositor reads what it was shown. -/
def Unspoilt (data : Drawing) (held : Finset BufferIndex) (_ : Bool) : Prop :=
  ∀ i ∈ held, data.content i = data.attached i

theorem draw_eq {busy : BufferIndex → Bool} {held : Finset BufferIndex} (h : Noted busy held)
    (hheld : held ≠ Finset.univ) (data : Drawing) :
    ∃ i, i ∉ held ∧ draw data busy () =
      .attach i { data with attached := Function.update data.attached i (data.content i) } := by
  cases hnext : dequeue busy with
  | none => exact absurd ((windowNextBuffer_eq_none_iff h).mp hnext) hheld
  | some i =>
      have hfree := windowNextBuffer_free hnext
      refine ⟨i, (h.free_iff i).mp hfree, ?_⟩
      unfold draw
      rw [if_pos ((numBusy_lt_iff h).mpr hheld), hnext]
      simp [hfree]

theorem draw_full {busy : BufferIndex → Bool} (h : Noted busy Finset.univ) (data : Drawing) :
    draw data busy () = .abort .allBusy := by
  unfold draw
  rw [if_neg]
  rw [numBusy_lt_iff h]
  simp

theorem client_starving : client.Starving .allBusy Unspoilt where
  stop := id
  start := by
    intro data held running env data' h hstart
    obtain rfl := Option.some.inj hstart
    exact h
  quit := by
    intro data held running busy env data' _ hnoted hdraw
    by_cases hheld : held = Finset.univ
    · subst hheld
      exact absurd ((draw_full hnoted data).symm.trans hdraw) (by simp)
    · obtain ⟨i, -, heq⟩ := draw_eq hnoted hheld data
      exact absurd (heq.symm.trans hdraw) (by simp)
  attach := by
    intro data held running busy env i data' h hnoted hdraw
    by_cases hheld : held = Finset.univ
    · subst hheld
      exact absurd ((draw_full hnoted data).symm.trans hdraw) (by simp)
    · obtain ⟨i', hi', heq⟩ := draw_eq hnoted hheld data
      obtain ⟨rfl, rfl⟩ := Drawn.attach.inj (heq.symm.trans hdraw)
      intro j hj
      show data.content j = Function.update data.attached i' (data.content i') j
      by_cases hji : j = i'
      · subst hji
        rw [Function.update_self]
      · rw [Function.update_of_ne hji]
        exact h j ((Finset.mem_insert.mp hj).resolve_left hji)
  release := by
    intro data held running i env data' goesOn h hi hrel
    obtain ⟨rfl, rfl⟩ := Prod.mk.inj (Option.some.inj hrel)
    intro j hj
    obtain ⟨hji, hj⟩ := Finset.mem_erase.mp hj
    -- only the buffer that came back is written
    show Function.update data.content i (data.tmp + 1) j = data.attached j
    rw [Function.update_of_ne hji]
    exact h j hj
  draw := by
    intro data held running busy env _ hnoted a
    change draw data busy env = .abort a ↔ _
    by_cases hheld : held = Finset.univ
    · subst hheld
      rw [draw_full hnoted data]
      simp [eq_comm]
    · obtain ⟨i, -, heq⟩ := draw_eq hnoted hheld data
      refine iff_of_false (fun h => ?_) fun h => hheld h.2
      exact absurd (heq.symm.trans h) (by simp)
  answers := fun _ _ => by simp [client]

/-- **The compositor reads what it was shown.**  In every state of a run in which
events are handled, each buffer that the compositor has is filled with what was
in it when it was attached; and an assertion of `redraw` fails in a run if and
only if the compositor asks for a frame while it has all three buffers. -/
theorem ion_shows_what_it_drew (xdgShell : Bool) (es : List (Event Unit)) :
    Throughout client.step
        (fun w => w.Listens → ∀ i ∈ w.held, w.data.content i = w.data.attached i)
        (Window.create queueInitialBuffers xdgShell false) es ∧
      (Throughout client.step (fun w => ¬ w.Aborted)
          (Window.create queueInitialBuffers xdgShell false) es ↔
        Meets client.step (fun w e => ¬ e.Starves w)
          (Window.create queueInitialBuffers xdgShell false) es) := by
  have hstart : Unspoilt queueInitialBuffers ∅ true := by
    intro i hi
    exact absurd hi (Finset.notMem_empty i)
  refine ⟨?_, not_aborted_iff client_starving hstart xdgShell false es⟩
  exact throughout_imp (fun _ h => h.kept)
    (kept_throughout client_starving.toKeeps hstart xdgShell false es)

end DmabufIon

end MesonDisplay.Samples
