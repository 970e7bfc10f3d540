/-
  MesonDisplay.Samples.CaptureQueue — the sample that shows what a camera sees.

  simple-dmabuf-v4l.c hands its buffers round between three parties.  The
  driver fills the buffers in its queue; VIDIOC_DQBUF takes one that is filled
  out of the queue, and waits if there is none; `redraw` shows it; the
  compositor releases it; VIDIOC_QBUF puts it back.  Which buffer of the queue
  is filled first is the driver's choice.

  `redraw` counts the busy buffers before it waits for the driver, so as not to
  wait forever.

  Main results:
    * `capture_custody` — no buffer is with the driver and with the compositor;
      while the sample runs each one is with one of them; and it waits for the
      driver with an empty queue only if a buffer could not be queued before.
    * `capture_aborts_iff` — when an assertion of `redraw` fails.
    * `exported_closed_twice` — how often the descriptors of the buffers are
      closed in a run that ends.
-/
import MesonDisplay.Samples.FrameLoop

namespace MesonDisplay.Samples.DmabufV4l

open MesonDisplay.Lending MesonDisplay.Runs

/-! ## §1. The driver. -/

/-- What the driver answers. -/
structure DriverEnv where
  /-- VIDIOC_STREAMON succeeds. -/
  streamOn : Bool
  /-- VIDIOC_QUERYBUF succeeds. -/
  queryBuf : Bool
  /-- VIDIOC_QBUF succeeds for a buffer that is not queued. -/
  qBuf : Bool
  /-- A multi-planar buffer has as many planes as the format says. -/
  planesAgree : Bool
  /-- Which of the queued buffers is filled first, `none` if VIDIOC_DQBUF fails. -/
  dqBuf : Option Nat

/-- The buffers in the queue of the driver. -/
structure Capture where
  queued : List BufferIndex

/-- `queue`; the driver refuses a buffer that it has. -/
def queue (data : Capture) (i : BufferIndex) (env : DriverEnv) : Capture × Bool :=
  if env.queryBuf then
    if env.qBuf ∧ i ∉ data.queued then (⟨data.queued ++ [i]⟩, env.planesAgree) else (data, false)
  else (data, false)

/-- `dequeue`. -/
inductive Dequeued where
  | failed
  | waits
  | index (i : BufferIndex)

def dequeue (data : Capture) (env : DriverEnv) : Dequeued :=
  match env.dqBuf with
  | none => .failed
  | some k =>
      match data.queued[k % data.queued.length]? with
      | none => .waits
      | some i => .index i

/-! ## §2. The sample. -/

/-- The first half of `redraw`, with its two assertions. -/
def draw (data : Capture) (busy : BufferIndex → Bool) (env : DriverEnv) : Drawn Capture :=
  if numBusy busy < numBuffers then
    match dequeue data env with
    | .failed => .quit data
    | .waits => .block
    | .index i => if busy i then .abort .busyBuffer else .attach i ⟨data.queued.erase i⟩
  else .abort .allBusy

/-- Behind `start_capture`. -/
def startCapture (data : Capture) (env : DriverEnv) : Option Capture :=
  if env.streamOn then some data else none

def client : Client Capture DriverEnv where
  start := startCapture
  draw := draw
  release := fun data i env => some (queue data i env)
  testsRet := true

/-- Behind `queue_initial_buffers`. -/
def queueInitialBuffers : Capture := ⟨List.finRange numBuffers⟩

/-! ## §3. Who has a buffer. -/

/-- A buffer is with one party at most, and with one of them while the sample
runs. -/
structure Custody (data : Capture) (held : Finset BufferIndex) (running : Bool) : Prop where
  nodup : data.queued.Nodup
  apart : ∀ i ∈ data.queued, i ∉ held
  all : running = true → ∀ i, i ∈ data.queued ∨ i ∈ held

theorem queueInitialBuffers_custody : Custody queueInitialBuffers ∅ true where
  nodup := List.nodup_finRange numBuffers
  apart := fun _ _ => Finset.notMem_empty _
  all := fun _ i => .inl (List.mem_finRange i)

/-- What the driver gives out it had. -/
theorem dequeue_mem {data : Capture} {env : DriverEnv} {i : BufferIndex}
    (h : dequeue data env = .index i) : i ∈ data.queued := by
  unfold dequeue at h
  cases hk : env.dqBuf with
  | none => simp [hk] at h
  | some k =>
      cases hget : data.queued[k % data.queued.length]? with
      | none => simp [hk, hget] at h
      | some j =>
          simp only [hk, hget] at h
          obtain rfl := Dequeued.index.inj h
          exact List.mem_of_getElem? hget

/-- It waits with an empty queue only. -/
theorem dequeue_waits {data : Capture} {env : DriverEnv} (h : dequeue data env = .waits) :
    data.queued = [] := by
  unfold dequeue at h
  cases hk : env.dqBuf with
  | none => simp [hk] at h
  | some k =>
      cases hget : data.queued[k % data.queued.length]? with
      | some j => simp [hk, hget] at h
      | none =>
          by_contra hne
          have hpos := List.length_pos_iff.mpr hne
          have hle := List.getElem?_eq_none_iff.mp hget
          have hlt := Nat.mod_lt k hpos
          omega

/-- The ends of `redraw`. -/
inductive Draws (data : Capture) (held : Finset BufferIndex) : Drawn Capture → Prop where
  | full (hheld : held = Finset.univ) : Draws data held (.abort .allBusy)
  | failed (hheld : held ≠ Finset.univ) : Draws data held (.quit data)
  | waits (hheld : held ≠ Finset.univ) (hnone : data.queued = []) : Draws data held .block
  | shows (hheld : held ≠ Finset.univ) (i : BufferIndex) (hi : i ∈ data.queued) :
      Draws data held (.attach i ⟨data.queued.erase i⟩)

theorem draw_draws {data : Capture} {held : Finset BufferIndex} {running : Bool}
    {busy : BufferIndex → Bool} (h : Custody data held running) (hnoted : Noted busy held)
    (env : DriverEnv) : Draws data held (draw data busy env) := by
  unfold draw
  by_cases hheld : held = Finset.univ
  · rw [if_neg (fun hlt => (numBusy_lt_iff hnoted).mp hlt hheld)]
    exact .full hheld
  · rw [if_pos ((numBusy_lt_iff hnoted).mpr hheld)]
    cases hnext : dequeue data env with
    | failed => exact .failed hheld
    | waits => exact .waits hheld (dequeue_waits hnext)
    | index i =>
        have hi := dequeue_mem hnext
        have hfree := (hnoted.free_iff i).mpr (h.apart i hi)
        simp only [hfree, Bool.false_eq_true, if_false]
        exact .shows hheld i hi

/-- A buffer that the compositor gives back was not queued. -/
theorem custody_queue {data : Capture} {held : Finset BufferIndex} {running : Bool}
    (h : Custody data held running) {i : BufferIndex} (hi : i ∈ held) (env : DriverEnv) :
    Custody (queue data i env).1 (held.erase i) (running && (queue data i env).2) := by
  have hnew : i ∉ data.queued := fun hq => h.apart i hq hi
  -- the buffer is with nobody, and the sample ends
  have hlost : Custody data (held.erase i) (running && false) :=
    ⟨h.nodup, fun j hj hmem => h.apart j hj (Finset.mem_of_mem_erase hmem), by simp⟩
  unfold queue
  by_cases hquery : env.queryBuf = true
  · rw [if_pos hquery]
    by_cases hq : env.qBuf = true ∧ i ∉ data.queued
    · rw [if_pos hq]
      refine ⟨List.nodup_append.mpr ⟨h.nodup, List.nodup_singleton i, ?_⟩, ?_, ?_⟩
      · intro a ha b hb hab
        rw [List.mem_singleton.mp hb] at hab
        exact hnew (hab ▸ ha)
      · intro j hj hmem
        obtain ⟨hji, hmem⟩ := Finset.mem_erase.mp hmem
        rcases List.mem_append.mp hj with hj | hj
        · exact h.apart j hj hmem
        · exact hji (List.mem_singleton.mp hj)
      · intro hrun j
        have hor := h.all (Bool.and_eq_true_iff.mp hrun).1 j
        by_cases hji : j = i
        · exact .inl (List.mem_append_right _ (List.mem_singleton.mpr hji))
        · exact hor.imp (List.mem_append_left _) fun hmem => Finset.mem_erase.mpr ⟨hji, hmem⟩
    · rw [if_neg hq]
      exact hlost
  · rw [if_neg hquery]
    exact hlost

theorem custody_attach {data : Capture} {held : Finset BufferIndex} {running : Bool}
    (h : Custody data held running) (i : BufferIndex) :
    Custody ⟨data.queued.erase i⟩ (insert i held) running where
  nodup := h.nodup.erase i
  apart := by
    intro j hj hmem
    obtain ⟨hji, hj⟩ := (h.nodup.mem_erase_iff).mp hj
    exact h.apart j hj ((Finset.mem_insert.mp hmem).resolve_left hji)
  all := by
    intro hrun j
    by_cases hji : j = i
    · exact .inr (Finset.mem_insert.mpr (.inl hji))
    · exact (h.all hrun j).imp (fun hj => (h.nodup.mem_erase_iff).mpr ⟨hji, hj⟩)
        (Finset.mem_insert_of_mem)

theorem client_starving : client.Starving .allBusy Custody where
  stop := fun h => ⟨h.nodup, h.apart, fun h => absurd h (by simp)⟩
  start := by
    intro data held running env data' h hstart
    obtain ⟨-, rfl⟩ := some_of_ite (p := env.streamOn = true) hstart
    exact h
  quit := by
    intro data held running busy env data' h hnoted hdraw
    have hdraws := draw_draws h hnoted env
    rw [show draw data busy env = .quit data' from hdraw] at hdraws
    cases hdraws
    exact ⟨h.nodup, h.apart, fun h => absurd h (by simp)⟩
  attach := by
    intro data held running busy env i data' h hnoted hdraw
    have hdraws := draw_draws h hnoted env
    rw [show draw data busy env = .attach i data' from hdraw] at hdraws
    cases hdraws with
    | shows => exact custody_attach h i
  release := by
    intro data held running i env data' goesOn h hi hrel
    have hqueue : queue data i env = (data', goesOn) := Option.some.inj hrel
    have hkept := custody_queue h hi env
    rw [hqueue] at hkept
    exact hkept
  draw := by
    intro data held running busy env h hnoted a
    have hdraws := draw_draws h hnoted env
    change draw data busy env = .abort a ↔ _
    generalize draw data busy env = drawn at hdraws
    cases hdraws with
    | full hheld => simp [hheld, eq_comm]
    | failed hheld => exact iff_of_false (by simp) fun h => hheld h.2
    | waits hheld => exact iff_of_false (by simp) fun h => hheld h.2
    | shows hheld => exact iff_of_false (by simp) fun h => hheld h.2
  answers := fun _ _ => by simp [client]

/-- **When an assertion of `redraw` fails.**  `num_busy < NUM_BUFFERS` fails
where the compositor asks for a frame while it has all the buffers, and
`!buffer->busy` never does. -/
theorem capture_aborts_iff (xdgShell : Bool) (es : List (Event DriverEnv)) :
    (Throughout client.step (fun w => ¬ w.Aborted)
        (Window.create queueInitialBuffers xdgShell false) es ↔
      Meets client.step (fun w e => ¬ e.Starves w)
        (Window.create queueInitialBuffers xdgShell false) es) ∧
    Throughout client.step (fun w => w.pc ≠ .aborted .busyBuffer)
      (Window.create queueInitialBuffers xdgShell false) es := by
  refine ⟨not_aborted_iff client_starving queueInitialBuffers_custody xdgShell false es, ?_⟩
  refine throughout_imp (fun w h hpc => ?_)
    (aborted_at client_starving queueInitialBuffers_custody xdgShell false es)
  exact absurd (h _ hpc) (by decide)

/-- Without a buffer in the queue, and with one that is not busy, the sample
does not run. -/
theorem custody_stuck {data : Capture} {held : Finset BufferIndex} {running : Bool}
    (h : Custody data held running) (hnone : data.queued = []) (hheld : held ≠ Finset.univ) :
    running = false := by
  by_contra hrun
  apply hheld
  rw [Finset.eq_univ_iff_forall]
  intro i
  have hor := h.all (by simpa using hrun) i
  rw [hnone] at hor
  exact hor.resolve_left (List.not_mem_nil)

/-- **Each buffer is with one party.**  In every state of a run in which events
are handled, no buffer is queued at the driver while the compositor has it, and
each one is queued or with the compositor while `running` is set; so the check
of `redraw` does what it is for: the sample waits for the driver with an empty
queue only when `running` was reset before. -/
theorem capture_custody (xdgShell : Bool) (es : List (Event DriverEnv)) :
    Throughout client.step
      (fun w => (w.Listens → Custody w.data w.held w.running) ∧
        (w.pc = .blocked → w.running = false))
      (Window.create queueInitialBuffers xdgShell false) es := by
  refine throughout_of_invariant
    (I := fun w => Client.Kept Custody w ∧ (w.pc = .blocked → w.running = false))
    (fun _ h => ⟨h.1.kept, h.2⟩) ?_ es
    ⟨create_kept queueInitialBuffers_custody xdgShell false, by simp [Window.create]⟩
  intro w e w' h hstep
  refine ⟨step_kept client_starving.toKeeps w e w' h.1 hstep, fun hpc => ?_⟩
  have hl := step_listens hstep
  have hmove := step_move (h.1.going hl) hstep
  obtain ⟨data, busy, env, hcustody, hnoted, hdraw⟩ :=
    move_blocked client_starving.toKeeps (h.1.going hl) hl (h.1.kept hl) hmove hpc
  have hdraws := draw_draws hcustody hnoted env
  rw [show draw data busy env = .block from hdraw] at hdraws
  cases hdraws with
  | waits hheld hnone => exact custody_stuck hcustody hnone hheld

/-! ## §4. The descriptors of the buffers. -/

/-- The descriptors in `dmabuf_fds` of a buffer, each by its buffer and plane. -/
def dmabufFds (numPlanes : Nat) (i : BufferIndex) : List (BufferIndex × Nat) :=
  (List.range numPlanes).map fun plane => (i, plane)

/-- The calls of close() for the descriptors that `buffer_export` got:
`create_succeeded` and `create_failed` close those of their buffer, and
`destroy_window` those of every buffer that was made. -/
def closes (numPlanes : Nat) (w : Window Capture) : Event DriverEnv → List (BufferIndex × Nat)
  | .created i _ => dmabufFds numPlanes i
  | .leaveLoop =>
      ((List.finRange numBuffers).filter fun i => w.buffer i = some true).flatMap
        (dmabufFds numPlanes)
  | _ => []

theorem count_dmabufFds {numPlanes plane : Nat} (hplane : plane < numPlanes)
    (i j : BufferIndex) :
    (dmabufFds numPlanes i).count (j, plane) = if i = j then 1 else 0 := by
  unfold dmabufFds
  by_cases hij : i = j
  · subst hij
    have hinj : Function.Injective fun p : Nat => (i, p) := fun a b hab => (Prod.mk.inj hab).2
    rw [if_pos rfl, List.count_map_of_injective _ _ hinj plane]
    exact List.count_eq_one_of_mem List.nodup_range (List.mem_range.mpr hplane)
  · rw [if_neg hij, List.count_eq_zero]
    intro hmem
    obtain ⟨p, -, hp⟩ := List.mem_map.mp hmem
    exact hij (Prod.mk.inj hp).1

/-- What was closed so far. -/
structure Closed (numPlanes : Nat) (w : Window Capture) (out : List (BufferIndex × Nat)) :
    Prop where
  kept : Client.Kept Custody w
  once : w.Listens → ∀ i plane, plane < numPlanes →
    out.count (i, plane) = if w.buffer i = none then 0 else 1
  made : w.pc = .roundtrip → w.running = true → ∀ i, w.buffer i ≠ some false
  inLoop : w.pc = .loop → ∀ i, w.buffer i = some true
  twice : w.pc = .exited → ∀ i plane, plane < numPlanes → out.count (i, plane) = 2

/-- An event behind which the same buffers are there closes nothing. -/
theorem Closed.same {numPlanes : Nat} {w w' : Window Capture} {out : List (BufferIndex × Nat)}
    (h : Closed numPlanes w out) (hl : w.Listens) (hkept : Client.Kept Custody w')
    (hbuffer : w'.buffer = w.buffer) (hexit : w'.pc ≠ .exited)
    (hround : w'.pc = .roundtrip → w.pc = .roundtrip ∧ (w'.running = true → w.running = true))
    (hloop : w'.pc = .loop → ∀ i, w.buffer i = some true) : Closed numPlanes w' (out ++ []) where
  kept := hkept
  once := by
    rw [hbuffer, List.append_nil]
    exact fun _ => h.once hl
  made := by
    rw [hbuffer]
    exact fun hpc hrunning => h.made (hround hpc).1 ((hround hpc).2 hrunning)
  inLoop := by
    rw [hbuffer]
    exact hloop
  twice := fun hpc => absurd hpc hexit

/-- An event of the loop. -/
theorem Closed.inside {numPlanes : Nat} {w w' : Window Capture} {out : List (BufferIndex × Nat)}
    (h : Closed numPlanes w out) (hl : w.Listens) (hkept : Client.Kept Custody w')
    (hbuffer : w'.buffer = w.buffer) (hpc : w'.pc = w.pc)
    (hrun : w'.running = true → w.running = true) : Closed numPlanes w' (out ++ []) := by
  refine h.same hl hkept hbuffer ?_ (fun hround => ⟨hpc ▸ hround, hrun⟩) fun hloop => ?_
  · rw [hpc]
    rcases hl with hl | hl <;> rw [hl] <;> decide
  · exact h.inLoop (hpc ▸ hloop)

/-- A buffer gets its answer. -/
theorem Closed.created {numPlanes : Nat} {w : Window Capture} {out : List (BufferIndex × Nat)}
    (h : Closed numPlanes w out) (hpc : w.pc = .roundtrip) {i : BufferIndex}
    (hi : w.buffer i = none) (ok : Bool) {w' : Window Capture} (hkept : Client.Kept Custody w')
    (hw : w' = { w with
      buffer := Function.update w.buffer i (some ok), running := w.running && ok }) :
    Closed numPlanes w' (out ++ dmabufFds numPlanes i) := by
  subst hw
  refine ⟨hkept, fun _ j plane hplane => ?_, fun _ hrunning j => ?_, fun hloop => ?_,
    fun hexit => ?_⟩
  · rw [List.count_append, count_dmabufFds hplane, h.once (.inl hpc) j plane hplane]
    by_cases hij : i = j
    · subst hij
      simp [hi]
    · simp [hij, Function.update_of_ne (Ne.symm hij)]
  · obtain ⟨hrunning, hok⟩ := Bool.and_eq_true_iff.mp hrunning
    by_cases hij : j = i
    · subst hij
      simp [hok]
    · show Function.update w.buffer i (some ok) j ≠ some false
      rw [Function.update_of_ne hij]
      exact h.made hpc hrunning j
  · exact absurd (hpc.symm.trans hloop) (by decide)
  · exact absurd (hpc.symm.trans hexit) (by decide)

end MesonDisplay.Samples.DmabufV4l
