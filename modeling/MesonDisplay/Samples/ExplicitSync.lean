/-
  MesonDisplay.Samples.ExplicitSync — the sample that waits for fences.

  simple-dmabuf-egl-yuv-on-osd.c draws with OpenGL ES.  With explicit
  synchronization it asks for a release object with each frame; the compositor
  releases a buffer by an event of the object that went with its frame, and
  may give a fence with it, a descriptor that tells when the buffer can really
  be drawn into.  The buffer keeps the object and the fence; before the next
  drawing into it the fence is handed to EGL.

  The release objects and the fences are numbered as they come.

  Main results:
    * `release_synchronized` — the objects and the fences of every run: an
      assertion of the two listeners never fails, each object is destroyed
      once, and each fence is handed on once or still kept.
-/
import MesonDisplay.Samples.FrameLoop

namespace MesonDisplay.Samples.DmabufEgl

open MesonDisplay.Lending MesonDisplay.Runs

/-! ## §1. The buffers. -/

/-- What EGL answers in one call of `redraw`, and what the compositor says in
one release. -/
structure SyncEnv where
  /-- The calls of `wait_for_buffer_release_fence` succeed. -/
  waitOk : Bool
  /-- The calls of `create_egl_fence_fd` succeed. -/
  fenceOk : Bool
  /-- The release comes with a fence. -/
  fenced : Bool

/-- The members of the buffers that are about the release of one. -/
structure Sync where
  /-- `display->use_explicit_sync`. -/
  useExplicitSync : Bool
  bufferRelease : BufferIndex → Option Nat
  /-- -1 is `none`. -/
  releaseFenceFd : BufferIndex → Option Nat
  /-- The object that went to the compositor with the last frame of a buffer. -/
  sent : BufferIndex → Option Nat
  /-- So many release objects were made. -/
  objects : Nat
  destroyed : List Nat
  /-- So many fences were received. -/
  fences : Nat
  /-- The fences that EGL took. -/
  taken : List Nat

/-- Behind `create_window`. -/
def Sync.create (useExplicitSync : Bool) : Sync where
  useExplicitSync := useExplicitSync
  bufferRelease := fun _ => none
  releaseFenceFd := fun _ => none
  sent := fun _ => none
  objects := 0
  destroyed := []
  fences := 0
  taken := []

/-- `wait_for_buffer_release_fence`; `none` is an assertion that fails. -/
def waitForBufferReleaseFence (data : Sync) (i : BufferIndex) (fence : Nat) (ok : Bool) :
    Option Sync :=
  if ok then
    some { data with
      releaseFenceFd := Function.update data.releaseFenceFd i none
      taken := data.taken ++ [fence] }
  else none

/-- The release object of the frame that is about to be committed. -/
def getRelease (data : Sync) (i : BufferIndex) (ok : Bool) : Option Sync :=
  if data.useExplicitSync then
    if ok then
      some { data with
        bufferRelease := Function.update data.bufferRelease i (some data.objects)
        sent := Function.update data.sent i (some data.objects)
        objects := data.objects + 1 }
    else none
  else some data

/-- The wait of `redraw`, if the buffer has a fence. -/
def waitIfFenced (data : Sync) (i : BufferIndex) (ok : Bool) : Option Sync :=
  match data.releaseFenceFd i with
  | none => some data
  | some fence => waitForBufferReleaseFence data i fence ok

/-- The first half of `redraw`. -/
def draw (data : Sync) (busy : BufferIndex → Bool) (env : SyncEnv) : Drawn Sync :=
  match windowNextBuffer busy with
  | none => .abort .noBuffer
  | some i =>
      match (waitIfFenced data i env.waitOk).bind fun data => getRelease data i env.fenceOk with
      | none => .abort .fence
      | some data => .attach i data

/-- `buffer_fenced_release` and `buffer_immediate_release`, called for the
object that went with the frame. -/
def releaseListener (data : Sync) (i : BufferIndex) (fenced : Bool) : Option (Sync × Bool) :=
  match data.sent i with
  | none => none
  | some release =>
      if data.bufferRelease i = some release ∧ data.releaseFenceFd i = none then
        let data := { data with
          bufferRelease := Function.update data.bufferRelease i none
          sent := Function.update data.sent i none
          destroyed := data.destroyed ++ [release] }
        if fenced then
          some ({ data with
            releaseFenceFd := Function.update data.releaseFenceFd i (some data.fences)
            fences := data.fences + 1 }, true)
        else some (data, true)
      else none

/-- Without explicit synchronization the buffer itself has the listener. -/
def release (data : Sync) (i : BufferIndex) (env : SyncEnv) : Option (Sync × Bool) :=
  if data.useExplicitSync then releaseListener data i env.fenced else some (data, true)

def client : Client Sync SyncEnv where
  start := fun data _ => some data
  draw := draw
  release := release
  testsRet := true

/-! ## §2. Objects and fences. -/

/-- The objects and the fences are where they should be. -/
structure Synced (data : Sync) (held : Finset BufferIndex) : Prop where
  /-- A buffer has an object while the compositor has the buffer. -/
  owns : ∀ i, (data.bufferRelease i).isSome = true ↔ data.useExplicitSync = true ∧ i ∈ held
  sent : data.sent = data.bufferRelease
  /-- A buffer that the compositor has is not waiting for a fence. -/
  unfenced : ∀ i ∈ held, data.releaseFenceFd i = none
  objects : Accounted (List.finRange numBuffers) data.destroyed data.bufferRelease data.objects
  fences : Accounted (List.finRange numBuffers) data.taken data.releaseFenceFd data.fences

theorem create_synced (useExplicitSync : Bool) : Synced (Sync.create useExplicitSync) ∅ where
  owns := fun i => by simp [Sync.create]
  sent := rfl
  unfenced := fun _ _ => rfl
  objects := accounted_nothing
  fences := accounted_nothing

variable {data data' : Sync} {held : Finset BufferIndex} {i : BufferIndex}

/-- A free buffer has no object. -/
theorem Synced.no_object (h : Synced data held) (hi : i ∉ held) : data.bufferRelease i = none :=
  Option.not_isSome_iff_eq_none.mp fun hsome => hi ((h.owns i).mp hsome).2

theorem Synced.wait (h : Synced data held) (hi : i ∉ held) {ok : Bool}
    (hwait : waitIfFenced data i ok = some data') :
    Synced data' held ∧ data'.releaseFenceFd i = none ∧
      data'.useExplicitSync = data.useExplicitSync := by
  unfold waitIfFenced at hwait
  cases hfence : data.releaseFenceFd i with
  | none =>
      simp only [hfence] at hwait
      obtain rfl := Option.some.inj hwait
      exact ⟨h, hfence, rfl⟩
  | some fence =>
      simp only [hfence] at hwait
      obtain ⟨-, rfl⟩ := some_of_ite (p := ok = true) hwait
      refine ⟨⟨h.owns, h.sent, ?_, h.objects, ?_⟩,
        Function.update_self i none data.releaseFenceFd, rfl⟩
      · intro j hj
        show Function.update data.releaseFenceFd i none j = none
        rw [Function.update_of_ne (ne_of_mem_of_not_mem hj hi)]
        exact h.unfenced j hj
      · exact h.fences.dispose (List.nodup_finRange _) (List.mem_finRange i) hfence

theorem Synced.get (h : Synced data held) (hi : i ∉ held) (hfence : data.releaseFenceFd i = none)
    {ok : Bool} (hget : getRelease data i ok = some data') : Synced data' (insert i held) := by
  have hunfenced : ∀ j ∈ insert i held, data.releaseFenceFd j = none := by
    intro j hj
    rcases Finset.mem_insert.mp hj with rfl | hj
    · exact hfence
    · exact h.unfenced j hj
  unfold getRelease at hget
  by_cases hsync : data.useExplicitSync = true
  · rw [if_pos hsync] at hget
    obtain ⟨-, rfl⟩ := some_of_ite (p := ok = true) hget
    refine ⟨?_, ?_, hunfenced, ?_, h.fences⟩
    · intro j
      show (Function.update data.bufferRelease i (some data.objects) j).isSome = true ↔ _
      by_cases hji : j = i
      · subst hji
        simp [hsync]
      · rw [Function.update_of_ne hji, h.owns j, Finset.mem_insert]
        simp [hji]
    · show Function.update data.sent i _ = Function.update data.bufferRelease i _
      rw [h.sent]
    · exact h.objects.receive (List.nodup_finRange _) (List.mem_finRange i) (h.no_object hi)
  · rw [if_neg hsync] at hget
    obtain rfl := Option.some.inj hget
    refine ⟨?_, h.sent, hunfenced, h.objects, h.fences⟩
    intro j
    rw [h.owns j]
    simp [hsync]

/-- The assertions of the listeners hold, and what they do keeps the books. -/
theorem Synced.released (h : Synced data held) (hi : i ∈ held) (env : SyncEnv) :
    ∃ data', release data i env = some (data', true) ∧ Synced data' (held.erase i) := by
  have hothers : ∀ j ∈ held.erase i, data.releaseFenceFd j = none :=
    fun j hj => h.unfenced j (Finset.mem_of_mem_erase hj)
  unfold release
  by_cases hsync : data.useExplicitSync = true
  · rw [if_pos hsync]
    obtain ⟨object, hobject⟩ := Option.isSome_iff_exists.mp ((h.owns i).mpr ⟨hsync, hi⟩)
    have hsent : data.sent i = some object := by rw [h.sent, hobject]
    have hnone := h.unfenced i hi
    have hdestroyed := h.objects.dispose (List.nodup_finRange _) (List.mem_finRange i) hobject
    have howns : ∀ j, (Function.update data.bufferRelease i none j).isSome = true ↔
        data.useExplicitSync = true ∧ j ∈ held.erase i := by
      intro j
      by_cases hji : j = i
      · subst hji
        simp
      · rw [Function.update_of_ne hji, h.owns j, Finset.mem_erase]
        simp [hji]
    have hsame : Function.update data.sent i none = Function.update data.bufferRelease i none := by
      rw [h.sent]
    unfold releaseListener
    simp only [hsent, hobject, hnone, and_self, if_true]
    cases env.fenced with
    | false => exact ⟨_, rfl, howns, hsame, hothers, hdestroyed, h.fences⟩
    | true =>
        refine ⟨_, rfl, howns, hsame, ?_, hdestroyed, ?_⟩
        · intro j hj
          show Function.update data.releaseFenceFd i (some data.fences) j = none
          rw [Function.update_of_ne (Finset.ne_of_mem_erase hj)]
          exact hothers j hj
        · exact h.fences.receive (List.nodup_finRange _) (List.mem_finRange i) hnone
  · rw [if_neg hsync]
    refine ⟨data, rfl, ?_, h.sent, hothers, h.objects, h.fences⟩
    intro j
    rw [h.owns j]
    simp [hsync]

theorem client_keeps : client.Keeps fun data held _ => Synced data held where
  stop := id
  start := by
    intro data held running env data' h hstart
    obtain rfl := Option.some.inj hstart
    exact h
  quit := by
    intro data held running busy env data' _ _ hdraw
    change draw data busy env = .quit data' at hdraw
    unfold draw at hdraw
    split at hdraw
    · exact absurd hdraw (by simp)
    · split at hdraw <;> exact absurd hdraw (by simp)
  attach := by
    intro data held running busy env i data' h hnoted hdraw
    change draw data busy env = .attach i data' at hdraw
    unfold draw at hdraw
    cases hnext : windowNextBuffer busy with
    | none =>
        simp only [hnext] at hdraw
        exact absurd hdraw (by simp)
    | some j =>
        have hj := (hnoted.free_iff j).mp (windowNextBuffer_free hnext)
        simp only [hnext] at hdraw
        cases hwait : waitIfFenced data j env.waitOk with
        | none => simp [hwait] at hdraw
        | some data₁ =>
            obtain ⟨hsynced, hfence, -⟩ := h.wait hj hwait
            cases hget : getRelease data₁ j env.fenceOk with
            | none => simp [hwait, hget] at hdraw
            | some data₂ =>
                simp only [hwait, Option.bind_some, hget] at hdraw
                obtain ⟨rfl, rfl⟩ := Drawn.attach.inj hdraw
                exact hsynced.get hj hfence hget
  release := by
    intro data held running i env data' goesOn h hi hrel
    obtain ⟨data₁, hrel₁, hsynced⟩ := h.released hi env
    obtain ⟨rfl, -⟩ := Prod.mk.inj (Option.some.inj (hrel₁.symm.trans hrel))
    exact hsynced

/-- **Every object and every fence is accounted for.**  In every state of a run
in which events are handled: with explicit synchronization each buffer that the
compositor has keeps the release object of its frame and no other buffer keeps
one; each release object was destroyed once, or is kept; each fence was handed
to EGL once, or is kept with a buffer that is free; and whatever release the
compositor sends, the assertions of the listener hold. -/
theorem release_synchronized (useExplicitSync xdgShell immediate : Bool)
    (es : List (Event SyncEnv)) :
    Throughout client.step
      (fun w => w.Listens → Synced w.data w.held ∧
        ∀ i ∈ w.held, ∀ env, release w.data i env ≠ none)
      (Window.create (Sync.create useExplicitSync) xdgShell immediate) es := by
  refine throughout_imp (fun w h hl => ⟨h.kept hl, fun i hi env => ?_⟩)
    (kept_throughout client_keeps (create_synced useExplicitSync) xdgShell immediate es)
  obtain ⟨data', hrel, -⟩ := (h.kept hl).released hi env
  rw [hrel]
  simp

end MesonDisplay.Samples.DmabufEgl
