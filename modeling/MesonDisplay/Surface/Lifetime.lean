/-
  MesonDisplay.Surface.Lifetime — what a surface maps, clears and unmaps.

  `setDimensions` maps the framebuffer again and forgets the mapping it had.
  `clean` without arguments and the destructor compute the length of the mapping
  from the mode in the surface, as `mmap` was called with; but a resize that
  fails leaves another mode there.

  The rest of the process maps and unmaps pages of its own in between.

  Main result:
    * `lifetime_exact_iff` — when `clean` clears the mapping, and the destructor
      unmaps the mapping, and what it leaves.
-/
import MesonDisplay.Lib.Pages
import MesonDisplay.Surface.Resize

namespace MesonDisplay.Surface

open MesonDisplay.Blit
open MesonDisplay.Pages
open MesonDisplay.Runs

/-! ## §1. The process. -/

/-- Who holds a page: the surface for its `k`-th mapping, or the rest of the
process. -/
inductive Holder where
  | surface (k : Nat)
  | other
  deriving DecidableEq, Repr

theorem Holder.surface_injective : Function.Injective Holder.surface := fun _ _ h =>
  Holder.surface.inj h

/-- The surface, the pages of the process, and the mappings that the surface
made so far. -/
structure Process where
  surface : MappedSurface
  pages : Space Holder
  maps : List Extent

/-- `yres_virtual * mBytepl`. -/
def HwalFBSurface.length (s : HwalFBSurface) : Nat := u32 (s.mVarInfo.yresVirtual * s.mBytepl)

/-- `mptr` as an address, with MAP_FAILED. -/
def MappedSurface.address (s : MappedSurface) : Nat :=
  match s.mptr with
  | none => 2 ^ 64 - 1
  | some address => address

/-- `clean` without arguments. -/
def cleanAll (s : FbState) : FbResult :=
  ⟨{ s with mem := copyInto s.mem 0 (fun _ => 0) s.surface.length }, .success,
    [.write 0 s.surface.length]⟩

/-- The destructor.  `mfd` is open, as the constructor was successful. -/
def deleteHwalFBSurface (s : Process) : Space Holder :=
  if s.surface.address ≠ 0 then s.pages.munmap s.surface.address s.surface.surface.length
  else s.pages

/-- The mapping at this page, if the system can place one there. -/
def Process.place (pages : Space Holder) (maps : List Extent) (first : Nat)
    (surface : MappedSurface) : Option Process :=
  let e : Extent := ⟨first, pagesOf surface.surface.mapped⟩
  if first ≠ 0 ∧ pages.Free e then
    some ⟨surface, pages.map e (.surface maps.length), maps ++ [e]⟩
  else none

/-- A constructor that is successful, in a process with these pages. -/
def Process.new (dev : FbDevice) (type : HwalSurfaceType) (width height : UInt16)
    (numSurfaces : UInt32) (others : Nat → Bool) (first : Nat) : Option Process :=
  match newHwalFBSurface dev type width height numSurfaces with
  | .ok s =>
      Process.place (fun p => if others p then some .other else none) [] first
        ⟨s, some (first * pageSize)⟩
  | .error _ => none

inductive LifeCall where
  /-- A blit, or `clean` of a rectangle, with what is in the framebuffer. -/
  | call (c : FbCall) (mem : Nat → UInt8) (panned : Option Nat)
  | setDimensions (dev : FbDevice) (first : Nat) (width height : UInt16)
  /-- The rest of the process. -/
  | mapOther (e : Extent)
  | unmapOther (p : Nat)

def Process.step (s : Process) : LifeCall → Option Process
  | .call c mem panned =>
      some { s with
        surface := { s.surface with
          surface := (c.run ⟨s.surface.surface, mem, panned⟩).state.surface } }
  | .setDimensions dev first width height =>
      let r := Surface.setDimensions dev (first * pageSize) s.surface width height
      if r.2 = .success then Process.place s.pages s.maps first r.1
      else some { s with surface := r.1 }
  | .mapOther e => if s.pages.Free e then some { s with pages := s.pages.map e .other } else none
  | .unmapOther p =>
      if s.pages p = some .other then some { s with pages := s.pages.unmap ⟨p, 1⟩ } else none

/-! ## §2. What should be. -/

/-- `clean` clears the mapping and nothing else.  The destructor unmaps the
mapping at `mptr` and nothing else: the mappings before it stay, and so do the
pages of the rest of the process. -/
structure Process.Exact (s : Process) : Prop where
  clears : ∀ mem panned off,
    (cleanAll ⟨s.surface.surface, mem, panned⟩).state.mem off =
      if off < s.surface.surface.mapped then 0 else mem off
  leaves : ∀ k p, deleteHwalFBSurface s p = some (.surface k) ↔
    ∃ e, s.maps[k]? = some e ∧ e.Has p ∧ (s.surface.mptr = none ∨ k + 1 < s.maps.length)
  others : ∀ p, deleteHwalFBSurface s p = some .other ↔ s.pages p = some .other

/-- A resize that fails in `ioctl` leaves a mode with the same length; one that
fails in `mmap` asked for no bytes. -/
def LifeCall.Harmless (s : Process) : LifeCall → Prop
  | .setDimensions dev _ width height =>
      match dev.putVarInfo (askedMode s.surface.surface width height) with
      | none =>
          (s.surface.withMode (askedMode s.surface.surface width height)).surface.length =
            s.surface.surface.mapped
      | some varInfo =>
          match dev.lineLength varInfo with
          | none => (s.surface.withMode varInfo).surface.length = s.surface.surface.mapped
          | some lineLength =>
              mappingLength varInfo lineLength ≠ 0 →
                dev.mmapOk (mappingLength varInfo lineLength) = true
  | _ => True

/-- What the pages are at any time. -/
structure Process.Holds (s : Process) : Prop where
  records : Records s.pages Holder.surface s.maps
  none : s.surface.mptr = none → s.surface.surface.mapped = 0
  some : ∀ address, s.surface.mptr = some address → ∃ e, s.maps.getLast? = some e ∧
    address = e.first * pageSize ∧ e.first ≠ 0 ∧ e.count = pagesOf s.surface.surface.mapped ∧
      s.surface.surface.mapped ≠ 0

/-! ## §3. A resize. -/

section Resize

variable {dev : FbDevice} {address : Nat} {t : MappedSurface} {width height : UInt16}

theorem length_mappedAs (t : MappedSurface) (v : FbVarScreeninfo) (lineLength mapped : Nat)
    (mptr : Option Nat) :
    (t.mappedAs v lineLength mapped mptr).surface.length = mappingLength v lineLength := rfl

theorem setDimensions_success (h : (setDimensions dev address t width height).2 = .success) :
    (setDimensions dev address t width height).1.mptr = some address ∧
      (setDimensions dev address t width height).1.surface.length =
        (setDimensions dev address t width height).1.surface.mapped ∧
      (setDimensions dev address t width height).1.surface.mapped ≠ 0 := by
  rcases setDimensions_cases address dev t width height with ⟨-, hs⟩ | ⟨v, -, hrest⟩
  · rw [hs] at h
    exact absurd h (by simp)
  · rcases hrest with ⟨-, hs⟩ | ⟨lineLength, -, ⟨-, hs⟩ | ⟨hmaps, hs⟩⟩
    · rw [hs] at h
      exact absurd h (by simp)
    · rw [hs] at h
      exact absurd h (by simp)
    · rw [hs]
      exact ⟨rfl, rfl, hmaps.1⟩

/-- A resize that fails keeps the mapping, or has none. -/
theorem setDimensions_failed (h : (setDimensions dev address t width height).2 ≠ .success) :
    ((setDimensions dev address t width height).1.mptr = t.mptr ∧
        (setDimensions dev address t width height).1.surface.mapped = t.surface.mapped) ∨
      ((setDimensions dev address t width height).1.mptr = none ∧
        (setDimensions dev address t width height).1.surface.mapped = 0) := by
  rcases setDimensions_cases address dev t width height with ⟨-, hs⟩ | ⟨v, -, hrest⟩
  · rw [hs]
    exact .inl ⟨rfl, rfl⟩
  · rcases hrest with ⟨-, hs⟩ | ⟨lineLength, -, ⟨-, hs⟩ | ⟨hmaps, hs⟩⟩
    · rw [hs]
      exact .inl ⟨rfl, rfl⟩
    · rw [hs]
      exact .inr ⟨rfl, rfl⟩
    · rw [hs] at h
      exact absurd rfl h

/-- The resizes behind which the length that is computed is that of the
mapping. -/
theorem harmless_iff (s : Process) (dev : FbDevice) (first address : Nat) (width height : UInt16) :
    (LifeCall.setDimensions dev first width height).Harmless s ↔
      (setDimensions dev address s.surface width height).1.surface.length =
        (setDimensions dev address s.surface width height).1.surface.mapped := by
  unfold LifeCall.Harmless
  rcases setDimensions_cases address dev s.surface width height with ⟨hput, hs⟩ | ⟨v, hput, hrest⟩
  · simp only [hput]
    rw [hs]
    rfl
  · rcases hrest with ⟨hline, hs⟩ | ⟨lineLength, hline, ⟨hmaps, hs⟩ | ⟨hmaps, hs⟩⟩
    · simp only [hput, hline]
      rw [hs]
      rfl
    · simp only [hput, hline]
      rw [hs, length_mappedAs]
      constructor
      · intro hok
        by_contra hlen
        exact hmaps ⟨hlen, hok hlen⟩
      · intro hlen hne
        exact absurd hlen hne
    · simp only [hput, hline]
      rw [hs, length_mappedAs]
      exact iff_of_true (fun _ => hmaps.2) rfl

end Resize

/-! ## §4. One step. -/

variable {s s' : Process}

/-- The length that is computed is that of the mapping. -/
def Process.Matches (s : Process) : Prop :=
  s.surface.surface.length = s.surface.surface.mapped

theorem place_eq_some {pages : Space Holder} {maps : List Extent} {first : Nat}
    {t : MappedSurface} :
    Process.place pages maps first t = some s' ↔
      (first ≠ 0 ∧ pages.Free ⟨first, pagesOf t.surface.mapped⟩) ∧
        s' = ⟨t, pages.map ⟨first, pagesOf t.surface.mapped⟩ (.surface maps.length),
          maps ++ [⟨first, pagesOf t.surface.mapped⟩]⟩ := by
  unfold Process.place
  rw [Option.ite_none_right_eq_some, Option.some_inj, eq_comm (a := s')]

/-- A new mapping is the last one of the list. -/
theorem holds_place {pages : Space Holder} {maps : List Extent} {first : Nat} {t : MappedSurface}
    (hrecords : Records pages Holder.surface maps) (hmptr : t.mptr = some (first * pageSize))
    (hmapped : t.surface.mapped ≠ 0) (hplace : Process.place pages maps first t = some s') :
    s'.Holds := by
  obtain ⟨⟨hfirst, hfree⟩, rfl⟩ := place_eq_some.mp hplace
  refine ⟨hrecords.map Holder.surface_injective hfree, ?_, ?_⟩
  · intro hnone
    exact absurd (hnone.symm.trans hmptr) (by simp)
  · intro address haddress
    obtain rfl := Option.some.inj (haddress.symm.trans hmptr)
    exact ⟨_, List.getLast?_concat, rfl, hfirst, rfl, hmapped⟩

theorem step_call {c : FbCall} {mem : Nat → UInt8} {panned : Option Nat}
    (hstep : s.step (.call c mem panned) = some s') :
    s'.pages = s.pages ∧ s'.maps = s.maps ∧ s'.surface.mptr = s.surface.mptr ∧
      SameMapping s.surface.surface s'.surface.surface := by
  obtain rfl := Option.some.inj hstep
  exact ⟨rfl, rfl, rfl, fbStep_same (s := ⟨s.surface.surface, mem, panned⟩) (c := c) rfl⟩

section Resize

variable {dev : FbDevice} {first : Nat} {width height : UInt16}

theorem step_success
    (herr : (setDimensions dev (first * pageSize) s.surface width height).2 = .success) :
    s.step (.setDimensions dev first width height) =
      Process.place s.pages s.maps first
        (setDimensions dev (first * pageSize) s.surface width height).1 :=
  if_pos herr

/-- A resize that fails leaves the pages. -/
theorem step_failed
    (herr : (setDimensions dev (first * pageSize) s.surface width height).2 ≠ .success) :
    s.step (.setDimensions dev first width height) =
      some { s with
        surface := (setDimensions dev (first * pageSize) s.surface width height).1 } :=
  if_neg herr

theorem step_setDimensions (hstep : s.step (.setDimensions dev first width height) = some s') :
    s'.surface = (setDimensions dev (first * pageSize) s.surface width height).1 := by
  by_cases herr : (setDimensions dev (first * pageSize) s.surface width height).2 = .success
  · rw [step_success herr] at hstep
    obtain ⟨-, rfl⟩ := place_eq_some.mp hstep
    rfl
  · rw [step_failed herr] at hstep
    obtain rfl := Option.some.inj hstep
    rfl

end Resize

/-- The same mapping, with the pages of the surface as they were. -/
theorem Process.Holds.of_same (h : s.Holds) (hmaps : s'.maps = s.maps)
    (hpages : ∀ k p, s'.pages p = .some (.surface k) ↔ s.pages p = .some (.surface k))
    (hmptr : s'.surface.mptr = s.surface.mptr)
    (hmapped : s'.surface.surface.mapped = s.surface.surface.mapped) : s'.Holds where
  records := by
    rw [hmaps]
    exact h.records.congr hpages
  none := by
    rw [hmptr, hmapped]
    exact h.none
  some := by
    rw [hmptr, hmapped, hmaps]
    exact h.some

theorem step_holds {c : LifeCall} (h : s.Holds) (hstep : s.step c = some s') : s'.Holds := by
  cases c with
  | call c mem panned =>
      obtain ⟨hpages, hmaps, hmptr, hsame⟩ := step_call hstep
      exact h.of_same hmaps (by simp [hpages]) hmptr hsame.mapped
  | setDimensions dev first width height =>
      by_cases herr : (setDimensions dev (first * pageSize) s.surface width height).2 = .success
      · obtain ⟨hmptr, -, hmapped⟩ := setDimensions_success herr
        rw [step_success herr] at hstep
        exact holds_place h.records hmptr hmapped hstep
      · rw [step_failed herr] at hstep
        obtain rfl := Option.some.inj hstep
        rcases setDimensions_failed herr with ⟨hmptr, hmapped⟩ | ⟨hmptr, hmapped⟩
        · exact h.of_same rfl (fun _ _ => Iff.rfl) hmptr hmapped
        · exact ⟨h.records, fun _ => hmapped,
            fun _ haddress => absurd (hmptr.symm.trans haddress) (by simp)⟩
  | mapOther e =>
      simp only [Process.step, Option.ite_none_right_eq_some] at hstep
      obtain ⟨hfree, hs⟩ := hstep
      obtain rfl := Option.some.inj hs
      refine h.of_same rfl (fun k p => ?_) rfl rfl
      rw [Space.map_eq_some]
      constructor
      · rintro (⟨-, hk⟩ | ⟨-, hp⟩)
        · exact absurd hk (by simp)
        · exact hp
      · intro hp
        refine .inr ⟨fun hhas => ?_, hp⟩
        exact absurd ((hfree.of_has hhas).symm.trans hp) (by simp)
  | unmapOther q =>
      simp only [Process.step, Option.ite_none_right_eq_some] at hstep
      obtain ⟨hother, hs⟩ := hstep
      obtain rfl := Option.some.inj hs
      refine h.of_same rfl (fun k p => ?_) rfl rfl
      rw [Space.unmap_eq_some]
      refine ⟨And.right, fun hp => ⟨fun hhas => ?_, hp⟩⟩
      obtain rfl : p = q := by
        have hlt : p < q + 1 := hhas.2
        have hle : q ≤ p := hhas.1
        omega
      exact absurd (hother.symm.trans hp) (by simp)

/-- Only a resize changes whether the lengths agree. -/
theorem step_matches {c : LifeCall} (h : s.Matches) (hstep : s.step c = some s') :
    s'.Matches ↔ c.Harmless s := by
  cases c with
  | call c mem panned =>
      obtain ⟨-, -, -, hsame⟩ := step_call hstep
      refine iff_of_true ?_ trivial
      unfold Process.Matches HwalFBSurface.length
      rw [hsame.varInfo, hsame.bytepl, hsame.mapped]
      exact h
  | setDimensions dev first width height =>
      unfold Process.Matches
      rw [harmless_iff s dev first (first * pageSize), step_setDimensions hstep]
  | mapOther e =>
      simp only [Process.step, Option.ite_none_right_eq_some] at hstep
      obtain rfl := Option.some.inj hstep.2
      exact iff_of_true h trivial
  | unmapOther p =>
      simp only [Process.step, Option.ite_none_right_eq_some] at hstep
      obtain rfl := Option.some.inj hstep.2
      exact iff_of_true h trivial

/-- A call that is not possible is no failure of a resize. -/
theorem harmless_of_stuck {c : LifeCall} (hstuck : s.step c = none) : c.Harmless s := by
  cases c with
  | call c mem panned => trivial
  | setDimensions dev first width height =>
      rw [harmless_iff s dev first (first * pageSize)]
      by_cases herr : (setDimensions dev (first * pageSize) s.surface width height).2 = .success
      · exact (setDimensions_success herr).2.1
      · rw [step_failed herr] at hstuck
        exact absurd hstuck (by simp)
  | mapOther e => trivial
  | unmapOther p => trivial

/-! ## §5. Runs. -/

theorem cleanAll_mem (s : FbState) (off : Nat) :
    (cleanAll s).state.mem off = if off < s.surface.length then 0 else s.mem off := by
  unfold cleanAll copyInto
  simp

theorem Process.Exact.matches (h : s.Exact) : s.Matches := by
  have hclears := fun off => h.clears (fun _ => 1) none off
  simp only [cleanAll_mem] at hclears
  unfold Process.Matches
  by_contra hne
  rcases Nat.lt_or_gt_of_ne hne with hlt | hlt
  · have hoff := hclears s.surface.surface.length
    rw [if_neg (lt_irrefl _), if_pos hlt] at hoff
    exact absurd hoff (by simp)
  · have hoff := hclears s.surface.surface.mapped
    rw [if_pos hlt, if_neg (lt_irrefl _)] at hoff
    exact absurd hoff (by simp)

theorem delete_none (hmptr : s.surface.mptr = none) : deleteHwalFBSurface s = s.pages := by
  have haddress : s.surface.address = 2 ^ 64 - 1 := by
    unfold MappedSurface.address
    rw [hmptr]
  unfold deleteHwalFBSurface
  rw [haddress, Space.munmap_unaligned _ (by decide)]
  exact ite_self _

theorem delete_some {address : Nat} (h : s.Holds) (hmatches : s.Matches)
    (hmptr : s.surface.mptr = some address) :
    ∃ e, s.maps.getLast? = some e ∧ deleteHwalFBSurface s = s.pages.unmap e := by
  obtain ⟨e, hlast, rfl, hfirst, hcount, hmapped⟩ := h.some address hmptr
  refine ⟨e, hlast, ?_⟩
  have haddress : s.surface.address = e.first * pageSize := by
    unfold MappedSurface.address
    rw [hmptr]
  unfold deleteHwalFBSurface
  rw [haddress, hmatches, Space.munmap_extent _ hmapped hcount, if_pos]
  exact Nat.mul_ne_zero hfirst (by decide)

theorem Process.Matches.exact (hmatches : s.Matches) (h : s.Holds) : s.Exact where
  clears := by
    intro mem panned off
    rw [cleanAll_mem]
    show (if off < s.surface.surface.length then 0 else mem off) = _
    rw [hmatches]
  leaves := by
    intro k p
    cases hmptr : s.surface.mptr with
    | none =>
        rw [delete_none hmptr, h.records k p]
        simp
    | some address =>
        obtain ⟨e, hlast, hdelete⟩ := delete_some h hmatches hmptr
        rw [hdelete, h.records.unmap_last Holder.surface_injective hlast]
        simp
  others := by
    intro p
    cases hmptr : s.surface.mptr with
    | none => rw [delete_none hmptr]
    | some address =>
        obtain ⟨e, hlast, hdelete⟩ := delete_some h hmatches hmptr
        rw [hdelete]
        exact h.records.unmap_other hlast (fun _ => Holder.noConfusion) p

section New

variable {dev : FbDevice} {type : HwalSurfaceType} {width height : UInt16} {numSurfaces : UInt32}
  {others : Nat → Bool} {first : Nat}

theorem new_eq_some :
    Process.new dev type width height numSurfaces others first = some s ↔
      ∃ t, newHwalFBSurface dev type width height numSurfaces = .ok t ∧
        Process.place (fun p => if others p then some .other else none) [] first
          ⟨t, some (first * pageSize)⟩ = some s := by
  unfold Process.new
  cases newHwalFBSurface dev type width height numSurfaces with
  | ok t => simp
  | error err => simp

/-- Before the first call. -/
theorem new_holds (hnew : Process.new dev type width height numSurfaces others first = some s) :
    s.Holds ∧ s.Matches := by
  obtain ⟨t, ht, hplace⟩ := new_eq_some.mp hnew
  obtain ⟨v, hs⟩ := constructed_new ht
  refine ⟨holds_place ?_ rfl (Nat.pos_iff_ne_zero.mp hs.mapped_pos) hplace, ?_⟩
  · intro k p
    by_cases hp : others p = true <;> simp [hp]
  · obtain ⟨-, rfl⟩ := place_eq_some.mp hplace
    exact hs.mapped.symm

/-- **What a surface maps, clears and unmaps.**  In every state of a run from the
constructor on, `clean` clears exactly the mapping, and the destructor would
unmap exactly the mapping at `mptr` and leave every earlier one, if and only if
no resize of the run failed and left another length. -/
theorem lifetime_exact_iff
    (hnew : Process.new dev type width height numSurfaces others first = some s)
    (calls : List LifeCall) :
    Throughout Process.step Process.Exact s calls ↔
      Meets Process.step (fun s c => c.Harmless s) s calls := by
  refine throughout_iff (I := fun s => s.Holds ∧ s.Matches) (fun _ hs => hs.2.exact hs.1)
    (fun _ _ _ hstuck => harmless_of_stuck hstuck) ?_ calls (new_holds hnew)
  rintro t c t' ⟨hholds, hmatches⟩ hstep
  have hiff := step_matches hmatches hstep
  by_cases hc : c.Harmless t
  · exact .inl ⟨hc, step_holds hholds hstep, hiff.mpr hc⟩
  · exact .inr ⟨hc, fun hexact => hc (hiff.mp hexact.matches)⟩

end New

/-- A mapping of 32 bytes, in a surface whose mode is one of 64: the driver
refused to show 4 by 4 pixels. -/
theorem lifetime_refused :
    ∃ s, Process.new tightDevice .aRgb32 2 2 2 (fun _ => false) 16 = some s ∧
      ¬ Throughout Process.step Process.Exact s
        [.setDimensions { tightDevice with putVarInfo := fun _ => none } 0 4 4] := by
  have hnew : Process.new tightDevice .aRgb32 2 2 2 (fun _ => false) 16 = some _ :=
    new_eq_some.mpr ⟨_, rfl, place_eq_some.mpr ⟨⟨by decide, fun _ _ => rfl⟩, rfl⟩⟩
  refine ⟨_, hnew, fun hall => ?_⟩
  have hmeets := (lifetime_exact_iff hnew _).mp hall
  exact absurd hmeets.1 (show ¬ (64 = 32) by decide)

end MesonDisplay.Surface
