/-
  MesonDisplay.Surface.Tearing — the surfaces on which no blit tears.

  The second surface is looked for behind as many bytes as the pixels of one
  surface have, and the rows of an image behind as many as those in front of
  them; both are counted in bits, in an unsigned int.  The constructor makes no
  surface on which they wrap, but `setDimensions` does: then the second surface
  lies in the first one, which may be displayed.

  Main results:
    * `DoubleBuffered.never_tears_iff` — two surfaces without padding, of any
      size.
    * `blits_never_tear_iff` — every surface that constructor, blits, cleans and
      resizes lead to.
-/
import MesonDisplay.Surface.Resize

namespace MesonDisplay.Surface

open MesonDisplay.Blit
open MesonDisplay.Runs

/-! ## §1. Two surfaces without padding. -/

structure DoubleBuffered (s : HwalFBSurface) : Prop where
  sized : Sized s
  surfaces : 2 ≤ s.mNumSurfaces
  tight : s.mVarInfo.xres * s.bytespp = s.mBytepl
  cur : s.mCurSurface = 255 ∨ s.mCurSurface = 0 ∨ s.mCurSurface = 1

/-- The run of any blits, from a state in which `mCurSurface` is displayed, or
nothing is. -/
def NeverTears (s : HwalFBSurface) : Prop :=
  ∀ mem panned calls, Displayed ⟨s, mem, panned⟩ → Meets blitStep NoTear ⟨s, mem, panned⟩ calls

/-- A blit of no pixels, which flips the surfaces. -/
def emptyBlit : BlitArgs := ⟨0, 0, 0, 0, true, 0⟩

/-- A blit of the largest image there is. -/
def largestBlit : BlitArgs := ⟨0, 0, 65535, 65535, true, 0⟩

section Blits

variable {s : FbState} {a : BlitArgs} {image : Image}

/-- Where a blit ends, if its pan succeeds. -/
theorem blitImage_success (ha : a.OnScreen s.surface) (hpan : a.panOk = true) :
    (blitImage s (some image) a).ret = .success ∧
      (blitImage s (some image) a).state.surface
        = { s.surface with
            mVarInfo := { s.surface.mVarInfo with yoffset := (a.target s.surface).yoffset }
            mCurSurface := (a.target s.surface).curSur } := by
  have hoff : ¬ (a.x.toNat ≥ s.surface.mVarInfo.xres ∨ a.y.toNat ≥ s.surface.mVarInfo.yres) := by
    obtain ⟨hx, hy⟩ := ha
    omega
  unfold blitImage
  simp only [if_neg hoff, if_pos hpan]
  exact ⟨trivial, rfl⟩

theorem NoTear.showsImage (h : NoTear s ⟨some image, a⟩) (ha : a.OnScreen s.surface)
    (hpan : a.panOk = true) : ShowsImage s a image := by
  obtain ⟨image', yoffset, himage, hpanned, hshown⟩ := h.shown (blitImage_success ha hpan).1
  obtain rfl := Option.some.inj himage
  exact ⟨yoffset, hpanned, hshown⟩

/-- What the display showed before does not matter. -/
theorem ShowsImage.of_panned {s : HwalFBSurface} {mem : Nat → UInt8} {panned : Option Nat}
    (h : ShowsImage ⟨s, mem, panned⟩ a image) (ha : a.OnScreen s) (hpan : a.panOk = true)
    (panned' : Option Nat) : ShowsImage ⟨s, mem, panned'⟩ a image := by
  obtain ⟨yoffset, hpanned, hshown⟩ := h
  rw [blitImage_panned (s := ⟨s, mem, panned⟩) image ha hpan] at hpanned
  refine ⟨yoffset, ?_, fun i k hi hk => ?_⟩
  · rw [blitImage_panned (s := ⟨s, mem, panned'⟩) image ha hpan]
    exact hpanned
  · rw [← hshown i k hi hk, (blitImage_rows (s := ⟨s, mem, panned'⟩) image ha).1,
      (blitImage_rows (s := ⟨s, mem, panned⟩) image ha).1]

/-- Behind an empty blit, the first surface is shown, and the memory is what it
was. -/
theorem emptyBlit_state {s : HwalFBSurface} (hs : DoubleBuffered s) (hcur : s.mCurSurface ≠ 0)
    (ha : emptyBlit.OnScreen s) (mem : Nat → UInt8) (panned : Option Nat) (image : Image) :
    (blitImage ⟨s, mem, panned⟩ (some image) emptyBlit).state
      = ⟨{ s with mVarInfo := { s.mVarInfo with yoffset := 0 }, mCurSurface := 0 }, mem,
          some 0⟩ := by
  have htarget : emptyBlit.target s = ⟨0, 0, 0⟩ := by
    have hnum := hs.surfaces
    unfold BlitArgs.target chooseTarget
    rcases hs.cur with h | h | h
    · rw [if_neg (by omega), if_pos h]
    · exact absurd h hcur
    · simp [h, show s.mNumSurfaces ≠ 1 by omega]
  have hrows : emptyBlit.hReal s = 0 := by
    unfold emptyBlit BlitArgs.hReal realSize
    simp
  have hsurface := (@blitImage_success ⟨s, mem, panned⟩ emptyBlit image ha rfl).2
  have hpanned := blitImage_panned (s := ⟨s, mem, panned⟩) image ha rfl
  have hmem := (blitImage_rows (s := ⟨s, mem, panned⟩) image ha).1
  dsimp only at hsurface hpanned hmem
  rw [htarget] at hsurface hpanned
  rw [hrows] at hmem
  cases hstate : (blitImage ⟨s, mem, panned⟩ (some image) emptyBlit).state with
  | mk surface' mem' panned' =>
      rw [hstate] at hsurface hpanned hmem
      dsimp only at hsurface hpanned hmem
      subst hsurface hpanned hmem
      rfl

end Blits

section DoubleBuffered

variable {s : HwalFBSurface}

theorem DoubleBuffered.withPan (hs : DoubleBuffered s) (yoffset : Nat) {cur : Nat}
    (hcur : cur = 0 ∨ cur = 1) : DoubleBuffered
      { s with mVarInfo := { s.mVarInfo with yoffset := yoffset }, mCurSurface := cur } :=
  ⟨⟨hs.sized.bits, hs.sized.bitspp, hs.sized.xres, hs.sized.yres, hs.sized.bytepl⟩, hs.surfaces,
    hs.tight, .inr hcur⟩

/-- While the first surface is displayed, the largest image is shown only if
nothing wraps. -/
theorem DoubleBuffered.offsetsFit_of_shown (hs : DoubleBuffered s) (hcur : s.mCurSurface = 0)
    (ha : largestBlit.OnScreen s) (panned : Option Nat)
    (hshown : ∀ mem image, ShowsImage ⟨s, mem, panned⟩ largestBlit image) : OffsetsFit s := by
  have hline : s.mVarInfo.xres * s.mVarInfo.bitsPerPixel / 8 = s.mVarInfo.xres * s.bytespp :=
    mul_bits_div hs.sized.bits _
  have hagrees := (shows_image_iff hs.sized hs.surfaces (Nat.le_of_eq (hline.trans hs.tight)) hs.cur
    ha rfl).mp fun mem panned' image => (hshown mem image).of_panned ha rfl panned'
  obtain ⟨hsurface, hrows⟩ := hagrees ⟨by decide, by decide⟩
  have hheight : largestBlit.hReal s = s.mVarInfo.yres := by
    have hyres := hs.sized.yres
    show realSize 0 65535 s.mVarInfo.yres = s.mVarInfo.yres
    unfold realSize
    split_ifs <;> omega
  rw [hheight] at hrows
  exact ⟨(hsurface hcur).2, hrows⟩

/-- **Two surfaces without padding**: no blit tears exactly if no offset
wraps. -/
theorem DoubleBuffered.never_tears_iff (hs : DoubleBuffered s) (hxres : 0 < s.mVarInfo.xres) :
    NeverTears s ↔ OffsetsFit s := by
  constructor
  · intro hall
    rcases Nat.eq_zero_or_pos s.mVarInfo.yres with hzero | hyres
    · simp [OffsetsFit, hzero]
    have hshows : ∀ {t : HwalFBSurface} {mem : Nat → UInt8} {panned : Option Nat} {image : Image}
        {calls : List Blit}, largestBlit.OnScreen t →
        Meets blitStep NoTear ⟨t, mem, panned⟩ (⟨some image, largestBlit⟩ :: calls) →
          ShowsImage ⟨t, mem, panned⟩ largestBlit image :=
      fun ha hmeets => hmeets.1.showsImage ha rfl
    by_cases hcur : s.mCurSurface = 0
    · refine hs.offsetsFit_of_shown hcur ⟨hxres, hyres⟩ none fun mem image => ?_
      exact hshows ⟨hxres, hyres⟩ (hall mem none [⟨some image, largestBlit⟩] (by simp [Displayed]))
    · -- an empty blit comes first, so that the first surface is displayed
      refine (hs.withPan 0 (.inl rfl)).offsetsFit_of_shown rfl ⟨hxres, hyres⟩ (some 0)
        fun mem image => ?_
      have hrun := hall mem none [⟨some image, emptyBlit⟩, ⟨some image, largestBlit⟩]
        (by simp [Displayed])
      have hstep : blitStep ⟨s, mem, none⟩ ⟨some image, emptyBlit⟩
          = some ⟨{ s with mVarInfo := { s.mVarInfo with yoffset := 0 }, mCurSurface := 0 }, mem,
              some 0⟩ := congrArg some (emptyBlit_state hs hcur ⟨hxres, hyres⟩ mem none image)
      exact hshows ⟨hxres, hyres⟩ ((meets_cons hstep).mp hrun).2
  · intro hfits mem panned calls hdisplayed
    have hinv : BlitInv ⟨s, mem, panned⟩ :=
      { unwrapped := ⟨hs.sized, Nat.le_of_eq hs.tight, hfits⟩
        tight := hs.tight.symm
        surfaces := by
          show s.mNumSurfaces ≠ 1
          have hnum := hs.surfaces
          omega
        cur := hs.cur
        displayed := hdisplayed }
    exact hinv.meets calls

end DoubleBuffered

/-! ## §2. Every surface. -/

section Reached

variable {s : MappedSurface}

theorem Sized.of_same {s s' : HwalFBSurface} (hs : Sized s) (h : SameMapping s s') : Sized s' := by
  obtain ⟨hxres, hyres⟩ := h.xres_yres
  have hbits : s'.mVarInfo.bitsPerPixel = s.mVarInfo.bitsPerPixel := by rw [h.varInfo]
  exact
    { bits := by rw [hbits]; exact hs.bits
      bitspp := by rw [h.bitspp, hbits]; exact hs.bitspp
      xres := by rw [hxres]; exact hs.xres
      yres := by rw [hyres]; exact hs.yres
      bytepl := by rw [h.bytepl]; exact hs.bytepl }

theorem sized_new {dev : FbDevice} {type : HwalSurfaceType} {width height : UInt16}
    {numSurfaces : UInt32} {s : HwalFBSurface} (hkeeps : dev.KeepsPicture)
    (hnew : newHwalFBSurface dev type width height numSurfaces = .ok s) : Sized s := by
  obtain ⟨v, hs⟩ := constructed_new hnew
  obtain ⟨hxres, hyres, -⟩ := hkeeps _ _ hs.put
  obtain ⟨lineLength, -, hbytepl⟩ := hs.line
  have hformatted := formatted_new hkeeps hnew
  exact
    { bits := hformatted.bits
      bitspp := hformatted.bitspp
      xres := by rw [hxres]; exact width.toNat_lt
      yres := by rw [hyres]; exact height.toNat_lt
      bytepl := by rw [hbytepl]; exact Nat.mod_lt _ (by decide) }

/-- Whatever a resize leaves, its sizes have 16 bits. -/
theorem Sized.setDimensions (hs : Sized s.surface) {dev : FbDevice} (hkeeps : dev.KeepsPicture)
    (address : Nat) (width height : UInt16) :
    Sized (setDimensions dev address s width height).1.surface := by
  have hline : ∀ n, n % 2 ^ 16 < 2 ^ 16 := fun n => Nat.mod_lt _ (by decide)
  rcases setDimensions_cases address dev s width height with ⟨-, h⟩ | ⟨v, hput, hrest⟩
  · rw [h]
    exact ⟨hs.bits, hs.bitspp, width.toNat_lt, height.toNat_lt, hs.bytepl⟩
  · obtain ⟨hxres, hyres, hbits⟩ := hkeeps _ _ hput
    have hxres' : v.xres < 2 ^ 16 := by rw [hxres]; exact width.toNat_lt
    have hyres' : v.yres < 2 ^ 16 := by rw [hyres]; exact height.toNat_lt
    have hbits' : v.bitsPerPixel = 16 ∨ v.bitsPerPixel = 32 := by rw [hbits]; exact hs.bits
    have hbitspp : s.surface.mBitspp = v.bitsPerPixel := by rw [hbits]; exact hs.bitspp
    rcases hrest with ⟨-, h⟩ | ⟨lineLength, -, ⟨-, h⟩ | ⟨-, h⟩⟩
    · rw [h]
      exact ⟨hbits', hbitspp, hxres', hyres', hs.bytepl⟩
    · rw [h]
      exact ⟨hbits', hbitspp, hxres', hyres', hline lineLength⟩
    · rw [h]
      exact ⟨hbits', hbitspp, hxres', hyres', hline lineLength⟩

theorem Reached.sized (h : Reached s) : Sized s.surface := by
  induction h with
  | made address hkeeps hnew => exact sized_new hkeeps hnew
  | @called s c mem panned _ ih =>
      exact ih.of_same (fbStep_same (s := ⟨s.surface, mem, panned⟩) (c := c) rfl)
  | @resized s dev address width height hkeeps _ ih => exact ih.setDimensions hkeeps address _ _

/-- What `mCurSurface` can be, where there is more than one surface. -/
def CurValid (s : HwalFBSurface) : Prop :=
  s.mNumSurfaces ≠ 1 → s.mCurSurface = 255 ∨ s.mCurSurface = 0 ∨ s.mCurSurface = 1

theorem CurValid.blitImage {s : FbState} (hs : CurValid s.surface) (image : Option Image)
    (a : BlitArgs) : CurValid (blitImage s image a).state.surface := by
  unfold Surface.blitImage
  cases image with
  | none => exact hs
  | some image =>
      dsimp only
      split_ifs
      · exact hs
      · intro hnum
        unfold chooseTarget
        rw [if_neg hnum]
        rcases hs hnum with h | h | h
        · simp [h]
        · simp [h]
        · simp [h]
      · exact hs

theorem CurValid.run {s : FbState} (hs : CurValid s.surface) (c : FbCall) :
    CurValid (c.run s).state.surface := by
  cases c with
  | blitImage image a => exact hs.blitImage image a
  | clean callocOk a =>
      obtain ⟨mem, image, hstate⟩ := clean_state s callocOk a
      show CurValid (clean s callocOk a).state.surface
      rw [hstate]
      exact CurValid.blitImage (s := ⟨s.surface, mem, s.panned⟩) hs image a

theorem Reached.curValid (h : Reached s) : CurValid s.surface := by
  induction h with
  | made address hkeeps hnew =>
      obtain ⟨v, hs⟩ := constructed_new hnew
      exact fun _ => .inl hs.curSurface
  | @called s c mem panned _ ih => exact CurValid.run (s := ⟨s.surface, mem, panned⟩) ih c
  | @resized s dev address width height hkeeps _ ih =>
      have hformat := setDimensions_format hkeeps address s width height
      unfold CurValid
      rw [hformat.numSurfaces, hformat.curSurface]
      exact ih

/-- **Double buffering**: on a surface with two surfaces or more, lines without
padding and a mapping of all its lines, no blit of any run tears or spills
exactly if the bits of one surface, and those of the largest image, are counted
without wrapping. -/
theorem blits_never_tear_iff (hs : Reached s) (hnum : 2 ≤ s.surface.mNumSurfaces)
    (hline : s.surface.mBytepl = s.surface.mVarInfo.xres * s.surface.mVarInfo.bitsPerPixel / 8)
    (hmapped : s.surface.mapped = s.surface.mVarInfo.yresVirtual * s.surface.mBytepl)
    (hpos : 0 < s.surface.mapped) :
    NeverTears s.surface ↔
      s.surface.mVarInfo.xres * s.surface.mVarInfo.yres * s.surface.mVarInfo.bitsPerPixel < 2 ^ 32 ∧
        (s.surface.mVarInfo.yres - 1) * 65535 * s.surface.mVarInfo.bitsPerPixel < 2 ^ 32 := by
  have hbuffered : DoubleBuffered s.surface :=
    { sized := hs.sized
      surfaces := hnum
      tight := by
        rw [hline]
        exact (mul_bits_div hs.sized.bits _).symm
      cur := hs.curValid (by omega) }
  refine hbuffered.never_tears_iff (Nat.pos_of_ne_zero fun hzero => ?_)
  rw [hmapped, hline, hzero, Nat.zero_mul, Nat.zero_div, Nat.mul_zero] at hpos
  exact absurd hpos (Nat.lt_irrefl 0)

end Reached

/-- Two surfaces of 4 by 4 pixels, which had 2 by 2 before. -/
def largerSurface : MappedSurface := (setDimensions wideDevice 0 ⟨wideSurface 2, some 0⟩ 4 4).1

theorem reached_wide (width height : UInt16) :
    Reached (setDimensions wideDevice 0 ⟨wideSurface 2, some 0⟩ width height).1 :=
  .resized 0 width height wideDevice_keeps (.made 0 wideDevice_keeps
    (show newHwalFBSurface wideDevice .aRgb32 2 2 2 = .ok (wideSurface 2) from rfl))

/-- The second of three pans fails. -/
theorem three_blits_never_tear :
    Meets blitStep NoTear ⟨largerSurface.surface, fun _ => 0, none⟩
      [⟨some fun _ => 1, ⟨0, 0, 2, 2, true, 7⟩⟩, ⟨some fun _ => 2, ⟨1, 0, 4, 9, false, 7⟩⟩,
        ⟨some fun _ => 3, ⟨0, 1, 1, 1, true, 7⟩⟩] :=
  (blits_never_tear_iff (s := largerSurface) (reached_wide 4 4) (by decide) (by decide) (by decide)
    (by decide)).mpr (by decide) _ _ _ (by simp [Displayed])

/-- Two surfaces of 16383 by 8193 pixels, which had 2 by 2 before. -/
def tallSurface : MappedSurface :=
  (setDimensions wideDevice 0 ⟨wideSurface 2, some 0⟩ 16383 8193).1

/-- A blit of one pixel. -/
def pixelBlit : Blit := ⟨some fun _ => 1, ⟨0, 0, 1, 1, true, 0⟩⟩

/-- `buffer_len` wraps to 32764 bytes, so the second pixel is written there, into
the surface that the first one is displayed on. -/
theorem second_blit_tears :
    Reached tallSurface ∧ tallSurface.surface.mNumSurfaces = 2 ∧
      tallSurface.surface.mBytepl = 16383 * 32 / 8 ∧
      tallSurface.surface.mapped = 16386 * tallSurface.surface.mBytepl ∧
      ∃ s, blitStep (.start tallSurface.surface fun _ => 0) pixelBlit = some s ∧
        s.panned = some 0 ∧ s.surface.mCurSurface = 0 ∧
        (pixelBlit.run s).accesses = [.readImage 0 4, .write 32764 4] ∧
        InSurface s.surface 0 32764 ∧
        ¬ Meets blitStep NoTear (.start tallSurface.surface fun _ => 0) [pixelBlit, pixelBlit] := by
  refine ⟨reached_wide 16383 8193, rfl, rfl, rfl, _, rfl, rfl, rfl, rfl,
    ⟨by decide, by decide⟩, ?_⟩
  rintro ⟨-, hsecond, -⟩
  have hinside := (hsecond.written 32764 ⟨32764, 4, by decide, by decide, by decide⟩).1
  exact absurd hinside.1 (by decide)

end MesonDisplay.Surface
