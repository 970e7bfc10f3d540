/-
  MesonDisplay.Surface.Pitch — lines that are longer than their pixels.

  The rows of a blit are as far apart as the driver says, and the display is
  panned by whole lines.  But the second surface is looked for behind as many
  bytes as the pixels of one surface have, so with padded lines the image is not
  where the display shows it.

  Main results:
    * `blitImage_rows` — a blit, on a surface of any size.
    * `shows_iff_aligned` — what is shown is the image if the surface and its
      rows begin where they should.
    * `shows_image_iff` — the pitches for which they do.
-/
import MesonDisplay.Surface.Mapping

namespace MesonDisplay.Surface

open MesonDisplay.Blit

/-! ## §1. A surface of any size. -/

/-- `buffer_len` of `blitImage`. -/
def HwalFBSurface.bufferLen (s : HwalFBSurface) : Nat :=
  u32 (s.mVarInfo.xres * s.mVarInfo.yres * s.mBitspp) / 8

/-- Where the image of a call goes. -/
def BlitArgs.target (a : BlitArgs) (s : HwalFBSurface) : Target :=
  chooseTarget s s.bufferLen a.curSur.toNat

section Blit

variable {s : FbState} {a : BlitArgs}

/-- A blit: what is in the memory behind it, and what was accessed. -/
theorem blitImage_rows (image : Image) (ha : a.OnScreen s.surface) :
    (blitImage s (some image) a).state.mem
        = copyRows s.mem
            (fun i => (a.target s.surface).fbuffer + rowLoc s.surface a.x.toNat a.y.toNat i)
            (fun i k => image (rowSrc s.surface a.width.toNat i + k))
            (rowLength s.surface (a.wReal s.surface)) (a.hReal s.surface) ∧
      (blitImage s (some image) a).accesses
        = rowAccesses
            (fun i => (a.target s.surface).fbuffer + rowLoc s.surface a.x.toNat a.y.toNat i)
            (rowSrc s.surface a.width.toNat) (rowLength s.surface (a.wReal s.surface))
            (a.hReal s.surface) := by
  have hoff : ¬ (a.x.toNat ≥ s.surface.mVarInfo.xres ∨ a.y.toNat ≥ s.surface.mVarInfo.yres) := by
    obtain ⟨hx, hy⟩ := ha
    omega
  unfold blitImage
  simp only [if_neg hoff]
  split_ifs
  · exact ⟨rfl, rfl⟩
  · exact ⟨rfl, rfl⟩

/-- A blit whose pan succeeds. -/
theorem blitImage_panned (image : Image) (ha : a.OnScreen s.surface) (hpan : a.panOk = true) :
    (blitImage s (some image) a).state.panned = some (a.target s.surface).yoffset := by
  have hoff : ¬ (a.x.toNat ≥ s.surface.mVarInfo.xres ∨ a.y.toNat ≥ s.surface.mVarInfo.yres) := by
    obtain ⟨hx, hy⟩ := ha
    omega
  unfold blitImage
  simp only [if_neg hoff, if_pos hpan]
  rfl

end Blit

/-- With two surfaces or more, the second one is blitted into if the first one
is shown. -/
theorem target_eq {s : HwalFBSurface} (a : BlitArgs) (hnum : 2 ≤ s.mNumSurfaces)
    (hcur : s.mCurSurface = 255 ∨ s.mCurSurface = 0 ∨ s.mCurSurface = 1) :
    (a.target s).yoffset = (if s.mCurSurface = 0 then s.mVarInfo.yres else 0) ∧
      (a.target s).fbuffer = if s.mCurSurface = 0 then s.bufferLen else 0 := by
  have hone : s.mNumSurfaces ≠ 1 := by omega
  unfold BlitArgs.target chooseTarget
  rcases hcur with h | h | h
  · simp [hone, h]
  · simp [hone, h]
  · simp [hone, h]

/-! ## §2. What is shown. -/

/-- The rows of the display, which begin at the row it was panned to, have the
image in the clipped rectangle. -/
def ShowsImage (s : FbState) (a : BlitArgs) (image : Image) : Prop :=
  ∃ yoffset, (blitImage s (some image) a).state.panned = some yoffset ∧
    ∀ i k, i < a.hReal s.surface → k < a.wReal s.surface * s.surface.bytespp →
      (blitImage s (some image) a).state.mem
          ((yoffset + (a.y.toNat + i)) * s.surface.mBytepl
            + (a.x.toNat * s.surface.bytespp + k))
        = image (imageRow s.surface a i + k)

/-- A rectangle that is not empty. -/
def BlitArgs.Nonempty (a : BlitArgs) : Prop := 0 < a.width.toNat ∧ 0 < a.height.toNat

section Shown

variable {s : HwalFBSurface} {a : BlitArgs}

theorem Sized.bytespp (hs : Sized s) : s.bytespp = 2 ∨ s.bytespp = 4 := by
  unfold HwalFBSurface.bytespp
  rcases hs.bits with h | h
  · exact .inl (by omega)
  · exact .inr (by omega)

theorem Sized.bytespp_pos (hs : Sized s) : 0 < s.bytespp := by
  rcases hs.bytespp with h | h
  · omega
  · omega

theorem Sized.mul_bits (hs : Sized s) (n : Nat) :
    n * s.mVarInfo.bitsPerPixel = 8 * (n * s.bytespp) := by
  unfold HwalFBSurface.bytespp
  rcases hs.bits with h | h
  · rw [h]
    omega
  · rw [h]
    omega

/-- `buffer_len`, in bytes. -/
theorem Sized.bufferLen_eq (hs : Sized s) : s.bufferLen = u32 (8 * s.size) / 8 := by
  unfold HwalFBSurface.bufferLen
  rw [hs.bitspp, hs.mul_bits]
  rfl

theorem Sized.rowSrc_eq (hs : Sized s) (i : Nat) :
    rowSrc s a.width.toNat i = u32 (8 * imageRow s a i) / 8 := by
  unfold rowSrc
  rw [hs.mul_bits]
  rfl

/-- The last row, and the row of the display it belongs to. -/
theorem nonempty_real (ha : a.OnScreen s) (hne : a.Nonempty) : 0 < a.wReal s ∧ 0 < a.hReal s := by
  obtain ⟨hx, hy⟩ := ha
  obtain ⟨hw, hh⟩ := hne
  unfold BlitArgs.wReal BlitArgs.hReal realSize
  split_ifs <;> omega

/-- The rows of a rectangle fit into the lines. -/
structure FitsLines (s : HwalFBSurface) (a : BlitArgs) : Prop where
  onScreen : a.OnScreen s
  width : a.wReal s * s.bytespp ≤ s.mBytepl
  loc : ∀ i, i < a.hReal s →
    rowLoc s a.x.toNat a.y.toNat i = a.x.toNat * s.bytespp + (a.y.toNat + i) * s.mBytepl
  length : rowLength s (a.wReal s) = a.wReal s * s.bytespp

theorem fitsLines (hs : Sized s) (hpitch : s.mVarInfo.xres * s.bytespp ≤ s.mBytepl)
    (ha : a.OnScreen s) : FitsLines s a where
  onScreen := ha
  width := by
    obtain ⟨hw, -⟩ := realSize_le a.width.toNat ha.1
    exact Nat.le_trans (Nat.mul_le_mul_right _ (Nat.le_trans hw (Nat.sub_le _ _))) hpitch
  loc := by
    intro i hi
    obtain ⟨hh, -⟩ := realSize_le a.height.toNat ha.2
    unfold BlitArgs.hReal at hi
    have hy := ha.2
    exact rowLoc_eq hs hpitch ha (by omega)
  length := by
    obtain ⟨hw, -⟩ := realSize_le a.width.toNat ha.1
    have hxres := hs.xres
    refine rowLength_eq hs.bits ?_
    unfold BlitArgs.wReal
    omega

theorem FitsLines.mem_eq {s : FbState} (f : FitsLines s.surface a) (image : Image) :
    (blitImage s (some image) a).state.mem
      = copyRows s.mem (rectRow s.surface a (a.target s.surface).fbuffer)
          (fun i k => image (rowSrc s.surface a.width.toNat i + k))
          (a.wReal s.surface * s.surface.bytespp) (a.hReal s.surface) := by
  rw [(blitImage_rows image f.onScreen).1, f.length]
  refine copyRows_congr (fun i hi => ?_) fun _ _ => rfl
  rw [f.loc i hi]
  rfl

/-- A row of the display is a row behind the line it was panned to. -/
theorem displayRow_eq (s : HwalFBSurface) (a : BlitArgs) (yoffset i k : Nat) :
    (yoffset + (a.y.toNat + i)) * s.mBytepl + (a.x.toNat * s.bytespp + k)
      = rectRow s a (yoffset * s.mBytepl) i + k := by
  unfold rectRow
  rw [Nat.add_mul]
  omega

theorem imageRow_mono (s : HwalFBSurface) (a : BlitArgs) {i j : Nat} (hij : i ≤ j) :
    imageRow s a i ≤ imageRow s a j :=
  Nat.mul_le_mul_right _ (Nat.mul_le_mul_right _ hij)

/-- An image in which one byte is 1. -/
def pointImage (off : Nat) : Image := fun off' => if off' = off then 1 else 0

/-- The first byte of the last row is where the display shows it only if
nothing is shifted. -/
theorem aligned_of_shown (hs : Sized s) (f : FitsLines s a) (hne : a.Nonempty)
    (hpan : a.panOk = true)
    (hbefore : (a.target s).fbuffer ≤ (a.target s).yoffset * s.mBytepl)
    (hshown : ShowsImage ⟨s, fun _ => 0, none⟩ a (pointImage (imageRow s a (a.hReal s - 1)))) :
    (a.target s).fbuffer = (a.target s).yoffset * s.mBytepl ∧
      8 * imageRow s a (a.hReal s - 1) < 2 ^ 32 := by
  obtain ⟨hw, hrows⟩ := nonempty_real f.onScreen hne
  obtain ⟨last, hlast⟩ : ∃ last, a.hReal s = last + 1 := ⟨a.hReal s - 1, by omega⟩
  rw [hlast, Nat.add_sub_cancel] at hshown ⊢
  obtain ⟨yoffset, hpanned, hshown⟩ := hshown
  rw [blitImage_panned _ f.onScreen hpan] at hpanned
  obtain rfl := Option.some.inj hpanned
  have hfirst := hshown last 0 (by show last < a.hReal s; omega) (Nat.mul_pos hw hs.bytespp_pos)
  rw [FitsLines.mem_eq (s := ⟨s, _, _⟩) f, displayRow_eq] at hfirst
  dsimp only at hfirst
  -- the byte of the display is in the last row, or in none
  have hbelow : rectRow s a (a.target s).fbuffer last
      ≤ rectRow s a ((a.target s).yoffset * s.mBytepl) last + 0 := by
    unfold rectRow
    omega
  rw [hlast, copyRows_last (fun i hi => rectRow_apart f.width _ hi) hbelow] at hfirst
  have hone : pointImage (imageRow s a last) (imageRow s a last + 0) = 1 := if_pos rfl
  rw [hone] at hfirst
  by_cases hin : rectRow s a ((a.target s).yoffset * s.mBytepl) last + 0
      < rectRow s a (a.target s).fbuffer last + a.wReal s * s.bytespp
  · rw [if_pos hin] at hfirst
    have hpoint : rowSrc s a.width.toNat last
        + (rectRow s a ((a.target s).yoffset * s.mBytepl) last + 0
          - rectRow s a (a.target s).fbuffer last) = imageRow s a last := by
      by_contra hother
      exact absurd hfirst (by rw [pointImage, if_neg hother]; decide)
    rw [hs.rowSrc_eq] at hpoint
    have hwidth := f.width
    have hbytepl := hs.bytepl
    unfold u32 at hpoint
    unfold rectRow at hin hpoint
    -- a shift is shorter than a line, and the wrapping shifts by 2 ^ 29 bytes
    omega
  · rw [if_neg hin] at hfirst
    exact absurd hfirst (by decide)

/-- **What is shown**: the image, for every content of the memory, if the
surface begins where the display does, and no offset in the image is wrapped. -/
theorem shows_iff_aligned (hs : Sized s) (f : FitsLines s a) (hne : a.Nonempty)
    (hpan : a.panOk = true)
    (hbefore : (a.target s).fbuffer ≤ (a.target s).yoffset * s.mBytepl) :
    (∀ mem panned image, ShowsImage ⟨s, mem, panned⟩ a image) ↔
      (a.target s).fbuffer = (a.target s).yoffset * s.mBytepl ∧
        8 * imageRow s a (a.hReal s - 1) < 2 ^ 32 := by
  refine ⟨fun hall => aligned_of_shown hs f hne hpan hbefore (hall _ _ _), ?_⟩
  rintro ⟨haligned, hsrc⟩ mem panned image
  refine ⟨_, blitImage_panned image f.onScreen hpan, fun i k hi hk => ?_⟩
  have hrow : rowSrc s a.width.toNat i = imageRow s a i := by
    have hmono := imageRow_mono s a (show i ≤ a.hReal s - 1 by change i < a.hReal s at hi; omega)
    rw [hs.rowSrc_eq, u32_of_lt (by omega)]
    omega
  rw [f.mem_eq, displayRow_eq, ← haligned,
    copyRows_inside (fun i j hij _ => rectRow_apart f.width _ hij) hi hk]
  exact congrArg (fun off => image (off + k)) hrow

/-! ## §3. The pitch. -/

/-- A surface has no more bytes than its lines. -/
theorem size_eq (s : HwalFBSurface) : s.size = s.mVarInfo.yres * (s.mVarInfo.xres * s.bytespp) := by
  unfold HwalFBSurface.size
  rw [Nat.mul_comm s.mVarInfo.xres, Nat.mul_assoc]

/-- The second surface begins behind the lines of the first one exactly if these
are not padded, and `buffer_len` is not wrapped. -/
theorem Sized.bufferLen_eq_lines_iff (hs : Sized s)
    (hpitch : s.mVarInfo.xres * s.bytespp ≤ s.mBytepl) (hyres : 0 < s.mVarInfo.yres) :
    s.bufferLen ≤ s.mVarInfo.yres * s.mBytepl ∧
      (s.bufferLen = s.mVarInfo.yres * s.mBytepl ↔
        s.mVarInfo.xres * s.bytespp = s.mBytepl ∧ 8 * s.size < 2 ^ 32) := by
  have hle : s.size ≤ s.mVarInfo.yres * s.mBytepl := by
    rw [size_eq]
    exact Nat.mul_le_mul_left _ hpitch
  have hlen : s.bufferLen ≤ s.size := by
    rw [hs.bufferLen_eq]
    unfold u32
    omega
  refine ⟨Nat.le_trans hlen hle, fun heq => ?_, ?_⟩
  · have hsize : s.size = s.mVarInfo.yres * s.mBytepl := by omega
    refine ⟨?_, ?_⟩
    · rw [size_eq] at hsize
      exact Nat.eq_of_mul_eq_mul_left hyres hsize
    · rw [← hsize, hs.bufferLen_eq] at heq
      unfold u32 at heq
      omega
  · rintro ⟨htight, hwrap⟩
    rw [hs.bufferLen_eq, u32_of_lt hwrap, ← htight, ← size_eq]
    omega

/-- Where the second surface is blitted into, lines have no padding and a surface
fewer than 2 ^ 32 bits; and the image has fewer than 2 ^ 32 bits in front of the
last row that is copied. -/
def PitchAgrees (s : HwalFBSurface) (a : BlitArgs) : Prop :=
  a.Nonempty →
    (s.mCurSurface = 0 →
      s.mVarInfo.xres * s.mVarInfo.bitsPerPixel / 8 = s.mBytepl ∧
        s.mVarInfo.xres * s.mVarInfo.yres * s.mVarInfo.bitsPerPixel < 2 ^ 32) ∧
    (a.hReal s - 1) * a.width.toNat * s.mVarInfo.bitsPerPixel < 2 ^ 32

/-- **What is blitted is what is shown** exactly if the pitch agrees. -/
theorem shows_image_iff (hs : Sized s) (hnum : 2 ≤ s.mNumSurfaces)
    (hpitch : s.mVarInfo.xres * s.mVarInfo.bitsPerPixel / 8 ≤ s.mBytepl)
    (hcur : s.mCurSurface = 255 ∨ s.mCurSurface = 0 ∨ s.mCurSurface = 1)
    (ha : a.OnScreen s) (hpan : a.panOk = true) :
    (∀ mem panned image, ShowsImage ⟨s, mem, panned⟩ a image) ↔ PitchAgrees s a := by
  have htight : s.mVarInfo.xres * s.mVarInfo.bitsPerPixel / 8 = s.mVarInfo.xres * s.bytespp :=
    mul_bits_div hs.bits _
  rw [htight] at hpitch
  have f := fitsLines hs hpitch ha
  unfold PitchAgrees
  by_cases hne : a.Nonempty
  · have hyres : 0 < s.mVarInfo.yres := Nat.lt_of_le_of_lt (Nat.zero_le _) ha.2
    obtain ⟨hle, hiff⟩ := hs.bufferLen_eq_lines_iff hpitch hyres
    obtain ⟨hyoffset, hfbuffer⟩ := target_eq a hnum hcur
    have himage : (a.hReal s - 1) * a.width.toNat * s.mVarInfo.bitsPerPixel
        = 8 * imageRow s a (a.hReal s - 1) := hs.mul_bits _
    have hsize : s.mVarInfo.xres * s.mVarInfo.yres * s.mVarInfo.bitsPerPixel = 8 * s.size :=
      hs.mul_bits _
    rw [htight, himage, hsize]
    by_cases h0 : s.mCurSurface = 0
    · rw [if_pos h0] at hyoffset hfbuffer
      rw [shows_iff_aligned hs f hne hpan (by rw [hyoffset, hfbuffer]; exact hle), hyoffset,
        hfbuffer, hiff]
      simp only [h0, hne, true_imp_iff]
    · rw [if_neg h0] at hyoffset hfbuffer
      rw [shows_iff_aligned hs f hne hpan (by rw [hfbuffer]; exact Nat.zero_le _), hyoffset,
        hfbuffer, Nat.zero_mul]
      simp only [h0, hne, true_imp_iff, false_imp_iff]
  · -- nothing has to be shown
    refine iff_of_true (fun mem panned image => ?_) fun h => absurd h hne
    refine ⟨_, blitImage_panned image ha hpan, fun i k hi hk => absurd ?_ hne⟩
    obtain ⟨-, hw⟩ := realSize_le a.width.toNat ha.1
    obtain ⟨-, hh⟩ := realSize_le a.height.toNat ha.2
    have hwreal : 0 < a.wReal s := Nat.pos_of_mul_pos_right (Nat.lt_of_le_of_lt (Nat.zero_le k) hk)
    exact ⟨Nat.lt_of_lt_of_le hwreal hw, Nat.lt_of_lt_of_le (Nat.lt_of_le_of_lt (Nat.zero_le i) hi) hh⟩

end Shown

/-- Two surfaces of 2 by 2 pixels with 4 bytes, and `pitch` bytes a line. -/
def smallSurface (pitch cur : Nat) : HwalFBSurface where
  mapped := 4 * pitch
  mVarInfo := ⟨2, 2, 2, 4, 0, 32, 0, ⟨16, 8, 0⟩, ⟨8, 8, 0⟩, ⟨0, 8, 0⟩, ⟨24, 8, 0⟩⟩
  mBitspp := 32
  mBytepl := pitch
  mNumSurfaces := 2
  mCurSurface := cur

theorem smallSurface_sized {pitch cur : Nat} (hpitch : pitch < 2 ^ 16) :
    Sized (smallSurface pitch cur) :=
  ⟨.inr rfl, rfl, by show 2 < _; omega, by show 2 < _; omega, hpitch⟩

/-- Padded lines, and the second surface shown. -/
theorem shows_image_first :
    (∀ mem panned image, ShowsImage ⟨smallSurface 16 1, mem, panned⟩ ⟨0, 0, 2, 2, true, 0⟩ image) ↔
      PitchAgrees (smallSurface 16 1) ⟨0, 0, 2, 2, true, 0⟩ :=
  shows_image_iff (smallSurface_sized (by decide)) (by decide) (by decide) (by decide)
    ⟨by decide, by decide⟩ rfl

/-- Padded lines, and the first surface shown: the image is a line too early. -/
theorem shows_other_image :
    let s := smallSurface 16 0
    let a : BlitArgs := ⟨0, 0, 2, 2, true, 0⟩
    let image : Image := fun off => if off < 8 then 1 else 2
    (Sized s ∧ 2 ≤ s.mNumSurfaces ∧ s.mVarInfo.xres * s.mVarInfo.bitsPerPixel / 8 ≤ s.mBytepl ∧
      s.mCurSurface = 0 ∧ a.OnScreen s ∧ a.panOk = true) ∧
    (blitImage ⟨s, fun _ => 0, none⟩ (some image) a).state.panned = some 2 ∧
    (blitImage ⟨s, fun _ => 0, none⟩ (some image) a).state.mem (2 * 16) = 2 ∧
    image (imageRow s a 0) = 1 ∧ ¬ ShowsImage ⟨s, fun _ => 0, none⟩ a image := by
  refine ⟨⟨smallSurface_sized (by decide), by decide, by decide, rfl, ⟨by decide, by decide⟩, rfl⟩,
    rfl, by decide, by decide, ?_⟩
  rintro ⟨yoffset, hpanned, hshown⟩
  obtain rfl : 2 = yoffset := Option.some.inj hpanned
  exact absurd (hshown 0 0 (by decide) (by decide)) (by decide)

end MesonDisplay.Surface
