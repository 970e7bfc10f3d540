/-
  MesonDisplay.Surface.DoubleBuffer — blitting into the surface that is not shown.

  With two surfaces or more, `mCurSurface` is 255 until a pan has succeeded, and
  then the number of the surface on the display.  A blit goes into the other
  one, row by row; a pan that fails leaves `mCurSurface` as it was.

  Offsets are counted in unsigned ints, and in bits where they depend on the
  format.  On a surface that the constructor makes, none of them wraps, as a mode
  has at most 1920 by 1080 pixels; on one that was resized, some may.

  Main results:
    * `blitImage_valid` — a blit without the wrapping.
    * `BlitInv.meets` — where nothing wraps, no blit of a run tears or spills,
      whatever the pans did.
-/
import MesonDisplay.Lib.Runs
import MesonDisplay.Surface.FbSurface

namespace MesonDisplay.Surface

open MesonDisplay.Blit
open MesonDisplay.Runs

/-! ## §1. The surfaces that are made. -/

/-- The bytes of a pixel. -/
def HwalFBSurface.bytespp (s : HwalFBSurface) : Nat := s.mVarInfo.bitsPerPixel / 8

/-- What the constructor and the driver see to. -/
structure Regular (s : HwalFBSurface) : Prop where
  bits : s.mVarInfo.bitsPerPixel = 16 ∨ s.mVarInfo.bitsPerPixel = 32
  bitspp : s.mBitspp = s.mVarInfo.bitsPerPixel
  xres : s.mVarInfo.xres ≤ 1920
  yres : s.mVarInfo.yres ≤ 1080
  pitch : s.mVarInfo.xres * s.bytespp ≤ s.mBytepl
  bytepl : s.mBytepl < 2 ^ 16

/-- The driver takes the picture of a mode as it is passed, but may leave
another number of lines behind it. -/
def FbDevice.KeepsPicture (dev : FbDevice) : Prop :=
  ∀ v v', dev.putVarInfo v = some v' →
    v'.xres = v.xres ∧ v'.yres = v.yres ∧ v'.bitsPerPixel = v.bitsPerPixel

/-- Every line has room for its pixels, and its length fits in 16 bits. -/
def FbDevice.ReportsPitch (dev : FbDevice) : Prop :=
  ∀ v n, dev.lineLength v = some n → v.xres * v.bitsPerPixel / 8 ≤ n ∧ n < 2 ^ 16

theorem setPixelFormat_bits {type : HwalSurfaceType} {v v' : FbVarScreeninfo} {bitspp : Nat}
    (hset : setPixelFormat type v = some (v', bitspp)) : bitspp = 16 ∨ bitspp = 32 := by
  cases type with
  | clut8 => exact absurd hset (by simp [setPixelFormat])
  | xRgb16 => exact .inl (congrArg Prod.snd (Option.some.inj hset)).symm
  | aRgb16 => exact .inl (congrArg Prod.snd (Option.some.inj hset)).symm
  | xRgb32 => exact .inr (congrArg Prod.snd (Option.some.inj hset)).symm
  | aRgb32 => exact .inr (congrArg Prod.snd (Option.some.inj hset)).symm

/-- What a surface is that was made. -/
structure Made (width height : UInt16) (numSurfaces : UInt32) (s : HwalFBSurface) : Prop where
  regular : Regular s
  xres : s.mVarInfo.xres = width.toNat
  yres : s.mVarInfo.yres = height.toNat
  mapped : s.mapped = u32 (s.mVarInfo.yresVirtual * s.mBytepl)
  numSurfaces : s.mNumSurfaces = numSurfaces.toNat
  curSurface : s.mCurSurface = 255

/-- Whole bytes: the bits of a line. -/
theorem mul_bits_div {bits : Nat} (hbits : bits = 16 ∨ bits = 32) (n : Nat) :
    n * bits / 8 = n * (bits / 8) := by
  rcases hbits with rfl | rfl <;> omega

/-- The mode that the constructor asks for. -/
def requestedMode (v : FbVarScreeninfo) (bitspp : Nat) (width height : UInt16)
    (numSurfaces : UInt32) : FbVarScreeninfo :=
  { v with
    xres := width.toNat
    yres := height.toNat
    bitsPerPixel := bitspp
    xresVirtual := width.toNat
    yresVirtual := u32 (height.toNat * numSurfaces.toNat) }

/-- One check and one system call after the other succeeded. -/
structure Constructed (dev : FbDevice) (type : HwalSurfaceType) (width height : UInt16)
    (numSurfaces : UInt32) (s : HwalFBSurface) (v : FbVarScreeninfo) : Prop where
  supported : type ≠ .clut8
  width_le : width.toNat ≤ 1920
  height_le : height.toNat ≤ 1080
  format : s.mBitspp = 16 ∨ s.mBitspp = 32
  from_driver : ∃ v₀, dev.varInfo = some v₀ ∧ setPixelFormat type v₀ = some (v, s.mBitspp)
  put : dev.putVarInfo (requestedMode v s.mBitspp width height numSurfaces) = some s.mVarInfo
  line : ∃ lineLength, dev.lineLength s.mVarInfo = some lineLength ∧
    s.mBytepl = lineLength % 2 ^ 16
  mapped : s.mapped = u32 (s.mVarInfo.yresVirtual * s.mBytepl)
  mapped_pos : 0 < s.mapped
  surfaces : s.mNumSurfaces = numSurfaces.toNat
  curSurface : s.mCurSurface = 255

theorem constructed_new {dev : FbDevice} {type : HwalSurfaceType} {width height : UInt16}
    {numSurfaces : UInt32} {s : HwalFBSurface}
    (hnew : newHwalFBSurface dev type width height numSurfaces = .ok s) :
    ∃ v, Constructed dev type width height numSurfaces s v := by
  unfold newHwalFBSurface at hnew
  split_ifs at hnew with hsupported hfd
  obtain ⟨htype, hsize⟩ := not_or.mp hsupported
  obtain ⟨hwidth, hheight⟩ := not_or.mp hsize
  cases hget : dev.varInfo with
  | none => simp [hget] at hnew
  | some varInfo =>
      cases hset : setPixelFormat type varInfo with
      | none => simp [hget, hset] at hnew
      | some format =>
          obtain ⟨v, bitspp⟩ := format
          simp only [hget, hset] at hnew
          split at hnew
          · exact absurd hnew (by simp)
          · rename_i v' hv'
            split at hnew
            · exact absurd hnew (by simp)
            · rename_i lineLength hline
              split_ifs at hnew with hmap
              obtain rfl := Except.ok.inj hnew
              exact ⟨v, htype, Nat.le_of_not_gt hwidth, Nat.le_of_not_gt hheight,
                setPixelFormat_bits hset, ⟨varInfo, hget, hset⟩, hv', ⟨lineLength, hline, rfl⟩, rfl,
                Nat.pos_of_ne_zero hmap.1, rfl, rfl⟩

theorem made_new {dev : FbDevice} {type : HwalSurfaceType} {width height : UInt16}
    {numSurfaces : UInt32} {s : HwalFBSurface} (hkeeps : dev.KeepsPicture)
    (hpitch : dev.ReportsPitch)
    (hnew : newHwalFBSurface dev type width height numSurfaces = .ok s) :
    Made width height numSurfaces s := by
  obtain ⟨v, hs⟩ := constructed_new hnew
  obtain ⟨hxres, hyres, hbpp⟩ := hkeeps _ _ hs.put
  obtain ⟨lineLength, hline, hbytepl⟩ := hs.line
  obtain ⟨hle, hlt⟩ := hpitch _ _ hline
  rw [Nat.mod_eq_of_lt hlt] at hbytepl
  obtain rfl := hbytepl
  have hbits : s.mVarInfo.bitsPerPixel = 16 ∨ s.mVarInfo.bitsPerPixel = 32 := by
    rw [hbpp]
    exact hs.format
  rw [mul_bits_div hbits] at hle
  refine ⟨⟨hbits, hbpp.symm, ?_, ?_, hle, hlt⟩, hxres, hyres, hs.mapped, hs.surfaces,
    hs.curSurface⟩
  · rw [hxres]
    exact hs.width_le
  · rw [hyres]
    exact hs.height_le

/-! ## §2. A blit without the wrapping. -/

/-- The sizes have 16 bits, and the pixels whole bytes. -/
structure Sized (s : HwalFBSurface) : Prop where
  bits : s.mVarInfo.bitsPerPixel = 16 ∨ s.mVarInfo.bitsPerPixel = 32
  bitspp : s.mBitspp = s.mVarInfo.bitsPerPixel
  xres : s.mVarInfo.xres < 2 ^ 16
  yres : s.mVarInfo.yres < 2 ^ 16
  bytepl : s.mBytepl < 2 ^ 16

/-- The bits of a surface, and those in front of the last row of an image, are
counted without wrapping.  An image has at most 65535 pixels a row. -/
def OffsetsFit (s : HwalFBSurface) : Prop :=
  s.mVarInfo.xres * s.mVarInfo.yres * s.mVarInfo.bitsPerPixel < 2 ^ 32 ∧
    (s.mVarInfo.yres - 1) * 65535 * s.mVarInfo.bitsPerPixel < 2 ^ 32

/-- No offset wraps. -/
structure Unwrapped (s : HwalFBSurface) : Prop where
  sized : Sized s
  pitch : s.mVarInfo.xres * s.bytespp ≤ s.mBytepl
  offsets : OffsetsFit s

theorem Regular.sized {s : HwalFBSurface} (hs : Regular s) : Sized s where
  bits := hs.bits
  bitspp := hs.bitspp
  xres := Nat.lt_of_le_of_lt hs.xres (by decide)
  yres := Nat.lt_of_le_of_lt hs.yres (by decide)
  bytepl := hs.bytepl

/-- A surface that is made is too small to wrap. -/
theorem Regular.unwrapped {s : HwalFBSurface} (hs : Regular s) : Unwrapped s where
  sized := hs.sized
  pitch := hs.pitch
  offsets := by
    have harea : s.mVarInfo.xres * s.mVarInfo.yres ≤ 1920 * 1080 :=
      Nat.mul_le_mul hs.xres hs.yres
    have hyres := hs.yres
    unfold OffsetsFit
    rcases hs.bits with hbits | hbits
    · rw [hbits]
      omega
    · rw [hbits]
      omega

/-- `w_real` and `h_real` of a call. -/
def BlitArgs.wReal (a : BlitArgs) (s : HwalFBSurface) : Nat :=
  realSize a.x.toNat a.width.toNat s.mVarInfo.xres

def BlitArgs.hReal (a : BlitArgs) (s : HwalFBSurface) : Nat :=
  realSize a.y.toNat a.height.toNat s.mVarInfo.yres

/-- The upper left corner is on the screen. -/
def BlitArgs.OnScreen (a : BlitArgs) (s : HwalFBSurface) : Prop :=
  a.x.toNat < s.mVarInfo.xres ∧ a.y.toNat < s.mVarInfo.yres

/-- Where the rows of the clipped rectangle begin, in the surface at `base`. -/
def rectRow (s : HwalFBSurface) (a : BlitArgs) (base i : Nat) : Nat :=
  base + (a.x.toNat * s.bytespp + (a.y.toNat + i) * s.mBytepl)

/-- Where the rows of the image begin. -/
def imageRow (s : HwalFBSurface) (a : BlitArgs) (i : Nat) : Nat :=
  i * a.width.toNat * s.bytespp

/-- `buffer_len`: the bytes of one surface without padding. -/
def HwalFBSurface.size (s : HwalFBSurface) : Nat := s.mVarInfo.xres * s.mVarInfo.yres * s.bytespp

theorem realSize_le (size : Nat) {start res : Nat} (h : start < res) :
    realSize start size res ≤ res - start ∧ realSize start size res ≤ size := by
  unfold realSize
  split_ifs <;> omega

/-- Rows that fit into their lines are apart. -/
theorem rectRow_apart {s : HwalFBSurface} {a : BlitArgs} (hline : a.wReal s * s.bytespp ≤ s.mBytepl)
    (base : Nat) {i j : Nat} (hij : i < j) :
    rectRow s a base i + a.wReal s * s.bytespp ≤ rectRow s a base j := by
  have hnext : (a.y.toNat + i) * s.mBytepl + s.mBytepl ≤ (a.y.toNat + j) * s.mBytepl := by
    rw [← Nat.succ_mul]
    exact Nat.mul_le_mul_right _ (by omega)
  unfold rectRow
  omega

section Arithmetic

variable {s : HwalFBSurface} {a : BlitArgs}

theorem Regular.bytespp_le (hs : Regular s) : s.bytespp ≤ 4 := by
  unfold HwalFBSurface.bytespp
  rcases hs.bits with h | h
  · omega
  · omega

/-- A number of pixels that is small enough, in bits, is not wrapped. -/
theorem u32_mul_bits (hbits : s.mVarInfo.bitsPerPixel = 16 ∨ s.mVarInfo.bitsPerPixel = 32)
    {n : Nat} (hn : n * s.mVarInfo.bitsPerPixel < 2 ^ 32) :
    u32 (n * s.mVarInfo.bitsPerPixel) / 8 = n * s.bytespp := by
  rw [u32_of_lt hn, mul_bits_div hbits]
  rfl

theorem bufferLen_eq (hs : Unwrapped s) :
    u32 (s.mVarInfo.xres * s.mVarInfo.yres * s.mBitspp) / 8 = s.size := by
  rw [hs.sized.bitspp]
  exact u32_mul_bits hs.sized.bits hs.offsets.1

theorem rowSrc_eq (hs : Unwrapped s) {i : Nat} (hi : i < s.mVarInfo.yres) :
    rowSrc s a.width.toNat i = imageRow s a i := by
  refine u32_mul_bits hs.sized.bits (Nat.lt_of_le_of_lt ?_ hs.offsets.2)
  exact Nat.mul_le_mul_right _
    (Nat.mul_le_mul (by omega) (Nat.le_of_lt_succ a.width.toNat_lt))

theorem rowLength_eq (hbits : s.mVarInfo.bitsPerPixel = 16 ∨ s.mVarInfo.bitsPerPixel = 32)
    {wReal : Nat} (hw : wReal < 2 ^ 16) : rowLength s wReal = wReal * s.bytespp := by
  refine u32_mul_bits hbits ?_
  rcases hbits with h | h
  · rw [h]
    omega
  · rw [h]
    omega

/-- A row of the rectangle, if its offset is not wrapped. -/
theorem rowLoc_of_lt {x y i : Nat} (h : x * s.bytespp + (y + i) * s.mBytepl < 2 ^ 32) :
    rowLoc s x y i = x * s.bytespp + (y + i) * s.mBytepl := by
  unfold rowLoc
  rw [u32_of_lt (n := (y + i) * s.mBytepl) (by omega), u32_of_lt]
  · rfl
  · exact h

theorem rowLoc_eq (hs : Sized s) (hpitch : s.mVarInfo.xres * s.bytespp ≤ s.mBytepl)
    (ha : a.OnScreen s) {i : Nat} (hi : a.y.toNat + i < s.mVarInfo.yres) :
    rowLoc s a.x.toNat a.y.toNat i = a.x.toNat * s.bytespp + (a.y.toNat + i) * s.mBytepl := by
  have hyres := hs.yres
  have hbytepl := hs.bytepl
  have hrow : (a.y.toNat + i) * s.mBytepl ≤ 65534 * 65535 :=
    Nat.mul_le_mul (by omega) (by omega)
  have hcolumn : a.x.toNat * s.bytespp ≤ s.mBytepl :=
    Nat.le_trans (Nat.mul_le_mul_right _ (Nat.le_of_lt ha.1)) hpitch
  exact rowLoc_of_lt (by omega)

end Arithmetic

/-- What a blit of an image does where nothing wraps. -/
def plainBlit (s : FbState) (image : Image) (a : BlitArgs) : FbResult :=
  let v := s.surface.mVarInfo
  let t := chooseTarget s.surface s.surface.size a.curSur.toNat
  let dst := rectRow s.surface a t.fbuffer
  let src := imageRow s.surface a
  let n := a.wReal s.surface * s.surface.bytespp
  let mem := copyRows s.mem dst (fun i k => image (src i + k)) n (a.hReal s.surface)
  let accesses := rowAccesses dst src n (a.hReal s.surface)
  let surface := { s.surface with mVarInfo := { v with yoffset := t.yoffset } }
  if a.panOk then
    ⟨⟨{ surface with mCurSurface := t.curSur }, mem, some t.yoffset⟩, .success, accesses⟩
  else ⟨⟨surface, mem, s.panned⟩, .eio, accesses⟩

theorem plainBlit_rows (s : FbState) (image : Image) (a : BlitArgs) :
    (plainBlit s image a).accesses
      = rowAccesses (rectRow s.surface a
            (chooseTarget s.surface s.surface.size a.curSur.toNat).fbuffer)
          (imageRow s.surface a) (a.wReal s.surface * s.surface.bytespp) (a.hReal s.surface) := by
  unfold plainBlit
  dsimp only
  split_ifs
  · rfl
  · rfl

theorem plainBlit_mem (s : FbState) (image : Image) (a : BlitArgs) :
    (plainBlit s image a).state.mem
      = copyRows s.mem (rectRow s.surface a
            (chooseTarget s.surface s.surface.size a.curSur.toNat).fbuffer)
          (fun i k => image (imageRow s.surface a i + k))
          (a.wReal s.surface * s.surface.bytespp) (a.hReal s.surface) := by
  unfold plainBlit
  dsimp only
  split_ifs
  · rfl
  · rfl

theorem rowAccesses_congr {dst dst' src src' : Nat → Nat} {n rows : Nat}
    (hdst : ∀ i, i < rows → dst i = dst' i) (hsrc : ∀ i, i < rows → src i = src' i) :
    rowAccesses dst src n rows = rowAccesses dst' src' n rows := by
  induction rows with
  | zero => rfl
  | succ rows ih =>
      unfold rowAccesses
      rw [hdst rows (Nat.lt_succ_self rows), hsrc rows (Nat.lt_succ_self rows),
        ih (fun i hi => hdst i (Nat.lt_succ_of_lt hi)) (fun i hi => hsrc i (Nat.lt_succ_of_lt hi))]

section Blit

variable {s : FbState} {a : BlitArgs}

/-- A call that is refused does nothing. -/
theorem blitImage_invalid {image : Option Image}
    (h : image = none ∨ ¬ a.OnScreen s.surface) : blitImage s image a = ⟨s, .einval, []⟩ := by
  unfold blitImage
  cases image with
  | none => rfl
  | some image =>
      have hoff : a.x.toNat ≥ s.surface.mVarInfo.xres ∨ a.y.toNat ≥ s.surface.mVarInfo.yres := by
        rcases h with h | h
        · exact absurd h (by simp)
        · unfold BlitArgs.OnScreen at h
          omega
      simp only [if_pos hoff]

/-- **A blit without the wrapping.** -/
theorem blitImage_valid (hs : Unwrapped s.surface) (image : Image) (ha : a.OnScreen s.surface) :
    blitImage s (some image) a = plainBlit s image a := by
  have hoff : ¬ (a.x.toNat ≥ s.surface.mVarInfo.xres ∨ a.y.toNat ≥ s.surface.mVarInfo.yres) := by
    obtain ⟨hx, hy⟩ := ha
    omega
  have hw : a.wReal s.surface ≤ s.surface.mVarInfo.xres :=
    Nat.le_trans (realSize_le _ ha.1).1 (Nat.sub_le _ _)
  have hrows : ∀ i, i < a.hReal s.surface → a.y.toNat + i < s.surface.mVarInfo.yres := by
    intro i hi
    have hle := (realSize_le a.height.toNat ha.2).1
    unfold BlitArgs.hReal at hi
    omega
  -- the rows are where they are without the wrapping
  have hdst : ∀ base i, i < a.hReal s.surface →
      base + rowLoc s.surface a.x.toNat a.y.toNat i = rectRow s.surface a base i :=
    fun base i hi => congrArg (base + ·) (rowLoc_eq hs.sized hs.pitch ha (hrows i hi))
  have hsrc : ∀ i, i < a.hReal s.surface →
      rowSrc s.surface a.width.toNat i = imageRow s.surface a i :=
    fun i hi => rowSrc_eq hs (Nat.lt_of_le_of_lt (Nat.le_add_left i _) (hrows i hi))
  unfold blitImage plainBlit
  simp only [if_neg hoff, bufferLen_eq hs]
  rw [show realSize a.x.toNat a.width.toNat s.surface.mVarInfo.xres = a.wReal s.surface from rfl,
    show realSize a.y.toNat a.height.toNat s.surface.mVarInfo.yres = a.hReal s.surface from rfl,
    rowLength_eq hs.sized.bits (Nat.lt_of_le_of_lt hw hs.sized.xres),
    copyRows_congr (hdst _) (fun i hi => by rw [hsrc i hi]), rowAccesses_congr (hdst _) hsrc]

end Blit

/-! ## §3. What a blit accesses. -/

def Reads (accesses : List Access) (off : Nat) : Prop :=
  ∃ start len, .read start len ∈ accesses ∧ start ≤ off ∧ off < start + len

def Writes (accesses : List Access) (off : Nat) : Prop :=
  ∃ start len, .write start len ∈ accesses ∧ start ≤ off ∧ off < start + len

def ReadsImage (accesses : List Access) (off : Nat) : Prop :=
  ∃ start len, .readImage start len ∈ accesses ∧ start ≤ off ∧ off < start + len

section Accesses

variable {dst src : Nat → Nat} {n rows : Nat}

theorem mem_rowAccesses {e : Access} :
    e ∈ rowAccesses dst src n rows ↔
      ∃ i, i < rows ∧ (e = .readImage (src i) n ∨ e = .write (dst i) n) := by
  induction rows with
  | zero =>
      refine iff_of_false List.not_mem_nil ?_
      rintro ⟨i, hi, -⟩
      exact absurd hi (Nat.not_lt_zero i)
  | succ rows ih =>
      unfold rowAccesses
      rw [List.mem_append, ih]
      constructor
      · rintro (⟨i, hi, he⟩ | he)
        · exact ⟨i, Nat.lt_succ_of_lt hi, he⟩
        · exact ⟨rows, Nat.lt_succ_self rows, by simpa using he⟩
      · rintro ⟨i, hi, he⟩
        rcases Nat.lt_succ_iff_lt_or_eq.mp hi with hlt | rfl
        · exact .inl ⟨i, hlt, he⟩
        · exact .inr (by simpa using he)

/-- The rows of the rectangle are written, and nothing else. -/
theorem writes_rowAccesses (off : Nat) :
    Writes (rowAccesses dst src n rows) off ↔ InRows dst n rows off := by
  unfold Writes InRows
  constructor
  · rintro ⟨start, len, hmem, hrange⟩
    obtain ⟨i, hi, he | he⟩ := mem_rowAccesses.mp hmem
    · exact absurd he (by simp)
    · obtain ⟨rfl, rfl⟩ := Access.write.inj he
      exact ⟨i, hi, hrange⟩
  · rintro ⟨i, hi, hrange⟩
    exact ⟨dst i, n, mem_rowAccesses.mpr ⟨i, hi, .inr rfl⟩, hrange⟩

theorem readsImage_rowAccesses (off : Nat) :
    ReadsImage (rowAccesses dst src n rows) off ↔ InRows src n rows off := by
  unfold ReadsImage InRows
  constructor
  · rintro ⟨start, len, hmem, hrange⟩
    obtain ⟨i, hi, he | he⟩ := mem_rowAccesses.mp hmem
    · obtain ⟨rfl, rfl⟩ := Access.readImage.inj he
      exact ⟨i, hi, hrange⟩
    · exact absurd he (by simp)
  · rintro ⟨i, hi, hrange⟩
    exact ⟨src i, n, mem_rowAccesses.mpr ⟨i, hi, .inl rfl⟩, hrange⟩

theorem not_reads_rowAccesses (off : Nat) : ¬ Reads (rowAccesses dst src n rows) off := by
  rintro ⟨start, len, hmem, -⟩
  obtain ⟨i, hi, he | he⟩ := mem_rowAccesses.mp hmem
  · exact absurd he (by simp)
  · exact absurd he (by simp)

end Accesses

/-! ## §4. No tearing. -/

/-- A call of `blitImage`. -/
structure Blit where
  image : Option Image
  args : BlitArgs

def Blit.run (s : FbState) (c : Blit) : FbResult := blitImage s c.image c.args

def blitStep (s : FbState) (c : Blit) : Option FbState := some (c.run s).state

/-- Once the display was panned, it shows a whole surface, and `mCurSurface` is
the number of this one. -/
def Displayed (s : FbState) : Prop :=
  ∀ yoffset, s.panned = some yoffset →
    s.surface.mCurSurface = yoffset / s.surface.mVarInfo.yres ∧
      s.surface.mVarInfo.yres ∣ yoffset ∧ s.surface.mCurSurface < 2

/-- The surface that is not displayed; the first one before any pan. -/
def otherSurface (s : FbState) : Nat :=
  if s.surface.mCurSurface = 255 then 0 else 1 - s.surface.mCurSurface

/-- An offset in surface number `k`. -/
def InSurface (s : HwalFBSurface) (k off : Nat) : Prop := k * s.size ≤ off ∧ off < (k + 1) * s.size

/-- An offset in the clipped rectangle of surface number `k`. -/
def InRect (s : HwalFBSurface) (a : BlitArgs) (k off : Nat) : Prop :=
  InRows (rectRow s a (k * s.size)) (a.wReal s * s.bytespp) (a.hReal s) off

/-- **A blit does not tear and does not spill.** -/
structure NoTear (s : FbState) (c : Blit) : Prop where
  before : Displayed s
  after : Displayed (c.run s).state
  written : ∀ off, Writes (c.run s).accesses off →
    InSurface s.surface (otherSurface s) off ∧ InRect s.surface c.args (otherSurface s) off
  other : s.panned ≠ none → otherSurface s ≠ s.surface.mCurSurface
  kept : ∀ off, ¬ Writes (c.run s).accesses off → (c.run s).state.mem off = s.mem off
  notRead : ∀ off, ¬ Reads (c.run s).accesses off
  image : ∀ off, ReadsImage (c.run s).accesses off →
    off < c.args.width.toNat * c.args.height.toNat * s.surface.bytespp
  /-- The rows of the display begin at the row it was panned to. -/
  shown : (c.run s).ret = .success → ∃ image yoffset, c.image = some image ∧
    (c.run s).state.panned = some yoffset ∧
    ∀ i k, i < c.args.hReal s.surface → k < c.args.wReal s.surface * s.surface.bytespp →
      (c.run s).state.mem ((yoffset + (c.args.y.toNat + i)) * s.surface.mBytepl
          + (c.args.x.toNat * s.surface.bytespp + k))
        = image (imageRow s.surface c.args i + k)

/-- What a run of blits keeps. -/
structure BlitInv (s : FbState) : Prop where
  unwrapped : Unwrapped s.surface
  tight : s.surface.mBytepl = s.surface.mVarInfo.xres * s.surface.bytespp
  surfaces : s.surface.mNumSurfaces ≠ 1
  cur : s.surface.mCurSurface = 255 ∨ s.surface.mCurSurface = 0 ∨ s.surface.mCurSurface = 1
  displayed : Displayed s

section Inv

variable {s : FbState} {c : Blit}

theorem BlitInv.otherSurface_ne (hs : BlitInv s) :
    otherSurface s ≠ s.surface.mCurSurface := by
  unfold otherSurface
  rcases hs.cur with h | h | h
  · simp [h]
  · simp [h]
  · simp [h]

/-- The size of a surface is that of its rows. -/
theorem BlitInv.size_eq (hs : BlitInv s) :
    s.surface.size = s.surface.mVarInfo.yres * s.surface.mBytepl := by
  unfold HwalFBSurface.size
  rw [hs.tight, Nat.mul_comm s.surface.mVarInfo.xres, Nat.mul_assoc]

/-- The image goes into the other surface. -/
theorem BlitInv.chooseTarget_eq (hs : BlitInv s) (curSur : Nat) :
    chooseTarget s.surface s.surface.size curSur
      = ⟨otherSurface s, otherSurface s * s.surface.mVarInfo.yres,
          otherSurface s * s.surface.size⟩ := by
  unfold chooseTarget otherSurface
  rw [if_neg hs.surfaces]
  rcases hs.cur with h | h | h
  · simp [h]
  · simp [h]
  · simp [h]

/-- A row of the rectangle lies in its surface. -/
theorem BlitInv.inSurface_of_inRect (hs : BlitInv s) {a : BlitArgs} (ha : a.OnScreen s.surface)
    {k off : Nat} (hoff : InRect s.surface a k off) : InSurface s.surface k off := by
  obtain ⟨i, hi, hle, hlt⟩ := hoff
  obtain ⟨hw, -⟩ := realSize_le a.width.toNat ha.1
  obtain ⟨hh, -⟩ := realSize_le a.height.toNat ha.2
  unfold BlitArgs.wReal at hlt
  unfold BlitArgs.hReal at hi
  unfold rectRow at hle hlt
  -- the row ends inside of its line
  have hline : a.x.toNat * s.surface.bytespp
      + realSize a.x.toNat a.width.toNat s.surface.mVarInfo.xres * s.surface.bytespp
      ≤ s.surface.mBytepl := by
    rw [← Nat.add_mul, hs.tight]
    exact Nat.mul_le_mul_right _ (by have := ha.1; omega)
  -- and the line is one of the surface
  have hlast : (a.y.toNat + i) * s.surface.mBytepl + s.surface.mBytepl ≤ s.surface.size := by
    rw [hs.size_eq, ← Nat.succ_mul]
    exact Nat.mul_le_mul_right _ (by have := ha.2; omega)
  unfold InSurface
  rw [Nat.add_mul, Nat.one_mul]
  omega

/-- One row of the rectangle ends before the next one begins. -/
theorem BlitInv.rows_apart (hs : BlitInv s) {a : BlitArgs} (ha : a.OnScreen s.surface)
    (base : Nat) {i j : Nat} (hij : i < j) :
    rectRow s.surface a base i + a.wReal s.surface * s.surface.bytespp
      ≤ rectRow s.surface a base j := by
  obtain ⟨hw, -⟩ := realSize_le a.width.toNat ha.1
  refine rectRow_apart ?_ base hij
  rw [hs.tight]
  exact Nat.mul_le_mul_right _ (Nat.le_trans hw (Nat.sub_le _ _))

/-- The rows that are read lie in the image. -/
theorem inRows_imageRow {a : BlitArgs} (ha : a.OnScreen s.surface) {off : Nat}
    (hoff : InRows (imageRow s.surface a) (a.wReal s.surface * s.surface.bytespp)
      (a.hReal s.surface) off) :
    off < a.width.toNat * a.height.toNat * s.surface.bytespp := by
  obtain ⟨i, hi, -, hlt⟩ := hoff
  obtain ⟨-, hw⟩ := realSize_le a.width.toNat ha.1
  obtain ⟨-, hh⟩ := realSize_le a.height.toNat ha.2
  unfold BlitArgs.hReal at hi
  have hrow : a.wReal s.surface * s.surface.bytespp ≤ a.width.toNat * s.surface.bytespp :=
    Nat.mul_le_mul_right _ hw
  have hend : i * (a.width.toNat * s.surface.bytespp) + a.width.toNat * s.surface.bytespp
      ≤ a.height.toNat * (a.width.toNat * s.surface.bytespp) := by
    rw [← Nat.succ_mul]
    exact Nat.mul_le_mul_right _ (by omega)
  unfold imageRow at hlt
  rw [Nat.mul_assoc] at hlt
  rw [Nat.mul_comm a.width.toNat, Nat.mul_assoc]
  omega

/-- A call that is refused keeps everything. -/
theorem BlitInv.noTear_invalid (hs : BlitInv s)
    (h : c.image = none ∨ ¬ c.args.OnScreen s.surface) : NoTear s c ∧ BlitInv (c.run s).state := by
  have hrun : c.run s = ⟨s, .einval, []⟩ := blitImage_invalid h
  refine ⟨⟨hs.displayed, ?_, ?_, fun _ => hs.otherSurface_ne, ?_, ?_, ?_, ?_⟩, ?_⟩
  · rw [hrun]
    exact hs.displayed
  · rintro off ⟨start, len, hmem, -⟩
    rw [hrun] at hmem
    exact absurd hmem List.not_mem_nil
  · intro off _
    rw [hrun]
  · rintro off ⟨start, len, hmem, -⟩
    rw [hrun] at hmem
    exact absurd hmem List.not_mem_nil
  · rintro off ⟨start, len, hmem, -⟩
    rw [hrun] at hmem
    exact absurd hmem List.not_mem_nil
  · intro hret
    rw [hrun] at hret
    exact absurd hret (by simp)
  · rw [hrun]
    exact hs

/-- The rows of the rectangle, in the other surface. -/
def otherRow (s : FbState) (a : BlitArgs) : Nat → Nat :=
  rectRow s.surface a (otherSurface s * s.surface.size)

theorem BlitInv.accesses_eq (hs : BlitInv s) (image : Image) (a : BlitArgs) :
    (plainBlit s image a).accesses
      = rowAccesses (otherRow s a) (imageRow s.surface a)
          (a.wReal s.surface * s.surface.bytespp) (a.hReal s.surface) := by
  rw [plainBlit_rows, hs.chooseTarget_eq]
  rfl

theorem BlitInv.mem_eq (hs : BlitInv s) (image : Image) (a : BlitArgs) :
    (plainBlit s image a).state.mem
      = copyRows s.mem (otherRow s a) (fun i k => image (imageRow s.surface a i + k))
          (a.wReal s.surface * s.surface.bytespp) (a.hReal s.surface) := by
  rw [plainBlit_mem, hs.chooseTarget_eq]
  rfl

/-- Panning does not change what the offsets depend on. -/
theorem Unwrapped.withPan {surface : HwalFBSurface} (hs : Unwrapped surface) (yoffset cur : Nat) :
    Unwrapped { surface with
      mVarInfo := { surface.mVarInfo with yoffset := yoffset }, mCurSurface := cur } :=
  ⟨⟨hs.sized.bits, hs.sized.bitspp, hs.sized.xres, hs.sized.yres, hs.sized.bytepl⟩, hs.pitch,
    hs.offsets⟩

/-- Whether the pan succeeds or not. -/
theorem BlitInv.kept (hs : BlitInv s) (image : Image) {a : BlitArgs}
    (ha : a.OnScreen s.surface) : BlitInv (plainBlit s image a).state := by
  have hyres : 0 < s.surface.mVarInfo.yres := Nat.lt_of_le_of_lt (Nat.zero_le _) ha.2
  have hother : otherSurface s = 0 ∨ otherSurface s = 1 := by
    unfold otherSurface
    split_ifs <;> omega
  unfold plainBlit
  rw [hs.chooseTarget_eq]
  by_cases hpan : a.panOk = true
  · rw [if_pos hpan]
    refine ⟨hs.unwrapped.withPan _ _, hs.tight, hs.surfaces, .inr hother, ?_⟩
    intro yoffset hpanned
    obtain rfl := Option.some.inj hpanned
    refine ⟨(Nat.mul_div_cancel _ hyres).symm, Nat.dvd_mul_left _ _, ?_⟩
    show otherSurface s < 2
    omega
  · rw [if_neg hpan]
    exact ⟨hs.unwrapped.withPan _ _, hs.tight, hs.surfaces, hs.cur, hs.displayed⟩

theorem BlitInv.panned_eq (hs : BlitInv s) {image : Image} {a : BlitArgs}
    (hret : (plainBlit s image a).ret = .success) :
    (plainBlit s image a).state.panned
      = some (otherSurface s * s.surface.mVarInfo.yres) := by
  unfold plainBlit at hret ⊢
  rw [hs.chooseTarget_eq] at hret ⊢
  by_cases hpan : a.panOk = true
  · rw [if_pos hpan]
  · rw [if_neg hpan] at hret
    exact absurd hret (by simp)

/-- The row of the display is the row of the surface. -/
theorem BlitInv.displayRow_eq (hs : BlitInv s) (a : BlitArgs) (i k : Nat) :
    (otherSurface s * s.surface.mVarInfo.yres + (a.y.toNat + i)) * s.surface.mBytepl
        + (a.x.toNat * s.surface.bytespp + k)
      = otherRow s a i + k := by
  unfold otherRow rectRow
  rw [hs.size_eq, Nat.add_mul, Nat.mul_assoc]
  omega

/-- A blit on the screen: what is written and read, and the state after it. -/
theorem BlitInv.noTear_valid (hs : BlitInv s) {image : Image} (himage : c.image = some image)
    (ha : c.args.OnScreen s.surface) : NoTear s c ∧ BlitInv (c.run s).state := by
  have hrun : c.run s = plainBlit s image c.args := by
    unfold Blit.run
    rw [himage]
    exact blitImage_valid hs.unwrapped image ha
  have haccesses := hs.accesses_eq image c.args
  have hmem := hs.mem_eq image c.args
  have hinv := hs.kept image ha
  rw [← hrun] at haccesses hmem hinv
  refine ⟨⟨hs.displayed, hinv.displayed, ?_, fun _ => hs.otherSurface_ne, ?_, ?_, ?_, ?_⟩, hinv⟩
  · intro off hoff
    rw [haccesses, writes_rowAccesses] at hoff
    exact ⟨hs.inSurface_of_inRect ha hoff, hoff⟩
  · intro off hoff
    rw [haccesses, writes_rowAccesses] at hoff
    rw [hmem]
    exact copyRows_outside hoff
  · intro off
    rw [haccesses]
    exact not_reads_rowAccesses off
  · intro off hoff
    rw [haccesses, readsImage_rowAccesses] at hoff
    exact inRows_imageRow ha hoff
  · intro hret
    have hpanned : (c.run s).state.panned = some (otherSurface s * s.surface.mVarInfo.yres) := by
      rw [hrun] at hret ⊢
      exact hs.panned_eq hret
    refine ⟨image, _, himage, hpanned, ?_⟩
    intro i k hi hk
    rw [hs.displayRow_eq, hmem]
    exact copyRows_inside (fun i j hij _ => hs.rows_apart ha _ hij) hi hk

theorem BlitInv.step (hs : BlitInv s) : NoTear s c ∧ BlitInv (c.run s).state := by
  cases himage : c.image with
  | none => exact hs.noTear_invalid (.inl himage)
  | some image =>
      by_cases ha : c.args.OnScreen s.surface
      · exact hs.noTear_valid himage ha
      · exact hs.noTear_invalid (.inr ha)

/-- Every blit of a run, whatever the pans do. -/
theorem BlitInv.meets (hs : BlitInv s) (calls : List Blit) : Meets blitStep NoTear s calls := by
  refine meets_of_invariant (I := BlitInv) (fun s c hs => hs.step.1) ?_ calls hs
  intro s c s' hs hstep
  obtain rfl := Option.some.inj hstep
  exact hs.step.2

end Inv

/-- A driver that takes every mode, with lines of less than 2 ^ 16 bytes and no
padding. -/
def tightDevice : FbDevice where
  fd := 3
  varInfo := some ⟨0, 0, 0, 0, 0, 0, 0, ⟨0, 0, 0⟩, ⟨0, 0, 0⟩, ⟨0, 0, 0⟩, ⟨0, 0, 0⟩⟩
  putVarInfo := some
  lineLength := fun v =>
    if v.xres * v.bitsPerPixel / 8 < 2 ^ 16 then some (v.xres * v.bitsPerPixel / 8) else none
  mmapOk := fun _ => true

theorem tightDevice_keeps : tightDevice.KeepsPicture := by
  intro v v' h
  obtain rfl := Option.some.inj h
  exact ⟨rfl, rfl, rfl⟩

theorem tightDevice_pitch : tightDevice.ReportsPitch := by
  intro v n h
  change (if v.xres * v.bitsPerPixel / 8 < 2 ^ 16 then some (v.xres * v.bitsPerPixel / 8)
    else none) = some n at h
  split_ifs at h with hlt
  obtain rfl := Option.some.inj h
  exact ⟨Nat.le_refl _, hlt⟩

end MesonDisplay.Surface
