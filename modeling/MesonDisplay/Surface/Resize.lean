/-
  MesonDisplay.Surface.Resize — a surface that gets another size.

  `setDimensions` overwrites the mode of the surface before the system calls
  that may fail, and maps the framebuffer again.  The size is not limited as in
  the constructor, but the length of a line is still kept in 16 bits: the mapping
  and the rows are computed with these, the length of a row and the second
  surface with the width.

  Main results:
    * `failed_resize_iff` — what a resize that fails leaves.
    * `resized_inside_iff` — the sizes behind which every blit stays inside of the
      mapping.
    * `resizeFits_one_iff`, `resizeFits_of_small` — when a size is one of these.
-/
import MesonDisplay.Surface.Pitch

namespace MesonDisplay.Surface

open MesonDisplay.Blit
open MesonDisplay.Runs

/-! ## §1. setDimensions. -/

/-- A surface with its `mptr`, which is `none` for MAP_FAILED. -/
structure MappedSurface where
  surface : HwalFBSurface
  mptr : Option Nat
  deriving DecidableEq, Repr

/-- The mode that is asked for. -/
def askedMode (s : HwalFBSurface) (width height : UInt16) : FbVarScreeninfo :=
  { s.mVarInfo with
    xres := width.toNat
    yres := height.toNat
    xresVirtual := width.toNat
    yresVirtual := u32 (height.toNat * s.mNumSurfaces) }

/-- What `setDimensions` hands to `mmap`. -/
def mappingLength (v : FbVarScreeninfo) (lineLength : Nat) : Nat :=
  u32 (v.yresVirtual * (lineLength % 2 ^ 16))

/-- `mmap` succeeds, and maps at this address. -/
def FbDevice.Maps (dev : FbDevice) (length : Nat) : Prop := length ≠ 0 ∧ dev.mmapOk length = true

instance (dev : FbDevice) (length : Nat) : Decidable (dev.Maps length) :=
  inferInstanceAs (Decidable (_ ∧ _))

/-- `setDimensions`; a mapping that succeeds is at `address`.  The old one is
not unmapped. -/
def setDimensions (dev : FbDevice) (address : Nat) (s : MappedSurface) (width height : UInt16) :
    MappedSurface × HwalError :=
  let varInfo := askedMode s.surface width height
  match dev.putVarInfo varInfo with
  | none => ({ s with surface := { s.surface with mVarInfo := varInfo } }, .eio)
  | some varInfo =>
      match dev.lineLength varInfo with
      | none => ({ s with surface := { s.surface with mVarInfo := varInfo } }, .eio)
      | some lineLength =>
          let surface :=
            { s.surface with mVarInfo := varInfo, mBytepl := lineLength % 2 ^ 16 }
          let length := mappingLength varInfo lineLength
          if dev.Maps length then (⟨{ surface with mapped := length }, some address⟩, .success)
          else (⟨{ surface with mapped := 0 }, none⟩, .efault)

/-- `getDimensions`. -/
def getDimensions (s : HwalFBSurface) : UInt16 × UInt16 :=
  (UInt16.ofNat s.mVarInfo.xres, UInt16.ofNat s.mVarInfo.yres)

section Outcomes

variable {dev : FbDevice} {s : MappedSurface} {width height : UInt16} {v : FbVarScreeninfo}
  {lineLength : Nat} (address : Nat)

/-- The surface with another mode. -/
def MappedSurface.withMode (s : MappedSurface) (v : FbVarScreeninfo) : MappedSurface :=
  { s with surface := { s.surface with mVarInfo := v } }

/-- And with lines of another length, and another mapping. -/
def MappedSurface.mappedAs (s : MappedSurface) (v : FbVarScreeninfo) (lineLength mapped : Nat)
    (mptr : Option Nat) : MappedSurface :=
  ⟨{ s.surface with mVarInfo := v, mBytepl := lineLength % 2 ^ 16, mapped := mapped }, mptr⟩

theorem setDimensions_put_failed (hput : dev.putVarInfo (askedMode s.surface width height) = none) :
    setDimensions dev address s width height
      = (s.withMode (askedMode s.surface width height), .eio) := by
  unfold setDimensions
  simp only [hput]
  rfl

theorem setDimensions_get_failed
    (hput : dev.putVarInfo (askedMode s.surface width height) = some v)
    (hline : dev.lineLength v = none) :
    setDimensions dev address s width height = (s.withMode v, .eio) := by
  unfold setDimensions
  simp only [hput, hline]
  rfl

theorem setDimensions_mapped
    (hput : dev.putVarInfo (askedMode s.surface width height) = some v)
    (hline : dev.lineLength v = some lineLength) (hmaps : dev.Maps (mappingLength v lineLength)) :
    setDimensions dev address s width height
      = (s.mappedAs v lineLength (mappingLength v lineLength) (some address), .success) := by
  unfold setDimensions
  simp only [hput, hline, if_pos hmaps]
  rfl

theorem setDimensions_map_failed
    (hput : dev.putVarInfo (askedMode s.surface width height) = some v)
    (hline : dev.lineLength v = some lineLength)
    (hmaps : ¬ dev.Maps (mappingLength v lineLength)) :
    setDimensions dev address s width height
      = (s.mappedAs v lineLength 0 none, .efault) := by
  unfold setDimensions
  simp only [hput, hline, if_neg hmaps]
  rfl

/-- Whatever `setDimensions` can do. -/
theorem setDimensions_cases (dev : FbDevice) (s : MappedSurface) (width height : UInt16) :
    (dev.putVarInfo (askedMode s.surface width height) = none ∧
        setDimensions dev address s width height
          = (s.withMode (askedMode s.surface width height), .eio)) ∨
      ∃ v, dev.putVarInfo (askedMode s.surface width height) = some v ∧
        ((dev.lineLength v = none ∧
            setDimensions dev address s width height = (s.withMode v, .eio)) ∨
          ∃ lineLength, dev.lineLength v = some lineLength ∧
            ((¬ dev.Maps (mappingLength v lineLength) ∧
                setDimensions dev address s width height
                  = (s.mappedAs v lineLength 0 none, .efault)) ∨
              (dev.Maps (mappingLength v lineLength) ∧
                setDimensions dev address s width height
                  = (s.mappedAs v lineLength (mappingLength v lineLength) (some address),
                      .success)))) := by
  cases hput : dev.putVarInfo (askedMode s.surface width height) with
  | none => exact .inl ⟨rfl, setDimensions_put_failed address hput⟩
  | some v =>
      refine .inr ⟨v, rfl, ?_⟩
      cases hline : dev.lineLength v with
      | none => exact .inl ⟨rfl, setDimensions_get_failed address hput hline⟩
      | some lineLength =>
          refine .inr ⟨lineLength, rfl, ?_⟩
          by_cases hmaps : dev.Maps (mappingLength v lineLength)
          · exact .inr ⟨hmaps, setDimensions_mapped address hput hline hmaps⟩
          · exact .inl ⟨hmaps, setDimensions_map_failed address hput hline hmaps⟩

end Outcomes

/-! ## §2. A resize that fails. -/

/-- The size, and the size of the memory behind it. -/
structure SameSize (v v' : FbVarScreeninfo) : Prop where
  xres : v'.xres = v.xres
  yres : v'.yres = v.yres
  xresVirtual : v'.xresVirtual = v.xresVirtual
  yresVirtual : v'.yresVirtual = v.yresVirtual

/-- What later calls rely on. -/
structure Unchanged (s s' : MappedSurface) : Prop where
  size : SameSize s.surface.mVarInfo s'.surface.mVarInfo
  bytepl : s'.surface.mBytepl = s.surface.mBytepl
  mptr : s'.mptr = s.mptr

/-- The mode in the surface is the one it had before; and `mmap` does not fail,
unless there was no mapping before, and the lines are as long as they were. -/
def ResizeHarmless (dev : FbDevice) (s : MappedSurface) (width height : UInt16) : Prop :=
  match dev.putVarInfo (askedMode s.surface width height) with
  | none => SameSize s.surface.mVarInfo (askedMode s.surface width height)
  | some varInfo =>
      match dev.lineLength varInfo with
      | none => SameSize s.surface.mVarInfo varInfo
      | some lineLength =>
          dev.Maps (mappingLength varInfo lineLength) ∨
            SameSize s.surface.mVarInfo varInfo ∧
              lineLength % 2 ^ 16 = s.surface.mBytepl ∧ s.mptr = none

/-- **A resize that fails changes nothing** exactly if nothing else was asked
for. -/
theorem failed_resize_iff (dev : FbDevice) (address : Nat) (s : MappedSurface)
    (width height : UInt16) :
    ((setDimensions dev address s width height).2 ≠ .success →
        Unchanged s (setDimensions dev address s width height).1) ↔
      ResizeHarmless dev s width height := by
  unfold ResizeHarmless
  cases hput : dev.putVarInfo (askedMode s.surface width height) with
  | none =>
      rw [setDimensions_put_failed address hput]
      constructor
      · exact fun h => (h (by simp)).size
      · exact fun hsize _ => ⟨hsize, rfl, rfl⟩
  | some varInfo =>
      cases hline : dev.lineLength varInfo with
      | none =>
          rw [setDimensions_get_failed address hput hline]
          simp only [hline]
          constructor
          · exact fun h => (h (by simp)).size
          · exact fun hsize _ => ⟨hsize, rfl, rfl⟩
      | some lineLength =>
          simp only [hline]
          by_cases hmaps : dev.Maps (mappingLength varInfo lineLength)
          · rw [setDimensions_mapped address hput hline hmaps]
            exact iff_of_true (fun h => absurd rfl h) (.inl hmaps)
          · rw [setDimensions_map_failed address hput hline hmaps]
            constructor
            · intro h
              have hsame := h (by simp)
              exact .inr ⟨hsame.size, hsame.bytepl, hsame.mptr.symm⟩
            · rintro (h | ⟨hsize, hbytepl, hmptr⟩)
              · exact absurd h hmaps
              · exact fun _ => ⟨hsize, hbytepl, hmptr.symm⟩

/-- What no outcome changes. -/
structure SameFormat (s s' : HwalFBSurface) : Prop where
  bits : s'.mVarInfo.bitsPerPixel = s.mVarInfo.bitsPerPixel
  bitspp : s'.mBitspp = s.mBitspp
  numSurfaces : s'.mNumSurfaces = s.mNumSurfaces
  curSurface : s'.mCurSurface = s.mCurSurface

theorem setDimensions_format {dev : FbDevice} (hkeeps : dev.KeepsPicture) (address : Nat)
    (s : MappedSurface) (width height : UInt16) :
    SameFormat s.surface (setDimensions dev address s width height).1.surface := by
  rcases setDimensions_cases address dev s width height with ⟨-, h⟩ | ⟨v, hput, hrest⟩
  · rw [h]
    exact ⟨rfl, rfl, rfl, rfl⟩
  · have hbits := (hkeeps _ _ hput).2.2
    rcases hrest with ⟨-, h⟩ | ⟨lineLength, -, ⟨-, h⟩ | ⟨-, h⟩⟩
    · rw [h]
      exact ⟨hbits, rfl, rfl, rfl⟩
    · rw [h]
      exact ⟨hbits, rfl, rfl, rfl⟩
    · rw [h]
      exact ⟨hbits, rfl, rfl, rfl⟩

section Unchanged

variable {s s' : MappedSurface}

theorem Unchanged.getDimensions_eq (h : Unchanged s s') :
    getDimensions s'.surface = getDimensions s.surface := by
  unfold getDimensions
  rw [h.size.xres, h.size.yres]

/-- A blit behind it accesses what it would have accessed before. -/
theorem Unchanged.blit_accesses (h : Unchanged s s') (hformat : SameFormat s.surface s'.surface)
    (mem : Nat → UInt8) (panned : Option Nat) (image : Option Image) (a : BlitArgs) :
    (blitImage ⟨s'.surface, mem, panned⟩ image a).accesses
      = (blitImage ⟨s.surface, mem, panned⟩ image a).accesses := by
  cases image with
  | none => rfl
  | some image =>
      have hon : a.OnScreen s'.surface ↔ a.OnScreen s.surface := by
        unfold BlitArgs.OnScreen
        rw [h.size.xres, h.size.yres]
      by_cases ha : a.OnScreen s.surface
      · have hbuffer : s'.surface.bufferLen = s.surface.bufferLen := by
          unfold HwalFBSurface.bufferLen
          rw [h.size.xres, h.size.yres, hformat.bitspp]
        have htarget : (a.target s'.surface).fbuffer = (a.target s.surface).fbuffer := by
          unfold BlitArgs.target chooseTarget
          rw [hbuffer, hformat.numSurfaces, hformat.curSurface]
          split_ifs <;> rfl
        rw [(blitImage_rows (s := ⟨s'.surface, mem, panned⟩) image (hon.mpr ha)).2,
          (blitImage_rows (s := ⟨s.surface, mem, panned⟩) image ha).2]
        dsimp only
        unfold BlitArgs.wReal BlitArgs.hReal rowLoc rowSrc rowLength
        rw [htarget, h.size.xres, h.size.yres, h.bytepl, hformat.bits]
      · rw [blitImage_invalid (s := ⟨s'.surface, mem, panned⟩) (.inr (mt hon.mp ha)),
          blitImage_invalid (s := ⟨s.surface, mem, panned⟩) (.inr ha)]

end Unchanged

/-- `FBIOPUT_VSCREENINFO` fails, and a surface of 2 by 2 pixels says that it has
4 by 4. -/
theorem failed_resize_reported :
    ∃ s, setDimensions { tightDevice with putVarInfo := fun _ => none } 0
          ⟨smallSurface 8 0, some 4096⟩ 4 4 = (s, .eio) ∧
      getDimensions (smallSurface 8 0) = (2, 2) ∧ getDimensions s.surface = (4, 4) ∧
      ¬ Unchanged ⟨smallSurface 8 0, some 4096⟩ s := by
  refine ⟨_, rfl, rfl, rfl, fun hsame => ?_⟩
  exact absurd hsame.size.xres (by decide)

/-! ## §3. A resize that succeeds. -/

/-- The surfaces that constructor, blits, cleans and resizes lead to. -/
inductive Reached : MappedSurface → Prop
  | made {dev : FbDevice} {type : HwalSurfaceType} {width height : UInt16} {numSurfaces : UInt32}
      {s : HwalFBSurface} (address : Nat) (hkeeps : dev.KeepsPicture)
      (hnew : newHwalFBSurface dev type width height numSurfaces = .ok s) :
      Reached ⟨s, some address⟩
  | called {s : MappedSurface} (c : FbCall) (mem : Nat → UInt8) (panned : Option Nat)
      (h : Reached s) :
      Reached { s with surface := (c.run ⟨s.surface, mem, panned⟩).state.surface }
  | resized {s : MappedSurface} {dev : FbDevice} (address : Nat) (width height : UInt16)
      (hkeeps : dev.KeepsPicture) (h : Reached s) :
      Reached (setDimensions dev address s width height).1

/-- Whole bytes, and the same number of bits in both places. -/
structure Formatted (s : HwalFBSurface) : Prop where
  bits : s.mVarInfo.bitsPerPixel = 16 ∨ s.mVarInfo.bitsPerPixel = 32
  bitspp : s.mBitspp = s.mVarInfo.bitsPerPixel

theorem formatted_new {dev : FbDevice} {type : HwalSurfaceType} {width height : UInt16}
    {numSurfaces : UInt32} {s : HwalFBSurface} (hkeeps : dev.KeepsPicture)
    (hnew : newHwalFBSurface dev type width height numSurfaces = .ok s) : Formatted s := by
  obtain ⟨v, hs⟩ := constructed_new hnew
  obtain ⟨-, -, hbits⟩ := hkeeps _ _ hs.put
  refine ⟨?_, hbits.symm⟩
  rw [hbits]
  exact hs.format

theorem Reached.formatted {s : MappedSurface} (h : Reached s) : Formatted s.surface := by
  induction h with
  | made address hkeeps hnew => exact formatted_new hkeeps hnew
  | @called s c mem panned _ ih =>
      have hsame : SameMapping s.surface (c.run ⟨s.surface, mem, panned⟩).state.surface :=
        fbStep_same (s := ⟨s.surface, mem, panned⟩) (c := c) rfl
      refine ⟨?_, ?_⟩
      · rw [hsame.varInfo]
        exact ih.bits
      · rw [hsame.bitspp, hsame.varInfo]
        exact ih.bitspp
  | @resized s dev address width height hkeeps _ ih =>
      have hformat := setDimensions_format hkeeps address s width height
      refine ⟨?_, ?_⟩
      · rw [hformat.bits]
        exact ih.bits
      · rw [hformat.bitspp, hformat.bits]
        exact ih.bitspp

/-- The driver reports lines without padding, of any length. -/
def FbDevice.ReportsLine (dev : FbDevice) : Prop :=
  ∀ v n, dev.lineLength v = some n → n = v.xres * v.bitsPerPixel / 8

/-- A blit writes only to bytes that are mapped. -/
def WritesInside (s : FbState) : FbCall → Prop
  | .blitImage image a =>
      ∀ off, Writes (blitImage s image a).accesses off → off < s.surface.mapped
  | .clean _ _ => True

/-- The length of a line, as it is kept. -/
def keptPitch (bits : Nat) (width : UInt16) : Nat := width.toNat * (bits / 8) % 2 ^ 16

/-- The last row of the surface that ends last is one of these lines. -/
def ResizeFits (numSurfaces bits : Nat) (width height : UInt16) (lines : Nat) : Prop :=
  height.toNat = 0 ∨
    (if numSurfaces = 1 then 0 else u32 (width.toNat * height.toNat * bits) / 8)
        + (height.toNat - 1) * keptPitch bits width + width.toNat * (bits / 8)
      ≤ u32 (lines * keptPitch bits width)

section Blits

variable {s : FbState} {a : BlitArgs}

/-- What a blit writes to, on a surface of any size. -/
theorem writes_blitImage_iff (hs : Sized s.surface) (image : Image) (ha : a.OnScreen s.surface)
    (off : Nat) :
    Writes (blitImage s (some image) a).accesses off ↔
      InRows (fun i => (a.target s.surface).fbuffer + rowLoc s.surface a.x.toNat a.y.toNat i)
        (a.wReal s.surface * s.surface.bytespp) (a.hReal s.surface) off := by
  have hw : a.wReal s.surface < 2 ^ 16 :=
    Nat.lt_of_le_of_lt (Nat.le_trans (realSize_le a.width.toNat ha.1).1 (Nat.sub_le _ _)) hs.xres
  rw [(blitImage_rows image ha).2, writes_rowAccesses, rowLength_eq hs.bits hw]

/-- A blit ends no later than the last row of its surface. -/
theorem blitImage_inside_of (hs : Sized s.surface) (image : Image)
    (hend : (a.target s.surface).fbuffer
        + (s.surface.mVarInfo.yres - 1) * s.surface.mBytepl
        + s.surface.mVarInfo.xres * s.surface.bytespp ≤ s.surface.mapped)
    (hmapped : s.surface.mapped < 2 ^ 32) (off : Nat)
    (hoff : Writes (blitImage s (some image) a).accesses off) : off < s.surface.mapped := by
  by_cases ha : a.OnScreen s.surface
  · rw [writes_blitImage_iff hs image ha] at hoff
    obtain ⟨i, hi, -, hlt⟩ := hoff
    obtain ⟨hw, -⟩ := realSize_le a.width.toNat ha.1
    obtain ⟨hh, -⟩ := realSize_le a.height.toNat ha.2
    unfold BlitArgs.hReal at hi
    have hrow : (a.y.toNat + i) * s.surface.mBytepl
        ≤ (s.surface.mVarInfo.yres - 1) * s.surface.mBytepl :=
      Nat.mul_le_mul_right _ (by omega)
    have hcolumn : a.x.toNat * s.surface.bytespp + a.wReal s.surface * s.surface.bytespp
        ≤ s.surface.mVarInfo.xres * s.surface.bytespp := by
      rw [← Nat.add_mul]
      exact Nat.mul_le_mul_right _ (by have := ha.1; unfold BlitArgs.wReal; omega)
    dsimp only at hlt
    rw [rowLoc_of_lt (by omega)] at hlt
    omega
  · rw [blitImage_invalid (.inr ha)] at hoff
    obtain ⟨start, len, hmem, -⟩ := hoff
    exact absurd hmem List.not_mem_nil

variable {width height : UInt16}

/-- It reaches the last row. -/
theorem fullBlit_inside (hs : Sized s.surface) (image : Image)
    (hxres : s.surface.mVarInfo.xres = width.toNat) (hyres : s.surface.mVarInfo.yres = height.toNat)
    (hwidth : 0 < width.toNat) (hheight : 0 < height.toNat)
    (hinside : ∀ off, Writes (blitImage s (some image) (fullBlit width height)).accesses off →
      off < s.surface.mapped) :
    ((fullBlit width height).target s.surface).fbuffer
        + (s.surface.mVarInfo.yres - 1) * s.surface.mBytepl
        + s.surface.mVarInfo.xres * s.surface.bytespp ≤ s.surface.mapped := by
  have ha := fullBlit_onScreen hxres hyres hwidth hheight
  obtain ⟨hw, hh⟩ := fullBlit_real hxres hyres
  have hloc : rowLoc s.surface (fullBlit width height).x.toNat (fullBlit width height).y.toNat
      (s.surface.mVarInfo.yres - 1) = (s.surface.mVarInfo.yres - 1) * s.surface.mBytepl := by
    have hyres' := hs.yres
    have hbytepl := hs.bytepl
    have hrow : (s.surface.mVarInfo.yres - 1) * s.surface.mBytepl ≤ 65534 * 65535 :=
      Nat.mul_le_mul (by omega) (by omega)
    have hfirst := rowLoc_of_lt (s := s.surface) (x := 0) (y := 0)
      (i := s.surface.mVarInfo.yres - 1) (by rw [Nat.zero_mul, Nat.zero_add, Nat.zero_add]; omega)
    rwa [Nat.zero_mul, Nat.zero_add, Nat.zero_add] at hfirst
  have hbytes : 0 < s.surface.mVarInfo.xres * s.surface.bytespp :=
    Nat.mul_pos (by omega) hs.bytespp_pos
  -- the last byte of the last row
  have hlast := hinside (((fullBlit width height).target s.surface).fbuffer
    + (s.surface.mVarInfo.yres - 1) * s.surface.mBytepl
    + (s.surface.mVarInfo.xres * s.surface.bytespp - 1)) (by
      rw [writes_blitImage_iff hs image ha, hw, hh]
      refine ⟨s.surface.mVarInfo.yres - 1, by omega, ?_, ?_⟩
      · dsimp only
        rw [hloc]
        omega
      · dsimp only
        rw [hloc]
        omega)
  omega

end Blits

/-! ## §4. The mapping behind a resize. -/

/-- What a surface is that was resized, with so many lines. -/
structure Resized (s t : HwalFBSurface) (width height : UInt16) (lines : Nat) : Prop where
  formatted : Formatted t
  xres : t.mVarInfo.xres = width.toNat
  yres : t.mVarInfo.yres = height.toNat
  bits : t.mVarInfo.bitsPerPixel = s.mVarInfo.bitsPerPixel
  bytepl : t.mBytepl = keptPitch s.mVarInfo.bitsPerPixel width
  mapped : t.mapped = u32 (lines * t.mBytepl)
  mapped_pos : 0 < t.mapped
  numSurfaces : t.mNumSurfaces = s.mNumSurfaces

theorem resized_setDimensions {s : MappedSurface} (hs : Formatted s.surface) {dev : FbDevice}
    (hkeeps : dev.KeepsPicture) (hline : dev.ReportsLine) {address : Nat} {width height : UInt16}
    (hsuccess : (setDimensions dev address s width height).2 = .success) :
    ∃ v, dev.putVarInfo (askedMode s.surface width height) = some v ∧
      Resized s.surface (setDimensions dev address s width height).1.surface width height
        v.yresVirtual := by
  rcases setDimensions_cases address dev s width height with ⟨-, h⟩ | ⟨v, hput, hrest⟩
  · rw [h] at hsuccess
    exact absurd hsuccess (by simp)
  · obtain ⟨hxres, hyres, hbits⟩ := hkeeps _ _ hput
    rcases hrest with ⟨-, h⟩ | ⟨lineLength, hget, ⟨-, h⟩ | ⟨hmaps, h⟩⟩
    · rw [h] at hsuccess
      exact absurd hsuccess (by simp)
    · rw [h] at hsuccess
      exact absurd hsuccess (by simp)
    · rw [h]
      have hbits' : v.bitsPerPixel = 16 ∨ v.bitsPerPixel = 32 := by
        rw [hbits]
        exact hs.bits
      have hlength : lineLength = width.toNat * (s.surface.mVarInfo.bitsPerPixel / 8) := by
        rw [hline v lineLength hget, mul_bits_div hbits', hxres, hbits]
        rfl
      refine ⟨v, hput, ⟨hbits', ?_⟩, hxres, hyres, hbits, ?_, rfl,
        Nat.pos_of_ne_zero hmaps.1, rfl⟩
      · show s.surface.mBitspp = v.bitsPerPixel
        rw [hbits]
        exact hs.bitspp
      · show lineLength % 2 ^ 16 = _
        rw [hlength]
        rfl

section Runs

variable {s t : HwalFBSurface} {width height : UInt16} {lines : Nat}

theorem Resized.width_pos (h : Resized s t width height lines) : 0 < width.toNat := by
  refine Nat.pos_of_ne_zero fun h0 => ?_
  have hpos := h.mapped_pos
  rw [h.mapped, h.bytepl] at hpos
  unfold keptPitch at hpos
  rw [h0, Nat.zero_mul, Nat.zero_mod, Nat.mul_zero] at hpos
  exact absurd hpos (Nat.lt_irrefl 0)

theorem Resized.sized (h : Resized s t width height lines) : Sized t where
  bits := h.formatted.bits
  bitspp := h.formatted.bitspp
  xres := by
    rw [h.xres]
    exact width.toNat_lt
  yres := by
    rw [h.yres]
    exact height.toNat_lt
  bytepl := by
    rw [h.bytepl]
    exact Nat.mod_lt _ (by decide)

/-- Later calls leave it what it is. -/
theorem Resized.of_same (h : Resized s t width height lines) {t' : HwalFBSurface}
    (hsame : SameMapping t t') : Resized s t' width height lines := by
  have hvar := hsame.varInfo
  exact
    { formatted := ⟨by rw [hvar]; exact h.formatted.bits,
        by rw [hsame.bitspp, hvar]; exact h.formatted.bitspp⟩
      xres := by rw [hvar]; exact h.xres
      yres := by rw [hvar]; exact h.yres
      bits := by rw [hvar]; exact h.bits
      bytepl := by rw [hsame.bytepl]; exact h.bytepl
      mapped := by rw [hsame.mapped, hsame.bytepl]; exact h.mapped
      mapped_pos := by rw [hsame.mapped]; exact h.mapped_pos
      numSurfaces := by rw [hsame.numSurfaces]; exact h.numSurfaces }

/-- Where the surface begins that ends last. -/
def lastBase (s : HwalFBSurface) : Nat := if s.mNumSurfaces = 1 then 0 else s.bufferLen

/-- The condition, by the surface that was resized. -/
theorem Resized.fits_iff (h : Resized s t width height lines) :
    ResizeFits s.mNumSurfaces s.mVarInfo.bitsPerPixel width height lines ↔
      height.toNat = 0 ∨
        lastBase t + (t.mVarInfo.yres - 1) * t.mBytepl + t.mVarInfo.xres * t.bytespp
          ≤ t.mapped := by
  unfold ResizeFits lastBase HwalFBSurface.bufferLen HwalFBSurface.bytespp
  rw [h.formatted.bitspp, h.numSurfaces, h.xres, h.yres, h.mapped, h.bytepl, h.bits]

theorem target_le_lastBase (s : HwalFBSurface) (a : BlitArgs) :
    (a.target s).fbuffer ≤ lastBase s := by
  unfold BlitArgs.target lastBase
  rw [chooseTarget_fbuffer]
  split_ifs <;> omega

theorem target_eq_lastBase {s : HwalFBSurface} (a : BlitArgs)
    (h : s.mNumSurfaces = 1 ∨ s.mCurSurface = 0) : (a.target s).fbuffer = lastBase s := by
  unfold BlitArgs.target lastBase
  rw [chooseTarget_fbuffer]
  by_cases hnum : s.mNumSurfaces = 1
  · simp [hnum]
  · simp [hnum, h.resolve_left hnum]

/-- A surface that fits: every later blit stays inside. -/
theorem Resized.meets (h : Resized s t width height lines)
    (hfits : ResizeFits s.mNumSurfaces s.mVarInfo.bitsPerPixel width height lines)
    (mem : Nat → UInt8) (panned : Option Nat) (calls : List FbCall) :
    Meets fbStep WritesInside ⟨t, mem, panned⟩ calls := by
  refine meets_of_invariant (I := fun u => SameMapping t u.surface) ?_ ?_ calls (.refl t)
  · intro u c hsame
    have hu : Resized s u.surface width height lines := h.of_same hsame
    cases c with
    | clean callocOk a => trivial
    | blitImage image a =>
        cases image with
        | none => exact fun off hoff => absurd (.inr hoff) (blitImage_null_inside u a off)
        | some image =>
            intro off hoff
            by_cases ha : a.OnScreen u.surface
            · refine blitImage_inside_of hu.sized image ?_ ?_ off hoff
              · have hle := target_le_lastBase u.surface a
                have hyres := hu.yres
                have hrow := ha.2
                rcases hu.fits_iff.mp hfits with h0 | hend
                · omega
                · omega
              · rw [hu.mapped]
                exact Nat.mod_lt _ (by decide)
            · rw [blitImage_invalid (.inr ha)] at hoff
              exact absurd hoff (by simp [Writes])
  · exact fun u c u' hsame hstep => hsame.trans (fbStep_same hstep)

/-- Blits of the whole screen find out a surface that does not fit. -/
theorem Resized.fits_of_meets (h : Resized s t width height lines)
    (hall : ∀ mem panned calls, Meets fbStep WritesInside ⟨t, mem, panned⟩ calls) :
    ResizeFits s.mNumSurfaces s.mVarInfo.bitsPerPixel width height lines := by
  have hwidth := h.width_pos
  rcases Nat.eq_zero_or_pos height.toNat with h0 | hheight
  · exact .inl h0
  let c : FbCall := .blitImage (some fun _ => 0) (fullBlit width height)
  -- a state in which the surface that ends last is the next one
  have hlast : ∀ u : FbState, SameMapping t u.surface →
      (u.surface.mNumSurfaces = 1 ∨ u.surface.mCurSurface = 0) → WritesInside u c →
      ResizeFits s.mNumSurfaces s.mVarInfo.bitsPerPixel width height lines := by
    intro u hsame hnext hinside
    have hu : Resized s u.surface width height lines := h.of_same hsame
    rw [hu.fits_iff, ← target_eq_lastBase (fullBlit width height) hnext]
    right
    exact fullBlit_inside hu.sized (fun _ => 0) hu.xres hu.yres hwidth hheight hinside
  obtain ⟨hfirst, hsecond, -⟩ := hall (fun _ => 0) none [c, c]
  by_cases hnext : t.mNumSurfaces = 1 ∨ t.mCurSurface = 0
  · exact hlast _ (.refl t) hnext hfirst
  · have hcur := (not_or.mp hnext).2
    have ha := fullBlit_onScreen h.xres h.yres hwidth hheight
    refine hlast _ (fbStep_same (s := ⟨t, fun _ => 0, none⟩) (c := c) rfl) (.inr ?_) hsecond
    exact fullBlit_cur (u := ⟨t, fun _ => 0, none⟩) (fun _ => 0) ha (.inr hcur)

end Runs

/-- **A resized surface stays within its mapping** exactly if the last row of its
last surface is one of the lines that the driver left. -/
theorem resized_inside_iff {s : MappedSurface} (hs : Reached s) {dev : FbDevice}
    (hkeeps : dev.KeepsPicture) (hline : dev.ReportsLine) {address : Nat} {width height : UInt16}
    (hsuccess : (setDimensions dev address s width height).2 = .success) :
    (∀ mem panned calls, Meets fbStep WritesInside
        ⟨(setDimensions dev address s width height).1.surface, mem, panned⟩ calls) ↔
      ∀ v, dev.putVarInfo (askedMode s.surface width height) = some v →
        ResizeFits s.surface.mNumSurfaces s.surface.mVarInfo.bitsPerPixel width height
          v.yresVirtual := by
  obtain ⟨v, hput, hresized⟩ := resized_setDimensions hs.formatted hkeeps hline hsuccess
  constructor
  · intro hall v' hput'
    rw [hput] at hput'
    obtain rfl := Option.some.inj hput'
    exact hresized.fits_of_meets hall
  · exact fun hfits => hresized.meets (hfits v hput)

/-- With one surface, and the lines that are asked for, a line has to fit into
16 bits. -/
theorem resizeFits_one_iff {bits : Nat} {width height : UInt16} (hheight : 0 < height.toNat) :
    ResizeFits 1 bits width height (u32 (height.toNat * 1)) ↔
      width.toNat * (bits / 8) < 2 ^ 16 := by
  have hlines : height.toNat * keptPitch bits width
      = (height.toNat - 1) * keptPitch bits width + keptPitch bits width := by
    rw [← Nat.succ_mul, Nat.succ_eq_add_one, Nat.sub_add_cancel hheight]
  have hpitch : keptPitch bits width < 2 ^ 16 := Nat.mod_lt _ (by decide)
  have hlt : height.toNat * keptPitch bits width ≤ 65535 * 65535 :=
    Nat.mul_le_mul (Nat.le_of_lt_succ height.toNat_lt) (by omega)
  have hheight' := height.toNat_lt
  unfold ResizeFits
  rw [if_pos rfl, Nat.mul_one, u32_of_lt (n := height.toNat) (by omega), u32_of_lt (by omega), hlines]
  constructor
  · intro h
    omega
  · intro h
    have hkept : keptPitch bits width = width.toNat * (bits / 8) := Nat.mod_eq_of_lt h
    omega

/-- Lines that fit into 16 bits, and a mapping that is not wrapped. -/
theorem resizeFits_of_small {numSurfaces bits : Nat} (hbits : bits = 16 ∨ bits = 32)
    {width height : UInt16} (hwidth : 0 < width.toNat) (hheight : 0 < height.toNat)
    (hnum : 1 ≤ numSurfaces) (hpitch : width.toNat * (bits / 8) < 2 ^ 16)
    (hwrap : height.toNat * numSurfaces * (width.toNat * (bits / 8)) < 2 ^ 32) :
    ResizeFits numSurfaces bits width height (u32 (height.toNat * numSurfaces)) := by
  have hkept : keptPitch bits width = width.toNat * (bits / 8) := Nat.mod_eq_of_lt hpitch
  have hbytes : 0 < width.toNat * (bits / 8) :=
    Nat.mul_pos hwidth (by rcases hbits with rfl | rfl <;> decide)
  have hrows : height.toNat * numSurfaces < 2 ^ 32 :=
    Nat.lt_of_le_of_lt (Nat.le_mul_of_pos_right _ hbytes) hwrap
  have hlines : height.toNat * (width.toNat * (bits / 8))
      = (height.toNat - 1) * (width.toNat * (bits / 8)) + width.toNat * (bits / 8) := by
    rw [← Nat.succ_mul, Nat.succ_eq_add_one, Nat.sub_add_cancel hheight]
  -- all surfaces, of which there are as many as lines are mapped for
  have hall : height.toNat * numSurfaces * (width.toNat * (bits / 8))
      = numSurfaces * (height.toNat * (width.toNat * (bits / 8))) := by
    rw [Nat.mul_comm height.toNat, Nat.mul_assoc]
  refine .inr ?_
  rw [hkept, u32_of_lt hrows, u32_of_lt hwrap, hall]
  by_cases hone : numSurfaces = 1
  · rw [if_pos hone, hone, Nat.one_mul]
    omega
  · rw [if_neg hone]
    have hbase : u32 (width.toNat * height.toNat * bits) / 8
        ≤ height.toNat * (width.toNat * (bits / 8)) := by
      have harea : width.toNat * height.toNat * bits / 8
          = height.toNat * (width.toNat * (bits / 8)) := by
        rw [mul_bits_div hbits, Nat.mul_comm width.toNat, Nat.mul_assoc]
      exact Nat.le_trans (Nat.div_le_div_right (Nat.mod_le _ _)) (Nat.le_of_eq harea)
    have htwo : 2 * (height.toNat * (width.toNat * (bits / 8)))
        ≤ numSurfaces * (height.toNat * (width.toNat * (bits / 8))) :=
      Nat.mul_le_mul_right _ (by omega)
    omega

/-- A driver that takes every mode, and reports lines of any length. -/
def wideDevice : FbDevice :=
  { tightDevice with lineLength := fun v => some (v.xres * v.bitsPerPixel / 8) }

theorem wideDevice_keeps : wideDevice.KeepsPicture := by
  intro v v' hput
  exact tightDevice_keeps v v' hput

theorem wideDevice_line : wideDevice.ReportsLine :=
  fun _ _ h => (Option.some.inj h).symm

/-- A surface that the constructor makes on it. -/
def wideSurface (numSurfaces : Nat) : HwalFBSurface := smallMode numSurfaces (2 * numSurfaces)

/-- Two surfaces, and a size that fits. -/
theorem resized_inside_four :
    (∀ mem panned calls, Meets fbStep WritesInside
        ⟨(setDimensions wideDevice 0 ⟨wideSurface 2, some 0⟩ 4 4).1.surface, mem, panned⟩ calls) ↔
      ∀ v, wideDevice.putVarInfo (askedMode (wideSurface 2) 4 4) = some v →
        ResizeFits 2 32 4 4 v.yresVirtual :=
  resized_inside_iff (.made 0 wideDevice_keeps
    (show newHwalFBSurface wideDevice .aRgb32 2 2 2 = .ok (wideSurface 2) from rfl))
    wideDevice_keeps wideDevice_line rfl

/-- A line of 65540 bytes is kept as 4, and so much is mapped for one line, also
by a driver that leaves every mode as it is.  The first blit writes the whole
line. -/
theorem resized_outside :
    Reached ⟨wideSurface 1, some 0⟩ ∧ wideDevice.ReportsLine ∧
      ∃ s, setDimensions wideDevice 0 ⟨wideSurface 1, some 0⟩ 16385 1 = (s, .success) ∧
        s.surface.mapped = 4 ∧
        (blitImage ⟨s.surface, fun _ => 0, none⟩ (some fun _ => 0) (fullBlit 16385 1)).accesses
          = [.readImage 0 65540, .write 0 65540] ∧
        ¬ ∀ mem panned calls, Meets fbStep WritesInside ⟨s.surface, mem, panned⟩ calls := by
  refine ⟨.made 0 wideDevice_keeps
    (show newHwalFBSurface wideDevice .aRgb32 2 2 1 = .ok (wideSurface 1) from rfl),
    wideDevice_line, _, rfl, rfl, rfl, fun hall => ?_⟩
  obtain ⟨hinside, -⟩ := hall (fun _ => 0) none
    [.blitImage (some fun _ => 0) (fullBlit 16385 1)]
  have hlt := hinside 4 ⟨0, 65540, by decide, by decide, by decide⟩
  exact absurd hlt (by decide)

end MesonDisplay.Surface
