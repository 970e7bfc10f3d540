/-
  MesonDisplay.Surface.FbSurface — a surface on the framebuffer device.

  `HwalFBSurface` maps the framebuffer and blits images into it.  With two
  surfaces or more, an image goes into the one that is not displayed, and the
  display is panned to it.

  The mapped memory is a function from offsets behind `mptr`, an image one from
  offsets behind its first byte.  A call gives back, besides its result, the
  ranges that it accesses; whether they are inside of the mapping is not asked
  here.  An unsigned int is a number below 2 ^ 32, with the wrapping written
  out.  The driver, the success of `calloc` and what is in a local variable that
  is not assigned are parameters.
-/
import Mathlib.Algebra.Group.Nat.Defs
import MesonDisplay.Lib.Blit

namespace MesonDisplay.Surface

open MesonDisplay.Blit

/-! ## §1. The surface. -/

/-- `eHwalSurfaceType`. -/
inductive HwalSurfaceType where
  | clut8
  | xRgb16
  | aRgb16
  | xRgb32
  | aRgb32
  deriving DecidableEq, Repr

/-- `HwalError`. -/
inductive HwalError where
  | eopnotsupp
  | einval
  | enodev
  | eio
  | efault
  | eperm
  | success
  deriving DecidableEq, Repr

/-- `struct fb_bitfield`. -/
structure FbBitfield where
  offset : Nat
  length : Nat
  msbRight : Nat
  deriving DecidableEq, Repr

/-- `struct fb_var_screeninfo`, as far as it is used. -/
structure FbVarScreeninfo where
  xres : Nat
  yres : Nat
  xresVirtual : Nat
  yresVirtual : Nat
  yoffset : Nat
  bitsPerPixel : Nat
  grayscale : Nat
  red : FbBitfield
  green : FbBitfield
  blue : FbBitfield
  transp : FbBitfield
  deriving DecidableEq, Repr

structure HwalFBSurface where
  /-- How many bytes are mapped at `mptr`. -/
  mapped : Nat
  mVarInfo : FbVarScreeninfo
  mBitspp : Nat
  mBytepl : Nat
  mNumSurfaces : Nat
  mCurSurface : Nat
  deriving DecidableEq, Repr

/-- The low 32 bits. -/
def u32 (n : Nat) : Nat := n % 2 ^ 32

theorem u32_of_lt {n : Nat} (hn : n < 2 ^ 32) : u32 n = n := Nat.mod_eq_of_lt hn

/-! ## §2. The constructor. -/

/-- What the system calls on the framebuffer give. -/
structure FbDevice where
  /-- `open`. -/
  fd : Int
  /-- `FBIOGET_VSCREENINFO`; `none` if it fails. -/
  varInfo : Option FbVarScreeninfo
  /-- `FBIOPUT_VSCREENINFO`: what it leaves in the structure it is given. -/
  putVarInfo : FbVarScreeninfo → Option FbVarScreeninfo
  /-- `FBIOGET_FSCREENINFO`: the `line_length`. -/
  lineLength : FbVarScreeninfo → Option Nat
  /-- `mmap` of this many bytes succeeds; of none, it never does. -/
  mmapOk : Nat → Bool

/-- `set_pixel_format`: the format, and the bits of a pixel. -/
def setPixelFormat (type : HwalSurfaceType) (v : FbVarScreeninfo) :
    Option (FbVarScreeninfo × Nat) :=
  match type with
  | .clut8 => none
  | .xRgb16 =>
      some ({ v with
        grayscale := 0, transp := ⟨0, 0, 0⟩
        red := ⟨11, 5, 0⟩, green := ⟨5, 6, 0⟩, blue := ⟨0, 5, 0⟩ }, 16)
  | .aRgb16 =>
      some ({ v with
        grayscale := 0, transp := ⟨15, 1, 0⟩
        red := ⟨10, 5, 0⟩, green := ⟨5, 5, 0⟩, blue := ⟨0, 5, 0⟩ }, 16)
  | .aRgb32 =>
      some ({ v with
        grayscale := 0, transp := ⟨24, 8, 0⟩
        red := ⟨16, 8, 0⟩, green := ⟨8, 8, 0⟩, blue := ⟨0, 8, 0⟩ }, 32)
  | .xRgb32 =>
      some ({ v with
        grayscale := 0, transp := ⟨0, 0, 0⟩
        red := ⟨16, 8, 0⟩, green := ⟨8, 8, 0⟩, blue := ⟨0, 8, 0⟩ }, 32)

/-- The constructor.  The EINVAL of a size that is 0 is overwritten by the
result of `set_pixel_format`, or by another error, and so has no effect. -/
def newHwalFBSurface (dev : FbDevice) (type : HwalSurfaceType) (width height : UInt16)
    (numSurfaces : UInt32) : Except HwalError HwalFBSurface :=
  if type = .clut8 ∨ width.toNat > 1920 ∨ height.toNat > 1080 then .error .eopnotsupp
  else if dev.fd < 0 then .error .enodev
  else
    match dev.varInfo with
    | none => .error .eio
    | some varInfo =>
        match setPixelFormat type varInfo with
        | none => .error .eopnotsupp
        | some (varInfo, bitspp) =>
            let varInfo := { varInfo with
              xres := width.toNat
              yres := height.toNat
              bitsPerPixel := bitspp
              xresVirtual := width.toNat
              yresVirtual := u32 (height.toNat * numSurfaces.toNat) }
            match dev.putVarInfo varInfo with
            | none => .error .eio
            | some varInfo =>
                match dev.lineLength varInfo with
                | none => .error .eio
                | some lineLength =>
                    let bytepl := lineLength % 2 ^ 16
                    let length := u32 (varInfo.yresVirtual * bytepl)
                    if length ≠ 0 ∧ dev.mmapOk length = true then
                      .ok ⟨length, varInfo, bitspp, bytepl, numSurfaces.toNat, 255⟩
                    else .error .efault

/-! ## §3. blitImage and clean. -/

/-- A range that is accessed: of the framebuffer, or of the image. -/
inductive Access where
  | read (offset length : Nat)
  | write (offset length : Nat)
  | readImage (offset length : Nat)
  deriving DecidableEq, Repr

abbrev Image := Nat → UInt8

/-- The surface, the framebuffer, and the `yoffset` that the display was last
panned to. -/
structure FbState where
  surface : HwalFBSurface
  mem : Nat → UInt8
  panned : Option Nat

def FbState.start (surface : HwalFBSurface) (mem : Nat → UInt8) : FbState :=
  ⟨surface, mem, none⟩

/-- The arguments of a call, whether `FBIOPAN_DISPLAY` succeeds in it, and what
is in its local `curSur` at first. -/
structure BlitArgs where
  x : UInt16
  y : UInt16
  width : UInt16
  height : UInt16
  panOk : Bool
  curSur : UInt32

/-- What a call does. -/
structure FbResult where
  state : FbState
  ret : HwalError
  accesses : List Access

/-- Where the image goes: the surface, its `yoffset` and the offset of
`fbuffer`. -/
structure Target where
  curSur : Nat
  yoffset : Nat
  fbuffer : Nat

def chooseTarget (s : HwalFBSurface) (bufferLen curSur : Nat) : Target :=
  if s.mNumSurfaces = 1 then ⟨curSur, 0, 0⟩
  else if s.mCurSurface = 255 then ⟨0, 0, 0⟩
  else if s.mCurSurface = 0 then ⟨1, s.mVarInfo.yres, bufferLen⟩
  else if s.mCurSurface = 1 then ⟨0, 0, 0⟩
  else ⟨curSur, s.mVarInfo.yoffset, 0⟩

/-- `w_real`, and `h_real`. -/
def realSize (start size res : Nat) : Nat := if start + size > res then res - start else size

/-- The loop of `blitImage`: `loc`, `src_temp` and the length of the rows. -/
def rowLoc (s : HwalFBSurface) (x y i : Nat) : Nat :=
  u32 (x * (s.mVarInfo.bitsPerPixel / 8) + u32 ((y + i) * s.mBytepl))

def rowSrc (s : HwalFBSurface) (width i : Nat) : Nat :=
  u32 (i * width * s.mVarInfo.bitsPerPixel) / 8

def rowLength (s : HwalFBSurface) (wReal : Nat) : Nat :=
  u32 (wReal * s.mVarInfo.bitsPerPixel) / 8

/-- The accesses of the loop. -/
def rowAccesses (dst src : Nat → Nat) (n : Nat) : Nat → List Access
  | 0 => []
  | rows + 1 => rowAccesses dst src n rows ++ [.readImage (src rows) n, .write (dst rows) n]

/-- `blitImage`. -/
def blitImage (s : FbState) (image : Option Image) (a : BlitArgs) : FbResult :=
  let v := s.surface.mVarInfo
  let bufferLen := u32 (v.xres * v.yres * s.surface.mBitspp) / 8
  match image with
  | none => ⟨s, .einval, []⟩
  | some image =>
      if a.x.toNat ≥ v.xres ∨ a.y.toNat ≥ v.yres then ⟨s, .einval, []⟩
      else
        let wReal := realSize a.x.toNat a.width.toNat v.xres
        let hReal := realSize a.y.toNat a.height.toNat v.yres
        let t := chooseTarget s.surface bufferLen a.curSur.toNat
        let dst := fun i => t.fbuffer + rowLoc s.surface a.x.toNat a.y.toNat i
        let src := rowSrc s.surface a.width.toNat
        let n := rowLength s.surface wReal
        let mem := copyRows s.mem dst (fun i k => image (src i + k)) n hReal
        let accesses := rowAccesses dst src n hReal
        let surface := { s.surface with mVarInfo := { v with yoffset := t.yoffset } }
        if a.panOk then
          ⟨⟨{ surface with mCurSurface := t.curSur }, mem, some t.yoffset⟩, .success, accesses⟩
        else ⟨⟨surface, mem, s.panned⟩, .eio, accesses⟩

/-- The loops of `clean`: `buffer_len` bytes one by one. -/
def copyBytes (mem : Nat → UInt8) (dst src : Nat → Nat) : Nat → (Nat → UInt8) × List Access
  | 0 => (mem, [])
  | n + 1 =>
      let (mem, accesses) := copyBytes mem dst src n
      (copyInto mem (dst n) (fun _ => mem (src n)) 1,
        accesses ++ [.read (src n) 1, .write (dst n) 1])

/-- `clean` of a rectangle. -/
def clean (s : FbState) (callocOk : Bool) (a : BlitArgs) : FbResult :=
  let bufferLen := u32 (a.width.toNat * a.height.toNat * s.surface.mBitspp / 8)
  let clearArea : Option Image := if callocOk then some fun _ => 0 else none
  let (mem, accesses) :=
    if s.surface.mCurSurface = 0 then
      copyBytes s.mem (fun i => u32 (i + bufferLen)) (fun i => i) bufferLen
    else if s.surface.mCurSurface = 1 then
      copyBytes s.mem (fun i => i) (fun i => u32 (i + bufferLen)) bufferLen
    else (s.mem, [])
  let r := blitImage { s with mem := mem } clearArea a
  { r with accesses := accesses ++ r.accesses }

/-! ## §4. Runs. -/

inductive FbCall where
  | blitImage (image : Option Image) (a : BlitArgs)
  | clean (callocOk : Bool) (a : BlitArgs)

def FbCall.run (s : FbState) : FbCall → FbResult
  | .blitImage image a => Surface.blitImage s image a
  | .clean callocOk a => Surface.clean s callocOk a

def fbStep (s : FbState) (c : FbCall) : Option FbState := some (c.run s).state

end MesonDisplay.Surface
