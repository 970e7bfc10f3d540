/-
  MesonDisplay.Settings.MesonSettings — the setters of the display settings.

  A setter opens a card, puts what is to be changed into an atomic request, and
  commits it.  It gives up when the library reports -1 for one of the changes.
  Most of the setters are one definition, `atomicSetter`, with the changes they
  make.
-/
import MesonDisplay.Settings.DisplayAttribute

namespace MesonDisplay.Settings

/-! ## §1. One request. -/

/-- `display_meson_set_open`. -/
def displayMesonSetOpen : Meson Int := openCard

/-- Changes that are made one after the other, up to the first that fails. -/
def addInTurn : List MesonSet → Meson Bool
  | [] => pure true
  | call :: calls => do
      let res ← mesonSet call
      if res = -1 then pure false else addInTurn calls

/-- Changes that are all made, before it is checked whether one failed. -/
def addAll : List MesonSet → Meson Bool
  | [] => pure true
  | call :: calls => do
      let res ← mesonSet call
      let rest ← addAll calls
      pure (decide (res ≠ -1) && rest)

/-- The request is committed if there is one and the changes succeeded. -/
def addAndCommit (req : Bool) (add : Meson Bool) : Meson Int :=
  if req then do
    let added ← add
    if added then drmModeAtomicCommit else pure (-1)
  else pure (-1)

def atomicSetter (add : Meson Bool) : Meson Int := do
  let fd ← displayMesonSetOpen
  let req ← alloc
  let ret ← addAndCommit req add
  mesonCloseDrm fd
  pure ret

/-- A setter that gets the request before it opens the card, with `fd = 0`
until then. -/
def atomicSetterAllocFirst (add : Meson Bool) : Meson Int := do
  let req ← alloc
  if req then do
    let fd ← displayMesonSetOpen
    let ret ← addAndCommit true add
    mesonCloseDrm fd
    pure ret
  else do
    mesonCloseDrm 0
    pure (-1)

def mesonColorSpace : ColorSpace → MesonColorSpace
  | .rgb => .rgb
  | .ycbcr422 => .ycbcr422
  | .ycbcr444 => .ycbcr444
  | .ycbcr420 => .ycbcr420
  | _ => .reserved

def mesonHdrPolicy : HdrPolicy → MesonHdrPolicy
  | .followSink => .followSink
  | .followSource => .followSource
  | .followForceMode => .followForceMode
  | .other _ => .followSource

def mesonForceMode (hdrPolicy : HdrPolicy) : MesonForceMode :=
  if hdrPolicy = .followForceMode then .bt709 else .unknownFmt

def mesonAspectRatio : AspectRatio → MesonAspectRatio
  | .automatic => .automatic
  | .ratio4x3 => .ratio4x3
  | .ratio16x9 => .ratio16x9
  | _ => .reserved

def setDisplayHDCPEnable (enable : Int) (connType : ConnectorType) : Meson Int :=
  atomicSetter (addInTurn [.hdcpEnable enable connType])

def setDisplayAVMute (mute : Int) (connType : ConnectorType) : Meson Int :=
  atomicSetter (addInTurn [.avMute mute connType])

def setDisplayColorSpacedDepth (colorDepth : Nat) (colorSpace : ColorSpace)
    (connType : ConnectorType) : Meson Int :=
  atomicSetter (addAll [.colorDepth colorDepth connType,
    .colorSpace (mesonColorSpace colorSpace) connType])

def setDisplayHDRPolicy (hdrPolicy : HdrPolicy) (connType : ConnectorType) : Meson Int :=
  atomicSetterAllocFirst (addInTurn [.hdrPolicy (mesonHdrPolicy hdrPolicy) connType,
    .hdrForceMode (mesonForceMode hdrPolicy) connType])

def setDisplayHDCPContentType (type : HdcpContentType) (connType : ConnectorType) : Meson Int :=
  atomicSetter (addInTurn [.hdcpContentType type connType])

def setDisplayDvEnable (dvEnable : Int) (connType : ConnectorType) : Meson Int :=
  atomicSetter (addInTurn [.dvEnable dvEnable connType])

def setDisplayActive (active : Int) (connType : ConnectorType) : Meson Int :=
  atomicSetter (addInTurn [.active active connType])

def setDisplayVrrEnabled (vrrEnable : Int) (connType : ConnectorType) : Meson Int :=
  atomicSetter (addInTurn [.vrrEnabled vrrEnable connType])

def setDisplayAspectRatioValue (aspectRatio : AspectRatio) (connType : ConnectorType) :
    Meson Int :=
  atomicSetterAllocFirst
    (addInTurn [.aspectRatioValue (mesonAspectRatio aspectRatio) connType])

/-- `setDisplayModeAttr`, which passes the color space as it is. -/
def setDisplayModeAttr (modeInfo : Option DisplayModeInfo) (colorDepth : Nat)
    (colorSpace : ColorSpace) (connType : ConnectorType) : Meson Int :=
  match modeInfo with
  | none => pure (-1)
  | some modeInfo => do
      let supported ← modeAttrSupportedCheck (some modeInfo.name) colorSpace colorDepth connType
      if supported then
        atomicSetter (addAll [.changeMode (some modeInfo) connType,
          .colorDepth colorDepth connType, .colorSpace (.cast colorSpace) connType])
      else pure (-1)

def setDisplayFunctionAttribute (modeInfo : Option DisplayModeInfo) (hdrPolicy : HdrPolicy)
    (colorDepth : Nat) (colorSpace : ColorSpace) (fracRate : Int) (connType : ConnectorType) :
    Meson Int :=
  match modeInfo with
  | none => pure (-1)
  | some modeInfo =>
      atomicSetter (addInTurn [.changeMode (some modeInfo) connType,
        .hdrPolicy (mesonHdrPolicy hdrPolicy) connType,
        .hdrForceMode (mesonForceMode hdrPolicy) connType, .colorDepth colorDepth connType,
        .colorSpace (mesonColorSpace colorSpace) connType, .fracRatePolicy fracRate connType])

/-- The color that `setDisplayBackGroundColor` sets: four times 16 bits. -/
def backGroundColor (red green blue : UInt8) : Nat :=
  0xffff <<< 48 ||| (red.toNat <<< 8 ||| 0xff) <<< 32 ||| (green.toNat <<< 8 ||| 0xff) <<< 16
    ||| (blue.toNat <<< 8 ||| 0xff)

def setDisplayBackGroundColor (red green blue : UInt8) (connType : ConnectorType) : Meson Int :=
  atomicSetter (addInTurn [.backGroundColor (backGroundColor red green blue) connType])

def setDisplayDvMode (dvMode : Int) (connType : ConnectorType) : Meson Int :=
  atomicSetter (addInTurn [.dvMode dvMode connType])

def setDisplayCvbsAVMute (mute : Bool) : Meson Int :=
  atomicSetter (addInTurn [.cvbsAVMute mute .cvbs])

/-! ## §2. Setters without a request. -/

def setDisplayVideoZorder (index zorder flag : Nat) : Meson Int := do
  let fd ← openCard
  let ret ← mesonSet (.videoZorder index zorder flag)
  mesonCloseDrm fd
  pure ret

def setDisplayPlaneMute (planeType planeMute : Nat) : Meson Int := do
  let fd ← displayMesonSetOpen
  let res ← mesonSet (.planeMute planeType planeMute)
  mesonCloseDrm fd
  pure res

/-! ## §3. setDisplayMode. -/

/-- `MAX_RETRY`. -/
def maxRetry : Nat := 3

/-- The loop that becomes the master: whether it ends before the attempts are
used up.  A result of `drmSetMaster` other than 0 ends it too. -/
def masterLoop : (attempts : Nat) → Meson Bool
  | 0 => pure false
  | attempts + 1 => do
      let isMaster ← drmIsMaster
      if isMaster ≠ 0 then pure true
      else do
        let res ← drmSetMaster
        if res ≠ 0 then pure true else masterLoop attempts

/-- What is set if there is no dummy connector: "set hdmi dummy_l mode". -/
def dummyFallback (modeInfo : DisplayModeInfo) : MesonSet :=
  .changeMode (some { modeInfo with w := 720, h := 480, vrefresh := 50, interlace := false }) .hdmia

/-- The mode, or for a dummy connector the fallback.  A mode that fails for
another connector is not given up. -/
def addMode (modeInfo : DisplayModeInfo) (connType : ConnectorType) : Meson Bool := do
  let res ← mesonSet (.changeMode (some modeInfo) connType)
  if res = -1 ∧ connType = .dummy then do
    let resNum ← mesonSet (dummyFallback modeInfo)
    pure (decide (resNum ≠ -1))
  else pure true

/-- What is done between the request and the commit. -/
def addModeAsMaster (modeInfo : DisplayModeInfo) (connType : ConnectorType) : Meson Bool := do
  let added ← addMode modeInfo connType
  if added then masterLoop maxRetry else pure false

/-- `setDisplayMode`. -/
def setDisplayMode (modeInfo : Option DisplayModeInfo) (connType : ConnectorType) : Meson Int :=
  match modeInfo with
  | none => pure (-1)
  | some modeInfo => atomicSetter (addModeAsMaster modeInfo connType)

/-! ## §4. setDisplayAutoMode. -/

/-- The best mode so far: `miBest`, `largestArea` and `refresh`. -/
structure BestMode where
  miBest : Int
  largestArea : Int
  refresh : Nat
  deriving DecidableEq, Repr

/-- The loop over the modes; `i` is the number of the next one. -/
def bestLoop (maxArea : Int) : (i : Nat) → BestMode → List DisplayModeInfo → BestMode
  | _, best, [] => best
  | i, best, mode :: modes =>
      let area := Helper.toInt32 (mode.w * mode.h)
      let best :=
        if area > best.largestArea ∧ (maxArea = 0 ∨ area ≤ maxArea) then
          ⟨i, area, mode.vrefresh⟩
        else if area = best.largestArea ∧ mode.vrefresh > best.refresh then
          { best with miBest := i, refresh := mode.vrefresh }
        else best
      bestLoop maxArea (i + 1) best modes

/-- `sscanf( env, "%dx%d", &w, &h ) == 2` gives `w*h`; otherwise there is no
limit. -/
def readMaxArea (env : Option String) : Int :=
  match env with
  | none => 0
  | some text =>
      match Helper.scanInt text.toList with
      | .assigned w ('x' :: rest) =>
          match Helper.scanInt rest with
          | .assigned h _ => Helper.toInt32 (w * h)
          | _ => 0
      | _ => 0

/-- `modes[miBest]`, if it is in the list. -/
def modeAt (modes : List DisplayModeInfo) (miBest : Int) : Option DisplayModeInfo :=
  if 0 ≤ miBest then modes[miBest.toNat]? else none

/-- What is done between the request and the end. -/
def autoModeAndCommit (connType : ConnectorType) : Meson Int := do
  let (ret, modes) ← mesonGet (.supportedModesList connType)
  if ret ≠ 0 then pure ret
  else do
    let env ← maxMode
    let best := bestLoop (readMaxArea env) 0 ⟨-1, 0, 0⟩ modes
    let ret ← mesonSet (.changeMode (modeAt modes best.miBest) connType)
    if ret ≠ 0 then pure ret else drmModeAtomicCommit

/-- `setDisplayAutoMode` does not check the request. -/
def setDisplayAutoMode (connType : ConnectorType) : Meson Int := do
  let fd ← displayMesonSetOpen
  let _ ← alloc
  let ret ← autoModeAndCommit connType
  mesonCloseDrm fd
  pure ret

end MesonDisplay.Settings
