/-
  MesonDisplay.Settings.DisplayAttribute — the getters of the display settings.

  Most of them open a card, ask one thing and close the card; these are one
  definition, `getter`, with what is asked and what is made of the answer.  The
  others are translated by themselves.
-/
import MesonDisplay.Helper.ModeString
import MesonDisplay.Settings.Process

namespace MesonDisplay.Settings

/-! ## §1. One question. -/

/-- `display_meson_get_open`. -/
def displayMesonGetOpen : Meson Int := openCard

/-- Open, ask, close. -/
def getter {α β : Type} (call : MesonGet α) (result : α → β) : Meson β := do
  let fd ← displayMesonGetOpen
  let value ← mesonGet call
  mesonCloseDrm fd
  pure (result value)

def getDisplayHdcpAuthStatus (connType : ConnectorType) : Meson HdcpAuthStatus :=
  getter (.hdcpAuthStatus connType) fun
    | .success => .success
    | .other _ => .fail

def getDisplayColorSpace (connType : ConnectorType) : Meson ColorSpace :=
  getter (.colorSpace connType) fun
    | .rgb => .rgb
    | .ycbcr422 => .ycbcr422
    | .ycbcr444 => .ycbcr444
    | .ycbcr420 => .ycbcr420
    | _ => .reserved

def getDisplayColorDepth (connType : ConnectorType) : Meson Nat :=
  getter (.colorDepth connType) Helper.toUInt32

def getDisplayConnectionStatus (connType : ConnectorType) : Meson Connection :=
  getter (.connectionStatus connType) fun
    | .disconnected => .disconnected
    | .connected => .connected
    | .other _ => .unknownConnection

def getDisplayHdcpVersion (connType : ConnectorType) : Meson HdcpVersion :=
  getter (.hdcpVersion connType) fun
    | .hdcp14 => .hdcp14
    | .hdcp22 => .hdcp22
    | .other _ => .reserved

def getDisplayHDRPolicy (connType : ConnectorType) : Meson HdrPolicy :=
  getter (.hdrPolicy connType) fun
    | .followSink => .followSink
    | .followSource => .followSource
    | .followForceMode => .followForceMode
    | .other _ => .followSource

def getDisplayHDCPContentType (connType : ConnectorType) : Meson HdcpContentType :=
  getter (.hdcpContentType connType) fun
    | .type0 => .type0
    | .type1 => .type1
    | .other _ => .reserved

def getDisplayContentType (connType : ConnectorType) : Meson ContentType :=
  getter (.contentType connType) fun
    | .data => .data
    | .graphics => .graphics
    | .photo => .photo
    | .cinema => .cinema
    | .game => .game
    | .other _ => .reserved

def getDisplayDvEnable (connType : ConnectorType) : Meson Int := getter (.dvEnable connType) id

def getDisplayActive (connType : ConnectorType) : Meson Int := getter (.active connType) id

def getDisplayVrrEnabled (connType : ConnectorType) : Meson Int :=
  getter (.vrrEnabled connType) id

def getDisplayAVMute (connType : ConnectorType) : Meson Int := getter (.avMute connType) id

def getDisplayHdrStatus (connType : ConnectorType) : Meson HdrMode :=
  getter (.hdrStatus connType) fun
    | .hdr10Plus => .hdr10Plus
    | .dolbyVisionStd => .dolbyVisionStd
    | .dolbyVisionLl => .dolbyVisionLowlatency
    | .hdr10St2084 => .hdr10St2084
    | .hdr10Traditional => .hdr10Traditional
    | .hdrHlg => .hdrHlg
    | .sdr => .sdr
    | .other _ => .sdr

def getDisplayFracRatePolicy (connType : ConnectorType) : Meson Int :=
  getter (.fracRatePolicy connType) id

/-- `MESON_DISPLAY_DV_MODE_FLAG` is 0xf8. -/
def getDisplaySupportedDvMode (connType : ConnectorType) : Meson Nat :=
  getter (.dvCap connType) fun value => value &&& 0xf8

def getDisplayDvCap (connType : ConnectorType) : Meson Nat :=
  getter (.dvCap connType) fun value => value % 2 ^ 32

def getDisplayDpmsStatus (connType : ConnectorType) : Meson Int :=
  getter (.dpmsStatus connType) id

def getDisplayDvMode (connType : ConnectorType) : Meson Int := getter (.dvMode connType) id

def getDisplayCvbsAVMute : Meson Int := getter (.cvbsAVMute .cvbs) id

def getDisplayRxSupportedHdcpVersion (connType : ConnectorType) : Meson Int :=
  getter (.rxSupportedHdcpVersion connType) id

/-! ## §2. Results behind pointers. -/

/-- A getter that checks its pointers, and then opens, asks and closes. -/
def getterInto {α : Type} (pointers : List Pointer) (call : MesonGet (Int × α)) :
    Meson (Int × Option α) :=
  if .null ∈ pointers then pure (-1, none)
  else getter call fun (ret, value) => (ret, some value)

def getDisplayMode (modeInfo : Pointer) (connType : ConnectorType) :
    Meson (Int × Option DisplayModeInfo) :=
  getterInto [modeInfo] (.modeInfo connType)

def getDisplayModesList (modeInfo modeCount : Pointer) (connType : ConnectorType) :
    Meson (Int × Option (List DisplayModeInfo)) :=
  getterInto [modeInfo, modeCount] (.supportedModesList connType)

def getDisplayPlaneSize (width height : Pointer) : Meson (Int × Option (Int × Int)) :=
  getterInto [width, height] .graphicPlaneSize

def getDisplayPhysicalSize (width height : Pointer) (connType : ConnectorType) :
    Meson (Int × Option (Int × Int)) :=
  getterInto [width, height] (.physicalSize connType)

def getDisplaySignalTimingInfo (htotal vtotal hstart vstart : Pointer)
    (connType : ConnectorType) : Meson (Int × Option (List Nat)) :=
  getterInto [htotal, vtotal, hstart, vstart] (.signalTimingInfo connType)

/-- `getDisplayPreferMode` opens no card. -/
def getDisplayPreferMode (modeInfo : Pointer) (connType : ConnectorType) :
    Meson (Int × Option DisplayModeInfo) :=
  if modeInfo = .null then pure (-1, none)
  else do
    let (ret, mode) ← mesonGet (.preferredMode connType)
    pure (ret, some mode)

/-! ## §3. The others. -/

/-- `getDisplayEDIDData` checks its pointers behind opening the card. -/
def getDisplayEDIDData (connType : ConnectorType) (dataLen data : Pointer) :
    Meson (Option (List UInt8)) := do
  let fd ← displayMesonGetOpen
  if dataLen = .null ∨ data = .null then pure none
  else do
    let edid ← mesonGet (.edidData connType)
    mesonCloseDrm fd
    pure (some edid)

/-- `getDisplayAspectRatioValue` does not close the card. -/
def getDisplayAspectRatioValue (connType : ConnectorType) : Meson AspectRatio := do
  let _ ← displayMesonGetOpen
  let aspectRatio ← mesonGet (.aspectRatioValue connType)
  pure (match aspectRatio with
    | .automatic => .automatic
    | .ratio4x3 => .ratio4x3
    | .ratio16x9 => .ratio16x9
    | _ => .reserved)

/-- `getDisplayHDRSupportedList`. -/
def getDisplayHDRSupportedList (hdrlist dvlist : Nat) : Nat :=
  let bit := fun (list mask : Nat) (mode : Nat) => if list &&& mask ≠ 0 then 1 <<< mode else 0
  bit hdrlist 0x1 0 ||| bit dvlist 0x1A 1 ||| bit dvlist 0xE0 2 ||| bit hdrlist 0x8 3
    ||| bit hdrlist 0x4 4 ||| bit hdrlist 0x10 5 ||| bit hdrlist 0x2 6

def getDisplayHDRSupportList (connType : ConnectorType) : Meson Nat := do
  let fd ← displayMesonGetOpen
  let hdrcap ← mesonGet (.hdrCap connType)
  let dvcap ← mesonGet (.dvCap connType)
  mesonCloseDrm fd
  pure (getDisplayHDRSupportedList hdrcap dvcap)

/-- The attribute that `modeAttrSupportedCheck` asks for. -/
def attrText (colorSpace : ColorSpace) (colorDepth : Nat) : String :=
  let color :=
    match colorSpace with
    | .rgb => "rgb"
    | .ycbcr420 => "420"
    | .ycbcr422 => "422"
    | .ycbcr444 => "444"
    | _ => "fail"
  color ++ "," ++ toString (Helper.toInt32 colorDepth) ++ "bit"

/-- `modeAttrSupportedCheck`; the name is `none` if it is NULL. -/
def modeAttrSupportedCheck (modeName : Option String) (colorSpace : ColorSpace)
    (colorDepth : Nat) (connType : ConnectorType) : Meson Bool :=
  match modeName, colorSpace with
  | none, _ => pure false
  | some _, .reserved => pure false
  | some _, .other _ => pure false
  | some modeName, colorSpace =>
      if connType ≠ .hdmia ∧ connType ≠ .hdmib then pure false
      else getter (.testAttr modeName (attrText colorSpace colorDepth)) fun (ret, valid) =>
        decide (ret = 0 ∧ valid = 1)

/-- It asks once, or not at all. -/
theorem modeAttrSupportedCheck_eq (modeName : Option String) (colorSpace : ColorSpace)
    (colorDepth : Nat) (connType : ConnectorType) :
    modeAttrSupportedCheck modeName colorSpace colorDepth connType = pure false ∨
      ∃ (call : MesonGet (Int × Int)) (result : Int × Int → Bool),
        modeAttrSupportedCheck modeName colorSpace colorDepth connType = getter call result := by
  unfold modeAttrSupportedCheck
  split
  · exact .inl rfl
  · exact .inl rfl
  · exact .inl rfl
  · split_ifs
    · exact .inl rfl
    · exact .inr ⟨_, _, rfl⟩

/-- The two loops of `getDisplaySupportAttrList`. -/
def supportAttrLoop (modeName : String) (connType : ConnectorType) :
    List (ColorSpace × Nat) → Int → Meson Int
  | [], ret => pure ret
  | (colorSpace, colorDepth) :: attrs, ret => do
      let supported ← modeAttrSupportedCheck (some modeName) colorSpace colorDepth connType
      supportAttrLoop modeName connType attrs (if supported then 0 else ret)

/-- What the loops go through. -/
def allAttrs : List (ColorSpace × Nat) :=
  [ColorSpace.rgb, .ycbcr422, .ycbcr444, .ycbcr420].flatMap fun colorSpace =>
    [8, 10, 12].map fun colorDepth => (colorSpace, colorDepth)

/-- `getDisplaySupportAttrList` returns before it closes the card, if there is
no mode. -/
def getDisplaySupportAttrList (modeInfo : Pointer) (connType : ConnectorType) : Meson Int :=
  if modeInfo = .null then pure (-1)
  else do
    let fd ← displayMesonGetOpen
    let (ret, mode) ← mesonGet (.modeInfo connType)
    if ret = -1 then pure ret
    else do
      let ret ← supportAttrLoop mode.name connType allAttrs ret
      mesonCloseDrm fd
      pure ret

/-- The frame rate: a whole number, or 1000 / 1001 of it. -/
structure FrameRate where
  vrefresh : Nat
  fractional : Bool
  deriving DecidableEq, Repr

/-- `getDisplayFrameRate` follows the pointer that `malloc` gives. -/
def getDisplayFrameRate (connType : ConnectorType) : Meson FrameRate := do
  let modeInfo ← alloc
  let fd ← displayMesonGetOpen
  let (_, mode) ← mesonGet (.modeInfo connType)
  if ¬ modeInfo then fault .nullPointer
  else if mode.vrefresh ∈ [60, 30, 24, 120, 240] then do
    let policy ← mesonGet (.fracRatePolicy .hdmia)
    mesonCloseDrm fd
    pure ⟨mode.vrefresh, decide (policy = 1)⟩
  else do
    mesonCloseDrm fd
    pure ⟨mode.vrefresh, false⟩

end MesonDisplay.Settings
