/-
  MesonDisplay.Settings.Process — the process that calls the display settings.

  The functions of the display settings open a card, ask or tell libdrm and the
  meson library something, and close the card again.  What those libraries
  answer, and whether opening a card or getting memory succeeds, is not known;
  it may be another answer every time, so an answer depends on the number of
  the call.  The log lines of the functions are left out.

  `Meson` is the monad of these functions: they read the answers, and change
  the open descriptors and the record of what was asked of the libraries.
-/
import MesonDisplay.Lib.FdTable

namespace MesonDisplay.Settings

open MesonDisplay.FdTable

/-! ## §1. The enumerations. -/

/-- `DISPLAY_CONNECTOR_TYPE`; `other` is a value that has no name. -/
inductive ConnectorType where
  | hdmia
  | hdmib
  | lvds
  | cvbs
  | dummy
  | reserved
  | other (value : Nat)
  deriving DecidableEq, Repr

/-- `ENUM_DISPLAY_COLOR_SPACE`. -/
inductive ColorSpace where
  | rgb
  | ycbcr422
  | ycbcr444
  | ycbcr420
  | reserved
  | other (value : Nat)
  deriving DecidableEq, Repr

/-- `ENUM_DISPLAY_HDR_POLICY`. -/
inductive HdrPolicy where
  | followSink
  | followSource
  | followForceMode
  | other (value : Nat)
  deriving DecidableEq, Repr

/-- `ENUM_DISPLAY_ASPECT_RATIO`. -/
inductive AspectRatio where
  | automatic
  | ratio4x3
  | ratio16x9
  | reserved
  | other (value : Nat)
  deriving DecidableEq, Repr

/-- `ENUM_DISPLAY_HDCP_Content_Type`. -/
inductive HdcpContentType where
  | type0
  | type1
  | reserved
  | other (value : Nat)
  deriving DecidableEq, Repr

/-- `ENUM_DISPLAY_Content_Type`. -/
inductive ContentType where
  | data
  | graphics
  | photo
  | cinema
  | game
  | reserved
  deriving DecidableEq, Repr

/-- `ENUM_DISPLAY_HDR_MODE`. -/
inductive HdrMode where
  | hdr10Plus
  | dolbyVisionStd
  | dolbyVisionLowlatency
  | hdr10St2084
  | hdr10Traditional
  | hdrHlg
  | sdr
  deriving DecidableEq, Repr

/-- `ENUM_DISPLAY_CONNECTION`. -/
inductive Connection where
  | disconnected
  | connected
  | unknownConnection
  deriving DecidableEq, Repr

/-- `ENUM_DISPLAY_HDCP_VERSION`. -/
inductive HdcpVersion where
  | hdcp14
  | hdcp22
  | reserved
  deriving DecidableEq, Repr

/-- `ENUM_DISPLAY_HDCPAUTH_STATUS`. -/
inductive HdcpAuthStatus where
  | fail
  | success
  deriving DecidableEq, Repr

/-! The library has enumerations of its own.  `other` is a value of them that
no function here asks for, `cast` one of the enumerations above that is passed
as it is. -/

/-- `ENUM_MESON_COLOR_SPACE`. -/
inductive MesonColorSpace where
  | rgb
  | ycbcr422
  | ycbcr444
  | ycbcr420
  | reserved
  | other (value : Int)
  | cast (colorSpace : ColorSpace)
  deriving DecidableEq, Repr

/-- `ENUM_MESON_HDR_POLICY`. -/
inductive MesonHdrPolicy where
  | followSink
  | followSource
  | followForceMode
  | other (value : Int)
  deriving DecidableEq, Repr

/-- `ENUM_MESON_DRM_FORCE_MODE`, as far as it is used. -/
inductive MesonForceMode where
  | unknownFmt
  | bt709
  deriving DecidableEq, Repr

/-- `ENUM_MESON_ASPECT_RATIO`. -/
inductive MesonAspectRatio where
  | automatic
  | ratio4x3
  | ratio16x9
  | reserved
  | other (value : Int)
  deriving DecidableEq, Repr

/-- `ENUM_MESON_HDCP_Content_Type`. -/
inductive MesonHdcpContentType where
  | type0
  | type1
  | other (value : Int)
  deriving DecidableEq, Repr

/-- `MESON_CONTENT_TYPE`. -/
inductive MesonContentType where
  | data
  | graphics
  | photo
  | cinema
  | game
  | other (value : Int)
  deriving DecidableEq, Repr

/-- `ENUM_MESON_HDR_MODE`. -/
inductive MesonHdrMode where
  | hdr10Plus
  | dolbyVisionStd
  | dolbyVisionLl
  | hdr10St2084
  | hdr10Traditional
  | hdrHlg
  | sdr
  | other (value : Int)
  deriving DecidableEq, Repr

/-- `ENUM_MESON_CONN_CONNECTION`. -/
inductive MesonConnection where
  | disconnected
  | connected
  | other (value : Int)
  deriving DecidableEq, Repr

/-- `ENUM_MESON_HDCP_VERSION`. -/
inductive MesonHdcpVersion where
  | hdcp14
  | hdcp22
  | other (value : Int)
  deriving DecidableEq, Repr

/-- `ENUM_MESON_HDCPAUTH_STATUS`. -/
inductive MesonHdcpAuthStatus where
  | success
  | other (value : Int)
  deriving DecidableEq, Repr

/-- A pointer for a result. -/
inductive Pointer where
  | null
  | valid
  deriving DecidableEq, Repr

/-- `DisplayModeInfo`. -/
structure DisplayModeInfo where
  w : Nat
  h : Nat
  vrefresh : Nat
  interlace : Bool
  name : String
  deriving DecidableEq, Repr

/-! ## §2. The libraries. -/

/-- The functions of the meson library that set something, with what they are
given besides the descriptor and the request. -/
inductive MesonSet where
  | hdcpEnable (enable : Int) (connType : ConnectorType)
  | avMute (mute : Int) (connType : ConnectorType)
  | colorDepth (colorDepth : Nat) (connType : ConnectorType)
  | colorSpace (colorSpace : MesonColorSpace) (connType : ConnectorType)
  | hdrPolicy (hdrPolicy : MesonHdrPolicy) (connType : ConnectorType)
  | hdrForceMode (forceMode : MesonForceMode) (connType : ConnectorType)
  | hdcpContentType (type : HdcpContentType) (connType : ConnectorType)
  | dvEnable (dvEnable : Int) (connType : ConnectorType)
  | active (active : Int) (connType : ConnectorType)
  | vrrEnabled (vrrEnable : Int) (connType : ConnectorType)
  /-- The mode is `none` if the pointer is to no mode of a list. -/
  | changeMode (modeInfo : Option DisplayModeInfo) (connType : ConnectorType)
  | aspectRatioValue (aspectRatio : MesonAspectRatio) (connType : ConnectorType)
  | fracRatePolicy (fracRate : Int) (connType : ConnectorType)
  | videoZorder (index zorder flag : Nat)
  | backGroundColor (color : Nat) (connType : ConnectorType)
  | dvMode (dvMode : Int) (connType : ConnectorType)
  | planeMute (planeType planeMute : Nat)
  | cvbsAVMute (mute : Bool) (connType : ConnectorType)
  deriving DecidableEq, Repr

/-- The functions of the meson library that get something, with the type of
what they give.  The ones with a pointer for the result give the returned number
and what they stored. -/
inductive MesonGet : Type → Type 1 where
  | hdcpAuthStatus (connType : ConnectorType) : MesonGet MesonHdcpAuthStatus
  | edidData (connType : ConnectorType) : MesonGet (List UInt8)
  | colorSpace (connType : ConnectorType) : MesonGet MesonColorSpace
  | colorDepth (connType : ConnectorType) : MesonGet Int
  | connectionStatus (connType : ConnectorType) : MesonGet MesonConnection
  | hdcpVersion (connType : ConnectorType) : MesonGet MesonHdcpVersion
  | modeInfo (connType : ConnectorType) : MesonGet (Int × DisplayModeInfo)
  | hdrPolicy (connType : ConnectorType) : MesonGet MesonHdrPolicy
  | supportedModesList (connType : ConnectorType) : MesonGet (Int × List DisplayModeInfo)
  | preferredMode (connType : ConnectorType) : MesonGet (Int × DisplayModeInfo)
  | hdcpContentType (connType : ConnectorType) : MesonGet MesonHdcpContentType
  | contentType (connType : ConnectorType) : MesonGet MesonContentType
  | dvEnable (connType : ConnectorType) : MesonGet Int
  | active (connType : ConnectorType) : MesonGet Int
  | vrrEnabled (connType : ConnectorType) : MesonGet Int
  | avMute (connType : ConnectorType) : MesonGet Int
  | hdrStatus (connType : ConnectorType) : MesonGet MesonHdrMode
  | aspectRatioValue (connType : ConnectorType) : MesonGet MesonAspectRatio
  | fracRatePolicy (connType : ConnectorType) : MesonGet Int
  | hdrCap (connType : ConnectorType) : MesonGet Nat
  | dvCap (connType : ConnectorType) : MesonGet Nat
  | dpmsStatus (connType : ConnectorType) : MesonGet Int
  | graphicPlaneSize : MesonGet (Int × Int × Int)
  | physicalSize (connType : ConnectorType) : MesonGet (Int × Int × Int)
  | dvMode (connType : ConnectorType) : MesonGet Int
  | signalTimingInfo (connType : ConnectorType) : MesonGet (Int × List Nat)
  | cvbsAVMute (connType : ConnectorType) : MesonGet Int
  | rxSupportedHdcpVersion (connType : ConnectorType) : MesonGet Int
  /-- `DRM_IOCTL_MESON_TESTATTR`: the result and `valid`. -/
  | testAttr (modeName attr : String) : MesonGet (Int × Int)

/-- What the world answers to the call with this number. -/
structure Env where
  /-- `open` of the card. -/
  openOk : Nat → Bool
  /-- `malloc`, or `drmModeAtomicAlloc`. -/
  allocOk : Nat → Bool
  set : MesonSet → Nat → Int
  get : {α : Type} → MesonGet α → Nat → α
  /-- `drmModeAtomicCommit`. -/
  commit : Nat → Int
  /-- `drmIsMaster`. -/
  isMaster : Nat → Int
  /-- `drmSetMaster`. -/
  setMaster : Nat → Int
  /-- `getenv("MESON_DISPLAY_MAX_MODE")`. -/
  maxMode : Option String

/-- The world in which every call succeeds, and every setting is off. -/
def Env.allSucceed : Env where
  openOk _ := true
  allocOk _ := true
  set _ _ := 0
  get call _ :=
    match call with
    | .hdcpAuthStatus _ => .success
    | .edidData _ => []
    | .colorSpace _ => .rgb
    | .colorDepth _ => 8
    | .connectionStatus _ => .connected
    | .hdcpVersion _ => .hdcp22
    | .modeInfo _ => (0, ⟨1920, 1080, 60, false, "1080p60hz"⟩)
    | .hdrPolicy _ => .followSink
    | .supportedModesList _ => (0, [⟨1920, 1080, 60, false, "1080p60hz"⟩])
    | .preferredMode _ => (0, ⟨1920, 1080, 60, false, "1080p60hz"⟩)
    | .hdcpContentType _ => .type0
    | .contentType _ => .data
    | .dvEnable _ => 0
    | .active _ => 0
    | .vrrEnabled _ => 0
    | .avMute _ => 0
    | .hdrStatus _ => .sdr
    | .aspectRatioValue _ => .automatic
    | .fracRatePolicy _ => 0
    | .hdrCap _ => 0
    | .dvCap _ => 0
    | .dpmsStatus _ => 0
    | .graphicPlaneSize => (0, 1920, 1080)
    | .physicalSize _ => (0, 1600, 900)
    | .dvMode _ => 0
    | .signalTimingInfo _ => (0, [2200, 1125, 192, 41])
    | .cvbsAVMute _ => 0
    | .rxSupportedHdcpVersion _ => 3
    | .testAttr _ _ => (0, 1)
  commit _ := 0
  isMaster _ := 1
  setMaster _ := 0
  maxMode := none

/-- What was asked, and what was answered. -/
inductive DrmEvent where
  | set (call : MesonSet) (result : Int)
  | commit (result : Int)
  | isMaster (result : Int)
  | setMaster (result : Int)
  deriving DecidableEq, Repr

structure World where
  /-- The open descriptors of the process. -/
  fds : List Nat
  /-- How many calls were answered. -/
  time : Nat
  fdEvents : List FdEvent
  events : List DrmEvent
  deriving DecidableEq, Repr

inductive Fault where
  /-- A NULL pointer is followed. -/
  | nullPointer
  deriving DecidableEq, Repr

/-! ## §3. The functions of the process. -/

def Meson (α : Type) : Type 1 := Env → World → Except Fault (α × World)

def Meson.bind {α β : Type} (p : Meson α) (f : α → Meson β) : Meson β := fun env w =>
  match p env w with
  | .error e => .error e
  | .ok (a, w') => f a env w'

instance : Monad Meson where
  pure a := fun _ w => .ok (a, w)
  bind := Meson.bind

theorem bind_ok {α β : Type} {env : Env} {w w' : World} {p : Meson α} {f : α → Meson β} {a : α}
    (hp : p env w = .ok (a, w')) : (p >>= f) env w = f a env w' := by
  show Meson.bind p f env w = _
  unfold Meson.bind
  rw [hp]

/-- The function returns, and the states before and behind it are in the
relation. -/
def Does {α : Type} (R : World → World → Prop) (p : Meson α) (env : Env) (w : World) : Prop :=
  ∃ a w', p env w = .ok (a, w') ∧ R w w'

section

variable {α β : Type} {R : World → World → Prop} {env : Env} {w : World}

theorem does_pure (hrefl : ∀ w, R w w) (a : α) : Does R (pure a : Meson α) env w :=
  ⟨a, w, rfl, hrefl w⟩

theorem does_bind (htrans : ∀ {w₁ w₂ w₃}, R w₁ w₂ → R w₂ w₃ → R w₁ w₃) {p : Meson α}
    {f : α → Meson β} (hp : Does R p env w)
    (hf : ∀ a w', p env w = .ok (a, w') → Does R (f a) env w') : Does R (p >>= f) env w := by
  obtain ⟨a, w₁, hrun, hw₁⟩ := hp
  obtain ⟨b, w₂, hrun', hw₂⟩ := hf a w₁ hrun
  exact ⟨b, w₂, (bind_ok hrun).trans hrun', htrans hw₁ hw₂⟩

theorem does_ite {c : Prop} [Decidable c] {p q : Meson α} (hp : c → Does R p env w)
    (hq : ¬ c → Does R q env w) : Does R (if c then p else q) env w := by
  split_ifs with hc
  · exact hp hc
  · exact hq hc

end

def fault {α : Type} (e : Fault) : Meson α := fun _ _ => .error e

/-- A call was answered. -/
def World.tick (w : World) : World := { w with time := w.time + 1 }

/-- A call was answered, and is recorded. -/
def World.record (w : World) (event : DrmEvent) : World :=
  { w with
    time := w.time + 1
    events := w.events ++ [event] }

@[simp] theorem World.tick_time (w : World) : w.tick.time = w.time + 1 := rfl

@[simp] theorem World.record_events (w : World) (event : DrmEvent) :
    (w.record event).events = w.events ++ [event] := rfl

/-- The state behind an `open` that succeeds. -/
def World.opened (w : World) : World :=
  { w with
    fds := lowestFree w.fds :: w.fds
    time := w.time + 1
    fdEvents := w.fdEvents ++ [.opened (lowestFree w.fds)] }

/-- The state behind the close of an open descriptor. -/
def World.closed (w : World) (fd : Nat) : World :=
  { w with
    fds := close w.fds fd
    fdEvents := w.fdEvents ++ [.closed fd] }

/-- The state behind the close of a number that is not open. -/
def World.refused (w : World) (fd : Int) : World :=
  { w with fdEvents := w.fdEvents ++ [.refused fd] }

/-- `open` of the card; -1 if it fails. -/
def openCard : Meson Int := fun env w =>
  if env.openOk w.time then .ok (lowestFree w.fds, w.opened) else .ok (-1, w.tick)

/-- `meson_close_drm`.  Every call is recorded, also of what is no open
descriptor, which is not closed. -/
def mesonCloseDrm (fd : Int) : Meson Unit := fun _ w =>
  if 0 ≤ fd ∧ fd.toNat ∈ w.fds then .ok ((), w.closed fd.toNat) else .ok ((), w.refused fd)

/-- `drmModeAtomicAlloc`, and `malloc`: whether there is memory. -/
def alloc : Meson Bool := fun env w => .ok (env.allocOk w.time, w.tick)

def mesonGet {α : Type} (call : MesonGet α) : Meson α := fun env w =>
  .ok (env.get call w.time, w.tick)

def mesonSet (call : MesonSet) : Meson Int := fun env w =>
  .ok (env.set call w.time, w.record (.set call (env.set call w.time)))

/-- `drmModeAtomicCommit`. -/
def drmModeAtomicCommit : Meson Int := fun env w =>
  .ok (env.commit w.time, w.record (.commit (env.commit w.time)))

def drmIsMaster : Meson Int := fun env w =>
  .ok (env.isMaster w.time, w.record (.isMaster (env.isMaster w.time)))

def drmSetMaster : Meson Int := fun env w =>
  .ok (env.setMaster w.time, w.record (.setMaster (env.setMaster w.time)))

/-- `getenv("MESON_DISPLAY_MAX_MODE")`. -/
def maxMode : Meson (Option String) := fun env w => .ok (env.maxMode, w)

end MesonDisplay.Settings
