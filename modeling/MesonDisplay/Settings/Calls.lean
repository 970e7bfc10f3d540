/-
  MesonDisplay.Settings.Calls — the calls to the display settings.

  A getter, a setter that commits an atomic request, or one of the two setters
  that do not, with its arguments.  A process makes one call after the other;
  `Call.step` is one of them.
-/
import MesonDisplay.Lib.Runs
import MesonDisplay.Settings.MesonSettings

namespace MesonDisplay.Settings

/-! ## §1. Getters. -/

inductive Getter where
  | hdcpAuthStatus (connType : ConnectorType)
  | edidData (connType : ConnectorType) (dataLen data : Pointer)
  | colorSpace (connType : ConnectorType)
  | colorDepth (connType : ConnectorType)
  | connectionStatus (connType : ConnectorType)
  | hdcpVersion (connType : ConnectorType)
  | mode (modeInfo : Pointer) (connType : ConnectorType)
  | hdrPolicy (connType : ConnectorType)
  | modesList (modeInfo modeCount : Pointer) (connType : ConnectorType)
  | preferMode (modeInfo : Pointer) (connType : ConnectorType)
  | hdcpContentType (connType : ConnectorType)
  | contentType (connType : ConnectorType)
  | dvEnable (connType : ConnectorType)
  | active (connType : ConnectorType)
  | vrrEnabled (connType : ConnectorType)
  | avMute (connType : ConnectorType)
  | hdrStatus (connType : ConnectorType)
  | modeAttrSupported (modeName : Option String) (colorSpace : ColorSpace) (colorDepth : Nat)
      (connType : ConnectorType)
  | aspectRatioValue (connType : ConnectorType)
  | fracRatePolicy (connType : ConnectorType)
  | supportAttrList (modeInfo : Pointer) (connType : ConnectorType)
  | supportedDvMode (connType : ConnectorType)
  | hdrSupportList (connType : ConnectorType)
  | dvCap (connType : ConnectorType)
  | dpmsStatus (connType : ConnectorType)
  | frameRate (connType : ConnectorType)
  | planeSize (width height : Pointer)
  | physicalSize (width height : Pointer) (connType : ConnectorType)
  | dvMode (connType : ConnectorType)
  | signalTimingInfo (htotal vtotal hstart vstart : Pointer) (connType : ConnectorType)
  | cvbsAVMute
  | rxSupportedHdcpVersion (connType : ConnectorType)
  deriving DecidableEq, Repr

/-- A call whose result is not used. -/
def ignoring {α : Type} (p : Meson α) : Meson Unit := do
  let _ ← p
  pure ()

def Getter.run : Getter → Meson Unit
  | .hdcpAuthStatus connType => ignoring (getDisplayHdcpAuthStatus connType)
  | .edidData connType dataLen data => ignoring (getDisplayEDIDData connType dataLen data)
  | .colorSpace connType => ignoring (getDisplayColorSpace connType)
  | .colorDepth connType => ignoring (getDisplayColorDepth connType)
  | .connectionStatus connType => ignoring (getDisplayConnectionStatus connType)
  | .hdcpVersion connType => ignoring (getDisplayHdcpVersion connType)
  | .mode modeInfo connType => ignoring (getDisplayMode modeInfo connType)
  | .hdrPolicy connType => ignoring (getDisplayHDRPolicy connType)
  | .modesList modeInfo modeCount connType =>
      ignoring (getDisplayModesList modeInfo modeCount connType)
  | .preferMode modeInfo connType => ignoring (getDisplayPreferMode modeInfo connType)
  | .hdcpContentType connType => ignoring (getDisplayHDCPContentType connType)
  | .contentType connType => ignoring (getDisplayContentType connType)
  | .dvEnable connType => ignoring (getDisplayDvEnable connType)
  | .active connType => ignoring (getDisplayActive connType)
  | .vrrEnabled connType => ignoring (getDisplayVrrEnabled connType)
  | .avMute connType => ignoring (getDisplayAVMute connType)
  | .hdrStatus connType => ignoring (getDisplayHdrStatus connType)
  | .modeAttrSupported modeName color depth connType =>
      ignoring (modeAttrSupportedCheck modeName color depth connType)
  | .aspectRatioValue connType => ignoring (getDisplayAspectRatioValue connType)
  | .fracRatePolicy connType => ignoring (getDisplayFracRatePolicy connType)
  | .supportAttrList modeInfo connType => ignoring (getDisplaySupportAttrList modeInfo connType)
  | .supportedDvMode connType => ignoring (getDisplaySupportedDvMode connType)
  | .hdrSupportList connType => ignoring (getDisplayHDRSupportList connType)
  | .dvCap connType => ignoring (getDisplayDvCap connType)
  | .dpmsStatus connType => ignoring (getDisplayDpmsStatus connType)
  | .frameRate connType => ignoring (getDisplayFrameRate connType)
  | .planeSize width height => ignoring (getDisplayPlaneSize width height)
  | .physicalSize width height connType => ignoring (getDisplayPhysicalSize width height connType)
  | .dvMode connType => ignoring (getDisplayDvMode connType)
  | .signalTimingInfo htotal vtotal hstart vstart connType =>
      ignoring (getDisplaySignalTimingInfo htotal vtotal hstart vstart connType)
  | .cvbsAVMute => ignoring getDisplayCvbsAVMute
  | .rxSupportedHdcpVersion connType => ignoring (getDisplayRxSupportedHdcpVersion connType)

/-! ## §2. Setters. -/

/-- The setters that call `drmModeAtomicCommit`.  A mode is `none` if the
pointer to it is NULL. -/
inductive AtomicSetter where
  | hdcpEnable (enable : Int) (connType : ConnectorType)
  | avMute (mute : Int) (connType : ConnectorType)
  | colorSpacedDepth (colorDepth : Nat) (colorSpace : ColorSpace) (connType : ConnectorType)
  | hdrPolicy (hdrPolicy : HdrPolicy) (connType : ConnectorType)
  | hdcpContentType (type : HdcpContentType) (connType : ConnectorType)
  | dvEnable (dvEnable : Int) (connType : ConnectorType)
  | active (active : Int) (connType : ConnectorType)
  | vrrEnabled (vrrEnable : Int) (connType : ConnectorType)
  | mode (modeInfo : Option DisplayModeInfo) (connType : ConnectorType)
  | autoMode (connType : ConnectorType)
  | aspectRatioValue (aspectRatio : AspectRatio) (connType : ConnectorType)
  | modeAttr (modeInfo : Option DisplayModeInfo) (colorDepth : Nat) (colorSpace : ColorSpace)
      (connType : ConnectorType)
  | functionAttribute (modeInfo : Option DisplayModeInfo) (hdrPolicy : HdrPolicy)
      (colorDepth : Nat) (colorSpace : ColorSpace) (fracRate : Int) (connType : ConnectorType)
  | backGroundColor (red green blue : UInt8) (connType : ConnectorType)
  | dvMode (dvMode : Int) (connType : ConnectorType)
  | cvbsAVMute (mute : Bool)
  deriving DecidableEq

def AtomicSetter.run : AtomicSetter → Meson Int
  | .hdcpEnable enable connType => setDisplayHDCPEnable enable connType
  | .avMute mute connType => setDisplayAVMute mute connType
  | .colorSpacedDepth colorDepth colorSpace connType =>
      setDisplayColorSpacedDepth colorDepth colorSpace connType
  | .hdrPolicy policy connType => setDisplayHDRPolicy policy connType
  | .hdcpContentType type connType => setDisplayHDCPContentType type connType
  | .dvEnable enable connType => setDisplayDvEnable enable connType
  | .active value connType => setDisplayActive value connType
  | .vrrEnabled vrrEnable connType => setDisplayVrrEnabled vrrEnable connType
  | .mode modeInfo connType => setDisplayMode modeInfo connType
  | .autoMode connType => setDisplayAutoMode connType
  | .aspectRatioValue ratio connType => setDisplayAspectRatioValue ratio connType
  | .modeAttr modeInfo colorDepth colorSpace connType =>
      setDisplayModeAttr modeInfo colorDepth colorSpace connType
  | .functionAttribute modeInfo policy colorDepth colorSpace fracRate connType =>
      setDisplayFunctionAttribute modeInfo policy colorDepth colorSpace fracRate connType
  | .backGroundColor red green blue connType => setDisplayBackGroundColor red green blue connType
  | .dvMode value connType => setDisplayDvMode value connType
  | .cvbsAVMute mute => setDisplayCvbsAVMute mute

/-! ## §3. Calls. -/

inductive Call where
  | get (getter : Getter)
  | set (setter : AtomicSetter)
  | videoZorder (index zorder flag : Nat)
  | planeMute (planeType planeMute : Nat)
  deriving DecidableEq

def Call.run : Call → Meson Unit
  | .get getter => getter.run
  | .set setter => ignoring setter.run
  | .videoZorder index zorder flag => ignoring (setDisplayVideoZorder index zorder flag)
  | .planeMute planeType mute => ignoring (setDisplayPlaneMute planeType mute)

/-- One call; `none` if it does not return. -/
def Call.step (env : Env) (w : World) (call : Call) : Option World :=
  match call.run env w with
  | .ok (_, w') => some w'
  | .error _ => none

end MesonDisplay.Settings
