/-
  MesonDisplay.Westeros.Setters — the setters that send a command to the console.

  A setter looks up the id of a connector or a crtc and the names of its
  properties, prints a command and sends it.  Most of them are one definition,
  `propertySetter`, with the properties and values that they print.

  Three keep the id of the crtc in an unsigned int, two do not look at what
  became of the command, and one has no return statement.

  Main results:
    * `setters_truthful_iff` — when the value of a setter says whether its command
      was sent and taken.
-/
import MesonDisplay.Ipc.SocketSend
import MesonDisplay.Settings.Process
import MesonDisplay.Westeros.Console

namespace MesonDisplay.Westeros

open MesonDisplay.Ipc (Completion)
open MesonDisplay.Settings (ConnectorType ColorSpace HdrPolicy HdcpContentType AspectRatio
  DisplayModeInfo)

/-! ## §1. What the library gives. -/

/-- `ENUM_MESON_DRM_PROP_NAME`, as far as it is asked for. -/
inductive DrmProp where
  | contentProtection
  | hdmiEnable
  | colorSpace
  | colorDepth
  | hdrPolicy
  | txHdrOff
  | hdcpVersion
  | dolbyVisionEnable
  | active
  | vrrEnabled
  | aspectRatio
  | dvMode
  | cvbsAvmute
  deriving DecidableEq, Repr

/-- What a setter meets. -/
structure Env where
  console : Console
  /-- `meson_drm_GetConnectorId`. -/
  connectorId : ConnectorType → Int32
  /-- `meson_drm_GetCrtcId`. -/
  crtcId : ConnectorType → Int32
  /-- `meson_drm_GetPropName`; `none` is NULL. -/
  propName : DrmProp → Option String

/-- The values of the enumerations. -/
def colorSpaceValue : ColorSpace → Int32
  | .rgb => 0
  | .ycbcr422 => 1
  | .ycbcr444 => 2
  | .ycbcr420 => 3
  | .reserved => 4
  | .other value => Int32.ofNat value

def hdrPolicyValue : HdrPolicy → Int32
  | .followSink => 0
  | .followSource => 1
  | .followForceMode => 2
  | .other value => Int32.ofNat value

def hdcpTypeValue : HdcpContentType → Int32
  | .type0 => 0
  | .type1 => 1
  | .reserved => 2
  | .other value => Int32.ofNat value

def aspectRatioValue : AspectRatio → Int32
  | .automatic => 0
  | .ratio4x3 => 1
  | .ratio16x9 => 2
  | .reserved => 3
  | .other value => Int32.ofNat value

/-- `DISPLAY_UNKNOWN_FMT` and `DISPLAY_BT709`. -/
def displayUnknownFmt : Int32 := 0

def displayBt709 : Int32 := 1

/-! ## §2. Sending a command. -/

/-- What a setter does: the command that it sends, and how it ends. -/
structure Setting where
  command : Option (List Char)
  completion : Completion

/-- Nothing is sent. -/
def Setting.failed : Setting := ⟨none, .returns (-1)⟩

/-- `rc = wstDisplaySendMessage(cmdBuf,resp)`, and `ret` from `rc`. -/
def sendChecked (env : Env) (cmdBuf : List Char) : Setting :=
  let (rc, _) := wstDisplaySendMessage env.console (some cmdBuf) (some [])
  ⟨some cmdBuf, .returns (if rc ≥ 0 then 0 else -1)⟩

/-- `wstDisplaySendMessage(cmdBuf,resp); ret = 0`. -/
def sendIgnored (_env : Env) (cmdBuf : List Char) : Setting := ⟨some cmdBuf, .returns 0⟩

/-- `%d`. -/
def printInt (n : Int32) : String := toString n.toInt

/-- `set property -s %d:%s:%d`, with one `-s` for each property. -/
def propertyCommand (id : Int32) (values : List (String × Int32)) : List Char :=
  snprintfCmd ("set property" ++ String.join (values.map fun (name, value) =>
    " -s " ++ printInt id ++ ":" ++ name ++ ":" ++ printInt value)).toList

/-- The names of some properties, unless one of them is NULL. -/
def propNames (env : Env) (values : List (DrmProp × Int32)) : Option (List (String × Int32)) :=
  values.mapM fun (prop, value) => (env.propName prop).map (·, value)

/-- A setter of properties; `found` is the check of the id. -/
def propertySetter (env : Env) (found : Bool) (id : Int32) (values : List (DrmProp × Int32))
    (send : Env → List Char → Setting) : Setting :=
  if found then
    match propNames env values with
    | none => .failed
    | some values => send env (propertyCommand id values)
  else .failed

/-! ## §3. The setters. -/

section Setters

variable (env : Env)

def setDisplayHDCPEnable (enable : Int32) (connType : ConnectorType) : Setting :=
  let connId := env.connectorId connType
  propertySetter env (connId > 0) connId [(.contentProtection, enable)] sendChecked

def setDisplayAVMute (mute : Int32) (connType : ConnectorType) : Setting :=
  let connId := env.connectorId connType
  propertySetter env (connId > 0) connId [(.hdmiEnable, mute)] sendChecked

/-- What became of the command is not looked at. -/
def setDisplayColorSpacedDepth (colorDepth : UInt32) (colorSpace : ColorSpace)
    (connType : ConnectorType) : Setting :=
  let connId := env.connectorId connType
  propertySetter env (connId > 0) connId
    [(.colorSpace, colorSpaceValue colorSpace), (.colorDepth, colorDepth.toInt32)] sendIgnored

def setDisplayHDRPolicy (hdrPolicy : HdrPolicy) (connType : ConnectorType) : Setting :=
  let crtcId := env.crtcId connType
  let forcemode := if hdrPolicy = .followForceMode then displayBt709 else displayUnknownFmt
  propertySetter env (crtcId > 0) crtcId
    [(.hdrPolicy, hdrPolicyValue hdrPolicy), (.txHdrOff, forcemode)] sendChecked

def setDisplayHDCPContentType (type : HdcpContentType) (connType : ConnectorType) : Setting :=
  let connId := env.connectorId connType
  propertySetter env (connId > 0) connId [(.hdcpVersion, hdcpTypeValue type)] sendChecked

/-- `crtcId` is a `uint32_t` here. -/
def setDisplayDvEnable (dvEnable : Int32) (connType : ConnectorType) : Setting :=
  let crtcId := (env.crtcId connType).toUInt32
  propertySetter env (crtcId > 0) crtcId.toInt32 [(.dolbyVisionEnable, dvEnable)] sendChecked

/-- And here. -/
def setDisplayActive (active : Int32) (connType : ConnectorType) : Setting :=
  let crtcId := (env.crtcId connType).toUInt32
  propertySetter env (crtcId > 0) crtcId.toInt32 [(.active, active)] sendChecked

/-- And here. -/
def setDisplayVrrEnabled (vrrEnable : Int32) (connType : ConnectorType) : Setting :=
  let crtcId := (env.crtcId connType).toUInt32
  propertySetter env (crtcId > 0) crtcId.toInt32 [(.vrrEnabled, vrrEnable)] sendChecked

/-- `set mode %dx%d%s%d`; `none` is NULL. -/
def setDisplayMode (modeInfo : Option DisplayModeInfo) (_connType : ConnectorType) : Setting :=
  match modeInfo with
  | none => .failed
  | some modeInfo =>
      sendChecked env (snprintfCmd ("set mode " ++ printInt (Int32.ofNat modeInfo.w) ++ "x"
        ++ printInt (Int32.ofNat modeInfo.h) ++ (if modeInfo.interlace then "i" else "p")
        ++ printInt (Int32.ofNat modeInfo.vrefresh)).toList)

def setDisplayAutoMode (_connType : ConnectorType) : Setting :=
  sendChecked env (snprintfCmd "set mode auto".toList)

def setDisplayAspectRatioValue (aspectRatio : AspectRatio) (connType : ConnectorType) : Setting :=
  let connId := env.connectorId connType
  propertySetter env (connId > 0) connId [(.aspectRatio, aspectRatioValue aspectRatio)] sendChecked

def setDisplayScaling (value : Int32) : Setting :=
  sendChecked env (snprintfCmd ("set scaling " ++ printInt value).toList)

def setDisplayEnabled (enabled : Int32) : Setting :=
  sendChecked env (snprintfCmd ("set display enable " ++ printInt enabled).toList)

/-- What became of the command is not looked at. -/
def setDisplayDvMode (dvmode : Int32) (connType : ConnectorType) : Setting :=
  let crtcId := env.crtcId connType
  propertySetter env (crtcId > 0) crtcId [(.dvMode, dvmode)] sendIgnored

/-- There is no return statement. -/
def setDisplayCvbsAVMute (mute : Bool) : Setting :=
  let connId := env.connectorId .cvbs
  { propertySetter env (connId > 0) connId [(.cvbsAvmute, if mute then 1 else 0)] sendChecked with
    completion := .fallsOff }

end Setters

/-- A call to one of the setters. -/
inductive SetterCall where
  | hdcpEnable (enable : Int32) (connType : ConnectorType)
  | avMute (mute : Int32) (connType : ConnectorType)
  | colorSpacedDepth (colorDepth : UInt32) (colorSpace : ColorSpace) (connType : ConnectorType)
  | hdrPolicy (hdrPolicy : HdrPolicy) (connType : ConnectorType)
  | hdcpContentType (type : HdcpContentType) (connType : ConnectorType)
  | dvEnable (dvEnable : Int32) (connType : ConnectorType)
  | active (active : Int32) (connType : ConnectorType)
  | vrrEnabled (vrrEnable : Int32) (connType : ConnectorType)
  | mode (modeInfo : Option DisplayModeInfo) (connType : ConnectorType)
  | autoMode (connType : ConnectorType)
  | aspectRatioValue (aspectRatio : AspectRatio) (connType : ConnectorType)
  | scaling (value : Int32)
  | enabled (enabled : Int32)
  | dvMode (dvmode : Int32) (connType : ConnectorType)
  | cvbsAVMute (mute : Bool)
  deriving DecidableEq, Repr

namespace SetterCall

def run (env : Env) : SetterCall → Setting
  | hdcpEnable enable connType => setDisplayHDCPEnable env enable connType
  | avMute mute connType => setDisplayAVMute env mute connType
  | colorSpacedDepth depth space connType => setDisplayColorSpacedDepth env depth space connType
  | hdrPolicy policy connType => setDisplayHDRPolicy env policy connType
  | hdcpContentType type connType => setDisplayHDCPContentType env type connType
  | dvEnable enable connType => setDisplayDvEnable env enable connType
  | active value connType => setDisplayActive env value connType
  | vrrEnabled enable connType => setDisplayVrrEnabled env enable connType
  | mode modeInfo connType => setDisplayMode env modeInfo connType
  | autoMode connType => setDisplayAutoMode env connType
  | aspectRatioValue ratio connType => setDisplayAspectRatioValue env ratio connType
  | scaling value => setDisplayScaling env value
  | enabled value => setDisplayEnabled env value
  | dvMode dvmode connType => setDisplayDvMode env dvmode connType
  | cvbsAVMute mute => setDisplayCvbsAVMute env mute

/-- The id that is looked up, as the library gives it. -/
def id? (env : Env) : SetterCall → Option Int32
  | hdcpEnable _ connType | avMute _ connType | colorSpacedDepth _ _ connType
  | hdcpContentType _ connType | aspectRatioValue _ connType => some (env.connectorId connType)
  | hdrPolicy _ connType | dvEnable _ connType | active _ connType | vrrEnabled _ connType
  | dvMode _ connType => some (env.crtcId connType)
  | cvbsAVMute _ => some (env.connectorId .cvbs)
  | mode _ _ | autoMode _ | scaling _ | enabled _ => none

/-- The properties whose names are looked up. -/
def props : SetterCall → List DrmProp
  | hdcpEnable _ _ => [.contentProtection]
  | avMute _ _ => [.hdmiEnable]
  | colorSpacedDepth _ _ _ => [.colorSpace, .colorDepth]
  | hdrPolicy _ _ => [.hdrPolicy, .txHdrOff]
  | hdcpContentType _ _ => [.hdcpVersion]
  | dvEnable _ _ => [.dolbyVisionEnable]
  | active _ _ => [.active]
  | vrrEnabled _ _ => [.vrrEnabled]
  | aspectRatioValue _ _ => [.aspectRatio]
  | dvMode _ _ => [.dvMode]
  | cvbsAVMute _ => [.cvbsAvmute]
  | mode _ _ | autoMode _ | scaling _ | enabled _ => []

end SetterCall

/-! ## §4. The value. -/

/-- A command is sent only for an id and names that were found, and the value is
0 exactly if one was sent and taken. -/
structure Truthful (env : Env) (left : Int) (id : Option Int32) (props : List DrmProp)
    (s : Setting) : Prop where
  sent_only : s.command ≠ none → (∀ i, id = some i → 0 < i) ∧ ∀ p ∈ props, env.propName p ≠ none
  zero_iff : s.completion.value left = 0 ↔
    ∃ command, s.command = some command ∧
      0 ≤ (wstDisplaySendMessage env.console (some command) (some [])).1

/-- The names are there. -/
theorem propNames_some_iff {env : Env} {values : List (DrmProp × Int32)} :
    (∃ names, propNames env values = some names) ↔
      ∀ p ∈ values.map Prod.fst, env.propName p ≠ none := by
  unfold propNames
  induction values with
  | nil => simp
  | cons v values ih =>
      rw [List.mapM_cons, List.map_cons, List.forall_mem_cons, ← ih]
      cases hname : env.propName v.1 with
      | none => simp [hname]
      | some name =>
          cases values.mapM fun (prop, value) => (env.propName prop).map (·, value) with
          | none => simp
          | some names => simp [hname]

section Truthful

variable {env : Env} {left : Int} {id : Option Int32} {props : List DrmProp}

theorem truthful_failed : Truthful env left id props .failed where
  sent_only := fun h => absurd rfl h
  zero_iff := by
    constructor
    · exact fun h => absurd (show (-1 : Int) = 0 from h) (by decide)
    · rintro ⟨command, hnone, -⟩
      exact absurd hnone (by simp [Setting.failed])

/-- The command that is sent is taken if there is a response. -/
theorem exists_sent_iff (cmdBuf : List Char) :
    (∃ command, some cmdBuf = some command ∧
        0 ≤ (wstDisplaySendMessage env.console (some command) (some [])).1) ↔
      env.console.reply cmdBuf ≠ none := by
  rw [← sent_iff env.console cmdBuf []]
  constructor
  · rintro ⟨command, hcommand, h⟩
    obtain rfl := Option.some.inj hcommand
    exact h
  · exact fun h => ⟨cmdBuf, rfl, h⟩

theorem truthful_sendChecked (hid : ∀ i, id = some i → 0 < i)
    (hprops : ∀ p ∈ props, env.propName p ≠ none) (cmdBuf : List Char) :
    Truthful env left id props (sendChecked env cmdBuf) where
  sent_only := fun _ => ⟨hid, hprops⟩
  zero_iff := by
    refine Iff.trans ?_ (exists_sent_iff cmdBuf).symm
    rw [← sent_iff env.console cmdBuf []]
    show (if (wstDisplaySendMessage env.console (some cmdBuf) (some [])).1 ≥ 0 then (0 : Int)
      else -1) = 0 ↔ _
    split_ifs with hrc
    · exact iff_of_true rfl hrc
    · exact iff_of_false (by decide) hrc

theorem truthful_sendIgnored_iff (hid : ∀ i, id = some i → 0 < i)
    (hprops : ∀ p ∈ props, env.propName p ≠ none) (cmdBuf : List Char) :
    Truthful env left id props (sendIgnored env cmdBuf) ↔ env.console.reply cmdBuf ≠ none := by
  constructor
  · exact fun h => (exists_sent_iff cmdBuf).mp (h.zero_iff.mp rfl)
  · exact fun h => ⟨fun _ => ⟨hid, hprops⟩, iff_of_true rfl ((exists_sent_iff cmdBuf).mpr h)⟩

end Truthful

/-! ## §5. The family. -/

section Family

variable {env : Env} {found : Bool} {i : Int32} {values : List (DrmProp × Int32)}
  {send : Env → List Char → Setting}

theorem propertySetter_sent {names : List (String × Int32)} (hfound : found = true)
    (hnames : propNames env values = some names) :
    propertySetter env found i values send = send env (propertyCommand i names) := by
  unfold propertySetter
  rw [if_pos hfound, hnames]

theorem propertySetter_failed
    (h : found = true → ¬ ∃ names, propNames env values = some names) :
    propertySetter env found i values send = .failed := by
  unfold propertySetter
  split_ifs with hfound
  · cases hnames : propNames env values with
    | none => rfl
    | some names => exact absurd ⟨names, hnames⟩ (h hfound)
  · rfl

/-- A setter that looks at what became of its command: its check must find out
ids that are not positive, if the names are there. -/
theorem checked_iff (i id : Int32) (values : List (DrmProp × Int32)) :
    (∀ left, Truthful env left (some id) (values.map Prod.fst)
        (propertySetter env found i values sendChecked)) ↔
      (found = true → (∀ p ∈ values.map Prod.fst, env.propName p ≠ none) → 0 < id) := by
  by_cases hsent : found = true ∧ ∃ names, propNames env values = some names
  · obtain ⟨hfound, names, hnames⟩ := hsent
    have hprops := propNames_some_iff.mp ⟨names, hnames⟩
    rw [propertySetter_sent hfound hnames]
    constructor
    · exact fun h _ _ => ((h 0).sent_only (by simp [sendChecked])).1 id rfl
    · intro hpos left
      refine truthful_sendChecked ?_ hprops _
      intro j hj
      obtain rfl := Option.some.inj hj
      exact hpos hfound hprops
  · rw [propertySetter_failed fun hfound hnames => hsent ⟨hfound, hnames⟩]
    refine iff_of_true (fun left => truthful_failed) ?_
    intro hfound hprops
    exact absurd ⟨hfound, propNames_some_iff.mpr hprops⟩ hsent

/-- What is sent is taken. -/
def Answered (env : Env) (id : Int32) (values : List (DrmProp × Int32)) : Prop :=
  0 < id → ∀ names, propNames env values = some names →
    env.console.reply (propertyCommand id names) ≠ none

/-- A setter that does not: its command must be taken. -/
theorem ignored_iff (id : Int32) (values : List (DrmProp × Int32)) :
    (∀ left, Truthful env left (some id) (values.map Prod.fst)
        (propertySetter env (id > 0) id values sendIgnored)) ↔ Answered env id values := by
  unfold Answered
  by_cases hsent : decide (id > 0) = true ∧ ∃ names, propNames env values = some names
  · obtain ⟨hfound, names, hnames⟩ := hsent
    have hpos : 0 < id := of_decide_eq_true hfound
    have hid : ∀ j, some id = some j → 0 < j := by
      intro j hj
      obtain rfl := Option.some.inj hj
      exact hpos
    have hsend : ∀ left, Truthful env left (some id) (values.map Prod.fst)
        (sendIgnored env (propertyCommand id names)) ↔
          env.console.reply (propertyCommand id names) ≠ none :=
      fun left => truthful_sendIgnored_iff hid (propNames_some_iff.mp ⟨names, hnames⟩) _
    rw [propertySetter_sent hfound hnames]
    constructor
    · intro h _ names' hnames'
      rw [hnames] at hnames'
      obtain rfl := Option.some.inj hnames'
      exact (hsend 0).mp (h 0)
    · exact fun h left => (hsend left).mpr (h hpos names hnames)
  · rw [propertySetter_failed fun hfound hnames => hsent ⟨hfound, hnames⟩]
    refine iff_of_true (fun left => truthful_failed) ?_
    intro hpos names hnames
    exact absurd ⟨decide_eq_true hpos, names, hnames⟩ hsent

/-- A setter that keeps the id without its sign. -/
theorem unsigned_iff {id : Int32} {prop : DrmProp} {value : Int32} :
    (∀ left, Truthful env left (some id) [prop]
        (propertySetter env (id.toUInt32 > 0) i [(prop, value)] sendChecked)) ↔
      0 ≤ id ∨ env.propName prop = none := by
  have hfound : decide (id.toUInt32 > 0) = true ↔ id ≠ 0 := by
    rw [decide_eq_true_iff]
    show 0 < id.toUInt32 ↔ id ≠ 0
    rw [UInt32.pos_iff_ne_zero]
    refine not_congr ⟨fun h => ?_, fun h => by rw [h]; rfl⟩
    rw [← Int32.toInt32_toUInt32 id, h]
    rfl
  refine Iff.trans (checked_iff i id [(prop, value)]) ?_
  rw [hfound]
  simp only [List.map_cons, List.map_nil, List.forall_mem_singleton]
  constructor
  · intro h
    by_cases hname : env.propName prop = none
    · exact .inr hname
    · by_cases hid : id = 0
      · exact .inl (by rw [hid]; exact Int32.le_refl 0)
      · exact .inl (Int32.le_of_lt (h hid hname))
  · rintro (hle | hname) hid hsome
    · exact Int32.lt_of_le_of_ne hle (Ne.symm hid)
    · exact absurd hname hsome

/-- What is left where a value should be may be 0, and may be something else. -/
theorem fallsOff_never {id : Option Int32} {props : List DrmProp} {s : Setting}
    (hs : s.completion = .fallsOff) : ¬ ∀ left, Truthful env left id props s := by
  intro h
  have hzero := (h 0).zero_iff
  have hone := (h 1).zero_iff
  rw [hs] at hzero hone
  exact absurd (hone.mpr (hzero.mp rfl)) (by decide)

end Family

/-- When a setter tells the truth. -/
def SetterCall.Meets (env : Env) : SetterCall → Prop
  | dvEnable _ connType => 0 ≤ env.crtcId connType ∨ env.propName .dolbyVisionEnable = none
  | active _ connType => 0 ≤ env.crtcId connType ∨ env.propName .active = none
  | vrrEnabled _ connType => 0 ≤ env.crtcId connType ∨ env.propName .vrrEnabled = none
  | colorSpacedDepth depth space connType =>
      Answered env (env.connectorId connType)
        [(.colorSpace, colorSpaceValue space), (.colorDepth, depth.toInt32)]
  | dvMode dvmode connType => Answered env (env.crtcId connType) [(.dvMode, dvmode)]
  | cvbsAVMute _ => False
  | _ => True

/-- **Setters that tell the truth.** -/
theorem setters_truthful_iff (env : Env) (c : SetterCall) :
    (∀ left, Truthful env left (c.id? env) c.props (c.run env)) ↔ c.Meets env := by
  have hchecked : ∀ (id : Int32) (values : List (DrmProp × Int32)),
      (∀ left, Truthful env left (some id) (values.map Prod.fst)
        (propertySetter env (id > 0) id values sendChecked)) ↔ True :=
    fun id values => iff_of_true ((checked_iff id id values).mpr fun hid _ => of_decide_eq_true hid) trivial
  have hplain : ∀ cmdBuf : List Char,
      (∀ left, Truthful env left none [] (sendChecked env cmdBuf)) ↔ True :=
    fun cmdBuf => iff_of_true (fun left => truthful_sendChecked (by simp) (by simp) cmdBuf) trivial
  cases c with
  | hdcpEnable enable connType => exact hchecked _ [(.contentProtection, enable)]
  | avMute mute connType => exact hchecked _ [(.hdmiEnable, mute)]
  | colorSpacedDepth depth space connType =>
      exact ignored_iff _ [(.colorSpace, _), (.colorDepth, _)]
  | hdrPolicy policy connType => exact hchecked _ [(.hdrPolicy, _), (.txHdrOff, _)]
  | hdcpContentType type connType => exact hchecked _ [(.hdcpVersion, _)]
  | dvEnable enable connType => exact unsigned_iff
  | active value connType => exact unsigned_iff
  | vrrEnabled enable connType => exact unsigned_iff
  | mode modeInfo connType =>
      cases modeInfo with
      | none => exact iff_of_true (fun left => truthful_failed) trivial
      | some modeInfo => exact hplain _
  | autoMode connType => exact hplain _
  | aspectRatioValue ratio connType => exact hchecked _ [(.aspectRatio, _)]
  | scaling value => exact hplain _
  | enabled value => exact hplain _
  | dvMode dvmode connType => exact ignored_iff _ [(.dvMode, dvmode)]
  | cvbsAVMute mute => exact iff_of_false (fallsOff_never rfl) not_false

/-- The console cannot be started. -/
def silentEnv : Env :=
  ⟨⟨none, fun _ _ => none⟩, fun _ => 5, fun _ => 7, fun _ => some "dv_mode"⟩

/-- Nothing is sent, and the mode counts as set. -/
theorem dvMode_not_sent :
    ((SetterCall.dvMode 1 .hdmia).run silentEnv).completion.value 0 = 0 ∧
    ¬ Truthful silentEnv 0 ((SetterCall.dvMode 1 .hdmia).id? silentEnv)
      (SetterCall.dvMode 1 .hdmia).props ((SetterCall.dvMode 1 .hdmia).run silentEnv) := by
  refine ⟨rfl, ?_⟩
  intro htruth
  obtain ⟨command, -, hsent⟩ := htruth.zero_iff.mp rfl
  exact absurd hsent (by rw [sent_iff]; exact not_not_intro rfl)

end MesonDisplay.Westeros
