/-
  MesonDisplay.Client.Modes — the client's view of the connectors.

  `dump_modes` reads the reply to "get modes" into a list of connections, each
  with its list of modes.  The reply is built by `dumpConnectorInfo`, which
  says of itself that its format has to be the one the client resolves.

  Main results:
    * `dumpModes_dumpConnectorInfo` — what the client reads of a connector is
      the connector.
-/
import MesonDisplay.Helper.ReplyObjects
import MesonDisplay.Helper.Requests

namespace MesonDisplay.Client

open MesonDisplay.Helper
open MesonDisplay.LinkedList
open MesonDisplay.Json (jsonText jsonText_readsObjects jsonText_getsInts)

/-! ## §1. Reading a reply. -/

/-- `DRM_DISPLAY_MODE_LEN`. -/
def drmDisplayModeLen : Nat := 32

/-- `drm_output_mode`.  The name is the text in the array, without the zeroes
that fill it up. -/
structure DrmOutputMode where
  name : String
  width : Nat
  height : Nat
  refresh : Nat
  deriving DecidableEq, Repr

/-- `drm_connection_list`, but for the links. -/
structure DrmConnection where
  id : Int
  type : Int
  encoderId : Int
  mmWidth : Int
  mmHeight : Int
  countEncoders : Int
  countModes : Int
  modes : List DrmOutputMode
  deriving DecidableEq, Repr

/-- strncpy() into memory of zeroes. -/
def strncpy (s : String) (size : Nat) : String := String.ofList (s.toList.take size)

/-- `json_object_get_int` of a member. -/
def getMember (jc : JsonC) (j : Json) (key : String) : Int := (jc.getInt (j.objectGet key)).1

/-- `json_format_to_drm_output_mode`. -/
def jsonFormatToDrmOutputMode (jc : JsonC) (jMode : Json) : Option DrmOutputMode :=
  match jc.getString (jMode.objectGet "name") with
  | none => none
  | some name => some
      { name := strncpy name drmDisplayModeLen
        refresh := toUInt32 (getMember jc jMode "vrefresh")
        width := toUInt32 (getMember jc jMode "hdisplay")
        height := toUInt32 (getMember jc jMode "vdisplay") }

/-- The inner loop of `dump_modes`.  `n` counts the calls of calloc(), which
succeed as `callocOk` says. -/
def dumpModeList (jc : JsonC) (callocOk : Nat → Bool) :
    Nat → List (String × Json) → List DrmOutputMode × Nat
  | n, [] => ([], n)
  | n, (_, value) :: fs =>
      if callocOk n then
        match jsonFormatToDrmOutputMode jc value with
        | none => ([], n + 1)
        | some mode =>
            let (modes, n) := dumpModeList jc callocOk (n + 1) fs
            (mode :: modes, n)
      else ([], n + 1)

/-- The members of a connection that are read before its modes. -/
def readConnection (jc : JsonC) (val : Json) : DrmConnection where
  id := toInt32 (getMember jc val "connection")
  type := toInt32 (getMember jc val "connection_type")
  encoderId := toInt32 (getMember jc val "encoder_id")
  mmWidth := toInt32 (getMember jc val "mmWidth")
  mmHeight := toInt32 (getMember jc val "mmHeight")
  countEncoders := toInt32 (getMember jc val "count_encoders")
  countModes := toInt32 (getMember jc val "count_modes")
  modes := []

/-- The outer loop of `dump_modes`.  A connection without modes ends it. -/
def dumpConnections (jc : JsonC) (callocOk : Nat → Bool) :
    Nat → List (String × Json) → Except Fault (List DrmConnection)
  | _, [] => .ok []
  | n, (_, val) :: fs =>
      if callocOk n then
        match val.objectGet "modes" with
        | .null => .ok [readConnection jc val]
        | .object modes => do
            let (modes, n) := dumpModeList jc callocOk (n + 1) modes
            let rest ← dumpConnections jc callocOk n fs
            .ok ({ readConnection jc val with modes := modes } :: rest)
        | _ => .error .foreachNonObject
      else .ok []

/-- `dump_modes`; NULL is the empty list. -/
def dumpModes (jc : JsonC) (callocOk : Nat → Bool) (data : Json) :
    Except Fault (List DrmConnection) :=
  match data with
  | .null => .ok []
  | .object fs => dumpConnections jc callocOk 0 fs
  | _ => .error .foreachNonObject

/-! ## §2. What a connector looks like to the client. -/

/-- A mode, with 32-bit numbers. -/
def outputModeOf (mode : DrmModeModeInfo) : DrmOutputMode where
  name := mode.name
  width := mode.hdisplay % 2 ^ 32
  height := mode.vdisplay % 2 ^ 32
  refresh := mode.vrefresh % 2 ^ 32

/-- A connector, with 32-bit numbers, without its modes. -/
def connectionHeader (connector : DrmModeConnector) : DrmConnection where
  id := toInt32 connector.connection
  type := toInt32 connector.connectorType
  encoderId := toInt32 connector.encoderId
  mmWidth := toInt32 connector.mmWidth
  mmHeight := toInt32 connector.mmHeight
  countEncoders := toInt32 connector.encoders.length
  countModes := toInt32 connector.modes.length
  modes := []

/-- A connector with its modes. -/
def connectionOf (connector : DrmModeConnector) : DrmConnection :=
  { connectionHeader connector with modes := connector.modes.map outputModeOf }

/-! ## §3. The object of a connector. -/

/-- The members that `dumpConnectorInfo` adds. -/
def connectorMembers (connector : DrmModeConnector) : List (String × Json) :=
  [("connection", newInt connector.connection),
    ("connection_type", newInt connector.connectorType),
    ("encoder_id", newInt connector.encoderId),
    ("mmWidth", newInt connector.mmWidth),
    ("mmHeight", newInt connector.mmHeight),
    ("count_props", newInt connector.props.length),
    ("props", numbered (connector.props.map (fun p => newInt p))),
    ("count_encoders", newInt connector.encoders.length),
    ("encoders", numbered (connector.encoders.map (fun e => newInt e))),
    ("count_modes", newInt connector.modes.length),
    ("modes", numbered (connector.modes.map dumpMode))]

theorem dumpConnectorInfo_eq (drm : Drm) {n n' : ConnectorNode} {c : Nat}
    (hc : n.data = some c) (hrun : updateConnectorProps drm n = .ok n') :
    dumpConnectorInfo drm n = .ok (n', .object (connectorMembers (drm.connector c))) := by
  unfold dumpConnectorInfo
  simp only [hc, hrun, ok_bind]
  rfl

/-- The members of a mode. -/
def modeMembers (mode : DrmModeModeInfo) : List (String × Json) :=
  [("name", .string mode.name),
    ("vrefresh", newInt mode.vrefresh),
    ("hdisplay", newInt mode.hdisplay),
    ("hsync_start", newInt mode.hsyncStart),
    ("hsync_end", newInt mode.hsyncEnd),
    ("htotal", newInt mode.htotal),
    ("vdisplay", newInt mode.vdisplay),
    ("vsync_start", newInt mode.vsyncStart),
    ("vsync_end", newInt mode.vsyncEnd),
    ("vtotal", newInt mode.vtotal),
    ("clock", newInt mode.clock),
    ("flags", newInt mode.flags),
    ("type", newInt mode.type)]

theorem dumpMode_eq (mode : DrmModeModeInfo) : dumpMode mode = .object (modeMembers mode) :=
  addAll_distinct (modeMembers mode) [] (by
    show (["name", "vrefresh", "hdisplay", "hsync_start", "hsync_end", "htotal", "vdisplay",
      "vsync_start", "vsync_end", "vtotal", "clock", "flags", "type"] : List String).Nodup
    decide)

theorem wf_dumpMode (mode : DrmModeModeInfo) : (dumpMode mode).wf = true := by
  refine wf_addAll ?_ rfl
  simp only [List.forall_mem_cons, wf_newInt, and_true]
  refine ⟨⟨by decide, rfl⟩, by decide, by decide, by decide, by decide, by decide, by decide,
    by decide, by decide, by decide, by decide, by decide, by decide, ?_⟩
  exact fun _ h => absurd h List.not_mem_nil

theorem wf_connectorObject (connector : DrmModeConnector) :
    (Json.object (connectorMembers connector)).wf = true := by
  have hobject : Json.object (connectorMembers connector)
      = addAll .newObject (connectorMembers connector) := rfl
  have hints : ∀ ns : List Nat, (numbered (ns.map (fun n => newInt n))).wf = true := by
    intro ns
    apply wf_numbered
    intro x hx
    obtain ⟨n, -, rfl⟩ := List.mem_map.mp hx
    exact wf_newInt n
  have hmodes : (numbered (connector.modes.map dumpMode)).wf = true := by
    apply wf_numbered
    intro x hx
    obtain ⟨mode, -, rfl⟩ := List.mem_map.mp hx
    exact wf_dumpMode mode
  rw [hobject]
  refine wf_addAll ?_ rfl
  simp only [connectorMembers, List.forall_mem_cons, wf_newInt, hints, hmodes, and_true]
  refine ⟨by decide, by decide, by decide, by decide, by decide, by decide, by decide,
    by decide, by decide, by decide, by decide, ?_⟩
  exact fun _ h => absurd h List.not_mem_nil

/-! ## §4. Reading it. -/

section Read

variable {jc : JsonC}

theorem toUInt32_toInt32_mod (n : Nat) : toUInt32 (toInt32 n) = n % 2 ^ 32 := by
  unfold toUInt32 toInt32
  rw [Int.bmod_def]
  omega

theorem toInt32_toInt32 (n : Int) : toInt32 (toInt32 n) = toInt32 n := by
  have hb := toInt32_bounds n
  generalize toInt32 n = m at hb
  unfold toInt32
  rw [Int.bmod_def]
  omega

theorem getInt_newInt (hg : jc.GetsInts) (n : Int) : jc.getInt (newInt n) = (toInt32 n, 0) :=
  hg.int32 _ (toInt32_bounds n).1 (toInt32_bounds n).2

theorem getMember_newInt (hg : jc.GetsInts) {j : Json} {key : String} {n : Int}
    (h : j.objectGet key = newInt n) : getMember jc j key = toInt32 n := by
  unfold getMember
  rw [h, getInt_newInt hg]

theorem readConnection_object (hg : jc.GetsInts) (connector : DrmModeConnector) :
    readConnection jc (.object (connectorMembers connector)) = connectionHeader connector := by
  have hmember : ∀ key n, (Json.object (connectorMembers connector)).objectGet key = newInt n →
      toInt32 (getMember jc (.object (connectorMembers connector)) key) = toInt32 n := by
    intro key n h
    rw [getMember_newInt hg h, toInt32_toInt32]
  unfold readConnection connectionHeader
  rw [hmember "connection" connector.connection rfl,
    hmember "connection_type" connector.connectorType rfl,
    hmember "encoder_id" connector.encoderId rfl,
    hmember "mmWidth" connector.mmWidth rfl,
    hmember "mmHeight" connector.mmHeight rfl,
    hmember "count_encoders" connector.encoders.length rfl,
    hmember "count_modes" connector.modes.length rfl]

/-- A name that fits. -/
def NameFits (mode : DrmModeModeInfo) : Prop :=
  isCString mode.name = true ∧ mode.name.length < drmDisplayModeLen

theorem readMode_dumpMode (hg : jc.GetsInts) {mode : DrmModeModeInfo} (hname : NameFits mode) :
    jsonFormatToDrmOutputMode jc (dumpMode mode) = some (outputModeOf mode) := by
  rw [dumpMode_eq]
  have hget : (Json.object (modeMembers mode)).objectGet "name" = .string mode.name := rfl
  have hcopy : strncpy mode.name drmDisplayModeLen = mode.name := by
    unfold strncpy
    rw [List.take_of_length_le, String.ofList_toList]
    rw [String.length_toList]
    exact Nat.le_of_lt hname.2
  have hmember : ∀ key (n : Nat), (Json.object (modeMembers mode)).objectGet key = newInt n →
      toUInt32 (getMember jc (.object (modeMembers mode)) key) = n % 2 ^ 32 := by
    intro key n h
    rw [getMember_newInt hg h, toUInt32_toInt32_mod]
  unfold jsonFormatToDrmOutputMode outputModeOf
  rw [hget, JsonC.getString_string hname.1]
  simp only
  rw [hcopy, hmember "vrefresh" mode.vrefresh rfl, hmember "hdisplay" mode.hdisplay rfl,
    hmember "vdisplay" mode.vdisplay rfl]

/-- Modes with names that fit are read one by one. -/
theorem dumpModeList_modes (hg : jc.GetsInts) (modes : List DrmModeModeInfo) :
    ∀ {n i : Nat}, (∀ mode ∈ modes, NameFits mode) → ∃ n',
      dumpModeList jc (fun _ => true) n (numberedMembers i (modes.map dumpMode))
        = (modes.map outputModeOf, n') := by
  induction modes with
  | nil => exact fun {n i} _ => ⟨n, rfl⟩
  | cons mode modes ih =>
      intro n i hnames
      rw [List.forall_mem_cons] at hnames
      obtain ⟨n', hrest⟩ := ih (n := n + 1) (i := i + 1) hnames.2
      refine ⟨n', ?_⟩
      rw [List.map_cons, numberedMembers, dumpModeList, if_pos rfl,
        readMode_dumpMode hg hnames.1]
      simp only [hrest, List.map_cons]

/-- **Encode and decode.**  Of a connector with fewer than 10^7 modes, whose
names fit, the client reads what the connector says: one entry, in which there
is one mode for each mode of the connector, in order. -/
theorem dumpModes_dumpConnectorInfo (hr : jc.ReadsObjects) (hg : jc.GetsInts) (drm : Drm)
    {current : ConnectorNode} {c : Nat} (hc : current.data = some c) (hnamed : Named current)
    {key : String} (hkey : isCString key = true)
    (hlen : (drm.connector c).modes.length < 10 ^ 7)
    (hnames : ∀ mode ∈ (drm.connector c).modes, NameFits mode) :
    ∃ current' connector, dumpConnectorInfo drm current = .ok (current', connector) ∧
      dumpModes jc (fun _ => true)
          (replyOf (jc.received (Json.objectAdd .newObject key connector)))
        = .ok [connectionOf (drm.connector c)] ∧
      (connectionOf (drm.connector c)).countModes = (drm.connector c).modes.length := by
  obtain ⟨n', hrun, -, -⟩ := updateConnectorProps_returns drm hc hnamed
  have hcount : (connectionOf (drm.connector c)).countModes
      = (drm.connector c).modes.length := by
    have hlt : (drm.connector c).modes.length < 2 ^ 31 := by omega
    simp only [connectionOf, connectionHeader]
    rw [toInt32_natCast hlt]
  refine ⟨n', _, dumpConnectorInfo_eq drm hc hrun, ?_, hcount⟩
  have hrequest : (Json.objectAdd .newObject key
      (.object (connectorMembers (drm.connector c)))).IsRequest :=
    ⟨Json.wf_objectAdd hkey (wf_connectorObject _) rfl, rfl⟩
  have hmodes : (Json.object (connectorMembers (drm.connector c))).objectGet "modes"
      = .object (numberedMembers 0 ((drm.connector c).modes.map dumpMode)) := by
    rw [← numbered_eq (by rw [List.length_map]; omega)]
    rfl
  obtain ⟨n, hlist⟩ := dumpModeList_modes hg (drm.connector c).modes (n := 1) (i := 0) hnames
  rw [hr.received_eq hrequest]
  show dumpConnections jc (fun _ => true) 0
    [(key, .object (connectorMembers (drm.connector c)))] = _
  rw [dumpConnections, if_pos rfl, hmodes]
  simp only [hlist, dumpConnections, ok_bind, readConnection_object hg]
  rfl

end Read

/-- A connector with two modes. -/
def twoModes : DrmModeConnector where
  connectorId := 77
  connection := 1
  connectorType := drmModeConnectorHdmia
  encoderId := 4294967295
  mmWidth := 600
  mmHeight := 340
  props := [1, 2]
  encoders := [76]
  modes :=
    [⟨"1920x1080", 60, 1920, 2008, 2052, 2200, 1080, 1084, 1089, 1125, 148500, 5, 64⟩,
      ⟨"1280x720", 50, 1280, 1720, 1760, 1980, 720, 725, 730, 750, 74250, 5, 64⟩]

/-- libdrm knows this connector and no properties. -/
def drmTwoModes : Drm := ⟨fun _ => twoModes, fun _ => none, fun _ => none⟩

theorem two_modes_round_trip :
    ∃ current' connector,
      dumpConnectorInfo drmTwoModes ⟨some 5, connectorProps⟩ = .ok (current', connector) ∧
      dumpModes jsonText (fun _ => true)
          (replyOf (jsonText.received (Json.objectAdd .newObject "77" connector)))
        = .ok [connectionOf twoModes] ∧
      (connectionOf twoModes).countModes = 2 := by
  refine dumpModes_dumpConnectorInfo jsonText_readsObjects jsonText_getsInts drmTwoModes rfl
    (connectorProps_named _) (by decide) (by decide) ?_
  have hmodes : ∀ mode ∈ twoModes.modes, isCString mode.name = true ∧
      mode.name.length < drmDisplayModeLen := by decide
  exact hmodes

end MesonDisplay.Client
