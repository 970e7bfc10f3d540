/-
  MesonDisplay.Helper.ConnectorInfo — what a reply says about connectors.

  `dumpConnectorInfo` builds the object that "get modes" sends for one
  connector; "get connector range properties" sends one integer for each.
  Both are loops over the list of connectors.

  Main results:
    * `getModesBody_named`, `getRangeBody_named`, `setRangeBody_named` — on a
      node whose properties have their names the bodies of the loops return.
-/
import MesonDisplay.Helper.ConnectorList
import MesonDisplay.Helper.ModeString

namespace MesonDisplay.Helper

open MesonDisplay.LinkedList

/-! ## §1. Numbers and keys. -/

/-- `json_object_new_int`, whose argument is an `int32_t`. -/
def newInt (n : Int) : Json := .int (toInt32 n)

/-- `snprintf(buf, size, "%d", n)`. -/
def snprintfInt (size : Nat) (n : Int) : String :=
  String.ofList ((toString (toInt32 n)).toList.take (size - 1))

/-- The values under the keys "0", "1", ... -/
def numberedFrom (i : Nat) : List Json → Json → Json
  | [], object => object
  | x :: xs, object => numberedFrom (i + 1) xs (object.objectAdd (snprintfInt 8 i) x)

def numbered (xs : List Json) : Json := numberedFrom 0 xs .newObject

/-- Members that are added one by one. -/
def addAll (object : Json) (members : List (String × Json)) : Json :=
  members.foldl (fun o m => o.objectAdd m.1 m.2) object

/-! ## §2. dumpConnectorInfo. -/

/-- The object of one mode. -/
def dumpMode (mode : DrmModeModeInfo) : Json :=
  addAll .newObject
    [("name", .string mode.name),
      ("vrefresh", newInt mode.vrefresh),
      ("hdisplay", newInt mode.hdisplay),
      ("hsync_start", newInt mode.hsyncStart),
      ("hsync_end", newInt mode.hsyncEnd),
      ("htotal", newInt mode.htotal),
      ("vdisplay", newInt mode.vdisplay),
      ("vsync_start", newInt mode.vsyncStart),
      ("vsync_end", newInt mode.vsyncEnd),
      ("vtotal", newInt mode.vtotal),
      ("clock", newInt mode.clock),
      ("flags", newInt mode.flags),
      ("type", newInt mode.type)]

/-- `dumpConnectorInfo`; the properties of the node are updated on the way. -/
def dumpConnectorInfo (drm : Drm) (current : ConnectorNode) :
    Except Fault (ConnectorNode × Json) :=
  match current.data with
  | none => .ok (current, .newObject)
  | some c => do
      let connector := drm.connector c
      let current ← updateConnectorProps drm current
      .ok (current, addAll .newObject
        [("connection", newInt connector.connection),
          ("connection_type", newInt connector.connectorType),
          ("encoder_id", newInt connector.encoderId),
          ("mmWidth", newInt connector.mmWidth),
          ("mmHeight", newInt connector.mmHeight),
          ("count_props", newInt connector.props.length),
          ("props", numbered (connector.props.map (fun p => newInt p))),
          ("count_encoders", newInt connector.encoders.length),
          ("encoders", numbered (connector.encoders.map (fun e => newInt e))),
          ("count_modes", newInt connector.modes.length),
          ("modes", numbered (connector.modes.map dumpMode))])

/-- The loop of "get modes". -/
def getModesBody (drm : Drm) (dataOut : Json) (current : ConnectorNode) :
    Except Fault (ConnectorNode × Loop Json) :=
  match current.data with
  | none => .ok (current, .continue dataOut)
  | some c => do
      let (current, connector) ← dumpConnectorInfo drm current
      .ok (current, .continue
        (dataOut.objectAdd (snprintfInt 5 (drm.connector c).connectorId) connector))

/-! ## §3. Range properties. -/

/-- `is_hdmi_connector`. -/
def isHdmiConnector (drm : Drm) (current : ConnectorNode) : Bool :=
  match current.data with
  | none => false
  | some c =>
      (drm.connector c).connectorType = drmModeConnectorHdmia
        ∨ (drm.connector c).connectorType = drmModeConnectorHdmib

/-- `get_range_properties`: the value of the last property whose name contains
`name`, as an `int`; `status` if there is none. -/
def getRangeProperties (drm : Drm) (id : Nat) (name : String) (status : Int) : Int :=
  match drm.objectProperties id with
  | none => status
  | some props =>
      props.foldl (fun value p =>
        match drm.property p.1 with
        | none => value
        | some n => if strstr n name then toInt32 p.2 else value) status

/-- The loop of "get connector range properties". -/
def getRangeBody (drm : Drm) (name : String) (dataOut : Json) (current : ConnectorNode) :
    Except Fault (ConnectorNode × Loop Json) :=
  match current.data with
  | none => .ok (current, .continue dataOut)
  | some c =>
      let id := (drm.connector c).connectorId
      .ok (current, .continue
        (dataOut.objectAdd (snprintfInt 5 id) (newInt (getRangeProperties drm id name (-1)))))

/-- The loop of "set connector range properties" for the property number `i`. -/
def setRangeBody (drm : Drm) (i value : Nat) (s : Unit) (current : ConnectorNode) :
    Except Fault (ConnectorNode × Loop Unit) :=
  if ¬ isHdmiConnector drm current ∧
      (i = drmColorDepthCp ∨ i = drmColorSpaceCp ∨ i = drmConnectorPropertyCp) then
    .ok (current, .continue s)
  else
    match current.data with
    | none => .ok (current, .continue s)
    | some _ =>
        .ok ({ current with
          props := current.props.modify i (fun p =>
            { p with needChange := true, newValue := value }) }, .continue s)

/-! ## §4. The bodies return. -/

theorem getModesBody_named (drm : Drm) (s : Json) (n : ConnectorNode) (hn : Named n) :
    ∃ n' l, getModesBody drm s n = .ok (n', l) ∧ Named n' := by
  unfold getModesBody
  cases hc : n.data with
  | none => exact ⟨n, _, rfl, hn⟩
  | some c =>
      obtain ⟨n', hrun, -, hn'⟩ := updateConnectorProps_returns drm hc hn
      unfold dumpConnectorInfo
      simp only [hc, hrun, ok_bind]
      exact ⟨n', _, rfl, hn'⟩

theorem getRangeBody_named (drm : Drm) (name : String) (s : Json) (n : ConnectorNode)
    (hn : Named n) : ∃ n' l, getRangeBody drm name s n = .ok (n', l) ∧ Named n' := by
  unfold getRangeBody
  cases n.data with
  | none => exact ⟨n, _, rfl, hn⟩
  | some c => exact ⟨n, _, rfl, hn⟩

/-- An element behind a change of the element number `i`. -/
theorem mem_modify {α : Type} {l : List α} {f : α → α} {i : Nat} {p : α}
    (hp : p ∈ l.modify i f) : p ∈ l ∨ ∃ q, l[i]? = some q ∧ p = f q := by
  obtain ⟨j, hj⟩ := List.mem_iff_getElem?.mp hp
  rw [List.getElem?_modify] at hj
  obtain ⟨q, hq, rfl⟩ := Option.map_eq_some_iff.mp hj
  by_cases hij : i = j
  · subst hij
    rw [if_pos rfl]
    exact .inr ⟨q, hq, rfl⟩
  · rw [if_neg hij]
    exact .inl (List.mem_of_getElem? hq)

theorem setRangeBody_named (drm : Drm) (i value : Nat) (s : Unit) (n : ConnectorNode)
    (hn : Named n) : ∃ n' l, setRangeBody drm i value s n = .ok (n', l) ∧ Named n' := by
  unfold setRangeBody
  by_cases hhdmi : ¬ isHdmiConnector drm n ∧
      (i = drmColorDepthCp ∨ i = drmColorSpaceCp ∨ i = drmConnectorPropertyCp)
  · rw [if_pos hhdmi]
    exact ⟨n, _, rfl, hn⟩
  · rw [if_neg hhdmi]
    cases hc : n.data with
    | none => exact ⟨n, _, rfl, hn⟩
    | some c =>
        refine ⟨_, _, rfl, ?_⟩
        intro _ p hp
        have hnames := hn (by rw [hc]; simp)
        -- a property that is changed keeps its name
        rcases mem_modify hp with hp | ⟨q, hq, rfl⟩
        · exact hnames p hp
        · exact hnames q (List.mem_of_getElem? hq)

end MesonDisplay.Helper
