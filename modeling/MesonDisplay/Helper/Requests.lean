/-
  MesonDisplay.Helper.Requests — what the requests of the client library do.

  A request is built by a function of the library, written as text, read by
  the server, and handled.  Here are the requests that change the state of the
  helper, from the arguments of the library function on.

  Main results:
    * `handle_setConnectorProperties` — the request sets the value of the named
      property on the listed HDMI connectors.
-/
import MesonDisplay.Helper.ConnectorCells
import MesonDisplay.Helper.Message
import MesonDisplay.Ipc.Client

namespace MesonDisplay.Helper

open MesonDisplay.LinkedList

/-! ## §1. Requests and replies. -/

/-- The request as the server reads it, handled: the state and the reply. -/
def exchange (jc : JsonC) (env : MessageEnv) (s : HelperState) (data : Option Json) :
    Except Fault (HelperState × Json) :=
  match data with
  | none => .ok (s, .null)
  | some data => mMessageHandle jc env s (jc.received data)

/-- The end of `send_cmd_sync`: the reply is put under "ret" and taken out. -/
def replyOf (out : Json) : Json :=
  (Json.objectAdd Json.newObject "ret" out).objectGet "ret"

/-! ## §2. Setting connector properties. -/

/-- The arguments of `drm_help_client_set_connector_properties`: a C string and
a `uint64_t`. -/
structure PropertyRequest where
  name : String
  value : Nat
  cString : isCString name = true
  bound : value < 2 ^ 64

/-- `drm_help_client_set_connector_properties`. -/
def PropertyRequest.data (r : PropertyRequest) : Option Json :=
  Ipc.setProperties (some "set connector range properties") (some r.name) r.value

/-- The object the library sends. -/
def PropertyRequest.object (r : PropertyRequest) : Json :=
  .object [("cmd", .string "set connector range properties"),
    ("value", .object [(r.name, .int (Ipc.toInt64 r.value))])]

theorem PropertyRequest.data_eq (r : PropertyRequest) : r.data = some r.object := rfl

theorem toInt64_bounds {value : Nat} (h : value < 2 ^ 64) :
    -2 ^ 63 ≤ Ipc.toInt64 value ∧ Ipc.toInt64 value < 2 ^ 63 := by
  unfold Ipc.toInt64
  by_cases hv : value < 2 ^ 63
  · rw [if_pos hv]
    omega
  · rw [if_neg hv]
    omega

/-- The conversion back to `uint64_t`. -/
theorem toInt64_mod {value : Nat} (h : value < 2 ^ 64) :
    (Ipc.toInt64 value % 2 ^ 64).toNat = value := by
  unfold Ipc.toInt64
  by_cases hv : value < 2 ^ 63
  · rw [if_pos hv]
    omega
  · rw [if_neg hv]
    omega

theorem PropertyRequest.isRequest (r : PropertyRequest) : r.object.IsRequest := by
  refine ⟨?_, rfl⟩
  have hb := toInt64_bounds r.bound
  have hcmd : isCString "cmd" = true := by decide
  have hvalue : isCString "value" = true := by decide
  simp only [PropertyRequest.object, Json.wf, Json.wfFields, r.cString, hcmd, hvalue]
  simp
  omega

/-! ## §3. Handling it. -/

/-- The number of a property of `connector_props`. -/
def propertyIndex (name : String) : Option Nat :=
  connectorProps.findIdx? (fun p => p.name = some name)

/-- A value for the named property of all HDMI connectors. -/
def setNamed (hdmi : Nat → Bool) (name : String) (value : Nat) (cells : List ConnectorCell) :
    List ConnectorCell :=
  match propertyIndex name with
  | none => cells
  | some i => setPending hdmi i value cells

theorem propertyIndex_lt {name : String} {i : Nat} (h : propertyIndex name = some i) :
    i < connectorProps.length :=
  (List.findIdx?_eq_some_iff_getElem.mp h).1

section Handle

variable {jc : JsonC} {s : HelperState} {cells : List ConnectorCell}

theorem setRangeProperty_spec (hg : jc.GetsInts) (env : MessageEnv) (r : PropertyRequest)
    (hrep : Represents s.connectorList cells) :
    ∃ s', setRangeProperty jc env s r.name (.int (Ipc.toInt64 r.value)) = .ok s' ∧
      s'.atomicModesetEnable = s.atomicModesetEnable ∧
      Represents s'.connectorList (setNamed (hdmiOf env.drm) r.name r.value cells) := by
  unfold setRangeProperty setNamed propertyIndex
  by_cases hempty : r.name = ""
  · -- no property has the empty name
    rw [if_pos hempty, hempty]
    exact ⟨s, rfl, rfl, hrep⟩
  · rw [if_neg hempty]
    cases hi : connectorProps.findIdx? (fun p => p.name = some r.name) with
    | none => exact ⟨s, rfl, rfl, hrep⟩
    | some i =>
        have hb := toInt64_bounds r.bound
        obtain ⟨h', pos, hrun, hrep'⟩ :=
          represents_set env.drm (propertyIndex_lt hi) r.value hrep
        have hlocked : (s.emit .lock).connectorList = s.connectorList := rfl
        simp only [hg.int64 _ hb.1 hb.2, toInt64_mod r.bound, lockedLoop, hlocked, hrun,
          ok_bind, ne_eq, not_true_eq_false, if_false]
        exact ⟨_, rfl, rfl, hrep'⟩

/-- **The request sets the property** of every listed HDMI connector. -/
theorem handle_setConnectorProperties (hr : jc.ReadsObjects) (hg : jc.GetsInts)
    (env : MessageEnv) (r : PropertyRequest) (hrep : Represents s.connectorList cells) :
    ∃ s', mMessageHandle jc env s (jc.received r.object) = .ok (s', .null) ∧
      s'.atomicModesetEnable = s.atomicModesetEnable ∧
      Represents s'.connectorList (setNamed (hdmiOf env.drm) r.name r.value cells) := by
  obtain ⟨s', hrun, henable, hrep'⟩ := setRangeProperty_spec hg env r hrep
  refine ⟨s', ?_, henable, hrep'⟩
  rw [hr.received_eq r.isRequest]
  have hget : jc.getString (.string "set connector range properties")
      = some "set connector range properties" := rfl
  have hcmd : r.object.objectGetEx "cmd" = some (.string "set connector range properties") := rfl
  have hopt : r.object.objectGet "value"
      = .object [(r.name, .int (Ipc.toInt64 r.value))] := rfl
  unfold mMessageHandle
  simp only [hcmd, hget, hopt, if_true]
  rw [if_neg (by decide), if_neg (by decide)]
  unfold handleSetRangeProperties setRangeProperties
  simp only [hrun, ok_bind, setRangeProperties]

end Handle

end MesonDisplay.Helper
