/-
  MesonDisplay.Helper.Message — m_message_handle and the state it works on.

  The compositor tells the helper about its outputs, its connectors and its
  callbacks through the `help_` functions; clients send requests, which the
  server thread gives to `m_message_handle`.  All of them work on one state
  here, the global variables of the source.  What the handling of requests and
  tasks does outside of it is recorded as effects: taking and releasing the
  mutex, and the calls of the callbacks.

  The functions are translated branch by branch.  A NULL string given to
  strcmp(), a loop over the members of something that is no object, a call of
  a callback that is NULL, and a failing assert() are faults.
-/
import MesonDisplay.Helper.ConnectorInfo
import MesonDisplay.Helper.TaskQueue

namespace MesonDisplay.Helper

open MesonDisplay.LinkedList

/-! ## §1. The state. -/

/-- `drm_helper_rect`. -/
structure DrmHelperRect where
  x : Int
  y : Int
  w : Nat
  h : Nat
  deriving DecidableEq, Repr

/-- `compositor_interface`: which of the callbacks are registered. -/
structure CompositorInterface where
  switchMode : Bool
  forceRefresh : Bool
  printInfo : Bool
  deriving DecidableEq, Repr

/-- What happens outside of the state. -/
inductive Effect where
  | lock
  | unlock
  | switchMode (output : Nat) (mode : DrmHelperMode)
  | forceRefresh (output : Nat)
  | printInfo (count : Int)
  deriving DecidableEq, Repr

/-- The global variables, and the effects so far. -/
structure HelperState where
  outputList : OutputHeap
  interface : CompositorInterface
  /-- `g_output`. -/
  output : Option Nat
  taskAfterRepaintCycle : HelperTaskQueue
  connectorList : ConnectorHeap
  uiViewportNeedModify : Bool
  uiViewport : DrmHelperRect
  displayMode : DrmModeModeInfo
  atomicModesetEnable : Bool
  effects : List Effect

/-- The state `start_help_worker` leaves. -/
def HelperState.init (atomicModesetEnable : Bool) : HelperState where
  outputList := outputHeapInit
  interface := ⟨false, false, false⟩
  output := none
  taskAfterRepaintCycle := .zero
  connectorList := connectorHeapInit
  uiViewportNeedModify := false
  uiViewport := ⟨0, 0, 0, 0⟩
  displayMode := ⟨"", 0, 0, 0, 0, 0, 0, 0, 0, 0, 0, 0, 0⟩
  atomicModesetEnable := atomicModesetEnable
  effects := []

def HelperState.emit (s : HelperState) (e : Effect) : HelperState :=
  { s with effects := s.effects ++ [e] }

/-! ## §2. Tasks. -/

/-- The loops that call a callback for every enabled output. -/
def callEnabled (call : Nat → Effect) (effects : List Effect) (n : OutputNode) :
    Except Fault (OutputNode × Loop (List Effect)) :=
  if n.enable then
    match n.data with
    | none => .error .assertion
    | some output => .ok (n, .continue (effects ++ [call output]))
  else .ok (n, .continue effects)

def forEachEnabled (call : Nat → Effect) (s : HelperState) : Except Fault HelperState := do
  let (h, effects, _) ← forEachOutput (callEnabled call) s.outputList s.effects
  .ok { s with outputList := h, effects := effects }

/-- The part of `process_task` under the mutex. -/
def switchModes (s : HelperState) (mode : DrmHelperMode) : Except Fault HelperState := do
  if s.interface.switchMode then
    let first ← load .badPointer s.outputList gOutputList
    if first.data.data ≠ none then forEachEnabled (.switchMode · mode) s
    else
      match s.output with
      | some output => .ok (s.emit (.switchMode output mode))
      | none => .ok s
  else .ok s

/-- `process_task`. -/
def processTask (jc : JsonC) (s : HelperState) (dataIn : Json) : Except Fault HelperState :=
  match dataIn.objectGetEx "cmd" with
  | none => .error .assertion
  | some tmp =>
      let opt := dataIn.objectGet "value"
      match jc.getString tmp with
      | none => .error .strcmpNull
      | some cmd =>
          if cmd = "set mode" then
            -- the string of a value is NULL only if the value is
            match jc.getString opt with
            | none => .error .assertion
            | some value =>
                match parseModestring value with
                | none => .ok s
                | some mode => do
                    let s ← switchModes (s.emit .lock) mode
                    .ok (s.emit .unlock)
          else .ok s

/-- The loop of `help_do_repaint_cycle_completed`. -/
def repaintLoop (jc : JsonC) : (fuel : Nat) → HelperState → Except Fault HelperState
  | 0, _ => .error .endless
  | fuel + 1, s =>
      match getTask s.taskAfterRepaintCycle with
      | none => .ok s
      | some (task, tasks) => do
          let s := { s with taskAfterRepaintCycle := tasks }
          let s ← if task.isNull then .ok s else processTask jc s task
          repaintLoop jc fuel s

/-- `help_do_repaint_cycle_completed`. -/
def helpDoRepaintCycleCompleted (jc : JsonC) (s : HelperState) : Except Fault HelperState :=
  repaintLoop jc maxTaskNum s

/-! ## §3. Requests. -/

/-- What the world answers while a request is handled. -/
structure MessageEnv where
  drm : Drm
  /-- `json_object_deep_copy` succeeds. -/
  copyOk : Bool

/-- libdrm reports nothing. -/
def MessageEnv.silent : MessageEnv where
  drm := ⟨fun _ => ⟨0, 0, 0, 0, 0, 0, [], [], []⟩, fun _ => none, fun _ => none⟩
  copyOk := true

/-- Trigger a refresh, for the next repaint. -/
def triggerRefresh (s : HelperState) : Except Fault HelperState := do
  if s.interface.forceRefresh then
    let first ← load .badPointer s.outputList gOutputList
    if first.data.data ≠ none then forEachEnabled .forceRefresh s else .ok s
  else .ok s

/-- "set mode". -/
def handleSetMode (jc : JsonC) (env : MessageEnv) (s : HelperState) (dataIn opt : Json) :
    Except Fault (HelperState × Json) :=
  match jc.getString opt with
  | none => .ok (s, .null)
  | some value =>
      match parseModestring value with
      | none => .ok (s, .null)
      | some _ => do
          let (tasks, scheduled) := scheduleTask env.copyOk s.taskAfterRepaintCycle dataIn
          let s := { s with taskAfterRepaintCycle := tasks }
          let s ← if scheduled then helpDoRepaintCycleCompleted jc s else .ok s
          let s ← triggerRefresh s
          .ok (s, .null)

/-- A loop over the connectors under the mutex. -/
def lockedLoop {σ : Type}
    (body : σ → ConnectorNode → Except Fault (ConnectorNode × Loop σ)) (s : HelperState)
    (init : σ) : Except Fault (HelperState × σ) := do
  let s := s.emit .lock
  let (h, out, _) ← forEachConnector body s.connectorList init
  .ok ({ s with connectorList := h }.emit .unlock, out)

/-- "get modes". -/
def handleGetModes (env : MessageEnv) (s : HelperState) :
    Except Fault (HelperState × Json) :=
  lockedLoop (getModesBody env.drm) s .newObject

/-- One member of the value of "set connector range properties". -/
def setRangeProperty (jc : JsonC) (env : MessageEnv) (s : HelperState) (name : String)
    (jsonValue : Json) : Except Fault HelperState :=
  if name = "" then .ok s
  else
    match connectorProps.findIdx? (fun p => p.name = some name) with
    | none => .ok s
    | some i =>
        let (value, errno) := jc.getInt64 jsonValue
        if errno ≠ 0 then .ok s
        else do
          let (s, _) ← lockedLoop (setRangeBody env.drm i (value % 2 ^ 64).toNat) s ()
          .ok s

/-- `json_object_object_foreach`. -/
def setRangeProperties (jc : JsonC) (env : MessageEnv) :
    HelperState → List (String × Json) → Except Fault HelperState
  | s, [] => .ok s
  | s, (name, jsonValue) :: fs => do
      let s ← setRangeProperty jc env s name jsonValue
      setRangeProperties jc env s fs

/-- "set connector range properties". -/
def handleSetRangeProperties (jc : JsonC) (env : MessageEnv) (s : HelperState) (opt : Json) :
    Except Fault (HelperState × Json) :=
  match opt with
  | .null => .ok (s, .null)
  | .object fs => do
      let s ← setRangeProperties jc env s fs
      .ok (s, .null)
  | _ => .error .foreachNonObject

/-- "get connector range properties". -/
def handleGetRangeProperties (jc : JsonC) (env : MessageEnv) (s : HelperState) (opt : Json) :
    Except Fault (HelperState × Json) :=
  match jc.getString opt with
  | none => .ok (s, .null)
  | some name =>
      if name = "" then .ok (s, .null)
      else lockedLoop (getRangeBody env.drm name) s .newObject

/-- "get display mode". -/
def getDisplayMode (s : HelperState) : Json :=
  addAll .newObject
    [("name", .string s.displayMode.name),
      ("vrefresh", newInt s.displayMode.vrefresh),
      ("hdisplay", newInt s.displayMode.hdisplay),
      ("vdisplay", newInt s.displayMode.vdisplay)]

/-- "get ui rect". -/
def getUiRect (s : HelperState) : Json :=
  addAll .newObject
    [("x", newInt s.uiViewport.x), ("y", newInt s.uiViewport.y),
      ("w", newInt s.uiViewport.w), ("h", newInt s.uiViewport.h)]

/-- "set ui rect".  `errno` is set to 0 once, so it keeps the first error. -/
def setUiRect (jc : JsonC) (s : HelperState) (opt : Json) : HelperState :=
  if opt.isNull then s
  else
    let (x, ex) := jc.getInt (opt.objectGet "x")
    let (y, ey) := jc.getInt (opt.objectGet "y")
    let (w, ew) := jc.getInt (opt.objectGet "w")
    let (h, eh) := jc.getInt (opt.objectGet "h")
    if ex = 0 ∧ ey = 0 ∧ ew = 0 ∧ eh = 0 then
      { s with
        uiViewport := ⟨toInt32 x, toInt32 y, toUInt32 w, toUInt32 h⟩
        uiViewportNeedModify := true }
    else s

/-- "get info". -/
def handleGetInfo (jc : JsonC) (s : HelperState) (opt : Json) :
    Except Fault (HelperState × Json) :=
  if s.interface.printInfo then .ok (s.emit (.printInfo (jc.getInt opt).1), .null)
  else .error .nullCallback

/-- `m_message_handle`: the state afterwards and `data_out`. -/
def mMessageHandle (jc : JsonC) (env : MessageEnv) (s : HelperState) (dataIn : Json) :
    Except Fault (HelperState × Json) :=
  match dataIn.objectGetEx "cmd" with
  | none => .ok (s, .null)
  | some tmp =>
      let opt := dataIn.objectGet "value"
      match jc.getString tmp with
      | none => .error .strcmpNull
      | some cmd =>
          if cmd = "set mode" then handleSetMode jc env s dataIn opt
          else if cmd = "get modes" then handleGetModes env s
          else if cmd = "set connector range properties" then
            handleSetRangeProperties jc env s opt
          else if cmd = "get connector range properties" then
            handleGetRangeProperties jc env s opt
          else if cmd = "get display mode" then .ok (s, getDisplayMode s)
          else if cmd = "get ui rect" then .ok (s, getUiRect s)
          else if cmd = "set ui rect" then .ok (setUiRect jc s opt, .null)
          else if cmd = "get " then .ok (s, .newObject)
          else if cmd = "get info" then handleGetInfo jc s opt
          else .ok (s, .null)

/-- A member of the request that sets nothing, and one that sets a property. -/
theorem setRangeProperty_cases {jc : JsonC} {env : MessageEnv} {s s' : HelperState}
    {name : String} {jsonValue : Json}
    (hrun : setRangeProperty jc env s name jsonValue = .ok s') :
    s' = s ∨ ∃ i u, name ≠ "" ∧
      connectorProps.findIdx? (fun p => p.name = some name) = some i ∧
      (jc.getInt64 jsonValue).2 = 0 ∧
      lockedLoop (setRangeBody env.drm i ((jc.getInt64 jsonValue).1 % 2 ^ 64).toNat) s ()
        = .ok (s', u) := by
  unfold setRangeProperty at hrun
  by_cases hname : name = ""
  · rw [if_pos hname] at hrun
    exact .inl (Except.ok.inj hrun).symm
  · rw [if_neg hname] at hrun
    cases hi : connectorProps.findIdx? (fun p => p.name = some name) with
    | none =>
        simp only [hi] at hrun
        exact .inl (Except.ok.inj hrun).symm
    | some i =>
        simp only [hi] at hrun
        by_cases herrno : (jc.getInt64 jsonValue).2 ≠ 0
        · rw [if_pos herrno] at hrun
          exact .inl (Except.ok.inj hrun).symm
        · rw [if_neg herrno] at hrun
          obtain ⟨⟨s₁, u⟩, hloop, hok⟩ := bind_eq_ok.mp hrun
          obtain rfl := Except.ok.inj hok
          exact .inr ⟨i, u, hname, rfl, not_not.mp herrno, hloop⟩

/-- What holds of the result of every handler, where its command is given,
holds of the result of `m_message_handle`. -/
theorem mMessageHandle_cases {jc : JsonC} {env : MessageEnv} {s : HelperState} {dataIn : Json}
    {P : Except Fault (HelperState × Json) → Prop}
    (absent : dataIn.objectGetEx "cmd" = none → P (.ok (s, .null)))
    (null : ∀ tmp, dataIn.objectGetEx "cmd" = some tmp → jc.getString tmp = none →
      P (.error .strcmpNull))
    (command : ∀ tmp cmd, dataIn.objectGetEx "cmd" = some tmp → jc.getString tmp = some cmd →
      (cmd = "set mode" → P (handleSetMode jc env s dataIn (dataIn.objectGet "value"))) ∧
      (cmd = "get modes" → P (handleGetModes env s)) ∧
      (cmd = "set connector range properties" →
        P (handleSetRangeProperties jc env s (dataIn.objectGet "value"))) ∧
      (cmd = "get connector range properties" →
        P (handleGetRangeProperties jc env s (dataIn.objectGet "value"))) ∧
      (cmd = "set ui rect" → P (.ok (setUiRect jc s (dataIn.objectGet "value"), .null))) ∧
      (cmd = "get info" → P (handleGetInfo jc s (dataIn.objectGet "value"))) ∧
      ∀ dataOut, P (.ok (s, dataOut))) :
    P (mMessageHandle jc env s dataIn) := by
  unfold mMessageHandle
  cases htmp : dataIn.objectGetEx "cmd" with
  | none => exact absent htmp
  | some tmp =>
      cases hcmd : jc.getString tmp with
      | none =>
          simp only [hcmd]
          exact null tmp htmp hcmd
      | some cmd =>
          obtain ⟨setMode, getModes, setRange, getRange, setUi, getInfo, reply⟩ :=
            command tmp cmd htmp hcmd
          simp only [hcmd]
          -- one case for every strcmp(), in the order of the source
          split_ifs with h₁ h₂ h₃ h₄ h₅ h₆ h₇ h₈ h₉
          · exact setMode h₁
          · exact getModes h₂
          · exact setRange h₃
          · exact getRange h₄
          · exact reply _
          · exact reply _
          · exact setUi h₇
          · exact reply _
          · exact getInfo h₉
          · exact reply _

/-! ## §4. The other functions. -/

/-- A call of the helper: by the compositor, or a request. -/
inductive HelperCall where
  | appendConnector (drm : Drm) (mallocOk : Bool) (connector : Option Nat)
  | updateConnector (drm : Drm) (mallocOk : Bool) (oldConnector newConnector : Option Nat)
  | deleteConnector (connector : Option Nat)
  | atomicReqAddProp (drm : Drm) (atomicAdd : Nat → Int)
  | setSwitchModeFunction (ctx : Option Nat) (registered : Bool)
  | setForceRefreshFunction (registered : Bool)
  | setPrintinfoFunction (registered : Bool)
  | updateUiLogicSizeInfo (w h : Nat)
  | updateDisplayModeInfo (mode : DrmModeModeInfo)
  | doRepaintCycleCompleted
  | updataCompositorOutput (callocOk : Bool) (older newer : Option Nat)
  | switchCompositorOutput (output : Option Nat) (enable : Bool)
  | message (env : MessageEnv) (dataIn : Json)

/-- `help_update_ui_logic_size_info`. -/
def helpUpdateUiLogicSizeInfo (s : HelperState) (w h : Nat) : HelperState :=
  if ¬ s.uiViewportNeedModify then { s with uiViewport := ⟨0, 0, w, h⟩ } else s

/-- One call that returns. -/
def HelperCall.run (jc : JsonC) (s : HelperState) : HelperCall → Except Fault HelperState
  | .appendConnector drm mallocOk connector => do
      let h ← helpAppendConnector drm mallocOk connector s.connectorList
      .ok { s with connectorList := h }
  | .updateConnector drm mallocOk oldConnector newConnector => do
      let h ← helpUpdateConnector drm mallocOk oldConnector newConnector s.connectorList
      .ok { s with connectorList := h }
  | .deleteConnector connector => do
      let h ← helpDeleteConnector connector s.connectorList
      .ok { s with connectorList := h }
  | .atomicReqAddProp drm atomicAdd => do
      let (h, _) ← helpAtomicReqAddProp drm atomicAdd s.atomicModesetEnable s.connectorList
      .ok { s with connectorList := h }
  | .setSwitchModeFunction ctx registered =>
      .ok { s with interface := { s.interface with switchMode := registered }, output := ctx }
  | .setForceRefreshFunction registered =>
      .ok { s with interface := { s.interface with forceRefresh := registered } }
  | .setPrintinfoFunction registered =>
      .ok { s with interface := { s.interface with printInfo := registered } }
  | .updateUiLogicSizeInfo w h => .ok (helpUpdateUiLogicSizeInfo s w h)
  | .updateDisplayModeInfo mode => .ok { s with displayMode := mode }
  | .doRepaintCycleCompleted => helpDoRepaintCycleCompleted jc s
  | .updataCompositorOutput callocOk older newer => do
      let h ← helpUpdataCompositorOutput callocOk older newer s.outputList
      .ok { s with outputList := h }
  | .switchCompositorOutput output enable => do
      let h ← helpSwitchCompositorOutput output enable s.outputList
      .ok { s with outputList := h }
  | .message env dataIn => do
      let (s, _) ← mMessageHandle jc env s dataIn
      .ok s

/-- The states that calls which all return lead to. -/
inductive HelperReachable (jc : JsonC) : HelperState → Prop where
  | init (atomicModesetEnable : Bool) : HelperReachable jc (.init atomicModesetEnable)
  | step {s s' : HelperState} (call : HelperCall) :
      HelperReachable jc s → call.run jc s = .ok s' → HelperReachable jc s'

end MesonDisplay.Helper
