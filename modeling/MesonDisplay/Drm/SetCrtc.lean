/-
  MesonDisplay.Drm.SetCrtc — the program that sets a mode without a compositor.

  extension/drm/drm_setcrtc.c: `main` scans the card until the connector has a
  mode as asked for, sets it with one atomic request and stays as a service
  until a signal stops it.  The answers of the card and the signals are the
  events of a run.  The options are those behind `getopt`; the device is open.

  Main results:
    * `setProperty_ok`, `setProperty_error` — which property a name stands for,
      and when the search follows a null pointer.
-/
import MesonDisplay.Drm.Resources

namespace MesonDisplay.Drm

variable {α : Type}

/-! ## §1. Finding a mode. -/

def DRM_MODE_TYPE_PREFERRED : UInt32 := 8

/-- Follow a pointer. -/
def deref (pointer : Option α) : Except Fault α :=
  match pointer with
  | none => .error .null
  | some x => .ok x

def findConnector (conId : UInt32) :
    List (Object ModeConnector) → Except Fault (Option ModeConnector)
  | [] => .ok none
  | c :: connectors => do
      let connector ← deref c.object
      if connector.connectorId = conId then return some connector
      else findConnector conId connectors

/-- The test of the loop over the modes. -/
def fitsMode (modeStr : String) (vrefresh : UInt32) (mode : ModeInfo) : Bool :=
  if modeStr = "" then mode.type &&& DRM_MODE_TYPE_PREFERRED ≠ 0
  else mode.name = modeStr && (vrefresh = 0 || mode.vrefresh = vrefresh)

def connectorFindMode (connectors : List (Object ModeConnector)) (conId : UInt32)
    (modeStr : String) (vrefresh : UInt32) : Except Fault (Option ModeInfo) := do
  match ← findConnector conId connectors with
  | none => return none
  | some connector => return connector.modes.find? (fitsMode modeStr vrefresh)

/-! ## §2. Adding a property. -/

/-- The macro find_object: the last object with the id. -/
def findObject (id : α → UInt32) (objId : UInt32) (found : Option (Object α)) :
    List (Object α) → Except Fault (Option (Object α))
  | [] => .ok found
  | o :: objects => do
      let x ← deref o.object
      findObject id objId (if id x = objId then some o else found) objects

/-- The loop over the properties of an object. -/
def findName (name : String) : List UInt32 → Option (List (Option PropertyRes)) →
    Except Fault (Option UInt32)
  | [], _ => .ok none
  | _ :: _, none => .error .null
  | props, some infos =>
      .ok (((props.zip infos).find? fun p => p.2.any (·.name = name)).map Prod.fst)

/-- The property of an object that was found. -/
def objectProperty (name : String) (o : Object α) : Except Fault (Option UInt32) :=
  match o.props with
  | none => .ok none
  | some props => findName name props o.propsInfo

/-- The property that `set_property` adds to the request. -/
def setProperty (r : Resources) (objId : UInt32) (name : String) :
    Except Fault (Option UInt32) := do
  let res ← deref r.res
  match ← findObject ModeCrtc.crtcId objId none (← res.crtcs.walk) with
  | some crtc => objectProperty name crtc
  | none =>
  match ← findObject ModeConnector.connectorId objId none (← res.connectors.walk) with
  | some connector => objectProperty name connector
  | none =>
  let planes ← deref r.planes
  match ← findObject ModePlane.planeId objId none (← planes.walk) with
  | some plane => objectProperty name plane
  | none => return none

/-- An entry of an atomic request. -/
structure Item where
  objId : UInt32
  propId : UInt32
  value : UInt64
  deriving DecidableEq

/-- `add_property`; `added` says that the library has room for the entry. -/
def addProperty (r : Resources) (objId : UInt32) (name : String) (value : UInt64) (added : Bool)
    (req : List Item) : Except Fault (List Item) := do
  match ← setProperty r objId name with
  | none => return req
  | some propId =>
      return if added then req ++ [{ objId := objId, propId := propId, value := value }] else req

/-! ## §3. The program. -/

structure Options where
  displayMode : String
  displayRefresh : UInt32
  connectorId : Int32
  crtcId : Int32
  runAsService : Bool

inductive Pc where
  | rescan
  | condition
  | after
  | commit
  | service
  | out
  | exited
  | fault
  deriving DecidableEq

/-- What the calls around the request return: the blob's id, 0 if there is none,
whether each entry was added, and the result of the commit. -/
structure Answers where
  blob : UInt32
  added : Bool × Bool × Bool
  commit : Int
  deriving DecidableEq

/-- A request that was committed, with the mode of its blob. -/
structure Commit where
  mode : ModeInfo
  answers : Answers
  request : List Item

/-- The state of `main`.  Resources and the pointer to a mode have the number of
the scan whose memory they are; `scans` and `freed` are what happened so far. -/
structure Main where
  connectorId : Int32
  crtcId : Int32
  resources : Option (Nat × Resources)
  mode : Option (Nat × ModeInfo)
  needWait : Bool
  userStop : Bool
  ret : Int
  pc : Pc
  committed : Option Commit
  scans : List Scan
  freed : List (Nat × Block)

def Main.start (o : Options) : Main where
  connectorId := o.connectorId
  crtcId := o.crtcId
  resources := none
  mode := none
  needWait := false
  userStop := false
  ret := 0
  pc := .rescan
  committed := none
  scans := []
  freed := []

/-- `free_resources`, if there are any. -/
def Main.release (m : Main) : Except Fault Main :=
  match m.resources with
  | none => .ok m
  | some (n, r) =>
      (freeResources r).map fun freed =>
        { m with resources := none, freed := m.freed ++ freed.map (Prod.mk n) }

/-- The crtcs and connectors, if there is one of each. -/
def Resources.usable (r : Resources) :
    Except Fault (Option (List (Object ModeCrtc) × List (Object ModeConnector))) := do
  let res ← deref r.res
  if res.crtcs.items.length < 1 ∨ res.connectors.items.length < 1 then return none
  else return some (res.crtcs.items, res.connectors.items)

/-- The id of the first object, if none was given. -/
def chooseId (id : Int32) (first : Option UInt32) : Except Fault Int32 :=
  if id = -1 then (deref first).map UInt32.toInt32 else .ok id

/-- From the default ids on. -/
def Main.choose (o : Options) (m : Main) (n : Nat) (crtcs : List (Object ModeCrtc))
    (connectors : List (Object ModeConnector)) : Except Fault Main := do
  let connectorId ← chooseId m.connectorId
    ((connectors.head?.bind Object.object).map ModeConnector.connectorId)
  let crtcId ← chooseId m.crtcId ((crtcs.head?.bind Object.object).map ModeCrtc.crtcId)
  let mode ← connectorFindMode connectors connectorId.toUInt32 o.displayMode o.displayRefresh
  return { m with
    connectorId := connectorId
    crtcId := crtcId
    mode := mode.map (Prod.mk n)
    needWait := mode.isNone
    pc := .condition }

/-- The branch of a scan without crtc or connector. -/
def Main.unusable (m : Main) : Main :=
  { m with ret := -1, needWait := true, pc := .condition }

/-- What follows a scan. -/
def Main.scanned (o : Options) (m : Main) (n : Nat) : Scan → Except Fault Main
  | .fault => .ok { m with pc := .fault }
  | .nothing => .ok m.unusable
  | .failed _ freed => .ok { m with freed := m.freed ++ freed.map (Prod.mk n) }.unusable
  | .returned r => do
      let m := { m with resources := some (n, r) }
      match ← r.usable with
      | none => return m.unusable
      | some (crtcs, connectors) => m.choose o n crtcs connectors

/-- The body of the loop. -/
def Main.rescan (o : Options) (m : Main) (card : Card) : Except Fault Main := do
  let m ← m.release
  let s := getResources card
  { m with scans := m.scans ++ [s] }.scanned o m.scans.length s

/-- The request with its commit.  The mode has to be in memory that is live. -/
def Main.commit (o : Options) (m : Main) (a : Answers) : Except Fault Main := do
  let (n, r) ← deref m.resources
  let (k, mode) ← deref m.mode
  if k ≠ n then .error .null
  else
    let connectorId := m.connectorId.toUInt32
    let crtcId := m.crtcId.toUInt32
    let req ← addProperty r connectorId "CRTC_ID" m.crtcId.toInt64.toUInt64 a.added.1 []
    let req ← addProperty r crtcId "MODE_ID" a.blob.toUInt64 a.added.2.1 req
    let req ← addProperty r crtcId "ACTIVE" 1 a.added.2.2 req
    return { m with
      committed := some { mode := mode, answers := a, request := req }
      ret := a.commit
      pc := if a.commit ≠ 0 ∨ o.runAsService = false then .out else .service }

inductive Event where
  | scan (card : Card)
  | commit (answers : Answers)
  | go
  | signal

/-- A step that follows a null pointer ends in the fault. -/
def Main.orFault (m : Main) (next : Except Fault Main) : Main :=
  match next with
  | .error _ => { m with pc := .fault }
  | .ok m' => m'

/-- The tests and the end of the program. -/
def Main.go (m : Main) : Option Main :=
  match m.pc with
  | .condition => some { m with pc := if m.needWait && !m.userStop then .rescan else .after }
  | .after => some { m with pc := if m.userStop then .out else .commit }
  | .service => some { m with pc := if m.userStop then .out else .service }
  | .out => some (m.orFault (m.release.map fun m => { m with pc := .exited }))
  | _ => none

def Main.step (o : Options) (m : Main) : Event → Option Main
  | .scan card => if m.pc = .rescan then some (m.orFault (m.rescan o card)) else none
  | .commit a => if m.pc = .commit then some (m.orFault (m.commit o a)) else none
  | .go => m.go
  | .signal =>
      if m.pc = .exited ∨ m.pc = .fault then none else some { m with userStop := true }

/-! ## §4. What the searches find. -/

/-- The mode of the first connector with the id that the options ask for. -/
def wantedMode (connectors : List (Object ModeConnector)) (conId : UInt32) (o : Options) :
    Option ModeInfo :=
  ((connectors.filterMap Object.object).find? (·.connectorId = conId)).bind fun connector =>
    connector.modes.find? (fitsMode o.displayMode o.displayRefresh)

theorem findConnector_ok {connectors : List (Object ModeConnector)} (conId : UInt32)
    (hall : ∀ c ∈ connectors, c.object.isSome = true) :
    findConnector conId connectors =
      .ok ((connectors.filterMap Object.object).find? (·.connectorId = conId)) := by
  induction connectors with
  | nil => rfl
  | cons c connectors ih =>
      obtain ⟨hc, hrest⟩ := List.forall_mem_cons.mp hall
      obtain ⟨connector, hconnector⟩ := Option.isSome_iff_exists.mp hc
      rw [List.filterMap_cons_some hconnector]
      simp only [findConnector, hconnector, deref]
      by_cases hid : connector.connectorId = conId
      · rw [List.find?_cons_of_pos (by simpa using hid)]
        simp only [ok_bind, hid, ↓reduceIte]
        rfl
      · rw [List.find?_cons_of_neg (by simpa using hid)]
        simp only [ok_bind, hid, ↓reduceIte]
        exact ih hrest

theorem connectorFindMode_ok {connectors : List (Object ModeConnector)} (conId : UInt32)
    (o : Options) (hall : ∀ c ∈ connectors, c.object.isSome = true) :
    connectorFindMode connectors conId o.displayMode o.displayRefresh =
      .ok (wantedMode connectors conId o) := by
  rw [connectorFindMode, findConnector_ok conId hall, wantedMode]
  cases (connectors.filterMap Object.object).find? (·.connectorId = conId) <;> rfl

/-- The last object with the id. -/
def lastObject (id : α → UInt32) (objId : UInt32) (objects : List (Object α)) :
    Option (Object α) :=
  objects.reverse.find? fun o => o.object.any (id · = objId)

theorem findObject_ok (id : α → UInt32) (objId : UInt32) {objects : List (Object α)}
    (hall : ∀ o ∈ objects, o.object.isSome = true) (found : Option (Object α)) :
    findObject id objId found objects = .ok ((lastObject id objId objects).or found) := by
  induction objects generalizing found with
  | nil => rfl
  | cons o objects ih =>
      obtain ⟨ho, hrest⟩ := List.forall_mem_cons.mp hall
      obtain ⟨x, hx⟩ := Option.isSome_iff_exists.mp ho
      have hlast : lastObject id objId (o :: objects) =
          (lastObject id objId objects).or (if id x = objId then some o else none) := by
        rw [lastObject, List.reverse_cons, List.find?_append, lastObject]
        by_cases hid : id x = objId <;> simp [hx, hid]
      rw [hlast, Option.or_assoc]
      simp only [findObject, hx, deref, ok_bind]
      rw [ih hrest]
      by_cases hid : id x = objId <;> simp [hid]

/-- What `set_property` knows of an object: its properties and what they are. -/
def Object.properties (o : Object α) : Option (List UInt32) × Option (List (Option PropertyRes)) :=
  (o.props, o.propsInfo)

/-- The properties behind an id: those of the last crtc that has it; without
one, of the last connector; without one, of the last plane. -/
def Resources.owner (r : Resources) (objId : UInt32) :
    Option (Option (List UInt32) × Option (List (Option PropertyRes))) :=
  (r.res.bind fun res =>
    ((lastObject ModeCrtc.crtcId objId res.crtcs.items).map Object.properties).or
      ((lastObject ModeConnector.connectorId objId res.connectors.items).map
        Object.properties)).or
    (r.planes.bind fun planes =>
      (lastObject ModePlane.planeId objId planes.items).map Object.properties)

/-- The property is the first one of the name. -/
def FirstNamed (name : String) (props : List UInt32) (infos : List (Option PropertyRes))
    (propId : UInt32) : Prop :=
  ∃ i : Nat, props[i]? = some propId ∧ infos[i]? = some (some (PropertyRes.mk name)) ∧
    ∀ j < i, infos[j]? ≠ some (some (PropertyRes.mk name))

theorem named_iff (name : String) (info : Option PropertyRes) :
    info.any (·.name = name) = true ↔ info = some (PropertyRes.mk name) := by
  cases info with
  | none => exact iff_of_false (by simp) (by simp)
  | some info =>
      obtain ⟨n⟩ := info
      simp

theorem findName_ok {name : String} {props : List UInt32} {infos : List (Option PropertyRes)}
    {propId : UInt32} : findName name props (some infos) = .ok (some propId) ↔
      FirstNamed name props infos propId := by
  have hzip : findName name props (some infos) =
      .ok (((props.zip infos).find? fun p => p.2.any (·.name = name)).map Prod.fst) := by
    cases props <;> rfl
  rw [hzip]
  constructor
  · intro h
    obtain ⟨⟨pid, info⟩, hfind, rfl⟩ := Option.map_eq_some_iff.mp (Except.ok.inj h)
    obtain ⟨hname, i, hi, hget, hbefore⟩ := List.find?_eq_some_iff_getElem.mp hfind
    rw [List.getElem_zip] at hget
    obtain ⟨hprop, hinfo⟩ := Prod.mk.inj hget
    rw [List.length_zip] at hi
    have hip : i < props.length := by omega
    have hii : i < infos.length := by omega
    refine ⟨i, ?_, ?_, ?_⟩
    · rw [List.getElem?_eq_getElem hip, hprop]
    · rw [List.getElem?_eq_getElem hii, hinfo]
      exact congrArg some ((named_iff name info).mp hname)
    · intro j hj heq
      have hno := hbefore j hj
      rw [List.getElem_zip] at hno
      obtain ⟨hlt, hinfoj⟩ := List.getElem?_eq_some_iff.mp heq
      simp [hinfoj] at hno
  · rintro ⟨i, hprop, hinfo, hbefore⟩
    obtain ⟨hip, hprop⟩ := List.getElem?_eq_some_iff.mp hprop
    obtain ⟨hii, hinfo⟩ := List.getElem?_eq_some_iff.mp hinfo
    have hfind : (props.zip infos).find? (fun p => p.2.any (·.name = name)) =
        some (propId, some (PropertyRes.mk name)) := by
      refine List.find?_eq_some_iff_getElem.mpr ⟨by simp, i, ?_, ?_, ?_⟩
      · rw [List.length_zip]; omega
      · rw [List.getElem_zip, hprop, hinfo]
      · intro j hj
        rw [List.getElem_zip, Bool.not_eq_true', Bool.eq_false_iff]
        intro hname
        have hj' : j < infos.length := by omega
        refine hbefore j hj ?_
        rw [List.getElem?_eq_getElem hj']
        exact congrArg some ((named_iff name infos[j]).mp hname)
    rw [hfind]
    rfl

/-- The search with its objects. -/
theorem setProperty_eq {r : Resources} (h : r.Complete) (objId : UInt32) (name : String) :
    setProperty r objId name =
      match r.owner objId with
      | some (none, _) => .ok none
      | some (some props, infos) => findName name props infos
      | none => if r.planes.isSome = true then .ok none else .error .null := by
  obtain ⟨res, hres, hcrtcs, hconnectors, hcp, hnp⟩ := h.res
  simp only [setProperty, hres, deref, ok_bind, walk_present hcp, walk_present hnp,
    findObject_ok _ objId hcrtcs, findObject_ok _ objId hconnectors, Option.or_none]
  rw [Resources.owner, hres, Option.bind_some]
  cases hcrtc : lastObject ModeCrtc.crtcId objId res.crtcs.items with
  | some o => cases hprops : o.props <;> simp [objectProperty, Object.properties, hprops]
  | none =>
  cases hconnector : lastObject ModeConnector.connectorId objId res.connectors.items with
  | some o => cases hprops : o.props <;> simp [objectProperty, Object.properties, hprops]
  | none =>
  cases hplanes : r.planes with
  | none => rfl
  | some planes =>
      obtain ⟨hpresent, hall⟩ := h.planes planes hplanes
      simp only [ok_bind, walk_present hpresent, findObject_ok _ objId hall, Option.or_none]
      cases hplane : lastObject ModePlane.planeId objId planes.items with
      | some o =>
          cases hprops : o.props <;> simp [objectProperty, Object.properties, hprops, hplane]
      | none => simp [hplane]; rfl

/-- **Which property a name stands for.** -/
theorem setProperty_ok {r : Resources} (h : r.Complete) {objId propId : UInt32} {name : String} :
    setProperty r objId name = .ok (some propId) ↔
      ∃ props infos, r.owner objId = some (some props, some infos) ∧
        FirstNamed name props infos propId := by
  rw [setProperty_eq h]
  rcases r.owner objId with _ | ⟨_ | props, infos⟩
  · refine iff_of_false ?_ ?_
    · by_cases hplanes : r.planes.isSome = true
      · rw [if_pos hplanes]; exact nofun
      · rw [if_neg hplanes]; exact nofun
    · exact nofun
  · exact iff_of_false nofun nofun
  · cases infos with
    | none => exact iff_of_false (by cases props <;> exact nofun) nofun
    | some infos =>
        refine findName_ok.trans ⟨fun hname => ⟨props, infos, rfl, hname⟩, ?_⟩
        rintro ⟨props', infos', heq, hname⟩
        obtain ⟨hprops, hinfos⟩ := Prod.mk.inj (Option.some.inj heq)
        rwa [Option.some.inj hprops, Option.some.inj hinfos]

/-- **When the search follows a null pointer**: nothing has the id and there are
no planes to look through, or the object has properties without their array. -/
theorem setProperty_error {r : Resources} (h : r.Complete) {objId : UInt32} {name : String} :
    setProperty r objId name = .error .null ↔
      (r.owner objId = none ∧ r.planes = none) ∨
        ∃ prop props, r.owner objId = some (some (prop :: props), none) := by
  rw [setProperty_eq h]
  rcases r.owner objId with _ | ⟨_ | props, infos⟩
  · cases hplanes : r.planes with
    | none => exact iff_of_true (by simp) (.inl ⟨rfl, rfl⟩)
    | some planes => exact iff_of_false (by simp) (by simp)
  · exact iff_of_false nofun (by simp)
  · cases props with
    | nil => exact iff_of_false (by cases infos <;> exact nofun) (by simp)
    | cons prop props =>
        cases infos with
        | none => exact iff_of_true rfl (.inr ⟨prop, props, rfl⟩)
        | some infos => exact iff_of_false nofun (by simp)

end MesonDisplay.Drm
