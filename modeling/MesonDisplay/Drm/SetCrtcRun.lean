/-
  MesonDisplay.Drm.SetCrtcRun — whole runs of the program that sets a mode.

  The program of `Drm.SetCrtc` under all answers of the card, with signals at
  any point.  The sticky ids, the search and the request are stated over the
  list of scans made so far.

  Main results:
    * `commits_first_match` — in every run the mode that is set is the first one
      that fits, of the connector chosen first, at the first scan that has one;
      the request has the entries there are properties for.
-/
import MesonDisplay.Drm.SetCrtc
import MesonDisplay.Lib.Runs

namespace MesonDisplay.Drm

open MesonDisplay.Runs

/-! ## §1. What a run is for. -/

/-- The first id that is set, or -1. -/
def firstSet (ids : List Int32) : Int32 := (ids.find? (· ≠ -1)).getD (-1)

/-- The crtcs and connectors of a scan that has one of each. -/
def Scan.objects : Scan → Option (List (Object ModeCrtc) × List (Object ModeConnector))
  | .returned r => r.res.bind fun res =>
      if res.crtcs.items.length < 1 ∨ res.connectors.items.length < 1 then none
      else some (res.crtcs.items, res.connectors.items)
  | _ => none

/-- The ids that a scan has for a choice. -/
def Scan.firstConnector (s : Scan) : Option Int32 :=
  s.objects.bind fun p => (p.2.head?.bind Object.object).map (·.connectorId.toInt32)

def Scan.firstCrtc (s : Scan) : Option Int32 :=
  s.objects.bind fun p => (p.1.head?.bind Object.object).map (·.crtcId.toInt32)

/-- The connector after these scans: the one of the options, or the first one of
the first scan that has objects. -/
def Options.connectorFor (o : Options) (scans : List Scan) : Int32 :=
  firstSet (o.connectorId :: scans.filterMap Scan.firstConnector)

def Options.crtcFor (o : Options) (scans : List Scan) : Int32 :=
  firstSet (o.crtcId :: scans.filterMap Scan.firstCrtc)

/-- The mode that the last scan has for that connector. -/
def Options.found (o : Options) (scans : List Scan) : Option ModeInfo :=
  scans.getLast?.bind fun s => s.objects.bind fun p =>
    wantedMode p.2 (o.connectorFor scans).toUInt32 o

/-- The object with the id has the property. -/
def Resources.HasProperty (r : Resources) (objId : UInt32) (name : String) (propId : UInt32) :
    Prop :=
  ∃ props infos, r.owner objId = some (some props, some infos) ∧
    FirstNamed name props infos propId

/-- What one call adds to the request: the entry of the property, or nothing
where there is no such property or no room. -/
def Resources.Entry (r : Resources) (objId : UInt32) (name : String) (value : UInt64)
    (added : Bool) (items : List Item) : Prop :=
  (∃ propId, r.HasProperty objId name propId ∧ added = true ∧
    items = [{ objId := objId, propId := propId, value := value }]) ∨
  ((added = false ∨ ∀ propId, ¬ r.HasProperty objId name propId) ∧ items = [])

/-- The request routes the connector to the crtc and turns that on. -/
def Commit.Fits (c : Commit) (r : Resources) (connectorId crtcId : Int32) : Prop :=
  ∃ route mode active, c.request = route ++ mode ++ active ∧
    r.Entry connectorId.toUInt32 "CRTC_ID" crtcId.toInt64.toUInt64 c.answers.added.1 route ∧
    r.Entry crtcId.toUInt32 "MODE_ID" c.answers.blob.toUInt64 c.answers.added.2.1 mode ∧
    r.Entry crtcId.toUInt32 "ACTIVE" 1 c.answers.added.2.2 active

/-- The scan ended without a crtc or a connector. -/
def Scan.unusable : Scan → Bool
  | .fault => false
  | s => s.objects.isNone

/-- What the program returns: the result of its commit; without one, -1 behind a
scan that was not usable, also where later ones were. -/
def exitStatus (committed : Option Commit) (scans : List Scan) : Int :=
  match committed with
  | some c => c.answers.commit
  | none => if scans.any Scan.unusable then -1 else 0

/-- The commit of a run: with the resources of the last scan, for its mode. -/
def Main.Committed (o : Options) (m : Main) : Prop :=
  ∀ c, m.committed = some c → ∃ r, m.scans.getLast? = some (.returned r) ∧
    o.found m.scans = some c.mode ∧ c.Fits r m.connectorId m.crtcId

/-- The last scan faulted, or an object of the request has no memory for what
the program looks at. -/
def Main.Faulted (o : Options) (m : Main) : Prop :=
  m.scans.getLast? = some .fault ∨
  ∃ r objId, m.scans.getLast? = some (.returned r) ∧ (o.found m.scans).isSome = true ∧
    (objId = m.connectorId.toUInt32 ∨ objId = m.crtcId.toUInt32) ∧
    ((r.owner objId = none ∧ r.planes = none) ∨
      ∃ prop props, r.owner objId = some (some (prop :: props), none))

structure Main.Faithful (o : Options) (m : Main) : Prop where
  connector : m.connectorId = o.connectorFor m.scans
  crtc : m.crtcId = o.crtcFor m.scans
  earlier : ∀ pre, pre <+: m.scans → pre ≠ m.scans → o.found pre = none
  goesOn : m.pc = .rescan → o.found m.scans = none
  committed : m.Committed o
  status : m.ret = exitStatus m.committed m.scans
  ends : m.pc = .out ∨ m.pc = .exited → m.committed = none → m.userStop = true
  faults : m.pc = .fault → m.Faulted o

/-! ## §2. Scans. -/

theorem firstSet_append (ids : List Int32) (id : Int32) :
    firstSet (ids ++ [id]) = if firstSet ids = -1 then id else firstSet ids := by
  unfold firstSet
  rw [List.find?_append]
  cases hfind : ids.find? (· ≠ -1) with
  | none =>
      by_cases hid : id = -1
      · simp [hid]
      · simp [hid]
  | some x =>
      have hx : x ≠ -1 := by simpa using List.find?_some hfind
      simp [hx]

/-- One more scan. -/
theorem connectorFor_append (o : Options) (scans : List Scan) (s : Scan) :
    o.connectorFor (scans ++ [s]) =
      match s.firstConnector with
      | none => o.connectorFor scans
      | some id => if o.connectorFor scans = -1 then id else o.connectorFor scans := by
  unfold Options.connectorFor
  cases hs : s.firstConnector with
  | none => rw [List.filterMap_append]; simp [hs]
  | some id =>
      have hone : [s].filterMap Scan.firstConnector = [id] := by simp [hs]
      rw [List.filterMap_append, hone, ← List.cons_append, firstSet_append]

theorem crtcFor_append (o : Options) (scans : List Scan) (s : Scan) :
    o.crtcFor (scans ++ [s]) =
      match s.firstCrtc with
      | none => o.crtcFor scans
      | some id => if o.crtcFor scans = -1 then id else o.crtcFor scans := by
  unfold Options.crtcFor
  cases hs : s.firstCrtc with
  | none => rw [List.filterMap_append]; simp [hs]
  | some id =>
      have hone : [s].filterMap Scan.firstCrtc = [id] := by simp [hs]
      rw [List.filterMap_append, hone, ← List.cons_append, firstSet_append]

theorem found_append (o : Options) (scans : List Scan) (s : Scan) :
    o.found (scans ++ [s]) = s.objects.bind fun p =>
      wantedMode p.2 (o.connectorFor (scans ++ [s])).toUInt32 o := by
  unfold Options.found
  rw [List.getLast?_append, List.getLast?_singleton, Option.some_or, Option.bind_some]

/-- The runs before the last scan. -/
theorem earlier_append {o : Options} {scans : List Scan} (s : Scan)
    (hlast : o.found scans = none)
    (hearlier : ∀ pre, pre <+: scans → pre ≠ scans → o.found pre = none) :
    ∀ pre, pre <+: scans ++ [s] → pre ≠ scans ++ [s] → o.found pre = none := by
  intro pre hpre hne
  rcases List.prefix_concat_iff.mp hpre with heq | hpre
  · exact absurd heq hne
  · by_cases heq : pre = scans
    · rw [heq]; exact hlast
    · exact hearlier pre hpre heq

/-- The choice of an id, where the first object is there. -/
theorem chooseId_ok (id : Int32) {first : Option UInt32} {x : UInt32} (h : first = some x) :
    chooseId id first = .ok (if id = -1 then x.toInt32 else id) := by
  unfold chooseId
  rw [h]
  by_cases hid : id = -1
  · rw [if_pos hid, if_pos hid]; rfl
  · rw [if_neg hid, if_neg hid]

/-- A scan that is returned, as the loop looks at it. -/
theorem Resources.Complete.usable {r : Resources} (h : r.Complete) :
    r.usable = .ok (Scan.returned r).objects := by
  obtain ⟨res, hres, -⟩ := h.res
  simp only [Resources.usable, Scan.objects, hres, deref, ok_bind, Option.bind_some]
  split <;> rfl

/-! ## §3. The invariant. -/

/-- The mode is in the memory of the scan that is live. -/
def Main.Points (o : Options) (m : Main) : Prop :=
  ∀ mode, o.found m.scans = some mode →
    ∃ n r, m.resources = some (n, r) ∧ m.mode = some (n, mode)

/-- What holds at a place of the program. -/
def Main.At (o : Options) (m : Main) : Prop :=
  match m.pc with
  | .rescan => o.found m.scans = none ∧ m.committed = none
  | .condition => m.needWait = (o.found m.scans).isNone ∧ m.Points o ∧ m.committed = none
  | .after =>
      (o.found m.scans = none → m.userStop = true) ∧ m.Points o ∧ m.committed = none
  | .commit => (o.found m.scans).isSome = true ∧ m.Points o ∧ m.committed = none
  | .service => m.Committed o ∧ m.committed.isSome = true
  | .out => m.Committed o ∧ (m.committed = none → m.userStop = true)
  | .exited => m.Committed o ∧ (m.committed = none → m.userStop = true)
  | .fault => m.Faulted o ∧ m.committed = none

/-- What every step keeps. -/
structure Main.Sound (o : Options) (m : Main) : Prop where
  connector : m.connectorId = o.connectorFor m.scans
  crtc : m.crtcId = o.crtcFor m.scans
  earlier : ∀ pre, pre <+: m.scans → pre ≠ m.scans → o.found pre = none
  live : ∀ n r, m.resources = some (n, r) →
    m.scans.getLast? = some (.returned r) ∧ n + 1 = m.scans.length ∧ r.Complete
  status : m.ret = exitStatus m.committed m.scans
  place : m.At o

theorem committed_of_none {o : Options} {m : Main} (h : m.committed = none) : m.Committed o := by
  intro c hc
  exact absurd (hc.symm.trans h) (by simp)

/-- At every place what was committed is right. -/
theorem Main.Sound.committed {o : Options} {m : Main} (h : m.Sound o) : m.Committed o := by
  have hplace := h.place
  unfold Main.At at hplace
  split at hplace
  · exact committed_of_none hplace.2
  · exact committed_of_none hplace.2.2
  · exact committed_of_none hplace.2.2
  · exact committed_of_none hplace.2.2
  · exact hplace.1
  · exact hplace.1
  · exact hplace.1
  · exact committed_of_none hplace.2

theorem Main.Sound.faithful {o : Options} {m : Main} (h : m.Sound o) : m.Faithful o := by
  have hplace := h.place
  refine ⟨h.connector, h.crtc, h.earlier, ?_, h.committed, h.status, ?_, ?_⟩
  · intro hpc
    rw [Main.At, hpc] at hplace
    exact hplace.1
  · rintro (hpc | hpc)
    · rw [Main.At, hpc] at hplace
      exact hplace.2
    · rw [Main.At, hpc] at hplace
      exact hplace.2
  · intro hpc
    rw [Main.At, hpc] at hplace
    exact hplace.1

theorem start_sound (o : Options) : (Main.start o).Sound o where
  connector := by
    show o.connectorId = firstSet [o.connectorId]
    unfold firstSet
    by_cases h : o.connectorId = -1 <;> simp [h]
  crtc := by
    show o.crtcId = firstSet [o.crtcId]
    unfold firstSet
    by_cases h : o.crtcId = -1 <;> simp [h]
  earlier := fun pre hpre hne => absurd (List.prefix_nil.mp hpre) hne
  live := fun _ _ h => absurd h (by simp [Main.start])
  status := rfl
  place := ⟨rfl, rfl⟩

/-! ## §4. The steps. -/

section steps

variable {o : Options} {m m' : Main}

/-- The release changes nothing but the memory, and does not fault. -/
theorem Main.Sound.release (h : m.Sound o) :
    ∃ freed, m.release = .ok { m with resources := none, freed := freed } := by
  unfold Main.release
  rcases hres : m.resources with _ | ⟨n, r⟩
  · exact ⟨m.freed, congrArg Except.ok (by rw [← hres])⟩
  · obtain ⟨freed, hfreed⟩ := (h.live n r hres).2.2.freed
    exact ⟨m.freed ++ freed.map (Prod.mk n), by simp only [hfreed]; rfl⟩

/-- A scan without objects. -/
theorem Main.Sound.unusable (h : m.Sound o) (hpc : m.pc = .rescan) {s : Scan}
    (hs : s.objects = none) (hunusable : s.unusable = true)
    {resources : Option (Nat × Resources)} {freed : List (Nat × Block)}
    (hlive : ∀ n r, resources = some (n, r) →
      s = .returned r ∧ n = m.scans.length ∧ r.Complete) :
    ({ m with scans := m.scans ++ [s], resources := resources, freed := freed }
      : Main).unusable.Sound o := by
  have hplace := h.place
  rw [Main.At, hpc] at hplace
  have hconnector : s.firstConnector = none := by rw [Scan.firstConnector, hs]; rfl
  have hcrtc : s.firstCrtc = none := by rw [Scan.firstCrtc, hs]; rfl
  have hfound : o.found (m.scans ++ [s]) = none := by rw [found_append, hs]; rfl
  refine ⟨?_, ?_, earlier_append s hplace.1 h.earlier, ?_, ?_, ?_⟩
  · show m.connectorId = o.connectorFor (m.scans ++ [s])
    rw [connectorFor_append, hconnector]
    exact h.connector
  · show m.crtcId = o.crtcFor (m.scans ++ [s])
    rw [crtcFor_append, hcrtc]
    exact h.crtc
  · intro n r hnr
    obtain ⟨rfl, rfl, hcomplete⟩ := hlive n r hnr
    exact ⟨by simp [Main.unusable], by simp [Main.unusable], hcomplete⟩
  · show -1 = exitStatus m.committed (m.scans ++ [s])
    rw [hplace.2]
    simp [exitStatus, hunusable]
  · show true = (o.found (m.scans ++ [s])).isNone ∧ _ ∧ m.committed = none
    rw [hfound]
    refine ⟨rfl, ?_, hplace.2⟩
    intro mode hmode
    exact absurd (hfound.symm.trans hmode) (by simp)

/-- The first objects of a scan that has some. -/
theorem objects_first {r : Resources} (hcomplete : r.Complete)
    {crtcs : List (Object ModeCrtc)} {connectors : List (Object ModeConnector)}
    (hobjects : (Scan.returned r).objects = some (crtcs, connectors)) :
    (∀ c ∈ connectors, c.object.isSome = true) ∧
      ∃ connector crtc, connectors.head?.bind Object.object = some connector ∧
        crtcs.head?.bind Object.object = some crtc := by
  obtain ⟨res, hres, hcrtcs, hconnectors, -⟩ := hcomplete.res
  simp only [Scan.objects, hres, Option.bind_some] at hobjects
  split at hobjects
  · exact absurd hobjects (by simp)
  next hsome =>
    obtain ⟨rfl, rfl⟩ := Prod.mk.inj (Option.some.inj hobjects)
    refine ⟨hconnectors, ?_⟩
    cases hc : res.connectors.items with
    | nil => simp [hc] at hsome
    | cons c connectors =>
    cases hk : res.crtcs.items with
    | nil => simp [hk] at hsome
    | cons k crtcs =>
        obtain ⟨connector, hconnector⟩ :=
          Option.isSome_iff_exists.mp (hconnectors c (by rw [hc]; exact List.mem_cons_self))
        obtain ⟨crtc, hcrtc⟩ :=
          Option.isSome_iff_exists.mp (hcrtcs k (by rw [hk]; exact List.mem_cons_self))
        exact ⟨connector, crtc, hconnector, hcrtc⟩

/-- A scan with objects. -/
theorem Main.Sound.choose (h : m.Sound o) (hpc : m.pc = .rescan) {r : Resources}
    (hcomplete : r.Complete) {crtcs : List (Object ModeCrtc)}
    {connectors : List (Object ModeConnector)}
    (hobjects : (Scan.returned r).objects = some (crtcs, connectors))
    (freed : List (Nat × Block)) :
    ∃ m', ({ m with
        scans := m.scans ++ [.returned r]
        resources := some (m.scans.length, r)
        freed := freed } : Main).choose o m.scans.length crtcs connectors = .ok m' ∧
      m'.Sound o := by
  have hplace := h.place
  rw [Main.At, hpc] at hplace
  obtain ⟨hall, connector, crtc, hconnector, hcrtc⟩ := objects_first hcomplete hobjects
  have hfirst : (Scan.returned r).firstConnector = some connector.connectorId.toInt32 := by
    rw [Scan.firstConnector, hobjects, Option.bind_some, hconnector]
    rfl
  have hfirst' : (Scan.returned r).firstCrtc = some crtc.crtcId.toInt32 := by
    rw [Scan.firstCrtc, hobjects, Option.bind_some, hcrtc]
    rfl
  -- an id of -1 is taken from the first object of this scan, as it would be from all scans
  have hc : o.connectorFor (m.scans ++ [.returned r]) =
      if m.connectorId = -1 then connector.connectorId.toInt32 else m.connectorId := by
    rw [connectorFor_append, hfirst, h.connector]
  have hk : o.crtcFor (m.scans ++ [.returned r]) =
      if m.crtcId = -1 then crtc.crtcId.toInt32 else m.crtcId := by
    rw [crtcFor_append, hfirst', h.crtc]
  have hfound : o.found (m.scans ++ [.returned r]) =
      wantedMode connectors (o.connectorFor (m.scans ++ [.returned r])).toUInt32 o := by
    rw [found_append, hobjects, Option.bind_some]
  have hid : (connectors.head?.bind Object.object).map ModeConnector.connectorId =
      some connector.connectorId := by rw [hconnector]; rfl
  have hid' : (crtcs.head?.bind Object.object).map ModeCrtc.crtcId = some crtc.crtcId := by
    rw [hcrtc]
    rfl
  simp only [Main.choose, chooseId_ok m.connectorId hid, chooseId_ok m.crtcId hid', ok_bind,
    ← hc, ← hk, connectorFindMode_ok _ o hall, ← hfound]
  refine ⟨_, rfl, rfl, rfl, earlier_append _ hplace.1 h.earlier, ?_, ?_, rfl, ?_, hplace.2⟩
  · intro n r' hnr
    obtain ⟨rfl, rfl⟩ := Prod.mk.inj (Option.some.inj hnr)
    exact ⟨by simp, by simp, hcomplete⟩
  · show m.ret = exitStatus m.committed (m.scans ++ [.returned r])
    rw [h.status, hplace.2]
    simp [exitStatus, Scan.unusable, hobjects]
  -- the mode is one of the last scan
  · intro mode hmode
    refine ⟨m.scans.length, r, rfl, ?_⟩
    show (o.found (m.scans ++ [.returned r])).map (Prod.mk m.scans.length) = _
    rw [show o.found (m.scans ++ [.returned r]) = some mode from hmode]
    rfl

/-- **One scan.** -/
theorem Main.Sound.rescan (h : m.Sound o) (hpc : m.pc = .rescan) (card : Card) :
    ∃ m', m.rescan o card = .ok m' ∧ m'.Sound o := by
  obtain ⟨freed, hrelease⟩ := h.release
  have hplace := h.place
  rw [Main.At, hpc] at hplace
  simp only [Main.rescan, hrelease, ok_bind]
  cases hscan : getResources card with
  | fault =>
      refine ⟨_, rfl, ?_, ?_, earlier_append .fault hplace.1 h.earlier, ?_, ?_, ?_⟩
      · show m.connectorId = o.connectorFor (m.scans ++ [.fault])
        rw [connectorFor_append]
        exact h.connector
      · show m.crtcId = o.crtcFor (m.scans ++ [.fault])
        rw [crtcFor_append]
        exact h.crtc
      · exact fun _ _ hnr => absurd hnr (by simp)
      · show m.ret = exitStatus m.committed (m.scans ++ [.fault])
        rw [h.status, hplace.2]
        simp [exitStatus, Scan.unusable]
      · exact ⟨.inl (by simp), hplace.2⟩
  | nothing => exact ⟨_, rfl, h.unusable hpc rfl rfl fun _ _ hnr => absurd hnr (by simp)⟩
  | failed r freed' => exact ⟨_, rfl, h.unusable hpc rfl rfl fun _ _ hnr => absurd hnr (by simp)⟩
  | returned r =>
      have hcomplete := getResources_complete hscan
      simp only [Main.scanned, hcomplete.usable, ok_bind]
      cases hobjects : (Scan.returned r).objects with
      | none =>
          refine ⟨_, rfl, h.unusable hpc hobjects (by simp [Scan.unusable, hobjects]) ?_⟩
          intro n r' hnr
          obtain ⟨rfl, rfl⟩ := Prod.mk.inj (Option.some.inj hnr)
          exact ⟨rfl, rfl, hcomplete⟩
      | some p => exact h.choose hpc hcomplete hobjects freed

/-- What a call of `add_property` adds. -/
theorem addProperty_ok {r : Resources} (hcomplete : r.Complete) {objId : UInt32} {name : String}
    {value : UInt64} {added : Bool} {req req' : List Item}
    (h : addProperty r objId name value added req = .ok req') :
    ∃ items, req' = req ++ items ∧ r.Entry objId name value added items := by
  obtain ⟨found, hfound, h⟩ := bind_ok h
  cases found with
  | none =>
      obtain rfl := Except.ok.inj h
      refine ⟨[], (List.append_nil req).symm, .inr ⟨.inr ?_, rfl⟩⟩
      intro propId hhas
      rw [(setProperty_ok hcomplete).mpr hhas] at hfound
      exact absurd (Except.ok.inj hfound) (by simp)
  | some propId =>
      have hhas := (setProperty_ok hcomplete).mp hfound
      cases added with
      | true =>
          obtain rfl := Except.ok.inj h
          exact ⟨_, rfl, .inl ⟨propId, hhas, rfl, rfl⟩⟩
      | false =>
          obtain rfl := Except.ok.inj h
          exact ⟨[], (List.append_nil req).symm, .inr ⟨.inl rfl, rfl⟩⟩

theorem addProperty_error {r : Resources} (hcomplete : r.Complete) {objId : UInt32}
    {name : String} {value : UInt64} {added : Bool} {req : List Item} {e : Fault}
    (h : addProperty r objId name value added req = .error e) :
    (r.owner objId = none ∧ r.planes = none) ∨
      ∃ prop props, r.owner objId = some (some (prop :: props), none) := by
  have hfault : setProperty r objId name = .error .null := by
    unfold addProperty at h
    cases hfound : setProperty r objId name with
    | error e => rfl
    | ok found =>
        rw [hfound] at h
        cases found <;> cases h
  exact (setProperty_error hcomplete).mp hfault

/-- **The commit.** -/
theorem Main.Sound.commit (h : m.Sound o) (hpc : m.pc = .commit) (a : Answers) :
    (m.orFault (m.commit o a)).Sound o := by
  have hplace := h.place
  rw [Main.At, hpc] at hplace
  obtain ⟨hfound, hpoints, hnone⟩ := hplace
  obtain ⟨mode, hmode⟩ := Option.isSome_iff_exists.mp hfound
  obtain ⟨n, r, hres, hptr⟩ := hpoints mode hmode
  obtain ⟨hlast, -, hcomplete⟩ := h.live n r hres
  -- A fault of one of the three calls.
  have hfault : ∀ objId, objId = m.connectorId.toUInt32 ∨ objId = m.crtcId.toUInt32 →
      ((r.owner objId = none ∧ r.planes = none) ∨
        ∃ prop props, r.owner objId = some (some (prop :: props), none)) →
      ({ m with pc := .fault } : Main).Sound o := fun objId hobj hcase =>
    ⟨h.connector, h.crtc, h.earlier, h.live, h.status,
      .inr ⟨r, objId, hlast, hfound, hobj, hcase⟩, hnone⟩
  simp only [Main.commit, hres, hptr, deref, ok_bind, ne_eq, not_true_eq_false, ↓reduceIte]
  cases hroute : addProperty r m.connectorId.toUInt32 "CRTC_ID" m.crtcId.toInt64.toUInt64
      a.added.1 [] with
  | error e => exact hfault _ (.inl rfl) (addProperty_error hcomplete hroute)
  | ok route =>
  rw [ok_bind]
  cases hblob : addProperty r m.crtcId.toUInt32 "MODE_ID" a.blob.toUInt64 a.added.2.1 route with
  | error e => exact hfault _ (.inr rfl) (addProperty_error hcomplete hblob)
  | ok req =>
  rw [ok_bind]
  cases hactive : addProperty r m.crtcId.toUInt32 "ACTIVE" 1 a.added.2.2 req with
  | error e => exact hfault _ (.inr rfl) (addProperty_error hcomplete hactive)
  | ok req' =>
      rw [ok_bind]
      obtain ⟨items, hreq, hitems⟩ := addProperty_ok hcomplete hroute
      obtain ⟨items', rfl, hitems'⟩ := addProperty_ok hcomplete hblob
      obtain ⟨items'', rfl, hitems''⟩ := addProperty_ok hcomplete hactive
      rw [List.nil_append] at hreq
      subst hreq
      have hfits : ∀ c, some (Commit.mk mode a (route ++ items' ++ items'')) = some c →
          ∃ r, m.scans.getLast? = some (.returned r) ∧ o.found m.scans = some c.mode ∧
            c.Fits r m.connectorId m.crtcId := by
        intro c hc
        obtain rfl := Option.some.inj hc
        exact ⟨r, hlast, hmode, route, items', items'', rfl, hitems, hitems', hitems''⟩
      refine ⟨h.connector, h.crtc, h.earlier, fun n' r' hnr => h.live n' r' (hres.trans hnr), rfl,
        ?_⟩
      show Main.At o _
      by_cases hend : ¬ a.commit = 0 ∨ o.runAsService = false
      · simp only [Main.At, Main.orFault, pure, Except.pure, if_pos hend]
        exact ⟨hfits, fun hc => absurd hc (by simp)⟩
      · simp only [Main.At, Main.orFault, pure, Except.pure, if_neg hend]
        exact ⟨hfits, rfl⟩

/-- The tests and the end. -/
theorem Main.Sound.go (h : m.Sound o) (hstep : m.go = some m') : m'.Sound o := by
  have hplace := h.place
  unfold Main.go at hstep
  cases hpc : m.pc with
  | condition =>
      rw [hpc] at hstep
      obtain rfl := Option.some.inj hstep
      rw [Main.At, hpc] at hplace
      obtain ⟨hneed, hpoints, hnone⟩ := hplace
      refine ⟨h.connector, h.crtc, h.earlier, h.live, h.status, ?_⟩
      -- the condition of the loop, `need_wait_connection && !user_stop`
      by_cases hagain : (m.needWait && !m.userStop) = true
      · simp only [Main.At, if_pos hagain]
        rw [hneed, Bool.and_eq_true] at hagain
        exact ⟨Option.isNone_iff_eq_none.mp hagain.1, hnone⟩
      · simp only [Main.At, if_neg hagain]
        refine ⟨fun hfound => ?_, hpoints, hnone⟩
        rw [hneed, hfound] at hagain
        simpa using hagain
  | after =>
      rw [hpc] at hstep
      obtain rfl := Option.some.inj hstep
      rw [Main.At, hpc] at hplace
      obtain ⟨hstop, hpoints, hnone⟩ := hplace
      refine ⟨h.connector, h.crtc, h.earlier, h.live, h.status, ?_⟩
      by_cases huser : m.userStop = true
      · simp only [Main.At, if_pos huser]
        exact ⟨committed_of_none hnone, fun _ => huser⟩
      · simp only [Main.At, if_neg huser]
        refine ⟨?_, hpoints, hnone⟩
        cases hfound : o.found m.scans with
        | none => exact absurd (hstop hfound) huser
        | some mode => rfl
  | service =>
      rw [hpc] at hstep
      obtain rfl := Option.some.inj hstep
      rw [Main.At, hpc] at hplace
      refine ⟨h.connector, h.crtc, h.earlier, h.live, h.status, ?_⟩
      by_cases huser : m.userStop = true
      · simp only [Main.At, if_pos huser]
        exact ⟨hplace.1, fun _ => huser⟩
      · simp only [Main.At, if_neg huser]
        exact hplace
  | out =>
      rw [hpc] at hstep
      -- the release of the last scan cannot fail
      obtain ⟨freed, hrelease⟩ := h.release
      rw [hrelease] at hstep
      obtain rfl := Option.some.inj hstep
      rw [Main.At, hpc] at hplace
      exact ⟨h.connector, h.crtc, h.earlier, fun _ _ hnr => (by cases hnr), h.status, hplace⟩
  | rescan =>
      rw [hpc] at hstep
      exact absurd hstep (by simp)
  | commit =>
      rw [hpc] at hstep
      exact absurd hstep (by simp)
  | exited =>
      rw [hpc] at hstep
      exact absurd hstep (by simp)
  | fault =>
      rw [hpc] at hstep
      exact absurd hstep (by simp)

/-- A signal changes nothing but the flag. -/
theorem Main.Sound.signal (h : m.Sound o) : ({ m with userStop := true } : Main).Sound o := by
  refine ⟨h.connector, h.crtc, h.earlier, h.live, h.status, ?_⟩
  have hplace := h.place
  unfold Main.At at hplace ⊢
  cases hpc : m.pc with
  | after =>
      rw [hpc] at hplace
      exact ⟨fun _ => rfl, hplace.2⟩
  | out =>
      rw [hpc] at hplace
      exact ⟨hplace.1, fun _ => rfl⟩
  | exited =>
      rw [hpc] at hplace
      exact ⟨hplace.1, fun _ => rfl⟩
  | _ =>
      rw [hpc] at hplace
      exact hplace

/-- One event. -/
theorem step_sound {e : Event} (h : m.Sound o) (hstep : m.step o e = some m') : m'.Sound o := by
  cases e with
  | scan card =>
      simp only [Main.step] at hstep
      split at hstep
      next hpc =>
          obtain rfl := Option.some.inj hstep
          obtain ⟨m₁, hscan, hsound⟩ := h.rescan hpc card
          rw [hscan]
          exact hsound
      next => exact absurd hstep (by simp)
  | commit a =>
      simp only [Main.step] at hstep
      split at hstep
      next hpc =>
          obtain rfl := Option.some.inj hstep
          exact h.commit hpc a
      next => exact absurd hstep (by simp)
  | go => exact h.go hstep
  | signal =>
      simp only [Main.step] at hstep
      split at hstep
      next => exact absurd hstep (by simp)
      next =>
          obtain rfl := Option.some.inj hstep
          exact h.signal

end steps

/-- **The first match.**  In every run, with signals at any point: the ids are
those of the options or of the first scan that has objects; the loop goes on
only behind scans without the mode; what is committed is the mode of the last
scan, with the entries for which that scan has properties. -/
theorem commits_first_match (o : Options) (es : List Event) :
    Throughout (Main.step o) (Main.Faithful o) (Main.start o) es :=
  throughout_of_invariant (fun _ h => h.faithful) (fun _ _ _ h hstep => step_sound h hstep) es
    (start_sound o)

end MesonDisplay.Drm
