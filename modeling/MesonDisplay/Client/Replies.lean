/-
  MesonDisplay.Client.Replies — replies with an entry for every connector.

  "get modes" and "get connector range properties" go through the list of
  connectors and add a member for each.  Its key is the id of the connector,
  printed into five bytes.

  Main results:
    * `replies_complete_iff` — the lists of connectors for which no entry
      replaces another one.
    * `ids_told_apart_iff` — the ones whose ids the client reads.
-/
import MesonDisplay.Client.Modes
import MesonDisplay.Helper.ConnectorSet

namespace MesonDisplay.Client

open MesonDisplay.Helper
open MesonDisplay.LinkedList
open MesonDisplay.Runs
open MesonDisplay.Json (jsonText jsonText_readsObjects jsonText_getsInts)

/-! ## §1. The entries. -/

/-- The connectors of the list, in order. -/
def listedConnectors (h : ConnectorHeap) : List Nat :=
  (connectorNodes h).filterMap ConnectorNode.data

/-- The key of a connector. -/
def connectorKey (drm : Drm) (c : Nat) : String := snprintfInt 5 (drm.connector c).connectorId

/-- One member for each connector. -/
def entries (drm : Drm) (value : Nat → Json) (cs : List Nat) : List (String × Json) :=
  cs.map fun c => (connectorKey drm c, value c)

/-- What "get modes" says of a connector. -/
def modesValue (drm : Drm) (c : Nat) : Json := .object (connectorMembers (drm.connector c))

/-- What "get connector range properties" says of a connector. -/
def rangeValue (drm : Drm) (name : String) (c : Nat) : Json :=
  newInt (getRangeProperties drm (drm.connector c).connectorId name (-1))

/-- What `drm_help_client_get_connection` sends. -/
def getModesData : Option Json := Ipc.sendCmd (some "get modes") none

/-- What the option that gets a property sends. -/
def getRangeData (name : String) : Option Json :=
  Ipc.sendCmd (some "get connector range properties") (some (.string name))

/-- The keys are distinct if and only if no two ids share a key. -/
theorem entries_nodup_iff (drm : Drm) (value : Nat → Json) (cs : List Nat) :
    ((entries drm value cs).map Prod.fst).Nodup ↔
      cs.Pairwise fun c d =>
        ¬ SameKey (drm.connector c).connectorId (drm.connector d).connectorId := by
  unfold entries
  rw [List.map_map, List.Nodup, List.pairwise_map]
  simp only [Function.comp_def, connectorKey, ne_eq, snprintfInt_five_iff]

/-- An object with all the entries. -/
theorem addAll_entries_iff (drm : Drm) (value : Nat → Json) (cs : List Nat) :
    addAll .newObject (entries drm value cs) = .object (entries drm value cs) ↔
      cs.Pairwise fun c d =>
        ¬ SameKey (drm.connector c).connectorId (drm.connector d).connectorId := by
  rw [← entries_nodup_iff drm value cs]
  refine ⟨fun hall => (addAll_length_iff hall).mp rfl, ?_⟩
  intro hnd
  exact addAll_distinct (entries drm value cs) [] (by simpa using hnd)

/-! ## §2. The loops. -/

section Loops

variable {s : HelperState} {jc : JsonC}

theorem visit_getModes (drm : Drm) (ns : List ConnectorNode) : ∀ out : Json,
    (∀ n ∈ ns, Named n) → ∃ ns', visit (getModesBody drm) out ns
        = .ok (ns', addAll out (entries drm (modesValue drm) (ns.filterMap ConnectorNode.data)),
            ns.length) ∧ ∀ n ∈ ns', Named n := by
  induction ns with
  | nil => exact fun _ hn => ⟨[], rfl, hn⟩
  | cons n ns ih =>
      intro out hnamed
      rw [List.forall_mem_cons] at hnamed
      cases hc : n.data with
      | none =>
          have hbody : getModesBody drm out n = .ok (n, .continue out) := by
            unfold getModesBody
            simp only [hc]
          obtain ⟨ns', hv, hn'⟩ := ih out hnamed.2
          rw [List.filterMap_cons_none hc]
          unfold visit
          exact ⟨n :: ns', by simp only [hbody, hv, List.length_cons],
            List.forall_mem_cons.mpr ⟨hnamed.1, hn'⟩⟩
      | some c =>
          obtain ⟨n', hrun, -, hn₁⟩ := updateConnectorProps_returns drm hc hnamed.1
          have hbody : getModesBody drm out n
              = .ok (n', .continue (out.objectAdd (connectorKey drm c) (modesValue drm c))) := by
            unfold getModesBody
            simp only [hc, dumpConnectorInfo_eq drm hc hrun, ok_bind]
            rfl
          obtain ⟨ns', hv, hn'⟩ :=
            ih (out.objectAdd (connectorKey drm c) (modesValue drm c)) hnamed.2
          rw [List.filterMap_cons_some hc]
          unfold visit
          refine ⟨n' :: ns', ?_, List.forall_mem_cons.mpr ⟨hn₁, hn'⟩⟩
          simp only [hbody, hv]
          rfl

theorem visit_getRange (drm : Drm) (name : String) (ns : List ConnectorNode) :
    ∀ out : Json, visit (getRangeBody drm name) out ns
      = .ok (ns, addAll out (entries drm (rangeValue drm name)
          (ns.filterMap ConnectorNode.data)), ns.length) := by
  induction ns with
  | nil => exact fun _ => rfl
  | cons n ns ih =>
      intro out
      cases hc : n.data with
      | none =>
          have hbody : getRangeBody drm name out n = .ok (n, .continue out) := by
            unfold getRangeBody
            simp only [hc]
          rw [List.filterMap_cons_none hc]
          unfold visit
          simp only [hbody, ih, List.length_cons]
      | some c =>
          have hbody : getRangeBody drm name out n
              = .ok (n, .continue (out.objectAdd (connectorKey drm c) (rangeValue drm name c))) := by
            unfold getRangeBody
            simp only [hc]
            rfl
          rw [List.filterMap_cons_some hc]
          unfold visit
          simp only [hbody, ih]
          rfl

theorem listedConnectors_eq {h : ConnectorHeap} {es : List (Entry ConnectorNode)}
    {t : Entry ConnectorNode} (hok : ConnectorsOk h es t) :
    listedConnectors h = (dataOf es).filterMap ConnectorNode.data := by
  have hnodes : connectorNodes h = dataOf es := hok.linked.readData_eq
  unfold listedConnectors
  rw [hnodes]

/-- A locked loop, from what it does to the nodes. -/
theorem lockedLoop_eq {σ : Type}
    {body : σ → ConnectorNode → Except Fault (ConnectorNode × Loop σ)} {out out' : σ}
    {es : List (Entry ConnectorNode)} {t : Entry ConnectorNode} {ns' : List ConnectorNode}
    {i : Nat} (hok : ConnectorsOk s.connectorList es t)
    (hv : visit body out (dataOf es) = .ok (ns', out', i)) (hnamed : ∀ n ∈ ns', Named n) :
    ∃ s', lockedLoop body s out = .ok (s', out') := by
  obtain ⟨h', es', hrun, -⟩ := forEachConnector_spec hok rfl hv hnamed
  have hlocked : (s.emit .lock).connectorList = s.connectorList := rfl
  unfold lockedLoop
  simp only [hlocked, hrun, ok_bind]
  exact ⟨_, rfl⟩

/-! ## §3. The replies. -/

/-- "get modes" replies with an object of the entries. -/
theorem exchange_getModes (hr : jc.ReadsObjects) (env : MessageEnv)
    {cells : List ConnectorCell} (hrep : Represents s.connectorList cells) :
    ∃ s', exchange jc env s getModesData = .ok (s', addAll .newObject
      (entries env.drm (modesValue env.drm) (listedConnectors s.connectorList))) := by
  obtain ⟨es, t, hok, -, -⟩ := hrep
  obtain ⟨ns', hv, hnamed⟩ := visit_getModes env.drm (dataOf es) .newObject hok.named
  obtain ⟨s', hloop⟩ := lockedLoop_eq hok hv hnamed
  have hdata : getModesData = some (.object [("cmd", .string "get modes")]) := rfl
  have hrequest : (Json.object [("cmd", .string "get modes")]).IsRequest := by decide
  refine ⟨s', ?_⟩
  unfold exchange
  rw [hdata]
  simp only
  rw [hr.received_eq hrequest, listedConnectors_eq hok]
  exact hloop

/-- So does "get connector range properties", for a name that is not empty. -/
theorem exchange_getRange (hr : jc.ReadsObjects) (env : MessageEnv) {name : String}
    (hname : isCString name = true) (hne : name ≠ "")
    {cells : List ConnectorCell} (hrep : Represents s.connectorList cells) :
    ∃ s', exchange jc env s (getRangeData name) = .ok (s', addAll .newObject
      (entries env.drm (rangeValue env.drm name) (listedConnectors s.connectorList))) := by
  obtain ⟨es, t, hok, -, -⟩ := hrep
  have hv := visit_getRange env.drm name (dataOf es) .newObject
  obtain ⟨s', hloop⟩ := lockedLoop_eq hok hv hok.named
  have hdata : getRangeData name = some (.object
      [("cmd", .string "get connector range properties"), ("value", .string name)]) := rfl
  have hrequest : (Json.object [("cmd", .string "get connector range properties"),
      ("value", .string name)]).IsRequest := by
    have hcmd : isCString "cmd" = true := by decide
    have hvalue : isCString "value" = true := by decide
    refine ⟨?_, rfl⟩
    simp [Json.wf, Json.wfFields, hcmd, hvalue]
  have hhandle : handleGetRangeProperties jc env s (.string name)
      = lockedLoop (getRangeBody env.drm name) s .newObject := by
    unfold handleGetRangeProperties
    rw [JsonC.getString_string hname]
    simp only
    rw [if_neg hne]
  refine ⟨s', ?_⟩
  unfold exchange
  rw [hdata]
  simp only
  rw [hr.received_eq hrequest, listedConnectors_eq hok, ← hloop, ← hhandle]
  rfl

/-! ## §4. What the client reads. -/

/-- A connection without its modes. -/
def DrmConnection.header (conn : DrmConnection) : DrmConnection := { conn with modes := [] }

/-- Every member is a connection. -/
theorem dumpConnections_objects {fs : List (String × Json)} :
    ∀ {n : Nat}, (∀ f ∈ fs, ∃ connector, f.2 = .object (connectorMembers connector)) →
      ∃ conns, dumpConnections jc (fun _ => true) n fs = .ok conns ∧
        conns.map DrmConnection.header = fs.map fun f => readConnection jc f.2 := by
  induction fs with
  | nil => exact fun _ => ⟨[], rfl, rfl⟩
  | cons f fs ih =>
      intro n hfs
      obtain ⟨key, val⟩ := f
      rw [List.forall_mem_cons] at hfs
      obtain ⟨⟨connector, hval⟩, hrest⟩ := hfs
      obtain ⟨modes, hmodes⟩ : ∃ modes, val.objectGet "modes" = .object modes := by
        obtain rfl : val = _ := hval
        exact Json.isObject_iff.mp (by
          show (numbered _).isObject = true
          unfold numbered
          rw [numberedFrom_eq]
          exact isObject_addAll _ rfl)
      obtain ⟨conns, hrun, hheaders⟩ :=
        ih (n := (dumpModeList jc (fun _ => true) (n + 1) modes).2) hrest
      refine ⟨{ readConnection jc val with
          modes := (dumpModeList jc (fun _ => true) (n + 1) modes).1 } :: conns, ?_, ?_⟩
      · rw [dumpConnections, if_pos rfl, hmodes]
        simp only [hrun, ok_bind]
      · rw [List.map_cons, List.map_cons, hheaders]
        rfl

/-! ## §5. Complete replies. -/

/-- The reply to "get modes" has one entry for each connector. -/
def ModesComplete (jc : JsonC) (env : MessageEnv) (s : HelperState) : Prop :=
  ∃ s', exchange jc env s getModesData = .ok (s', .object
    (entries env.drm (modesValue env.drm) (listedConnectors s.connectorList)))

/-- The reply to "get connector range properties" has one. -/
def RangeComplete (jc : JsonC) (env : MessageEnv) (s : HelperState) (name : String) : Prop :=
  ∃ s', exchange jc env s (getRangeData name) = .ok (s', .object
    (entries env.drm (rangeValue env.drm name) (listedConnectors s.connectorList)))

/-- The client reads one connection for each connector, in order. -/
def ConnectionsComplete (jc : JsonC) (env : MessageEnv) (s : HelperState) : Prop :=
  ∃ s' out conns, exchange jc env s getModesData = .ok (s', out) ∧
    dumpModes jc (fun _ => true) (replyOf (jc.received out)) = .ok conns ∧
    conns.map DrmConnection.header = (listedConnectors s.connectorList).map fun c =>
      connectionHeader (env.drm.connector c)

/-- No two connectors of the list share a key. -/
def KeysDiffer (env : MessageEnv) (s : HelperState) : Prop :=
  (listedConnectors s.connectorList).Pairwise fun c d =>
    ¬ SameKey (env.drm.connector c).connectorId (env.drm.connector d).connectorId

instance (env : MessageEnv) (s : HelperState) : Decidable (KeysDiffer env s) :=
  inferInstanceAs (Decidable (List.Pairwise _ _))

variable {cells : List ConnectorCell}

theorem modesComplete_iff (hr : jc.ReadsObjects) (env : MessageEnv)
    (hrep : Represents s.connectorList cells) : ModesComplete jc env s ↔ KeysDiffer env s := by
  obtain ⟨s', hrun⟩ := exchange_getModes hr env hrep
  unfold ModesComplete KeysDiffer
  rw [← addAll_entries_iff env.drm (modesValue env.drm)]
  constructor
  · intro hcomplete
    obtain ⟨s'', hrun'⟩ := hcomplete
    rw [hrun] at hrun'
    exact (Prod.mk.inj (Except.ok.inj hrun')).2
  · intro hall
    exact ⟨s', hall ▸ hrun⟩

theorem rangeComplete_iff (hr : jc.ReadsObjects) (env : MessageEnv) {name : String}
    (hname : isCString name = true) (hne : name ≠ "")
    (hrep : Represents s.connectorList cells) :
    RangeComplete jc env s name ↔ KeysDiffer env s := by
  obtain ⟨s', hrun⟩ := exchange_getRange hr env hname hne hrep
  unfold RangeComplete KeysDiffer
  rw [← addAll_entries_iff env.drm (rangeValue env.drm name)]
  constructor
  · intro hcomplete
    obtain ⟨s'', hrun'⟩ := hcomplete
    rw [hrun] at hrun'
    exact (Prod.mk.inj (Except.ok.inj hrun')).2
  · intro hall
    exact ⟨s', hall ▸ hrun⟩

theorem connectionsComplete_iff (hr : jc.ReadsObjects) (hg : jc.GetsInts) (env : MessageEnv)
    (hrep : Represents s.connectorList cells) :
    ConnectionsComplete jc env s ↔ KeysDiffer env s := by
  obtain ⟨s', hrun⟩ := exchange_getModes hr env hrep
  unfold KeysDiffer
  rw [← entries_nodup_iff env.drm (modesValue env.drm)]
  generalize hcs : listedConnectors s.connectorList = cs at hrun
  have hwf : (addAll .newObject (entries env.drm (modesValue env.drm) cs)).wf = true := by
    refine wf_addAll ?_ rfl
    intro m hm
    obtain ⟨c, -, rfl⟩ := List.mem_map.mp hm
    exact ⟨isCString_snprintfInt 5 _, wf_connectorObject _⟩
  obtain ⟨fs, hfs, -, -⟩ := addAll_keys (entries env.drm (modesValue env.drm) cs)
    [] List.nodup_nil
  change addAll .newObject _ = _ at hfs
  have hobjects : ∀ f ∈ fs, ∃ connector, f.2 = .object (connectorMembers connector) := by
    intro f hf
    obtain ⟨m, hm, hmf⟩ := List.mem_map.mp (addAll_values _ [] fs hfs f hf)
    obtain ⟨c, -, rfl⟩ := List.mem_map.mp hm
    exact ⟨_, hmf.symm⟩
  -- the client reads as many connections as the object has members
  obtain ⟨conns, hdump, hheaders⟩ := dumpConnections_objects (n := 0) hobjects
  have hreply : dumpModes jc (fun _ => true) (replyOf (jc.received (.object fs))) = .ok conns := by
    rw [hr.received_eq ⟨hfs ▸ hwf, rfl⟩]
    exact hdump
  unfold ConnectionsComplete
  rw [hcs]
  constructor
  · intro hcomplete
    obtain ⟨s'', out, conns', hrun', hdump', hheaders'⟩ := hcomplete
    rw [hrun, hfs] at hrun'
    obtain ⟨-, rfl⟩ := Prod.mk.inj (Except.ok.inj hrun')
    obtain rfl : conns = conns' := Except.ok.inj (hreply.symm.trans hdump')
    rw [← addAll_length_iff hfs]
    have hlen := congrArg List.length (hheaders.symm.trans hheaders')
    simpa [entries] using hlen
  · intro hnd
    have hall := addAll_distinct (entries env.drm (modesValue env.drm) cs) []
      (by simpa using hnd)
    obtain rfl : fs = _ := Json.object.inj (hfs.symm.trans hall)
    refine ⟨s', _, conns, hfs ▸ hrun, hreply, ?_⟩
    rw [hheaders]
    show ((cs.map fun c => (connectorKey env.drm c, modesValue env.drm c)).map
      fun f => readConnection jc f.2) = _
    rw [List.map_map]
    apply List.map_congr_left
    intro c _
    exact readConnection_object hg (env.drm.connector c)

end Loops

/-- **When no connector disappears.**  For the list that any calls lead to, the
replies to both requests have one entry for each connector, and the client reads
one connection for each, in order, if and only if no two ids share a key. -/
theorem replies_complete_iff {jc : JsonC} (hr : jc.ReadsObjects) (hg : jc.GetsInts)
    (calls : List ConnectorCall) (env : MessageEnv) {name : String}
    (hname : isCString name = true) (hne : name ≠ "") :
    ∃ h, run connectorStep connectorHeapInit calls = some h ∧
      ∀ s : HelperState, s.connectorList = h →
        ((ModesComplete jc env s ∧ RangeComplete jc env s name ∧
          ConnectionsComplete jc env s) ↔ KeysDiffer env s) := by
  obtain ⟨h, hrun, cells, hrep, -⟩ := represents_run calls represents_init
    (fun _ hx => absurd hx List.not_mem_nil)
  refine ⟨h, hrun, ?_⟩
  intro s hs
  have hrep' : Represents s.connectorList cells := hs ▸ hrep
  rw [modesComplete_iff hr env hrep', rangeComplete_iff hr env hname hne hrep',
    connectionsComplete_iff hr hg env hrep', and_self, and_self]

/-- A run of calls, with the connectors that are listed behind it. -/
theorem run_listed (calls : List ConnectorCall) {cs : List Nat}
    (hlisted : (run connectorStep connectorHeapInit calls).map listedConnectors = some cs) :
    ∃ h cells, run connectorStep connectorHeapInit calls = some h ∧ Represents h cells ∧
      listedConnectors h = cs := by
  obtain ⟨h, hrun, cells, hrep, -⟩ := represents_run calls represents_init
    (fun _ hx => absurd hx List.not_mem_nil)
  rw [hrun, Option.map_some] at hlisted
  exact ⟨h, cells, hrun, hrep, Option.some.inj hlisted⟩

/-! ### Ids of five digits -/

/-- The id of a connector is its number. -/
def numberedConnectors : MessageEnv where
  drm := ⟨fun c => ⟨c, 1, drmModeConnectorHdmia, 0, 0, 0, [], [], []⟩, fun _ => none,
    fun _ => none⟩
  copyOk := true

/-- Ids of up to four digits are their own keys. -/
theorem small_ids_complete :
    ∃ h, run connectorStep connectorHeapInit
        [.append drmSilent 77, .append drmSilent 9999] = some h ∧
      ∀ s : HelperState, s.connectorList = h →
        ModesComplete jsonText numberedConnectors s ∧
        RangeComplete jsonText numberedConnectors s "Color Depth" ∧
        ConnectionsComplete jsonText numberedConnectors s := by
  obtain ⟨h, hrun, hiff⟩ := replies_complete_iff jsonText_readsObjects jsonText_getsInts
    [.append drmSilent 77, .append drmSilent 9999] numberedConnectors
    (show isCString "Color Depth" = true by decide) (by decide)
  obtain ⟨h', cells, hrun', -, hlisted⟩ :=
    run_listed [.append drmSilent 77, .append drmSilent 9999]
      (show _ = some [77, 9999] by decide +kernel)
  obtain rfl := Option.some.inj (hrun.symm.trans hrun')
  refine ⟨h, hrun, ?_⟩
  intro s hs
  rw [hiff s hs]
  unfold KeysDiffer
  rw [hs, hlisted]
  decide +kernel

/-- The connectors 12345 and 12346 share the key 1234, and none of the replies
is complete. -/
theorem five_digits_collide :
    ∃ h, run connectorStep connectorHeapInit
        [.append drmSilent 12345, .append drmSilent 12346] = some h ∧
      ∀ s : HelperState, s.connectorList = h →
        listedConnectors s.connectorList = [12345, 12346] ∧
        ¬ ModesComplete jsonText numberedConnectors s ∧
        ¬ RangeComplete jsonText numberedConnectors s "Color Depth" ∧
        ¬ ConnectionsComplete jsonText numberedConnectors s := by
  obtain ⟨h, cells, hrun, hrep, hlisted⟩ :=
    run_listed [.append drmSilent 12345, .append drmSilent 12346]
      (show _ = some [12345, 12346] by decide +kernel)
  refine ⟨h, hrun, ?_⟩
  intro s hs
  have hrep' : Represents s.connectorList cells := hs ▸ hrep
  have hconn : listedConnectors s.connectorList = [12345, 12346] := hs ▸ hlisted
  have hsame : ¬ KeysDiffer numberedConnectors s := by
    unfold KeysDiffer
    rw [hconn]
    decide +kernel
  refine ⟨hconn, ?_, ?_, ?_⟩
  · rwa [modesComplete_iff jsonText_readsObjects _ hrep']
  · rwa [rangeComplete_iff jsonText_readsObjects _ (by decide) (by decide) hrep']
  · rwa [connectionsComplete_iff jsonText_readsObjects jsonText_getsInts _ hrep']

/-! ## §6. The ids of the connections. -/

/-- The client reads connections whose ids are those of the connectors, and no
two of which are the same. -/
def IdsToldApart (jc : JsonC) (env : MessageEnv) (s : HelperState) : Prop :=
  ∃ s' out conns, exchange jc env s getModesData = .ok (s', out) ∧
    dumpModes jc (fun _ => true) (replyOf (jc.received out)) = .ok conns ∧
    (conns.map DrmConnection.id).Nodup ∧
    conns.map DrmConnection.id = (listedConnectors s.connectorList).map fun c =>
      ((env.drm.connector c).connectorId : Int)

/-- Ids of up to four digits are keys. -/
theorem not_sameKey_of_small {a b : Nat} (ha : a < 10 ^ 4) (hb : b < 10 ^ 4) (hne : a ≠ b) :
    ¬ SameKey a b := by
  unfold SameKey
  rw [toInt32_natCast (by omega), toInt32_natCast (by omega), Int.natAbs_natCast,
    Int.natAbs_natCast, Digits.leading_of_lt (by omega) ha, Digits.leading_of_lt (by omega) hb]
  rintro (⟨-, -, heq⟩ | ⟨hneg, -⟩)
  · exact hne heq
  · omega

section Ids

variable {jc : JsonC} {s : HelperState} {cells : List ConnectorCell}

/-- The ids that are read are the members "connection". -/
theorem ids_are_connections (hr : jc.ReadsObjects) (hg : jc.GetsInts) (env : MessageEnv)
    (hrep : Represents s.connectorList cells) (hkeys : KeysDiffer env s) :
    ∃ s' out conns, exchange jc env s getModesData = .ok (s', out) ∧
      dumpModes jc (fun _ => true) (replyOf (jc.received out)) = .ok conns ∧
      conns.map DrmConnection.id = (listedConnectors s.connectorList).map fun c =>
        toInt32 (env.drm.connector c).connection := by
  obtain ⟨s', out, conns, hrun, hdump, hheaders⟩ :=
    (connectionsComplete_iff hr hg env hrep).mpr hkeys
  refine ⟨s', out, conns, hrun, hdump, ?_⟩
  calc conns.map DrmConnection.id
      = (conns.map DrmConnection.header).map DrmConnection.id := by
        rw [List.map_map]
        rfl
    _ = _ := by
        simp only [hheaders, List.map_map, Function.comp_def, connectionHeader]

/-- The reply and what is read of it are determined. -/
theorem idsToldApart_of_read {env : MessageEnv} {s' : HelperState} {out : Json}
    {conns : List DrmConnection} (hexchange : exchange jc env s getModesData = .ok (s', out))
    (hdump : dumpModes jc (fun _ => true) (replyOf (jc.received out)) = .ok conns) :
    IdsToldApart jc env s ↔ (conns.map DrmConnection.id).Nodup ∧
      conns.map DrmConnection.id = (listedConnectors s.connectorList).map fun c =>
        ((env.drm.connector c).connectorId : Int) := by
  constructor
  · rintro ⟨s'', out', conns', hexchange', hdump', hids⟩
    obtain ⟨-, rfl⟩ := Prod.mk.inj (Except.ok.inj (hexchange.symm.trans hexchange'))
    obtain rfl := Except.ok.inj (hdump.symm.trans hdump')
    exact hids
  · exact fun hids => ⟨s', out, conns, hexchange, hdump, hids⟩

end Ids

/-- **When the connections can be told apart.**  The id of a connection is read
from the member "connection", which is the state of the connector.  So the ids
are right if and only if the state of every connector is its id. -/
theorem ids_told_apart_iff {jc : JsonC} (hr : jc.ReadsObjects) (hg : jc.GetsInts)
    (calls : List ConnectorCall) {h : ConnectorHeap}
    (hrun : run connectorStep connectorHeapInit calls = some h) (env : MessageEnv)
    {s : HelperState} (hs : s.connectorList = h)
    (hdistinct : (listedConnectors h).Pairwise fun c d =>
      (env.drm.connector c).connectorId ≠ (env.drm.connector d).connectorId)
    (hsmall : ∀ c ∈ listedConnectors h, (env.drm.connector c).connectorId < 10 ^ 4) :
    IdsToldApart jc env s ↔ ∀ c ∈ listedConnectors h,
      toInt32 (env.drm.connector c).connection = (env.drm.connector c).connectorId := by
  subst hs
  obtain ⟨h', hrun', cells, hrep, -⟩ := represents_run calls represents_init
    (fun _ hx => absurd hx List.not_mem_nil)
  obtain rfl := Option.some.inj (hrun'.symm.trans hrun)
  have hkeys : KeysDiffer env s := by
    refine hdistinct.imp_of_mem ?_
    intro c d hc hd hne
    exact not_sameKey_of_small (hsmall c hc) (hsmall d hd) hne
  obtain ⟨s', out, conns, hexchange, hdump, hids⟩ := ids_are_connections hr hg env hrep hkeys
  rw [idsToldApart_of_read hexchange hdump, hids, List.map_inj_left]
  constructor
  · exact fun htold => htold.2
  · intro hall
    refine ⟨?_, hall⟩
    rw [List.map_inj_left.mpr hall, List.Nodup, List.pairwise_map]
    exact hdistinct.imp fun hne heq => hne (Int.ofNat.inj heq)

/-- The state of a connector is its number, as is its id. -/
def statesAreIds : MessageEnv where
  drm := ⟨fun c => ⟨c, c, drmModeConnectorHdmia, 0, 0, 0, [], [], []⟩, fun _ => none,
    fun _ => none⟩
  copyOk := true

/-- A connected and a disconnected connector with these ids. -/
theorem ids_told_apart_states :
    ∃ h, run connectorStep connectorHeapInit
        [.append drmSilent 1, .append drmSilent 2] = some h ∧
      ∀ s : HelperState, s.connectorList = h → IdsToldApart jsonText statesAreIds s := by
  obtain ⟨h, cells, hrun, -, hlisted⟩ := run_listed [.append drmSilent 1, .append drmSilent 2]
    (show _ = some [1, 2] by decide +kernel)
  refine ⟨h, hrun, ?_⟩
  intro s hs
  refine (ids_told_apart_iff jsonText_readsObjects jsonText_getsInts _ hrun statesAreIds hs
    ?_ ?_).mpr ?_ <;> rw [hlisted] <;> decide +kernel

/-- The connectors 77 and 78 are both connected, and both have the id 1. -/
theorem connected_ids_collide :
    ∃ h, run connectorStep connectorHeapInit
        [.append drmSilent 77, .append drmSilent 78] = some h ∧
      ∀ s : HelperState, s.connectorList = h →
        listedConnectors s.connectorList = [77, 78] ∧
        (∃ s' out conns, exchange jsonText numberedConnectors s getModesData = .ok (s', out) ∧
          dumpModes jsonText (fun _ => true) (replyOf (jsonText.received out)) = .ok conns ∧
          conns.map DrmConnection.id = [1, 1]) ∧
        ¬ IdsToldApart jsonText numberedConnectors s := by
  obtain ⟨h, cells, hrun, hrep, hlisted⟩ := run_listed
    [.append drmSilent 77, .append drmSilent 78] (show _ = some [77, 78] by decide +kernel)
  refine ⟨h, hrun, ?_⟩
  intro s hs
  have hrep' : Represents s.connectorList cells := hs ▸ hrep
  have hconn : listedConnectors s.connectorList = [77, 78] := hs ▸ hlisted
  have hkeys : KeysDiffer numberedConnectors s := by
    unfold KeysDiffer
    rw [hconn]
    decide +kernel
  obtain ⟨s', out, conns, hexchange, hdump, hids⟩ :=
    ids_are_connections jsonText_readsObjects jsonText_getsInts numberedConnectors hrep' hkeys
  have hones : conns.map DrmConnection.id = [1, 1] := by
    rw [hids, hconn]
    decide +kernel
  refine ⟨hconn, ⟨s', out, conns, hexchange, hdump, hones⟩, ?_⟩
  rw [idsToldApart_of_read hexchange hdump, hones]
  rintro ⟨hnodup, -⟩
  exact absurd hnodup (by decide)

end MesonDisplay.Client
