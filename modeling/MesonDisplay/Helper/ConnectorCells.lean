/-
  MesonDisplay.Helper.ConnectorCells — what the calls do to the list of
  connectors.

  A cell says of a node which connector it holds and which values are pending
  for its properties.  The ids of the properties, which libdrm gives, are left
  out.  Each call about connectors is a function on the list of cells here.

  Main results:
    * `represents_append`, `represents_update`, `represents_delete`,
      `represents_set`, `represents_commit` — on a list that represents the
      cells the call returns, and the list it leaves represents the cells after
      the call.
-/
import MesonDisplay.Helper.ConnectorInfo

namespace MesonDisplay.Helper

open MesonDisplay.LinkedList

/-! ## §1. Cells. -/

/-- A node of the list: its connector, `none` for a hole, and the pending value
of each property. -/
structure ConnectorCell where
  connector : Option Nat
  pending : List (Option Nat)
  deriving DecidableEq, Repr

/-- The value that is to be set with the next commit. -/
def DrmPropertyInfo.pending (p : DrmPropertyInfo) : Option Nat :=
  if p.needChange then some p.newValue else none

def cellOf (n : ConnectorNode) : ConnectorCell := ⟨n.data, n.props.map DrmPropertyInfo.pending⟩

/-- The pending values of `connector_props`. -/
def nothingPending : List (Option Nat) := connectorProps.map DrmPropertyInfo.pending

def ConnectorCell.holds (c : Nat) (cell : ConnectorCell) : Bool := cell.connector = some c

/-- The connector is in the list. -/
def listed (c : Nat) (cells : List ConnectorCell) : Bool := cells.any (·.holds c)

/-- A connector that is not listed goes behind the others. -/
def appendConnector (c : Nat) (cells : List ConnectorCell) : List ConnectorCell :=
  if listed c cells then cells else cells ++ [⟨some c, nothingPending⟩]

/-- The first cell with the connector `old` is replaced. -/
def replaceFirst (old new : Nat) : List ConnectorCell → List ConnectorCell
  | [] => []
  | x :: xs =>
      if x.holds old then ⟨some new, nothingPending⟩ :: xs else x :: replaceFirst old new xs

def updateConnector (old : Option Nat) (new : Nat) (cells : List ConnectorCell) :
    List ConnectorCell :=
  match old with
  | none => appendConnector new cells
  | some old => if listed old cells then replaceFirst old new cells else appendConnector new cells

/-- The head becomes a hole, another node is taken out. -/
def deleteConnector (c : Nat) : List ConnectorCell → List ConnectorCell
  | [] => []
  | x :: xs => if x.holds c then ⟨none, x.pending⟩ :: xs else x :: xs.eraseP (·.holds c)

/-- The cell holds an HDMI connector. -/
def ConnectorCell.isHdmi (hdmi : Nat → Bool) (cell : ConnectorCell) : Bool :=
  cell.connector.any hdmi

/-- A value for the property number `i` of all HDMI connectors. -/
def setPending (hdmi : Nat → Bool) (i value : Nat) (cells : List ConnectorCell) :
    List ConnectorCell :=
  cells.map fun x =>
    if x.isHdmi hdmi then { x with pending := x.pending.set i (some value) } else x

/-- Nothing stays pending for a listed connector. -/
def commitPending (cells : List ConnectorCell) : List ConnectorCell :=
  cells.map fun x =>
    if x.connector.isSome then { x with pending := x.pending.map fun _ => none } else x

/-! ## §2. The list stands for cells. -/

/-- A used node has the properties of `connector_props`. -/
def HasTable (n : ConnectorNode) : Prop :=
  n.data ≠ none → n.props.map DrmPropertyInfo.name = connectorProps.map DrmPropertyInfo.name

/-- The nodes but for the last one, in order. -/
def connectorNodes (h : ConnectorHeap) : List ConnectorNode :=
  readData h (h.fresh + 1) globalConnectorList

/-- The nodes of the list, but for the last one, are these cells. -/
def Represents (h : ConnectorHeap) (cells : List ConnectorCell) : Prop :=
  ∃ es t, ConnectorsOk h es t ∧ (∀ n ∈ dataOf es, HasTable n) ∧ (dataOf es).map cellOf = cells

theorem Represents.nodes {h : ConnectorHeap} {cells : List ConnectorCell}
    (hr : Represents h cells) :
    (∀ n ∈ connectorNodes h, HasTable n) ∧ (connectorNodes h).map cellOf = cells := by
  obtain ⟨es, t, hok, htable, hcells⟩ := hr
  have hnodes : connectorNodes h = dataOf es := hok.linked.readData_eq
  rw [hnodes]
  exact ⟨htable, hcells⟩

theorem represents_init : Represents connectorHeapInit [] :=
  ⟨_, _, connectorsOk_init, fun _ hn => absurd hn List.not_mem_nil, rfl⟩

theorem hasTable_connectorProps (data : Option Nat) : HasTable ⟨data, connectorProps⟩ :=
  fun _ => rfl

theorem holds_cellOf (c : Nat) (n : ConnectorNode) :
    (cellOf n).holds c = decide (n.data = some c) := rfl

theorem listed_map_cellOf (c : Nat) (ns : List ConnectorNode) :
    listed c (ns.map cellOf) = ns.any (fun n => n.data = some c) := by
  unfold listed
  rw [List.any_map]
  rfl

/-! ## §3. The ids of the properties. -/

theorem recordPropId_cell (name : String) (propId : Nat) {props : List DrmPropertyInfo} :
    ∀ {props' : List DrmPropertyInfo}, recordPropId name propId props = .ok props' →
      props'.map DrmPropertyInfo.name = props.map DrmPropertyInfo.name ∧
      props'.map DrmPropertyInfo.pending = props.map DrmPropertyInfo.pending := by
  induction props with
  | nil =>
      intro props' hrun
      obtain rfl := Except.ok.inj hrun
      exact ⟨rfl, rfl⟩
  | cons p ps ih =>
      intro props' hrun
      unfold recordPropId at hrun
      cases hname : p.name with
      | none =>
          simp only [hname] at hrun
          exact absurd hrun (by simp)
      | some n =>
          simp only [hname] at hrun
          by_cases hfound : strstr name n = true
          · rw [if_pos hfound] at hrun
            obtain rfl := Except.ok.inj hrun
            simp [hname, DrmPropertyInfo.pending]
          · rw [if_neg hfound] at hrun
            obtain ⟨ps', hps, hcons⟩ := bind_eq_ok.mp hrun
            obtain rfl := Except.ok.inj hcons
            obtain ⟨hnames, hpending⟩ := ih hps
            exact ⟨by rw [List.map_cons, List.map_cons, hnames],
              by rw [List.map_cons, List.map_cons, hpending]⟩

theorem recordPropIds_cell (drm : Drm) (ids : List (Nat × Nat)) :
    ∀ {props props' : List DrmPropertyInfo}, recordPropIds drm ids props = .ok props' →
      props'.map DrmPropertyInfo.name = props.map DrmPropertyInfo.name ∧
      props'.map DrmPropertyInfo.pending = props.map DrmPropertyInfo.pending := by
  induction ids with
  | nil =>
      intro props props' hrun
      obtain rfl := Except.ok.inj hrun
      exact ⟨rfl, rfl⟩
  | cons id ids ih =>
      intro props props' hrun
      obtain ⟨propId, value⟩ := id
      unfold recordPropIds at hrun
      cases hname : drm.property propId with
      | none =>
          simp only [hname] at hrun
          exact ih hrun
      | some name =>
          simp only [hname] at hrun
          obtain ⟨props₁, hfirst, hrest⟩ := bind_eq_ok.mp hrun
          obtain ⟨hnames₁, hpending₁⟩ := recordPropId_cell name propId hfirst
          obtain ⟨hnames, hpending⟩ := ih hrest
          exact ⟨hnames.trans hnames₁, hpending.trans hpending₁⟩

/-- On a used node `update_connector_props` changes ids only. -/
theorem updateConnectorProps_cell (drm : Drm) {n : ConnectorNode} {c : Nat}
    (hc : n.data = some c) (hn : Named n) (htable : HasTable n) :
    ∃ n', updateConnectorProps drm n = .ok n' ∧ Named n' ∧ HasTable n' ∧
      cellOf n' = cellOf n := by
  obtain ⟨n', hrun, hdata, hn'⟩ := updateConnectorProps_returns drm hc hn
  refine ⟨n', hrun, hn', ?_⟩
  unfold updateConnectorProps at hrun
  simp only [hc] at hrun
  cases hids : drm.objectProperties (drm.connector c).connectorId with
  | none =>
      simp only [hids] at hrun
      obtain rfl := Except.ok.inj hrun
      exact ⟨htable, rfl⟩
  | some ids =>
      simp only [hids] at hrun
      obtain ⟨props, hprops, hnode⟩ := bind_eq_ok.mp hrun
      obtain rfl := Except.ok.inj hnode
      obtain ⟨hnames, hpending⟩ := recordPropIds_cell drm ids hprops
      refine ⟨fun _ => hnames.trans (htable (by rw [hc]; simp)), ?_⟩
      unfold cellOf
      rw [hpending, hc]

/-! ## §4. One node. -/

section Calls

variable {h : ConnectorHeap} {cells : List ConnectorCell} {pre post : List (Entry ConnectorNode)}
  {e t : Entry ConnectorNode}

/-- `update_connector_props(current)`, for a used node of the list. -/
theorem updateCurrent_returns (drm : Drm) {c : Nat} (hok : ConnectorsOk h (pre ++ e :: post) t)
    (htable : HasTable e.data) (hc : e.data.data = some c) :
    ∃ h' n, (do
        let c ← load Fault.badPointer h e.addr
        let n ← updateConnectorProps drm c.data
        modify Fault.badPointer h e.addr (fun c => { c with data := n })) = Except.ok h' ∧
      ConnectorsOk h' (pre ++ { e with data := n } :: post) t ∧ HasTable n ∧
      cellOf n = cellOf e.data := by
  have hcell := hok.linked.cell
  have hnamed : Named e.data := hok.named e.data (by rw [dataOf_split]; simp)
  obtain ⟨n, hrun, hn, htable', hcells⟩ := updateConnectorProps_cell drm hc hnamed htable
  refine ⟨_, n, ?_, connectorsOk_setData hok hn, htable', hcells⟩
  rw [load_eq hcell]
  simp only [ok_bind, hrun, modify_eq hcell]

/-- The first node with a property. -/
theorem findIdx_split {p : ConnectorNode → Bool} {ns : List ConnectorNode}
    (hany : ns.any p = true) {l r : List ConnectorNode} {n : ConnectorNode}
    (hns : ns = l ++ n :: r) (hlen : l.length = ns.findIdx p) :
    p n = true ∧ ∀ m ∈ l, p m = false := by
  have hlt : ns.findIdx p < ns.length :=
    List.findIdx_lt_length_of_exists (List.any_eq_true.mp hany)
  refine ⟨?_, ?_⟩
  · have hp := List.findIdx_getElem (w := hlt)
    have hget : ns[ns.findIdx p]? = some n := by
      rw [← hlen, hns]
      simp
    rw [List.getElem?_eq_getElem hlt] at hget
    rwa [Option.some.inj hget] at hp
  · intro m hm
    obtain ⟨j, hj, rfl⟩ := List.mem_iff_getElem.mp hm
    have hnot := List.not_of_lt_findIdx (show j < ns.findIdx p by omega)
    simp only [hns, List.getElem_append_left hj] at hnot
    exact hnot

/-! ## §5. The calls. -/

/-- `help_append_connector`. -/
theorem represents_append (drm : Drm) (c : Nat) (hr : Represents h cells) :
    ∃ h', helpAppendConnector drm true (some c) h = .ok h' ∧
      Represents h' (appendConnector c cells) := by
  obtain ⟨es, t, hok, htable, rfl⟩ := hr
  obtain ⟨h₁, es₁, exist, i, hsearch, hok₁, hdata, hexist, hi, hfound, hend⟩ :=
    search_spec (some c) hok
  unfold helpAppendConnector appendConnector
  rw [listed_map_cellOf, ← hexist]
  simp only [hsearch, ok_bind]
  rw [← hdata] at htable hi hexist ⊢
  cases exist with
  -- the connector is listed: the ids of its properties are read again
  | true =>
      obtain ⟨pre, e, post, rfl, hlen, haddr⟩ := Linked.getD_split (hfound rfl) t
      have hevery : Every HasTable (pre ++ e :: post) := htable
      rw [dataOf_split] at hi hexist htable ⊢
      obtain ⟨hc, -⟩ := findIdx_split hexist.symm rfl (by rw [← hi, ← hlen]; simp [dataOf])
      obtain ⟨h', n, hrun, hok', htable', hcell⟩ := updateCurrent_returns drm hok₁
        (htable e.data (by simp)) (of_decide_eq_true hc)
      simp only [if_true, haddr]
      refine ⟨h', hrun, _, t, hok', Every.setData hevery htable', ?_⟩
      rw [dataOf_split]
      simp [hcell]
  -- it is not: the search went to the last node, which takes it
  | false =>
      obtain ⟨h₂, t', hnew, hok₂⟩ := appendNew_returns (some c) hok₁
      obtain ⟨h', n, hrun, hok', htable', hcell⟩ := updateCurrent_returns drm hok₂
        (hasTable_connectorProps (some c)) rfl
      rw [hend rfl, getD_last]
      simp only [Bool.false_eq_true, if_false, hnew, ok_bind]
      refine ⟨h', hrun, _, t', hok', ?_, ?_⟩
      · intro m hm
        rw [dataOf_split] at hm
        rcases List.mem_append.mp hm with hm | hm
        · exact htable m hm
        · obtain rfl : m = n := by simpa [dataOf] using hm
          exact htable'
      · rw [dataOf_split, List.map_append, List.map_cons, hcell]
        rfl

theorem replaceFirst_of_not_listed {old new : Nat} {cells : List ConnectorCell}
    (hnot : listed old cells = false) : replaceFirst old new cells = cells := by
  induction cells with
  | nil => rfl
  | cons x xs ih =>
      obtain ⟨hx, hxs⟩ : x.holds old = false ∧ listed old xs = false := by
        simpa [listed] using hnot
      unfold replaceFirst
      rw [if_neg (by simp [hx]), ih hxs]

/-- The loop of `help_update_connector`. -/
theorem visit_replaceConnector (drm : Drm) (old new : Nat) (ns : List ConnectorNode) :
    (∀ n ∈ ns, Named n) → (∀ n ∈ ns, HasTable n) →
    ∃ ns' i, visit (replaceConnector drm old (some new)) false ns
        = .ok (ns', ns.any (fun n => n.data = some old), i) ∧
      (∀ n ∈ ns', Named n) ∧ (∀ n ∈ ns', HasTable n) ∧
      ns'.map cellOf = replaceFirst old new (ns.map cellOf) := by
  induction ns with
  | nil => exact fun hn ht => ⟨[], 0, rfl, hn, ht, rfl⟩
  | cons n ns ih =>
      intro hnamed htable
      rw [List.forall_mem_cons] at hnamed htable
      unfold visit replaceConnector
      rw [List.map_cons, replaceFirst, holds_cellOf]
      by_cases hold : n.data = some old
      · -- the node takes the new connector and the table
        obtain ⟨n', hrun, hn', htable', hcell⟩ := updateConnectorProps_cell drm
          (n := ⟨some new, connectorProps⟩) rfl (connectorProps_named _)
          (hasTable_connectorProps _)
        refine ⟨n' :: ns, 0, by simp [hold, hrun, ok_bind],
          List.forall_mem_cons.mpr ⟨hn', hnamed.2⟩,
          List.forall_mem_cons.mpr ⟨htable', htable.2⟩, ?_⟩
        rw [if_pos (by simp [hold]), List.map_cons, hcell]
        rfl
      · obtain ⟨ns', i, hv, hnamed', htable', hcells⟩ := ih hnamed.2 htable.2
        unfold replaceConnector at hv
        refine ⟨n :: ns', i + 1, by simp [hold, hv],
          List.forall_mem_cons.mpr ⟨hnamed.1, hnamed'⟩,
          List.forall_mem_cons.mpr ⟨htable.1, htable'⟩, ?_⟩
        rw [if_neg (by simp [hold]), List.map_cons, hcells]

/-- The loop over the list. -/
theorem represents_replaceLoop (drm : Drm) (old new : Nat) (hr : Represents h cells) :
    ∃ h' i, forEachConnector (replaceConnector drm old (some new)) h false
        = .ok (h', listed old cells, i) ∧
      Represents h' (replaceFirst old new cells) := by
  obtain ⟨es, t, hok, htable, rfl⟩ := hr
  obtain ⟨ns', i, hv, hnamed', htable', hcells⟩ :=
    visit_replaceConnector drm old new (dataOf es) hok.named htable
  obtain ⟨h', es', hrun, hok', hdata, -⟩ := forEachConnector_spec hok rfl hv hnamed'
  rw [listed_map_cellOf]
  exact ⟨h', _, hrun, es', t, hok', hdata ▸ htable', hdata ▸ hcells⟩

/-- `help_update_connector`, for a connector that is listed: no memory is
needed. -/
theorem represents_replace (drm : Drm) (mallocOk : Bool) {old : Nat} (new : Nat)
    (hlisted : listed old cells = true) (hr : Represents h cells) :
    ∃ h', helpUpdateConnector drm mallocOk (some old) (some new) h = .ok h' ∧
      Represents h' (replaceFirst old new cells) := by
  obtain ⟨h', i, hrun, hr'⟩ := represents_replaceLoop drm old new hr
  refine ⟨h', ?_, hr'⟩
  unfold helpUpdateConnector
  simp only [hrun, ok_bind, hlisted, if_true]

/-- `help_update_connector`. -/
theorem represents_update (drm : Drm) (old : Option Nat) (new : Nat)
    (hr : Represents h cells) :
    ∃ h', helpUpdateConnector drm true old (some new) h = .ok h' ∧
      Represents h' (updateConnector old new cells) := by
  cases old with
  | none =>
      unfold helpUpdateConnector updateConnector
      exact represents_append drm new hr
  | some old =>
      unfold updateConnector
      cases hlisted : listed old cells with
      | true =>
          simp only [hlisted, if_true]
          exact represents_replace drm true new hlisted hr
      -- the old connector is not listed: the new one is appended
      | false =>
          obtain ⟨h₁, i, hrun, hr₁⟩ := represents_replaceLoop drm old new hr
          rw [replaceFirst_of_not_listed hlisted] at hr₁
          unfold helpUpdateConnector
          simp only [hrun, ok_bind, hlisted, Bool.false_eq_true, if_false]
          exact represents_append drm new hr₁

theorem deleteConnector_of_not_listed {c : Nat} {cells : List ConnectorCell}
    (hnot : listed c cells = false) : deleteConnector c cells = cells := by
  cases cells with
  | nil => rfl
  | cons x xs =>
      obtain ⟨hx, hxs⟩ : x.holds c = false ∧ listed c xs = false := by
        simpa [listed] using hnot
      rw [deleteConnector, if_neg (by simp [hx]), List.eraseP_of_forall_not]
      intro y hy
      simpa using List.any_eq_false.mp hxs y hy

/-- The first cell with the connector, behind the head. -/
theorem deleteConnector_behind {c : Nat} {pre post : List ConnectorCell} {x : ConnectorCell}
    (hne : pre ≠ []) (hpre : ∀ y ∈ pre, y.holds c = false) (hx : x.holds c = true) :
    deleteConnector c (pre ++ x :: post) = pre ++ post := by
  cases pre with
  | nil => exact absurd rfl hne
  | cons y ys =>
      rw [List.forall_mem_cons] at hpre
      rw [List.cons_append, deleteConnector, if_neg (by simp [hpre.1])]
      rw [List.eraseP_append_right, List.eraseP_cons_of_pos hx, List.cons_append]
      intro z hz
      simp [hpre.2 z hz]

/-- `help_delete_connector`. -/
theorem represents_delete (c : Nat) (hr : Represents h cells) :
    ∃ h', helpDeleteConnector (some c) h = .ok h' ∧
      Represents h' (deleteConnector c cells) := by
  obtain ⟨es, t, hok, htable, rfl⟩ := hr
  obtain ⟨h₁, es₁, found, i, hsearch, hok₁, hdata, hexist, hi, hfound, -⟩ :=
    search_spec (some c) hok
  unfold helpDeleteConnector
  simp only [hsearch, ok_bind]
  rw [← hdata] at htable hi hexist ⊢
  -- a connector that is not listed is not deleted
  cases found with
  | false =>
      rw [deleteConnector_of_not_listed (by rw [listed_map_cellOf]; exact hexist.symm)]
      simp only [Bool.false_eq_true, not_false_eq_true, if_true]
      exact ⟨h₁, rfl, es₁, t, hok₁, htable, rfl⟩
  | true =>
      obtain ⟨pre, e, post, rfl, hlen, haddr⟩ := Linked.getD_split (hfound rfl) t
      have hevery : Every HasTable (pre ++ e :: post) := htable
      rw [dataOf_split] at hi hexist htable ⊢
      obtain ⟨hc, hpre⟩ := findIdx_split hexist.symm rfl (by rw [← hi, ← hlen]; simp [dataOf])
      obtain ⟨h₂, es', t', hrun, hok', hwhere⟩ := deleteFound_returns hok₁
      simp only [not_true_eq_false, if_false, haddr]
      refine ⟨h₂, hrun, es', t', hok', ?_⟩
      rcases hwhere with ⟨rfl, hdata'⟩ | ⟨hne, hdata'⟩
      · -- the head
        refine ⟨?_, ?_⟩
        · intro m hm
          rw [hdata'] at hm
          rcases List.mem_cons.mp hm with rfl | hm
          · exact fun hused => absurd rfl hused
          · exact htable m (List.mem_append_right _ (List.mem_cons_of_mem _ hm))
        · rw [hdata']
          show _ = deleteConnector c (cellOf e.data :: (dataOf post).map cellOf)
          rw [deleteConnector, if_pos (by rw [holds_cellOf]; exact hc)]
          rfl
      · -- a node behind it
        refine ⟨?_, ?_⟩
        · rw [hdata']
          exact Every.around hevery
        · rw [hdata', List.map_append, List.map_append, List.map_cons, deleteConnector_behind]
          · simpa [dataOf] using hne
          · intro y hy
            obtain ⟨m, hm, rfl⟩ := List.mem_map.mp hy
            rw [holds_cellOf]
            exact hpre m hm
          · rw [holds_cellOf]
            exact hc

/-! ## §6. The connectors. -/

/-- The listed connectors, in order. -/
def connectorsOf (cells : List ConnectorCell) : List Nat := cells.filterMap (·.connector)

theorem holds_iff {c : Nat} {x : ConnectorCell} : x.holds c = true ↔ x.connector = some c :=
  decide_eq_true_iff

theorem listed_iff {c : Nat} {cells : List ConnectorCell} :
    listed c cells = true ↔ c ∈ connectorsOf cells := by
  unfold listed connectorsOf
  rw [List.any_eq_true, List.mem_filterMap]
  simp only [holds_iff]

theorem connectorsOf_append (c : Nat) (cells : List ConnectorCell) :
    connectorsOf (appendConnector c cells)
      = if c ∈ connectorsOf cells then connectorsOf cells else connectorsOf cells ++ [c] := by
  unfold appendConnector
  by_cases hlisted : listed c cells = true
  · rw [if_pos hlisted, if_pos (listed_iff.mp hlisted)]
  · rw [if_neg hlisted, if_neg (fun hmem => hlisted (listed_iff.mpr hmem))]
    simp [connectorsOf]

theorem connectorsOf_replaceFirst (old new : Nat) (cells : List ConnectorCell) :
    connectorsOf (replaceFirst old new cells) = (connectorsOf cells).replace old new := by
  induction cells with
  | nil => rfl
  | cons x xs ih =>
      unfold connectorsOf at ih ⊢
      unfold replaceFirst
      by_cases hx : x.holds old = true
      · have hc := holds_iff.mp hx
        simp [if_pos hx, hc]
      · have hc : x.connector ≠ some old := fun h => hx (holds_iff.mpr h)
        rw [if_neg hx]
        cases hd : x.connector with
        | none => simp [hd, ih]
        | some d =>
            have hne : (old == d) = false := by
              rw [beq_eq_false_iff_ne]
              intro h
              exact hc (by rw [hd, h])
            simp [hd, ih, List.replace_cons, hne]

theorem connectorsOf_eraseP (c : Nat) (cells : List ConnectorCell) :
    connectorsOf (cells.eraseP (·.holds c)) = (connectorsOf cells).erase c := by
  induction cells with
  | nil => rfl
  | cons x xs ih =>
      unfold connectorsOf at ih ⊢
      by_cases hx : x.holds c = true
      · rw [List.eraseP_cons_of_pos hx]
        simp [holds_iff.mp hx]
      · have hc : x.connector ≠ some c := fun h => hx (holds_iff.mpr h)
        rw [List.eraseP_cons_of_neg hx]
        cases hd : x.connector with
        | none => simp [hd, ih]
        | some d =>
            have hne : d ≠ c := by
              intro h
              exact hc (by rw [hd, h])
            simp [hd, ih, hne]

theorem connectorsOf_delete (c : Nat) (cells : List ConnectorCell) :
    connectorsOf (deleteConnector c cells) = (connectorsOf cells).erase c := by
  cases cells with
  | nil => rfl
  | cons x xs =>
      rw [deleteConnector]
      by_cases hx : x.holds c = true
      · rw [if_pos hx]
        simp [connectorsOf, holds_iff.mp hx]
      · rw [if_neg hx, ← connectorsOf_eraseP, List.eraseP_cons_of_neg hx]

/-! ## §7. Pending values. -/

/-- The connector is an HDMI connector. -/
def hdmiOf (drm : Drm) (c : Nat) : Bool :=
  (drm.connector c).connectorType = drmModeConnectorHdmia
    ∨ (drm.connector c).connectorType = drmModeConnectorHdmib

theorem isHdmi_cellOf (drm : Drm) (n : ConnectorNode) :
    (cellOf n).isHdmi (hdmiOf drm) = isHdmiConnector drm n := by
  unfold ConnectorCell.isHdmi isHdmiConnector cellOf
  cases n.data with
  | none => rfl
  | some c => rfl

/-- A store to one property. -/
theorem map_modify_eq {α β : Type} {g : α → β} {f : α → α} {v : β} (hv : ∀ a, g (f a) = v)
    (l : List α) (i : Nat) : (l.modify i f).map g = (l.map g).set i v := by
  apply List.ext_getElem?
  intro j
  rw [List.getElem?_map, List.getElem?_modify, List.getElem?_set, List.length_map]
  by_cases hij : i = j
  · subst hij
    by_cases hi : i < l.length
    · simp [hi, hv]
    · simp [hi]
  · simp [hij]

/-- A node behind a request for the property number `i`. -/
def setNode (drm : Drm) (i value : Nat) (n : ConnectorNode) : ConnectorNode :=
  if isHdmiConnector drm n then
    { n with props := n.props.modify i (fun p => { p with needChange := true, newValue := value }) }
  else n

theorem setNode_table (drm : Drm) (i value : Nat) {n : ConnectorNode} (htable : HasTable n) :
    HasTable (setNode drm i value n) := by
  unfold setNode
  by_cases hhdmi : isHdmiConnector drm n = true
  · rw [if_pos hhdmi]
    intro hused
    rw [← htable hused]
    apply List.ext_getElem?
    intro j
    rw [List.getElem?_map, List.getElem?_map, List.getElem?_modify]
    by_cases hij : i = j
    · simp [hij, Function.comp_def]
    · simp [hij]
  · rw [if_neg hhdmi]
    exact htable

theorem cellOf_setNode (drm : Drm) (i value : Nat) (n : ConnectorNode) :
    cellOf (setNode drm i value n) = if (cellOf n).isHdmi (hdmiOf drm) then
      { cellOf n with pending := (cellOf n).pending.set i (some value) } else cellOf n := by
  rw [isHdmi_cellOf]
  unfold setNode
  by_cases hhdmi : isHdmiConnector drm n = true
  · rw [if_pos hhdmi, if_pos hhdmi]
    unfold cellOf
    rw [map_modify_eq (v := some value)]
    exact fun p => rfl
  · rw [if_neg hhdmi, if_neg hhdmi]

/-- Every index of the table is one of the three that only HDMI connectors
take. -/
theorem setRangeBody_eq (drm : Drm) {i : Nat} (hi : i < connectorProps.length) (value : Nat)
    (s : Unit) (n : ConnectorNode) :
    setRangeBody drm i value s n = .ok (setNode drm i value n, .continue s) := by
  have hindex : i = drmColorDepthCp ∨ i = drmColorSpaceCp ∨ i = drmConnectorPropertyCp := by
    change i < 3 at hi
    unfold drmColorDepthCp drmColorSpaceCp drmConnectorPropertyCp
    omega
  unfold setRangeBody setNode
  cases hhdmi : isHdmiConnector drm n with
  | false => simp [hindex]
  | true =>
      cases hc : n.data with
      | none => simp [isHdmiConnector, hc] at hhdmi
      | some c => simp

/-- The loop of "set connector range properties". -/
theorem represents_set (drm : Drm) {i : Nat} (hi : i < connectorProps.length) (value : Nat)
    (hr : Represents h cells) :
    ∃ h' pos, forEachConnector (setRangeBody drm i value) h () = .ok (h', (), pos) ∧
      Represents h' (setPending (hdmiOf drm) i value cells) := by
  obtain ⟨es, t, hok, htable, rfl⟩ := hr
  have hv := visit_map (g := fun s _ => s) (dataOf es) (s := ())
    (fun s n _ => setRangeBody_eq drm hi value s n)
  have hkeep : ∀ s n n' l, Named n → setRangeBody drm i value s n = .ok (n', l) → Named n' := by
    intro s n n' l hn hb
    obtain ⟨m, l', hb', hm⟩ := setRangeBody_named drm i value s n hn
    rw [hb'] at hb
    obtain ⟨rfl, -⟩ := Prod.mk.inj (Except.ok.inj hb)
    exact hm
  obtain ⟨h', es', hrun, hok', hdata, -⟩ :=
    forEachConnector_spec hok rfl hv (visit_keeps hkeep (dataOf es) hv hok.named)
  refine ⟨h', _, hrun, es', t, hok', ?_, ?_⟩
  · intro m hm
    rw [hdata] at hm
    obtain ⟨n, hn, rfl⟩ := List.mem_map.mp hm
    exact setNode_table drm i value (htable n hn)
  · rw [hdata, setPending, List.map_map, List.map_map]
    apply List.map_congr_left
    intro n _
    exact cellOf_setNode drm i value n

/-- What a commit adds for the properties of a connector. -/
def propAdds (connectorId : Nat) (props : List DrmPropertyInfo) : List AtomicAdd :=
  props.filterMap fun p => p.pending.map fun value => ⟨connectorId, p.propId, value⟩

/-- What a commit adds for a node. -/
def nodeAdds (drm : Drm) (n : ConnectorNode) : List AtomicAdd :=
  match n.data with
  | none => []
  | some c => propAdds (drm.connector c).connectorId n.props

/-- What a commit adds to the request. -/
def commitAdds (drm : Drm) (h : ConnectorHeap) : List AtomicAdd :=
  (connectorNodes h).flatMap (nodeAdds drm)

theorem addProps_spec (atomicAdd : Nat → Int) (connectorId : Nat)
    (props : List DrmPropertyInfo) : ∀ s, ∃ ret,
    addProps atomicAdd connectorId props s
      = (props.map (fun p => { p with needChange := false }),
          s.1 ++ propAdds connectorId props, ret) := by
  induction props with
  | nil => exact fun s => ⟨s.2, by simp [addProps, propAdds]⟩
  | cons p ps ih =>
      intro s
      obtain ⟨adds, ret⟩ := s
      unfold addProps propAdds
      by_cases hchange : p.needChange = true
      · obtain ⟨ret', hps⟩ := ih (adds ++ [⟨connectorId, p.propId, p.newValue⟩],
          if atomicAdd adds.length ≤ 0 then -1 else ret)
        have hpending : p.pending = some p.newValue := if_pos hchange
        refine ⟨ret', ?_⟩
        simp only [if_pos hchange, hps]
        simp [propAdds, hpending]
      · obtain ⟨ret', hps⟩ := ih (adds, ret)
        have hpending : p.pending = none := if_neg hchange
        have hsame : { p with needChange := false } = p := by
          have hfalse : p.needChange = false := by simpa using hchange
          rw [← hfalse]
        refine ⟨ret', ?_⟩
        simp only [if_neg hchange, hps]
        simp [propAdds, hpending, hsame]

/-- A node behind a commit. -/
def commitNode (n : ConnectorNode) : ConnectorNode :=
  if n.data.isSome then { n with props := n.props.map fun p => { p with needChange := false } }
  else n

theorem commitNode_data (n : ConnectorNode) : (commitNode n).data = n.data := by
  unfold commitNode
  by_cases hused : n.data.isSome = true
  · rw [if_pos hused]
  · rw [if_neg hused]

theorem commitNode_names (n : ConnectorNode) :
    (commitNode n).props.map DrmPropertyInfo.name = n.props.map DrmPropertyInfo.name := by
  unfold commitNode
  by_cases hused : n.data.isSome = true
  · rw [if_pos hused, List.map_map]
    rfl
  · rw [if_neg hused]

theorem cellOf_commitNode (n : ConnectorNode) :
    cellOf (commitNode n) = if (cellOf n).connector.isSome then
      { cellOf n with pending := (cellOf n).pending.map fun _ => none } else cellOf n := by
  unfold commitNode cellOf
  by_cases hused : n.data.isSome = true
  · simp only [if_pos hused, List.map_map]
    rfl
  · simp only [if_neg hused]

/-- The names stay. -/
theorem commitNode_named {n : ConnectorNode} (hn : Named n) : Named (commitNode n) := by
  intro hused p hp
  have hname : p.name ∈ n.props.map DrmPropertyInfo.name :=
    commitNode_names n ▸ List.mem_map_of_mem hp
  obtain ⟨q, hq, hqp⟩ := List.mem_map.mp hname
  rw [← hqp]
  exact hn (commitNode_data n ▸ hused) q hq

/-- The loop of `help_atomic_req_add_prop`. -/
theorem visit_addConnectorProps (drm : Drm) (atomicAdd : Nat → Int) (ns : List ConnectorNode) :
    ∀ s, ∃ ret, visit (addConnectorProps drm atomicAdd) s ns
      = .ok (ns.map commitNode, (s.1 ++ ns.flatMap (nodeAdds drm), ret), ns.length) := by
  induction ns with
  | nil => exact fun s => ⟨s.2, by simp [visit]⟩
  | cons n ns ih =>
      intro s
      unfold visit addConnectorProps
      cases hc : n.data with
      | none =>
          obtain ⟨ret, hv⟩ := ih s
          unfold addConnectorProps at hv
          exact ⟨ret, by simp [hv, hc, nodeAdds, commitNode]⟩
      | some c =>
          obtain ⟨ret₁, hprops⟩ :=
            addProps_spec atomicAdd (drm.connector c).connectorId n.props s
          obtain ⟨ret, hv⟩ := ih (s.1 ++ propAdds (drm.connector c).connectorId n.props, ret₁)
          unfold addConnectorProps at hv
          exact ⟨ret, by simp [hprops, hv, hc, nodeAdds, commitNode]⟩

/-- `help_atomic_req_add_prop`: what is added, and the nodes behind it. -/
theorem atomicReqAddProp_returns {es : List (Entry ConnectorNode)} (drm : Drm)
    (atomicAdd : Nat → Int) (hok : ConnectorsOk h es t) :
    ∃ h' es' ret, helpAtomicReqAddProp drm atomicAdd true h
        = .ok (h', (dataOf es).flatMap (nodeAdds drm), ret) ∧
      ConnectorsOk h' es' t ∧ dataOf es' = (dataOf es).map commitNode := by
  obtain ⟨ret, hv⟩ := visit_addConnectorProps drm atomicAdd (dataOf es) ([], 0)
  have hnamed : ∀ m ∈ (dataOf es).map commitNode, Named m := by
    intro m hm
    obtain ⟨n, hn, rfl⟩ := List.mem_map.mp hm
    exact commitNode_named (hok.named n hn)
  obtain ⟨h', es', hrun, hok', hdata, -⟩ := forEachConnector_spec hok rfl hv hnamed
  refine ⟨h', es', ret, ?_, hok', hdata⟩
  unfold helpAtomicReqAddProp
  rw [if_neg (by simp), hrun]
  simp only [ok_bind, List.nil_append]

/-- So the list represents the cells behind it. -/
theorem represents_commit (drm : Drm) (atomicAdd : Nat → Int) (hr : Represents h cells) :
    ∃ h' ret, helpAtomicReqAddProp drm atomicAdd true h = .ok (h', commitAdds drm h, ret) ∧
      Represents h' (commitPending cells) := by
  obtain ⟨es, t, hok, htable, rfl⟩ := hr
  have hnodes : connectorNodes h = dataOf es := hok.linked.readData_eq
  obtain ⟨h', es', ret, hrun, hok', hdata⟩ := atomicReqAddProp_returns drm atomicAdd hok
  refine ⟨h', ret, ?_, es', t, hok', ?_, ?_⟩
  · unfold commitAdds
    rw [hrun, hnodes]
  · intro m hm hused
    rw [hdata] at hm
    obtain ⟨n, hn, rfl⟩ := List.mem_map.mp hm
    rw [commitNode_names]
    exact htable n hn (commitNode_data n ▸ hused)
  · rw [hdata, commitPending, List.map_map, List.map_map]
    apply List.map_congr_left
    intro n _
    exact cellOf_commitNode n

end Calls

end MesonDisplay.Helper
