/-
  MesonDisplay.Helper.ConnectorList — the list of DRM connectors.

  `global_connector_list` has a static head and an empty last node, as
  `g_output_list` has.  A node holds a connector and the properties that are
  to be set on it with the next atomic commit.  What libdrm answers during a
  call is a parameter of the call.

  Main results:
    * `connectorsOk_append`, `connectorsOk_update`, `connectorsOk_delete` — a
      call that returns leaves a well-linked list whose used nodes have the
      names of their properties, and keeps what is `Stable`.
-/
import MesonDisplay.Json.Value
import MesonDisplay.Helper.OutputList
import Mathlib.Data.List.Infix

namespace MesonDisplay.Helper

open MesonDisplay.LinkedList

/-! ## §1. libdrm. -/

/-- `drmModeModeInfo`. -/
structure DrmModeModeInfo where
  name : String
  vrefresh : Nat
  hdisplay : Nat
  hsyncStart : Nat
  hsyncEnd : Nat
  htotal : Nat
  vdisplay : Nat
  vsyncStart : Nat
  vsyncEnd : Nat
  vtotal : Nat
  clock : Nat
  flags : Nat
  type : Nat
  deriving DecidableEq, Repr

/-- The members of `drmModeConnector` that are read.  The counts are the
lengths of the arrays. -/
structure DrmModeConnector where
  connectorId : Nat
  connection : Nat
  connectorType : Nat
  encoderId : Nat
  mmWidth : Nat
  mmHeight : Nat
  props : List Nat
  encoders : List Nat
  modes : List DrmModeModeInfo
  deriving DecidableEq, Repr

/-- `DRM_MODE_CONNECTOR_HDMIA`. -/
def drmModeConnectorHdmia : Nat := 11

/-- `DRM_MODE_CONNECTOR_HDMIB`. -/
def drmModeConnectorHdmib : Nat := 12

/-- What libdrm and the compositor's memory answer during a call. -/
structure Drm where
  /-- The object behind a `drmModeConnector*`. -/
  connector : Nat → DrmModeConnector
  /-- `drmModeObjectGetProperties` of a connector: ids and values. -/
  objectProperties : Nat → Option (List (Nat × Nat))
  /-- `drmModeGetProperty`: the name. -/
  property : Nat → Option String

/-- `strstr(haystack, needle) != NULL`. -/
def strstr (haystack needle : String) : Bool := decide (needle.toList <:+: haystack.toList)

/-! ## §2. The list. -/

/-- `drm_property_info`; the name of memory never written is `none`. -/
structure DrmPropertyInfo where
  name : Option String
  propId : Nat
  needChange : Bool
  newValue : Nat
  deriving DecidableEq, Repr

/-- `DRM_CONNECTOR_PROPERTY_CP`. -/
def drmConnectorPropertyCp : Nat := 0

/-- `DRM_COLOR_DEPTH_CP`. -/
def drmColorDepthCp : Nat := 1

/-- `DRM_COLOR_SPACE_CP`. -/
def drmColorSpaceCp : Nat := 2

/-- `connector_props`. -/
def connectorProps : List DrmPropertyInfo :=
  [⟨some "Content Protection", 0, false, 0⟩, ⟨some "Color Depth", 0, false, 0⟩,
    ⟨some "Color Space", 0, false, 0⟩]

/-- The members of `connector_list` besides the links.  A connector is known by
its address; `none` is NULL. -/
structure ConnectorNode where
  data : Option Nat
  props : List DrmPropertyInfo
  deriving DecidableEq, Repr

/-- A node whose properties were not written yet. -/
def ConnectorNode.blank : ConnectorNode :=
  ⟨none, List.replicate connectorProps.length ⟨none, 0, false, 0⟩⟩

abbrev ConnectorHeap := Heap ConnectorNode

/-- `&global_connector_list`. -/
def globalConnectorList : Nat := 0

def connectorHeapInit : ConnectorHeap where
  cell := fun a => if a = globalConnectorList then some ⟨none, none, .blank⟩ else none
  fresh := 1
  bound := Heap.bound_single globalConnectorList _

/-- `for_each_list(current, &global_connector_list)`. -/
def forEachConnector {σ : Type}
    (body : σ → ConnectorNode → Except Fault (ConnectorNode × Loop σ)) (h : ConnectorHeap)
    (s : σ) : Except Fault (ConnectorHeap × σ × Nat) :=
  forEachList .badPointer body (h.fresh + 1) h globalConnectorList s

/-! ## §3. Properties. -/

/-- The inner loop of `update_connector_props`: the first property whose name
is part of `name` gets the id. -/
def recordPropId (name : String) (propId : Nat) :
    List DrmPropertyInfo → Except Fault (List DrmPropertyInfo)
  | [] => .ok []
  | p :: ps =>
      match p.name with
      | none => .error .badPointer
      | some n =>
          if strstr name n then .ok ({ p with propId := propId } :: ps)
          else do
            let ps ← recordPropId name propId ps
            .ok (p :: ps)

/-- The loop over the properties of the connector. -/
def recordPropIds (drm : Drm) :
    List (Nat × Nat) → List DrmPropertyInfo → Except Fault (List DrmPropertyInfo)
  | [], props => .ok props
  | (propId, _) :: ids, props =>
      match drm.property propId with
      | none => recordPropIds drm ids props
      | some name => do
          let props ← recordPropId name propId props
          recordPropIds drm ids props

/-- `update_connector_props`. -/
def updateConnectorProps (drm : Drm) (n : ConnectorNode) : Except Fault ConnectorNode :=
  match n.data with
  | none => .error .badPointer
  | some c =>
      match drm.objectProperties (drm.connector c).connectorId with
      | none => .ok n
      | some ids => do
          let props ← recordPropIds drm ids n.props
          .ok { n with props := props }

/-! ## §4. The calls of the compositor. -/

/-- The search of `help_append_connector`. -/
def searchConnector (connector : Option Nat) (exist : Bool) (n : ConnectorNode) :
    Except Fault (ConnectorNode × Loop Bool) :=
  if n.data = connector then .ok (n, .break true) else .ok (n, .continue exist)

/-- The part of `help_append_connector` for a connector that is not listed. -/
def appendNew (mallocOk : Bool) (connector : Option Nat) (h : ConnectorHeap)
    (current : Nat) : Except Fault ConnectorHeap := do
  let c ← load .badPointer h current
  if c.data.data ≠ none then .error .assertion
  else if ¬ mallocOk then .error .badPointer
  else
    let h ← modify .badPointer h current (fun n =>
      { n with data := { n.data with data := connector } })
    let next := h.fresh
    let h := h.alloc ⟨none, none, .blank⟩
    let h ← modify .badPointer h current (fun n => { n with next := some next })
    let h ← modify .badPointer h next (fun n => { n with prev := some current })
    let h ← modify .badPointer h next (fun n => { n with next := none })
    let h ← modify .badPointer h next (fun n =>
      { n with data := { n.data with data := none } })
    modify .badPointer h current (fun n =>
      { n with data := { n.data with props := connectorProps } })

/-- `help_append_connector`. -/
def helpAppendConnector (drm : Drm) (mallocOk : Bool) (connector : Option Nat)
    (h : ConnectorHeap) : Except Fault ConnectorHeap := do
  let (h, exist, current) ← forEachConnector (searchConnector connector) h false
  let h ← if exist then .ok h else appendNew mallocOk connector h current
  let c ← load .badPointer h current
  let n ← updateConnectorProps drm c.data
  modify .badPointer h current (fun c => { c with data := n })

/-- The loop of `help_update_connector`. -/
def replaceConnector (drm : Drm) (oldConnector : Nat) (newConnector : Option Nat)
    (updated : Bool) (n : ConnectorNode) : Except Fault (ConnectorNode × Loop Bool) :=
  if n.data = some oldConnector then do
    let n ← updateConnectorProps drm ⟨newConnector, connectorProps⟩
    .ok (n, .break true)
  else .ok (n, .continue updated)

/-- `help_update_connector`. -/
def helpUpdateConnector (drm : Drm) (mallocOk : Bool)
    (oldConnector newConnector : Option Nat) (h : ConnectorHeap) :
    Except Fault ConnectorHeap := do
  let (h, updated) ←
    match oldConnector with
    | none => .ok (h, false)
    | some old => do
        let (h, updated, _) ← forEachConnector (replaceConnector drm old newConnector) h false
        .ok (h, updated)
  if updated then .ok h else helpAppendConnector drm mallocOk newConnector h

/-- `help_delete_connector`. -/
def helpDeleteConnector (connector : Option Nat) (h : ConnectorHeap) :
    Except Fault ConnectorHeap :=
  match connector with
  | none => .ok h
  | some connector => do
      let (h, found, current) ←
        forEachConnector (searchConnector (some connector)) h false
      if ¬ found then .ok h
      else if current = globalConnectorList then
        modify .badPointer h current (fun n => { n with data := { n.data with data := none } })
      else
        let c ← load .badPointer h current
        let prev ← deref .badPointer c.prev
        let h ← modify .badPointer h prev (fun n => { n with next := c.next })
        match c.next with
        | none => .error .assertion
        | some next =>
            let h ← modify .badPointer h next (fun n => { n with prev := c.prev })
            release .badPointer h current

/-- One `drmModeAtomicAddProperty`: the ids of the connector and the property,
and the value. -/
structure AtomicAdd where
  connectorId : Nat
  propId : Nat
  value : Nat
  deriving DecidableEq, Repr

/-- The properties of one connector in `help_atomic_req_add_prop`.  `atomicAdd`
is the result of the calls of libdrm, in order. -/
def addProps (atomicAdd : Nat → Int) (connectorId : Nat) :
    List DrmPropertyInfo → List AtomicAdd × Int →
      List DrmPropertyInfo × List AtomicAdd × Int
  | [], s => ([], s)
  | p :: ps, (adds, ret) =>
      if p.needChange then
        let err := atomicAdd adds.length
        let (ps, s) := addProps atomicAdd connectorId ps
          (adds ++ [⟨connectorId, p.propId, p.newValue⟩], if err ≤ 0 then -1 else ret)
        ({ p with needChange := false } :: ps, s)
      else
        let (ps, s) := addProps atomicAdd connectorId ps (adds, ret)
        (p :: ps, s)

def addConnectorProps (drm : Drm) (atomicAdd : Nat → Int) (s : List AtomicAdd × Int)
    (n : ConnectorNode) : Except Fault (ConnectorNode × Loop (List AtomicAdd × Int)) :=
  match n.data with
  | none => .ok (n, .continue s)
  | some c =>
      let (props, s) := addProps atomicAdd (drm.connector c).connectorId n.props s
      .ok ({ n with props := props }, .continue s)

/-- `help_atomic_req_add_prop`: the properties added to the request, and the
value returned. -/
def helpAtomicReqAddProp (drm : Drm) (atomicAdd : Nat → Int) (atomicModesetEnable : Bool)
    (h : ConnectorHeap) : Except Fault (ConnectorHeap × List AtomicAdd × Int) :=
  if ¬ atomicModesetEnable then .error .assertion
  else do
    let (h, s, _) ← forEachConnector (addConnectorProps drm atomicAdd) h ([], 0)
    .ok (h, s)

/-! ## §5. Named properties. -/

/-- The properties of a used node have their names. -/
def Named (n : ConnectorNode) : Prop := n.data ≠ none → ∀ p ∈ n.props, p.name ≠ none

theorem recordPropId_names (name : String) (propId : Nat) {props : List DrmPropertyInfo}
    (hn : ∀ p ∈ props, p.name ≠ none) :
    ∃ props', recordPropId name propId props = .ok props' ∧
      ∀ p ∈ props', p.name ≠ none := by
  induction props with
  | nil => exact ⟨[], rfl, hn⟩
  | cons p ps ih =>
      obtain ⟨ps', hps', hn'⟩ := ih (fun q hq => hn q (List.mem_cons_of_mem _ hq))
      have hp := hn p List.mem_cons_self
      obtain ⟨n, hpn⟩ := Option.ne_none_iff_exists'.mp hp
      unfold recordPropId
      rw [hpn]
      by_cases hfound : strstr name n = true
      · refine ⟨{ p with propId := propId } :: ps, by simp only [if_pos hfound, hpn], ?_⟩
        intro q hq
        rcases List.mem_cons.mp hq with rfl | hq
        · exact hp
        · exact hn q (List.mem_cons_of_mem _ hq)
      · refine ⟨p :: ps', by simp only [if_neg hfound, hps', ok_bind], ?_⟩
        intro q hq
        rcases List.mem_cons.mp hq with rfl | hq
        · exact hp
        · exact hn' q hq

theorem recordPropIds_names (drm : Drm) (ids : List (Nat × Nat)) :
    ∀ {props : List DrmPropertyInfo}, (∀ p ∈ props, p.name ≠ none) →
      ∃ props', recordPropIds drm ids props = .ok props' ∧ ∀ p ∈ props', p.name ≠ none := by
  induction ids with
  | nil => exact fun hn => ⟨_, rfl, hn⟩
  | cons id ids ih =>
      intro props hn
      obtain ⟨propId, value⟩ := id
      unfold recordPropIds
      cases drm.property propId with
      | none => exact ih hn
      | some name =>
          obtain ⟨props', hrun, hn'⟩ := recordPropId_names name propId hn
          obtain ⟨props'', hrun', hn''⟩ := ih hn'
          exact ⟨props'', by simp only [hrun, ok_bind, hrun'], hn''⟩

/-- On a used node `update_connector_props` returns. -/
theorem updateConnectorProps_returns (drm : Drm) {n : ConnectorNode} {c : Nat}
    (hc : n.data = some c) (hn : Named n) :
    ∃ n', updateConnectorProps drm n = .ok n' ∧ n'.data = some c ∧ Named n' := by
  have hnames := hn (by rw [hc]; simp)
  unfold updateConnectorProps
  cases hids : drm.objectProperties (drm.connector c).connectorId with
  | none => exact ⟨n, by simp only [hc, hids], hc, hn⟩
  | some ids =>
      obtain ⟨props, hrun, hnames'⟩ := recordPropIds_names drm ids hnames
      exact ⟨{ n with props := props }, by simp only [hc, hids, hrun, ok_bind], hc,
        fun _ => hnames'⟩

theorem updateConnectorProps_named {drm : Drm} {n n' : ConnectorNode} (hn : Named n)
    (hrun : updateConnectorProps drm n = .ok n') : Named n' := by
  cases hc : n.data with
  | none =>
      unfold updateConnectorProps at hrun
      rw [hc] at hrun
      exact absurd hrun (by simp)
  | some c =>
      obtain ⟨n'', hrun', -, hn'⟩ := updateConnectorProps_returns drm hc hn
      rw [hrun'] at hrun
      rw [← Except.ok.inj hrun]
      exact hn'

theorem connectorProps_named (data : Option Nat) : Named ⟨data, connectorProps⟩ := by
  intro _
  show ∀ p ∈ connectorProps, p.name ≠ none
  decide

/-! ## §6. The list between two calls. -/

structure ConnectorsOk (h : ConnectorHeap) (es : List (Entry ConnectorNode))
    (t : Entry ConnectorNode) : Prop where
  linked : Linked globalConnectorList (fun _ => False) h es t
  tail : t.data.data = none
  named : ∀ n ∈ dataOf es, Named n

theorem connectorsOk_init :
    ConnectorsOk connectorHeapInit [] ⟨globalConnectorList, none, .blank⟩ where
  linked :=
    { chain := ⟨rfl, trivial⟩
      nodup := by simp
      first := rfl
      back := ⟨.inl rfl, trivial⟩
      freed := fun _ h => h.elim }
  tail := rfl
  named := fun n hn => absurd hn List.not_mem_nil

/-- Something holds of all nodes but the last one. -/
def Every (Q : ConnectorNode → Prop) (es : List (Entry ConnectorNode)) : Prop :=
  ∀ n ∈ dataOf es, Q n

/-- What the calls of the compositor keep, if it holds of a node with a new
table. -/
structure Stable (drm : Drm) (Q : ConnectorNode → Prop) : Prop where
  table : ∀ c, Q ⟨c, connectorProps⟩
  ids : ∀ n n', Q n → updateConnectorProps drm n = .ok n' → Q n'
  hole : ∀ n, Q n → Q { n with data := none }

theorem stable_true (drm : Drm) : Stable drm fun _ => True :=
  ⟨fun _ => trivial, fun _ _ _ _ => trivial, fun _ _ => trivial⟩

section Calls

variable {h h' : ConnectorHeap} {es : List (Entry ConnectorNode)}
  {t : Entry ConnectorNode} {Q : ConnectorNode → Prop}

/-- A loop over the list. -/
theorem forEachConnector_spec {σ : Type}
    {body : σ → ConnectorNode → Except Fault (ConnectorNode × Loop σ)} {s s' : σ}
    {cells ds : List ConnectorNode} {i : Nat} (hok : ConnectorsOk h es t)
    (hcells : dataOf es = cells) (hv : visit body s cells = .ok (ds, s', i))
    (hnamed : ∀ n ∈ ds, Named n) :
    ∃ h' es', forEachConnector body h s = .ok (h', s', (addrs (es' ++ [t])).getD i 0) ∧
      ConnectorsOk h' es' t ∧ dataOf es' = ds ∧ es'.length = es.length := by
  subst hcells
  obtain ⟨h', hrun, hl', -⟩ := hok.linked.forEach Fault.badPointer (Nat.lt_succ_self _) hv
  have hlen : ds.length = es.length := by
    have hcount := (visit_length hv).1
    unfold dataOf at hcount
    rwa [List.length_map] at hcount
  have hdata := dataOf_withData es ds hlen
  have haddr : addrs (withData es ds ++ [t]) = addrs (es ++ [t]) := by
    rw [addrs_append, addrs_append, addrs_withData es ds hlen]
  rw [← haddr] at hrun
  refine ⟨h', withData es ds, hrun, ⟨hl', hok.tail, ?_⟩, hdata, ?_⟩
  · rw [hdata]
    exact hnamed
  · have hcount := congrArg List.length (addrs_withData es ds hlen)
    unfold addrs at hcount
    rwa [List.length_map, List.length_map] at hcount

/-- A loop that has returned, with a body that keeps the names and whatever else
holds of the nodes. -/
theorem forEachConnector_keeps {σ : Type}
    {body : σ → ConnectorNode → Except Fault (ConnectorNode × Loop σ)} {s s' : σ} {i : Nat}
    (hbody : ∀ s n n' l, Named n → body s n = .ok (n', l) → Named n')
    (hkeeps : ∀ s n n' l, Q n → body s n = .ok (n', l) → Q n')
    (hok : ConnectorsOk h es t) (hall : Every Q es)
    (hrun : forEachConnector body h s = .ok (h', s', i)) :
    ∃ es', ConnectorsOk h' es' t ∧ Every Q es' := by
  cases hv : visit body s (dataOf es) with
  | error e =>
      have hbad := hok.linked.forEach_error Fault.badPointer (Nat.lt_succ_self _) hv
      unfold forEachConnector at hrun
      rw [hbad] at hrun
      exact absurd hrun (by simp)
  | ok r =>
      obtain ⟨ds, s₁, j⟩ := r
      obtain ⟨h₁, es₁, hrun₁, hok₁, hdata, -⟩ :=
        forEachConnector_spec hok rfl hv (visit_keeps hbody (dataOf es) hv hok.named)
      rw [hrun₁] at hrun
      obtain ⟨rfl, -⟩ := Prod.mk.inj (Except.ok.inj hrun)
      refine ⟨es₁, hok₁, ?_⟩
      unfold Every
      rw [hdata]
      exact visit_keeps hkeeps (dataOf es) hv hall

/-- A loop whose body is defined on named nodes. -/
theorem forEachConnector_returns {σ : Type}
    {body : σ → ConnectorNode → Except Fault (ConnectorNode × Loop σ)}
    (hbody : ∀ s n, Named n → ∃ n' l, body s n = .ok (n', l) ∧ Named n')
    (hok : ConnectorsOk h es t) (s : σ) :
    ∃ h' s' i es', forEachConnector body h s = .ok (h', s', i) ∧ ConnectorsOk h' es' t := by
  obtain ⟨ds, s', i, hv⟩ := visit_returns hbody (dataOf es) s hok.named
  have hkeeps : ∀ s n n' l, Named n → body s n = .ok (n', l) → Named n' := by
    intro s n n' l hn hb
    obtain ⟨n'', l', hb', hn'⟩ := hbody s n hn
    rw [hb] at hb'
    obtain ⟨rfl, -⟩ := Prod.mk.inj (Except.ok.inj hb')
    exact hn'
  obtain ⟨h', es', hrun, hok', -, -⟩ :=
    forEachConnector_spec hok rfl hv (visit_keeps hkeeps (dataOf es) hv hok.named)
  exact ⟨h', s', _, es', hrun, hok'⟩

/-- The search stops at the connector, or goes past all nodes. -/
theorem visit_searchConnector (connector : Option Nat) (cells : List ConnectorNode) :
    visit (searchConnector connector) false cells
      = .ok (cells, cells.any (fun n => n.data = connector),
          cells.findIdx (fun n => n.data = connector)) := by
  induction cells with
  | nil => rfl
  | cons n ns ih =>
      unfold visit searchConnector
      by_cases hn : n.data = connector
      · simp [hn, List.findIdx_cons]
      · unfold searchConnector at ih
        simp only [if_neg hn, ih]
        simp [hn, List.findIdx_cons]

/-- The search leaves the list as it is. -/
theorem search_spec (connector : Option Nat) (hok : ConnectorsOk h es t) :
    ∃ h' es' exist i, forEachConnector (searchConnector connector) h false
        = .ok (h', exist, (addrs (es' ++ [t])).getD i 0) ∧
      ConnectorsOk h' es' t ∧ dataOf es' = dataOf es ∧
      exist = (dataOf es).any (fun n => n.data = connector) ∧
      i = (dataOf es).findIdx (fun n => n.data = connector) ∧
      (exist = true → i < es'.length) ∧ (exist = false → i = es'.length) := by
  obtain ⟨h', es', hrun, hok', hdata, hlen⟩ :=
    forEachConnector_spec hok rfl (visit_searchConnector connector (dataOf es)) hok.named
  have hcount : es'.length = (dataOf es).length := by
    rw [hlen]
    exact (List.length_map _).symm
  refine ⟨h', es', _, _, hrun, hok', hdata, rfl, rfl, ?_, ?_⟩
  · intro hfound
    rw [hcount]
    exact List.findIdx_lt_length_of_exists (List.any_eq_true.mp hfound)
  · intro hend
    rw [hcount, List.findIdx_eq_length]
    intro n hn
    exact Bool.eq_false_iff.mpr (List.any_eq_false.mp hend n hn)

theorem getD_last (es : List (Entry ConnectorNode)) (t : Entry ConnectorNode) :
    (addrs (es ++ [t])).getD es.length 0 = t.addr := by
  have hcount : es.length = (addrs es).length := by
    unfold addrs
    rw [List.length_map]
  rw [addrs_append, hcount]
  simp

/-- What the stores of `help_append_connector` leave: the last node has the
connector, and there is a new node behind it. -/
theorem appendNew_stores (connector : Option Nat)
    (hcell : h.cell t.addr = some ⟨t.prev, none, t.data⟩) (htail : t.data.data = none) :
    ∃ h', appendNew true connector h t.addr = .ok h' ∧ h'.fresh = h.fresh + 1 ∧
      (∀ a, a ≠ t.addr → a ≠ h.fresh → h'.cell a = h.cell a) ∧
      h'.cell t.addr = some ⟨t.prev, some h.fresh, ⟨connector, connectorProps⟩⟩ ∧
      h'.cell h.fresh = some ⟨some t.addr, none, .blank⟩ := by
  have hne : t.addr ≠ h.fresh := Nat.ne_of_lt (Heap.lt_fresh hcell)
  -- the heaps between the stores
  obtain ⟨h₁, hh₁⟩ : ∃ h₁, h₁ = h.update t.addr (fun n =>
      { n with data := { n.data with data := connector } }) := ⟨_, rfl⟩
  have hfresh₁ : h₁.fresh = h.fresh := by rw [hh₁, Heap.update_fresh]
  have hlast₁ : h₁.cell t.addr = some ⟨t.prev, none, ⟨connector, t.data.props⟩⟩ := by
    rw [hh₁, Heap.update_cell_self hcell]
  obtain ⟨h₂, hh₂⟩ : ∃ h₂, h₂ = h₁.alloc ⟨none, none, .blank⟩ := ⟨_, rfl⟩
  have hlast₂ : h₂.cell t.addr = some ⟨t.prev, none, ⟨connector, t.data.props⟩⟩ := by
    rw [hh₂, Heap.alloc_cell_ne _ (hfresh₁ ▸ hne), hlast₁]
  obtain ⟨h₃, hh₃⟩ : ∃ h₃, h₃ = h₂.update t.addr (fun n =>
      { n with next := some h.fresh }) := ⟨_, rfl⟩
  have hlast₃ : h₃.cell t.addr
      = some ⟨t.prev, some h.fresh, ⟨connector, t.data.props⟩⟩ := by
    rw [hh₃, Heap.update_cell_self hlast₂]
  have hnew₃ : h₃.cell h.fresh = some ⟨none, none, .blank⟩ := by
    rw [hh₃, Heap.update_cell_ne _ hne.symm, hh₂, ← hfresh₁, Heap.alloc_cell_fresh]
  obtain ⟨h₄, hh₄⟩ : ∃ h₄, h₄ = h₃.update h.fresh (fun n =>
      { n with prev := some t.addr }) := ⟨_, rfl⟩
  have hnew₄ : h₄.cell h.fresh = some ⟨some t.addr, none, .blank⟩ := by
    rw [hh₄, Heap.update_cell_self hnew₃]
  obtain ⟨h₅, hh₅⟩ : ∃ h₅, h₅ = h₄.update h.fresh (fun n =>
      { n with next := none }) := ⟨_, rfl⟩
  have hnew₅ : h₅.cell h.fresh = some ⟨some t.addr, none, .blank⟩ := by
    rw [hh₅, Heap.update_cell_self hnew₄]
  obtain ⟨h₆, hh₆⟩ : ∃ h₆, h₆ = h₅.update h.fresh (fun n =>
      { n with data := { n.data with data := none } }) := ⟨_, rfl⟩
  have hnew₆ : h₆.cell h.fresh = some ⟨some t.addr, none, .blank⟩ := by
    rw [hh₆, Heap.update_cell_self hnew₅]
    rfl
  have hkeep : ∀ a, a ≠ h.fresh → h₆.cell a = h₃.cell a := by
    intro a ha
    rw [hh₆, Heap.update_cell_ne _ ha, hh₅, Heap.update_cell_ne _ ha, hh₄,
      Heap.update_cell_ne _ ha]
  have hlast₆ := hkeep t.addr hne
  rw [hlast₃] at hlast₆
  refine ⟨h₆.update t.addr (fun n => { n with data := { n.data with props := connectorProps } }),
    ?_, ?_, ?_, ?_, ?_⟩
  · unfold appendNew
    rw [load_eq hcell]
    simp only [ok_bind, htail, ne_eq, not_true_eq_false, if_false]
    rw [modify_eq hcell, ok_bind, ← hh₁, ← hh₂, hfresh₁, modify_eq hlast₂, ok_bind, ← hh₃,
      modify_eq hnew₃, ok_bind, ← hh₄, modify_eq hnew₄, ok_bind, ← hh₅, modify_eq hnew₅,
      ok_bind, ← hh₆, modify_eq hlast₆]
  · rw [Heap.update_fresh, hh₆, Heap.update_fresh, hh₅, Heap.update_fresh, hh₄,
      Heap.update_fresh, hh₃, Heap.update_fresh, hh₂, ← hfresh₁]
    rfl
  · intro a hat haf
    have haf' : a ≠ h₁.fresh := hfresh₁.symm ▸ haf
    rw [Heap.update_cell_ne _ hat, hkeep a haf, hh₃, Heap.update_cell_ne _ hat, hh₂,
      Heap.alloc_cell_ne _ haf', hh₁, Heap.update_cell_ne _ hat]
  · rw [Heap.update_cell_self hlast₆]
  · rw [Heap.update_cell_ne _ hne.symm]
    exact hnew₆

/-- Without memory for the new node `help_append_connector` writes to NULL. -/
theorem appendNew_noMemory (connector : Option Nat)
    (hcell : h.cell t.addr = some ⟨t.prev, none, t.data⟩) (htail : t.data.data = none) :
    appendNew false connector h t.addr = .error .badPointer := by
  unfold appendNew
  rw [load_eq hcell]
  simp [ok_bind, htail]

/-- The last node takes the connector, and there is a new last node. -/
theorem appendNew_returns (connector : Option Nat) (hok : ConnectorsOk h es t) :
    ∃ h' t', appendNew true connector h t.addr = .ok h' ∧
      ConnectorsOk h' (es ++ [{ t with data := ⟨connector, connectorProps⟩ }]) t' := by
  have hl := hok.linked
  obtain ⟨h', hrun, hfresh, hkeep, hlast, hnew⟩ :=
    appendNew_stores connector hl.last_cell hok.tail
  have hset := hl.set_last ⟨connector, connectorProps⟩
  refine ⟨h', ⟨h.fresh, some t.addr, .blank⟩, hrun, hset.append hfresh ?_ hlast hnew, rfl, ?_⟩
  · intro a hat haf
    rw [Heap.update_cell_ne _ hat]
    exact hkeep a hat haf
  · intro n hn
    rw [dataOf_append] at hn
    rcases List.mem_append.mp hn with hn | hn
    · exact hok.named n hn
    · obtain rfl : n = ⟨connector, connectorProps⟩ := by simpa [dataOf] using hn
      exact connectorProps_named connector

theorem appendNew_spec {mallocOk : Bool} {connector : Option Nat}
    (hok : ConnectorsOk h es t) (hrun : appendNew mallocOk connector h t.addr = .ok h') :
    ∃ t', ConnectorsOk h' (es ++ [{ t with data := ⟨connector, connectorProps⟩ }]) t' := by
  cases mallocOk with
  | false =>
      rw [appendNew_noMemory connector hok.linked.last_cell hok.tail] at hrun
      exact absurd hrun (by simp)
  | true =>
      obtain ⟨h₁, t', hrun₁, hok'⟩ := appendNew_returns connector hok
      rw [hrun₁] at hrun
      obtain rfl := Except.ok.inj hrun
      exact ⟨t', hok'⟩

theorem dataOf_split (pre : List (Entry ConnectorNode)) (e : Entry ConnectorNode)
    (post : List (Entry ConnectorNode)) :
    dataOf (pre ++ e :: post) = dataOf pre ++ e.data :: dataOf post :=
  dataOf_append pre (e :: post)

/-- What holds of the nodes and of the new data holds behind a store. -/
theorem Every.setData {pre post : List (Entry ConnectorNode)} {e : Entry ConnectorNode}
    (hall : Every Q (pre ++ e :: post)) {n : ConnectorNode} (hn : Q n) :
    Every Q (pre ++ { e with data := n } :: post) := by
  intro m hm
  unfold Every at hall
  rw [dataOf_split] at hm hall
  rcases List.mem_append.mp hm with hm | hm
  · exact hall m (List.mem_append_left _ hm)
  · rcases List.mem_cons.mp hm with rfl | hm
    · exact hn
    · exact hall m (List.mem_append_right _ (List.mem_cons_of_mem _ hm))

/-- What holds of the nodes holds of those that are left without one. -/
theorem Every.around {pre post : List (Entry ConnectorNode)} {e : Entry ConnectorNode}
    (hall : Every Q (pre ++ e :: post)) : ∀ n ∈ dataOf pre ++ dataOf post, Q n := by
  intro n hn
  apply hall n
  rw [dataOf_split]
  rcases List.mem_append.mp hn with hn | hn
  · exact List.mem_append_left _ hn
  · exact List.mem_append_right _ (List.mem_cons_of_mem _ hn)

/-- New data for one node. -/
theorem connectorsOk_setData {pre post : List (Entry ConnectorNode)} {e : Entry ConnectorNode}
    (hok : ConnectorsOk h (pre ++ e :: post) t) {n : ConnectorNode} (hn : Named n) :
    ConnectorsOk (h.update e.addr (fun c => { c with data := n }))
      (pre ++ { e with data := n } :: post) t where
  linked := hok.linked.set_data n
  tail := hok.tail
  named := Every.setData hok.named hn

/-- `update_connector_props(current)`, for a node of the list. -/
theorem updateCurrent_spec {drm : Drm} {i : Nat} (hQ : Stable drm Q)
    (hok : ConnectorsOk h es t) (hall : Every Q es) (hi : i < es.length)
    (hrun : (do
      let c ← load Fault.badPointer h ((addrs (es ++ [t])).getD i 0)
      let n ← updateConnectorProps drm c.data
      modify Fault.badPointer h ((addrs (es ++ [t])).getD i 0)
        (fun c => { c with data := n })) = Except.ok h') :
    ∃ es', ConnectorsOk h' es' t ∧ Every Q es' := by
  obtain ⟨pre, e, post, rfl, -, haddr⟩ := Linked.getD_split hi t
  rw [haddr] at hrun
  have hcell := hok.linked.cell
  have he : Named e.data := hok.named e.data (by simp [dataOf])
  rw [load_eq hcell] at hrun
  simp only [ok_bind] at hrun
  cases hupdate : updateConnectorProps drm e.data with
  | error f =>
      rw [hupdate] at hrun
      exact absurd hrun (by simp)
  | ok n =>
      rw [hupdate, ok_bind, modify_eq hcell] at hrun
      obtain rfl := Except.ok.inj hrun
      -- only the data of one node changes, and its names stay
      exact ⟨_, connectorsOk_setData hok (updateConnectorProps_named he hupdate),
        hall.setData (hQ.ids _ n (hall e.data (by simp [dataOf])) hupdate)⟩

/-- `help_append_connector`. -/
theorem connectorsOk_append {drm : Drm} {mallocOk : Bool} {connector : Option Nat}
    (hQ : Stable drm Q) (hok : ConnectorsOk h es t) (hall : Every Q es)
    (hrun : helpAppendConnector drm mallocOk connector h = .ok h') :
    ∃ es' t', ConnectorsOk h' es' t' ∧ Every Q es' := by
  obtain ⟨h₁, es₁, exist, i, hsearch, hok₁, hdata, -, -, hfound, hend⟩ :=
    search_spec connector hok
  have hall₁ : Every Q es₁ := by
    unfold Every
    rw [hdata]
    exact hall
  unfold helpAppendConnector at hrun
  simp only [hsearch, ok_bind] at hrun
  cases exist with
  -- the connector is listed: its properties are read again
  | true =>
      simp only [if_true] at hrun
      obtain ⟨es', hok'⟩ := updateCurrent_spec hQ hok₁ hall₁ (hfound rfl) hrun
      exact ⟨es', t, hok'⟩
  -- it is not: the search went to the last node, which takes it
  | false =>
      rw [hend rfl, getD_last] at hrun
      simp only [Bool.false_eq_true, if_false] at hrun
      cases hnew : appendNew mallocOk connector h₁ t.addr with
      | error f =>
          rw [hnew] at hrun
          exact absurd hrun (by simp)
      | ok h₂ =>
          obtain ⟨t', hok₂⟩ := appendNew_spec hok₁ hnew
          -- the loop variable still points to the node that was the last one
          have haddr : (addrs (es₁ ++ [{ t with data := ⟨connector, connectorProps⟩ }]
              ++ [t'])).getD es₁.length 0 = t.addr := by
            rw [addrs_append, List.getD_eq_getElem?_getD,
              List.getElem?_append_left (by simp [addrs]), ← List.getD_eq_getElem?_getD]
            exact getD_last es₁ { t with data := ⟨connector, connectorProps⟩ }
          rw [hnew, ok_bind, ← haddr] at hrun
          have hall₂ : Every Q (es₁ ++ [{ t with data := ⟨connector, connectorProps⟩ }]) := by
            intro n hn
            rw [dataOf_append] at hn
            rcases List.mem_append.mp hn with hn | hn
            · exact hall₁ n hn
            · obtain rfl : n = ⟨connector, connectorProps⟩ := by simpa [dataOf] using hn
              exact hQ.table connector
          obtain ⟨es', hok'⟩ := updateCurrent_spec hQ hok₂ hall₂ (by simp) hrun
          exact ⟨es', t', hok'⟩

/-- `help_update_connector`. -/
theorem connectorsOk_update {drm : Drm} {mallocOk : Bool} {old new : Option Nat}
    (hQ : Stable drm Q) (hok : ConnectorsOk h es t) (hall : Every Q es)
    (hrun : helpUpdateConnector drm mallocOk old new h = .ok h') :
    ∃ es' t', ConnectorsOk h' es' t' ∧ Every Q es' := by
  unfold helpUpdateConnector at hrun
  cases old with
  | none => exact connectorsOk_append hQ hok hall hrun
  | some old =>
      -- the node that is replaced gets the table
      have hbody : ∀ {R : ConnectorNode → Prop}, R ⟨new, connectorProps⟩ →
          (∀ n n', R n → updateConnectorProps drm n = .ok n' → R n') → ∀ s n n' l, R n →
          replaceConnector drm old new s n = .ok (n', l) → R n' := by
        intro R htable hids s n n' l hn hb
        unfold replaceConnector at hb
        by_cases hd : n.data = some old
        · rw [if_pos hd] at hb
          cases hupdate : updateConnectorProps drm ⟨new, connectorProps⟩ with
          | error f =>
              rw [hupdate] at hb
              exact absurd hb (by simp)
          | ok n'' =>
              rw [hupdate, ok_bind] at hb
              obtain ⟨rfl, -⟩ := Prod.mk.inj (Except.ok.inj hb)
              exact hids _ _ htable hupdate
        · rw [if_neg hd] at hb
          obtain ⟨rfl, -⟩ := Prod.mk.inj (Except.ok.inj hb)
          exact hn
      have hnamed := hbody (connectorProps_named new) fun n n' => updateConnectorProps_named
      cases hloop : forEachConnector (replaceConnector drm old new) h false with
      | error f =>
          simp only [hloop, error_bind] at hrun
          exact absurd hrun (by simp)
      | ok r =>
          obtain ⟨h₁, updated, i⟩ := r
          obtain ⟨es₁, hok₁, hall₁⟩ :=
            forEachConnector_keeps hnamed (hbody (hQ.table new) hQ.ids) hok hall hloop
          simp only [hloop, ok_bind] at hrun
          cases updated with
          | true =>
              obtain rfl := Except.ok.inj hrun
              exact ⟨es₁, t, hok₁, hall₁⟩
          -- the old connector is not listed: the new one is appended
          | false => exact connectorsOk_append hQ hok₁ hall₁ hrun

/-- `help_delete_connector`, behind the search. -/
theorem deleteFound_returns {pre post : List (Entry ConnectorNode)} {e : Entry ConnectorNode}
    (hok : ConnectorsOk h (pre ++ e :: post) t) :
    ∃ h' es' t', (if e.addr = globalConnectorList then
        modify Fault.badPointer h e.addr (fun n => { n with data := { n.data with data := none } })
      else do
        let c ← load .badPointer h e.addr
        let prev ← deref .badPointer c.prev
        let h ← modify .badPointer h prev (fun n => { n with next := c.next })
        match c.next with
        | none => .error .assertion
        | some next =>
            let h ← modify .badPointer h next (fun n => { n with prev := c.prev })
            release .badPointer h e.addr) = .ok h' ∧
      ConnectorsOk h' es' t' ∧
      ((pre = [] ∧ dataOf es' = { e.data with data := none } :: dataOf post) ∨
        (pre ≠ [] ∧ dataOf es' = dataOf pre ++ dataOf post)) := by
  have hcell := hok.linked.cell
  rcases List.eq_nil_or_concat pre with rfl | ⟨pre, p, rfl⟩
  · -- the head stays, without a connector
    have hhead : e.addr = globalConnectorList := hok.linked.head_cell.1
    refine ⟨_, _, t, ?_, connectorsOk_setData hok (n := { e.data with data := none })
      (fun h => absurd rfl h), .inl ⟨rfl, rfl⟩⟩
    rw [if_pos hhead, modify_eq hcell, Heap.update_congr hcell
      (g := fun n => { n with data := { e.data with data := none } }) rfl]
  · -- another node is taken out
    rw [List.concat_eq_append] at hok ⊢
    have hl : Linked globalConnectorList (fun _ => False) h (pre ++ p :: e :: post) t := by
      have := hok.linked
      simpa using this
    -- no pointer of this list dangles
    have hprev : e.prev = some p.addr := by
      rcases hl.prev_eq with h | ⟨_, _, hfalse⟩
      · exact h
      · exact hfalse.elim
    obtain ⟨f, rest', t', h₂, h₃, h₄, hcell', hs₁, hs₂, hs₃, hl', -, hdata, htail⟩ :=
      hl.unlink_stores Fault.badPointer hprev
    have hdata' : dataOf (pre ++ p :: rest') = dataOf (pre ++ [p]) ++ dataOf post := by
      rw [dataOf_split, dataOf_append, hdata]
      simp [dataOf]
    refine ⟨h₄, pre ++ p :: rest', t', ?_, ⟨hl', htail ▸ hok.tail, ?_⟩, .inr ⟨by simp, hdata'⟩⟩
    · rw [if_neg hl.ne_head, load_eq hcell']
      simp only [ok_bind, deref, hs₁, hs₂, hs₃]
    · rw [hdata']
      exact Every.around hok.named

/-- `help_delete_connector`. -/
theorem connectorsOk_delete {connector : Option Nat}
    (hhole : ∀ n, Q n → Q { n with data := none }) (hok : ConnectorsOk h es t)
    (hall : Every Q es) (hrun : helpDeleteConnector connector h = .ok h') :
    ∃ es' t', ConnectorsOk h' es' t' ∧ Every Q es' := by
  cases connector with
  | none =>
      obtain rfl := Except.ok.inj hrun
      exact ⟨es, t, hok, hall⟩
  | some connector =>
      obtain ⟨h₁, es₁, found, i, hsearch, hok₁, hdata, -, -, hfound, -⟩ :=
        search_spec (some connector) hok
      unfold Every at hall ⊢
      rw [← hdata] at hall
      unfold helpDeleteConnector at hrun
      simp only [hsearch, ok_bind] at hrun
      cases found with
      | false =>
          simp only [Bool.false_eq_true, not_false_eq_true, if_true] at hrun
          obtain rfl := Except.ok.inj hrun
          exact ⟨es₁, t, hok₁, hall⟩
      | true =>
          obtain ⟨pre, e, post, rfl, -, haddr⟩ := Linked.getD_split (hfound rfl) t
          rw [haddr] at hrun
          simp only [not_true_eq_false, if_false] at hrun
          obtain ⟨h₂, es', t', hdelete, hok', hwhere⟩ := deleteFound_returns hok₁
          rw [hdelete] at hrun
          obtain rfl := Except.ok.inj hrun
          refine ⟨es', t', hok', ?_⟩
          rcases hwhere with ⟨rfl, hrest⟩ | ⟨-, hrest⟩
          -- the head becomes a hole, another node is gone
          · rw [hrest]
            obtain ⟨hhead, hbehind⟩ := List.forall_mem_cons.mp hall
            exact List.forall_mem_cons.mpr ⟨hhole _ hhead, hbehind⟩
          · rw [hrest]
            exact Every.around hall

/-- The request takes the changes and leaves the names. -/
theorem addProps_names (atomicAdd : Nat → Int) (connectorId : Nat)
    (props : List DrmPropertyInfo) : ∀ s,
    ((addProps atomicAdd connectorId props s).1).map DrmPropertyInfo.name
      = props.map DrmPropertyInfo.name := by
  induction props with
  | nil => exact fun s => rfl
  | cons p ps ih =>
      intro s
      obtain ⟨adds, ret⟩ := s
      unfold addProps
      by_cases hchange : p.needChange = true
      · simp only [if_pos hchange, List.map_cons, ih]
      · simp only [if_neg hchange, List.map_cons, ih]

/-- `help_atomic_req_add_prop`. -/
theorem connectorsOk_atomicReqAddProp {drm : Drm} {atomicAdd : Nat → Int}
    {atomicModesetEnable : Bool} {r : List AtomicAdd × Int}
    (hkeeps : ∀ s n n' l, Q n → addConnectorProps drm atomicAdd s n = .ok (n', l) → Q n')
    (hok : ConnectorsOk h es t) (hall : Every Q es)
    (hrun : helpAtomicReqAddProp drm atomicAdd atomicModesetEnable h = .ok (h', r)) :
    ∃ es', ConnectorsOk h' es' t ∧ Every Q es' := by
  -- `need_change` is reset, the names are not touched
  have hbody : ∀ s n n' l, Named n →
      addConnectorProps drm atomicAdd s n = .ok (n', l) → Named n' := by
    intro s n n' l hn hb
    unfold addConnectorProps at hb
    cases hc : n.data with
    | none =>
        rw [hc] at hb
        obtain ⟨rfl, -⟩ := Prod.mk.inj (Except.ok.inj hb)
        exact hn
    | some c =>
        rw [hc] at hb
        obtain ⟨rfl, -⟩ := Prod.mk.inj (Except.ok.inj hb)
        have hnames := addProps_names atomicAdd (drm.connector c).connectorId n.props s
        intro _ p hp
        obtain ⟨q, hq, hname⟩ := List.mem_map.mp (hnames ▸ List.mem_map_of_mem hp)
        rw [← hname]
        exact hn (by rw [hc]; simp) q hq
  unfold helpAtomicReqAddProp at hrun
  by_cases henable : ¬ atomicModesetEnable = true
  · rw [if_pos henable] at hrun
    exact absurd hrun (by simp)
  · rw [if_neg henable] at hrun
    cases hloop : forEachConnector (addConnectorProps drm atomicAdd) h ([], 0) with
    | error f =>
        rw [hloop, error_bind] at hrun
        exact absurd hrun (by simp)
    | ok q =>
        obtain ⟨h₁, s, i⟩ := q
        rw [hloop, ok_bind] at hrun
        obtain ⟨rfl, -⟩ := Prod.mk.inj (Except.ok.inj hrun)
        exact forEachConnector_keeps hbody hkeeps hok hall hloop

end Calls

end MesonDisplay.Helper
