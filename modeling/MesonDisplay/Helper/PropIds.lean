/-
  MesonDisplay.Helper.PropIds — the ids of the properties of a connector.

  `update_connector_props` looks the properties of `connector_props` up in what
  libdrm lists, by parts of their names: an entry gives its id to the first
  property of the table whose name is part of its own.  `get_range_properties`
  takes the value of the last entry whose name has the name that is asked for as
  a part.  Both go through the whole list, so an entry further on replaces what
  was found.

  Main results:
    * `updateConnectorProps_id` — the id a property has behind an update.
    * `set_get_agree_iff` — when the property that is set is the one that is
      read.
-/
import MesonDisplay.Helper.Requests
import MesonDisplay.Lib.Pieces
import Mathlib.Data.List.Nodup

namespace MesonDisplay.Helper

open MesonDisplay.LinkedList
open MesonDisplay.Pieces

/-! ## §1. The last match. -/

/-- Behind a match, the last one is that match or a later one. -/
theorem getLast?_filter_split {α : Type} {p : α → Bool} {x : α} (hx : p x = true)
    (l r : List α) :
    ((l ++ x :: r).filter p).getLast? = some ((r.filter p).getLast?.getD x) := by
  rw [List.filter_append, List.filter_cons_of_pos hx, List.getLast?_append, List.getLast?_cons]
  rfl

/-! ## §2. Which property takes an id. -/

/-- The first property whose name is part of `name`. -/
def firstPart (name : String) (props : List DrmPropertyInfo) : Option Nat :=
  props.findIdx? (fun p => p.name.any (strstr name))

/-- The property of `connector_props` that takes the id of an entry. -/
def takenBy (drm : Drm) (e : Nat × Nat) : Option Nat :=
  (drm.property e.1).bind fun name => firstPart name connectorProps

theorem firstPart_congr {props props' : List DrmPropertyInfo}
    (hnames : props'.map DrmPropertyInfo.name = props.map DrmPropertyInfo.name) (name : String) :
    firstPart name props' = firstPart name props := by
  have hmap : ∀ ps : List DrmPropertyInfo, firstPart name ps
      = (ps.map DrmPropertyInfo.name).findIdx? (·.any (strstr name)) := by
    intro ps
    rw [List.findIdx?_map]
    rfl
  rw [hmap, hmap, hnames]

/-- The inner loop, where it returns. -/
theorem recordPropId_eq (name : String) (propId : Nat) {props : List DrmPropertyInfo} :
    ∀ {props' : List DrmPropertyInfo}, recordPropId name propId props = .ok props' →
      props' = match firstPart name props with
        | none => props
        | some k => props.modify k (fun p => { p with propId := propId }) := by
  induction props with
  | nil =>
      intro props' hrun
      exact (Except.ok.inj hrun).symm
  | cons p ps ih =>
      intro props' hrun
      unfold recordPropId at hrun
      unfold firstPart at ih ⊢
      rw [List.findIdx?_cons]
      cases hname : p.name with
      | none =>
          simp only [hname] at hrun
          exact absurd hrun (by simp)
      | some n =>
          simp only [hname] at hrun
          by_cases hfound : strstr name n = true
          · rw [if_pos hfound] at hrun
            obtain rfl := Except.ok.inj hrun
            simp [hname, hfound]
          · rw [if_neg hfound] at hrun
            obtain ⟨ps', hps, hcons⟩ := bind_eq_ok.mp hrun
            obtain rfl := Except.ok.inj hcons
            rw [ih hps]
            simp only [Option.any_some, hfound, Bool.false_eq_true, if_false]
            cases ps.findIdx? (fun p => p.name.any (strstr name)) <;> simp

/-- One entry, for a property of the table. -/
theorem recordPropId_id {name : String} {propId i : Nat} {props props' : List DrmPropertyInfo}
    {p : DrmPropertyInfo}
    (htable : props.map DrmPropertyInfo.name = connectorProps.map DrmPropertyInfo.name)
    (hrun : recordPropId name propId props = .ok props') (hp : props[i]? = some p) :
    ∃ p', props'[i]? = some p' ∧
      p'.propId = if firstPart name connectorProps = some i then propId else p.propId := by
  rw [recordPropId_eq name propId hrun, firstPart_congr htable]
  cases hk : firstPart name connectorProps with
  | none => exact ⟨p, hp, by simp⟩
  | some k =>
      simp only [List.getElem?_modify, hp]
      by_cases hki : k = i
      · exact ⟨_, rfl, by simp [hki]⟩
      · exact ⟨_, rfl, by simp [hki]⟩

/-- The whole loop: the last entry that the property takes. -/
theorem recordPropIds_id (drm : Drm) {i : Nat} (ids : List (Nat × Nat)) :
    ∀ {props props' : List DrmPropertyInfo} {p : DrmPropertyInfo},
      props.map DrmPropertyInfo.name = connectorProps.map DrmPropertyInfo.name →
      recordPropIds drm ids props = .ok props' → props[i]? = some p →
      ∃ p', props'[i]? = some p' ∧
        p'.propId
          = ids.foldl (fun id e => if takenBy drm e = some i then e.1 else id) p.propId := by
  induction ids with
  | nil =>
      intro props props' p _ hrun hp
      obtain rfl := Except.ok.inj hrun
      exact ⟨p, hp, rfl⟩
  | cons e ids ih =>
      intro props props' p htable hrun hp
      obtain ⟨propId, value⟩ := e
      unfold recordPropIds at hrun
      rw [List.foldl_cons]
      cases hname : drm.property propId with
      | none =>
          simp only [hname] at hrun
          have hnone : takenBy drm (propId, value) ≠ some i := by simp [takenBy, hname]
          rw [if_neg hnone]
          exact ih htable hrun hp
      | some name =>
          simp only [hname] at hrun
          obtain ⟨props₁, hfirst, hrest⟩ := bind_eq_ok.mp hrun
          obtain ⟨p₁, hp₁, hid⟩ := recordPropId_id htable hfirst hp
          have hnames := (recordPropId_cell name propId hfirst).1
          have htaken : takenBy drm (propId, value) = firstPart name connectorProps := by
            simp [takenBy, hname]
          rw [htaken, ← hid]
          exact ih (hnames.trans htable) hrest hp₁

/-- **The id behind an update** of an entry of the list with a new table. -/
theorem updateConnectorProps_id {drm : Drm} {c i : Nat} {ids : List (Nat × Nat)}
    (hids : drm.objectProperties (drm.connector c).connectorId = some ids)
    (hi : i < connectorProps.length) :
    ∃ n p, updateConnectorProps drm ⟨some c, connectorProps⟩ = .ok n ∧ n.props[i]? = some p ∧
      p.propId = ((ids.filter (takenBy drm · = some i)).getLast?.map Prod.fst).getD 0 := by
  obtain ⟨n, hrun, -, -⟩ :=
    updateConnectorProps_returns drm (n := ⟨some c, connectorProps⟩) rfl (connectorProps_named _)
  have hupdate := hrun
  unfold updateConnectorProps at hupdate
  simp only [hids] at hupdate
  obtain ⟨props, hprops, hnode⟩ := bind_eq_ok.mp hupdate
  obtain rfl := Except.ok.inj hnode
  obtain ⟨p, hp, hid⟩ :=
    recordPropIds_id drm ids rfl hprops (List.getElem?_eq_getElem hi)
  refine ⟨_, p, hrun, hp, ?_⟩
  have hall : ∀ q ∈ connectorProps, q.propId = 0 := by decide
  have hzero := hall _ (List.getElem_mem hi)
  have hlast := foldl_last_match (fun e => decide (takenBy drm e = some i)) Prod.fst ids 0
  simp only [decide_eq_true_eq] at hlast
  rw [hid, hzero, hlast]

/-! ## §3. Set and get. -/

/-- The name of the entry has `name` as a part. -/
def nameContains (drm : Drm) (name : String) (e : Nat × Nat) : Bool :=
  (drm.property e.1).any (strstr · name)

theorem getRangeProperties_eq {drm : Drm} {id : Nat} {props : List (Nat × Nat)}
    (hprops : drm.objectProperties id = some props) (name : String) (status : Int) :
    getRangeProperties drm id name status
      = ((props.filter (nameContains drm name)).getLast?.map fun e => toInt32 e.2).getD status := by
  rw [← foldl_last_match]
  unfold getRangeProperties
  rw [hprops]
  simp only
  congr 1
  funext value e
  unfold nameContains
  cases drm.property e.1 <;> simp

/-- The property whose name is found exactly. -/
theorem firstPart_of_propertyIndex {name : String} {i : Nat} (hi : propertyIndex name = some i) :
    firstPart name connectorProps = some i := by
  obtain ⟨hlt, hname, -⟩ := List.findIdx?_eq_some_iff_getElem.mp hi
  have hall : ∀ k < connectorProps.length,
      ((connectorProps[k]?).bind DrmPropertyInfo.name).map (firstPart · connectorProps)
        = some (some k) := by
    decide +kernel
  have htable := hall i hlt
  rw [List.getElem?_eq_getElem hlt, Option.bind_some, of_decide_eq_true hname] at htable
  exact Option.some.inj htable

/-- The entry that has the name of a property of the table. -/
theorem takenBy_named {drm : Drm} {e : Nat × Nat} {name : String} {i : Nat}
    (hname : drm.property e.1 = some name) (hi : propertyIndex name = some i) :
    takenBy drm e = some i := by
  unfold takenBy
  rw [hname]
  exact firstPart_of_propertyIndex hi

/-- Behind an update of a new entry the id of the property number `i` is
`propId`, and the value that is read for `name` is the one of that property. -/
def SetGetAgree (drm : Drm) (c i : Nat) (name : String) (propId value : Nat) : Prop :=
  (∃ n p, updateConnectorProps drm ⟨some c, connectorProps⟩ = .ok n ∧ n.props[i]? = some p ∧
    p.propId = propId) ∧
  getRangeProperties drm (drm.connector c).connectorId name (-1) = toInt32 value

/-- **When set and get agree.**  The two loops stop at the property with the
name if no later one has an id for the same place of the table, and if the last
of the later ones that contain the name has the same value. -/
theorem set_get_agree_iff {drm : Drm} {c i : Nat} {name : String} {before after : List (Nat × Nat)}
    {propId value : Nat}
    (hlist : drm.objectProperties (drm.connector c).connectorId
      = some (before ++ (propId, value) :: after))
    (hname : drm.property propId = some name) (hi : propertyIndex name = some i)
    (hdistinct : ((before ++ (propId, value) :: after).filterMap (drm.property ·.1)).Nodup) :
    SetGetAgree drm c i name propId value ↔
      (∀ e ∈ after, takenBy drm e ≠ some i) ∧
      ∀ e ∈ (after.filter (nameContains drm name)).getLast?, toInt32 e.2 = toInt32 value := by
  have hcontains : nameContains drm name (propId, value) = true := by
    simp [nameContains, hname, strstr]
  have htaken : decide (takenBy drm (propId, value) = some i) = true :=
    decide_eq_true (takenBy_named hname hi)
  -- an entry with the same id would have the same name
  have hother : ∀ e ∈ after, e.1 ≠ propId := by
    rintro e he rfl
    simp only [List.filterMap_append, List.filterMap_cons, hname] at hdistinct
    have hnot := (List.nodup_cons.mp (List.nodup_append.mp hdistinct).2.1).1
    exact hnot (List.mem_filterMap.mpr ⟨e, he, hname⟩)
  obtain ⟨n, p, hrun, hp, hid⟩ := updateConnectorProps_id hlist (propertyIndex_lt hi)
  rw [getLast?_filter_split (p := fun e => decide (takenBy drm e = some i)) htaken] at hid
  unfold SetGetAgree
  rw [getRangeProperties_eq hlist, getLast?_filter_split hcontains]
  refine and_congr ?_ ?_
  · have hsame : (∃ n p, updateConnectorProps drm ⟨some c, connectorProps⟩ = .ok n ∧
        n.props[i]? = some p ∧ p.propId = propId) ↔ p.propId = propId := by
      constructor
      · rintro ⟨n', p', hrun', hp', hid'⟩
        obtain rfl := Except.ok.inj (hrun.symm.trans hrun')
        obtain rfl := Option.some.inj (hp.symm.trans hp')
        exact hid'
      · exact fun h => ⟨n, p, hrun, hp, h⟩
    rw [hsame, hid]
    cases hlast : (after.filter fun e => decide (takenBy drm e = some i)).getLast? with
    | none =>
        refine iff_of_true rfl ?_
        intro e he htake
        rw [List.getLast?_eq_none_iff, List.filter_eq_nil_iff] at hlast
        exact hlast e he (decide_eq_true htake)
    | some e =>
        obtain ⟨he, htake⟩ := List.mem_filter.mp (List.mem_of_getLast? hlast)
        exact iff_of_false (hother e he) fun hall => hall e he (of_decide_eq_true htake)
  · rw [Option.map_some, Option.getD_some]
    cases (after.filter (nameContains drm name)).getLast? with
    | none => simp
    | some e => simp

/-! ### A property with a longer name -/

/-- The connector 30 with the properties 7, 8 and 9. -/
def drmNamed (names : Nat → Option String) : Drm where
  connector := fun _ => ⟨30, 1, drmModeConnectorHdmia, 0, 0, 0, [], [], []⟩
  objectProperties := fun id => if id = 30 then some [(7, 1), (8, 10), (9, 0)] else none
  property := names

/-- The three properties of the table. -/
def tableNames : Nat → Option String
  | 7 => some "Content Protection"
  | 8 => some "Color Depth"
  | 9 => some "Color Space"
  | _ => none

theorem set_get_agree_color_depth :
    SetGetAgree (drmNamed tableNames) 0 1 "Color Depth" 8 10 := by
  have hlist : (drmNamed tableNames).objectProperties 30
      = some ([(7, 1)] ++ (8, 10) :: [(9, 0)]) := rfl
  exact (set_get_agree_iff hlist rfl (by decide +kernel) (by decide +kernel)).mpr
    ⟨by decide +kernel, by decide +kernel⟩

/-- A later property whose name contains the name. -/
def longerName : Nat → Option String
  | 8 => some "Color Depth"
  | 9 => some "Max Color Depth"
  | _ => none

/-- Both the id and the value are those of the other property. -/
theorem set_get_disagree_longer_name :
    (([(7, 1), (8, 10), (9, 0)] : List (Nat × Nat)).filterMap (longerName ·.1)).Nodup ∧
      (drmNamed longerName).property 8 = some "Color Depth" ∧
      ((updateConnectorProps (drmNamed longerName) ⟨some 0, connectorProps⟩).toOption.map
        fun n => n.props.map DrmPropertyInfo.propId) = some [0, 9, 0] ∧
      getRangeProperties (drmNamed longerName) 30 "Color Depth" (-1) = 0 ∧
      ¬ SetGetAgree (drmNamed longerName) 0 1 "Color Depth" 8 10 := by
  have hget : getRangeProperties (drmNamed longerName) 30 "Color Depth" (-1) = 0 := by
    decide +kernel
  refine ⟨by decide +kernel, rfl, by decide +kernel, hget, ?_⟩
  rintro ⟨-, hvalue⟩
  exact absurd (hget.symm.trans hvalue) (by decide)

end MesonDisplay.Helper
