/-
  MesonDisplay.Drm.Resources — a scan of the card and its release.

  extension/drm/drm_setcrtc.c: `get_resources` asks the card for its objects and
  their properties, `free_resources` gives back what was allocated for that,
  also for a scan that was given up halfway.  What the library and `calloc`
  return is a parameter of a scan.  A null pointer that is followed is a fault.
  An `asprintf` that fails leaves its pointer null, as that of the GNU library
  does.

  Main results:
    * `freeResources_lists` — a release gives back every block of the scan once,
      except those that the program forgets.
    * `getResources_complete` — in a scan that is returned every crtc, connector
      and plane has its object; `Complete.freed`: its release does not fault.
-/
import MesonDisplay.Lib.Ledger

namespace MesonDisplay.Drm

open MesonDisplay.Ledger

/-! ## §1. The objects. -/

structure ModeInfo where
  name : String
  vrefresh : UInt32
  type : UInt32
  deriving DecidableEq

structure ModeCrtc where
  crtcId : UInt32
  deriving DecidableEq

structure ModeConnector where
  connectorId : UInt32
  modes : List ModeInfo
  deriving DecidableEq

structure ModePlane where
  planeId : UInt32
  deriving DecidableEq

structure ModeEncoder where
  encoderId : UInt32
  deriving DecidableEq

structure ModeFB where
  fbId : UInt32
  deriving DecidableEq

structure PropertyRes where
  name : String
  deriving DecidableEq

/-- A null pointer was followed. -/
inductive Fault where
  | null
  deriving DecidableEq

@[simp] theorem ok_bind {α β : Type} (x : α) (f : α → Except Fault β) :
    (Except.ok x >>= f) = f x := rfl

/-- A sequence that does not fault. -/
theorem bind_ok {α β : Type} {x : Except Fault α} {f : α → Except Fault β} {b : β}
    (h : (x >>= f) = .ok b) : ∃ a, x = .ok a ∧ f a = .ok b := by
  cases x with
  | error e => cases h
  | ok a => exact ⟨a, rfl, h⟩

/-- An array of `calloc`: its cells, or null where so many were asked for. -/
inductive Cells (α : Type) where
  | null (count : Nat)
  | cells (items : List α)

def Cells.items {α : Type} : Cells α → List α
  | .null _ => []
  | .cells items => items

def Cells.present {α : Type} : Cells α → Bool
  | .null _ => false
  | .cells _ => true

/-- The cells for a loop over all of them. -/
def Cells.walk {α : Type} : Cells α → Except Fault (List α)
  | .null 0 => .ok []
  | .null (_ + 1) => .error .null
  | .cells items => .ok items

/-- `struct crtc`, `struct connector` and `struct plane`. -/
structure Object (α : Type) where
  object : Option α
  props : Option (List UInt32)
  propsInfo : Option (List (Option PropertyRes))

/-- A cell as `calloc` leaves it. -/
def Object.zero (α : Type) : Object α where
  object := none
  props := none
  propsInfo := none

/-- What `res` is and what is allocated for it.  So many connectors, from the
first on, are `named`. -/
structure Res where
  crtcs : Cells (Object ModeCrtc)
  encoders : Cells (Option ModeEncoder)
  connectors : Cells (Object ModeConnector)
  fbs : Cells (Option ModeFB)
  named : Nat

/-- `struct resources`; the planes are those of `plane_res`. -/
structure Resources where
  res : Option Res
  planes : Option (Cells (Object ModePlane))

/-! ## §2. free_resources. -/

inductive Kind where
  | crtc
  | encoder
  | connector
  | fb
  | plane
  deriving DecidableEq

/-- The blocks of memory that a scan may allocate. -/
inductive Block where
  | resources
  | res
  | planeRes
  | array (k : Kind)
  | object (k : Kind) (i : Nat)
  | name (i : Nat)
  | props (k : Kind) (i : Nat)
  | propsInfo (k : Kind) (i : Nat)
  | property (k : Kind) (i j : Nat)
  deriving DecidableEq

variable {α : Type}

/-- The macro free_properties. -/
def freeProperties (k : Kind) (items : List (Object α)) : List Block :=
  (items.mapIdx fun i o =>
    (if o.props.isSome then [Block.props k i] else []) ++
      if o.propsInfo.isSome then [Block.propsInfo k i] else []).flatten

/-- The macro free_resource: it stops at the first object that is null. -/
def freeResource (k : Kind) (object : α → Bool) : Cells α → List Block
  | .null _ => []
  | .cells items =>
      (List.range (items.takeWhile object).length).map (Block.object k) ++ [.array k]

/-- free() of every name; of one that is null, it does nothing. -/
def freeNames (named : Nat) (items : List (Object ModeConnector)) : List Block :=
  (items.mapIdx fun i _ => if i < named then [Block.name i] else []).flatten

def freeRes : Option Res → Except Fault (List Block)
  | none => .ok []
  | some res => do
      let crtcs ← res.crtcs.walk
      let connectors ← res.connectors.walk
      return freeProperties .crtc crtcs ++
        (freeResource .crtc (·.object.isSome) res.crtcs ++
        (freeResource .encoder Option.isSome res.encoders ++
        (freeNames res.named connectors ++
        (freeResource .connector (·.object.isSome) res.connectors ++
        (freeResource .fb Option.isSome res.fbs ++ [.res])))))

def freePlanes : Option (Cells (Object ModePlane)) → Except Fault (List Block)
  | none => .ok []
  | some planes => do
      let items ← planes.walk
      return freeProperties .plane items ++
        (freeResource .plane (·.object.isSome) planes ++ [.planeRes])

/-- The blocks that `free_resources` gives back. -/
def freeResources (r : Resources) : Except Fault (List Block) := do
  let first ← freeRes r.res
  let second ← freePlanes r.planes
  return first ++ (second ++ [.resources])

/-! ## §3. get_resources. -/

/-- What the card says about an object: the object, its properties with what
`drmModeGetProperty` returns for each, and whether `calloc` gives the array for
these. -/
structure Found (α : Type) where
  object : Option α
  props : Option (List (UInt32 × Option PropertyRes))
  infoArray : Bool

structure CardRes where
  crtcs : List (Found ModeCrtc)
  encoders : List (Option ModeEncoder)
  connectors : List (Found ModeConnector)
  fbs : List (Option ModeFB)
  crtcsArray : Bool
  encodersArray : Bool
  connectorsArray : Bool
  fbsArray : Bool
  /-- `asprintf` succeeds for the connector at this place. -/
  nameOk : Nat → Bool

/-- What the calls of one scan return. -/
structure Card where
  resourcesStruct : Bool
  res : Option CardRes
  planes : Option (List (Found ModePlane))
  planesArray : Bool

/-- The end of a scan: a fault, null without or behind a release, or the
resources. -/
inductive Scan where
  | fault
  | nothing
  | failed (r : Resources) (freed : List Block)
  | returned (r : Resources)

def calloc (given : Bool) (zero : α) (count : Nat) : Cells α :=
  if given then .cells (List.replicate count zero) else .null count

/-- The label `error`. -/
def scanError (r : Resources) : Scan :=
  match freeResources r with
  | .error _ => .fault
  | .ok freed => .failed r freed

/-- A cell behind the macro get_resource. -/
def Found.got (f : Found α) : Object α := { Object.zero α with object := f.object }

/-- The macro get_properties; it follows the pointer of every object. -/
def getProperties (found : List (Found α)) : Except Fault (List (Object α)) :=
  found.mapM fun f =>
    match f.object with
    | none => .error .null
    | some o => .ok
        { object := some o
          props := f.props.map (·.map Prod.fst)
          propsInfo := f.props.bind fun ps =>
            if f.infoArray then some (ps.map Prod.snd) else none }

/-- The loop for the names, from place `i` on: it follows the pointer of every
connector, and ends at a name that is not made.  How many have their name behind
it, and whether all have. -/
def connectorNames (nameOk : Nat → Bool) (i : Nat) :
    List (Found ModeConnector) → Except Fault (Nat × Bool)
  | [] => .ok (i, true)
  | f :: found =>
      match f.object with
      | none => .error .null
      | some _ => if nameOk i then connectorNames nameOk (i + 1) found else .ok (i, false)

/-- From the planes on. -/
def getPlanes (res : Res) (card : Card) : Scan :=
  match card.planes with
  | none => .returned { res := some res, planes := none }
  | some planes =>
      if card.planesArray then
        match getProperties planes with
        | .error _ => .fault
        | .ok planes => .returned { res := some res, planes := some (.cells planes) }
      else scanError { res := some res, planes := some (.null planes.length) }

/-- From the properties on. -/
def getAllProperties (found : CardRes) (card : Card) (named : Nat) : Scan :=
  match getProperties found.crtcs, getProperties found.connectors with
  | .ok crtcs, .ok connectors =>
      getPlanes
        { crtcs := .cells crtcs, encoders := .cells found.encoders
          connectors := .cells connectors, fbs := .cells found.fbs, named := named } card
  | _, _ => .fault

/-- From the objects on. -/
def getObjects (found : CardRes) (card : Card) : Scan :=
  match connectorNames found.nameOk 0 found.connectors with
  | .error _ => .fault
  | .ok (named, true) => getAllProperties found card named
  | .ok (named, false) => scanError
      { res := some
          { crtcs := .cells (found.crtcs.map Found.got), encoders := .cells found.encoders
            connectors := .cells (found.connectors.map Found.got), fbs := .cells found.fbs
            named := named }
        planes := none }

def getResources (card : Card) : Scan :=
  if card.resourcesStruct then
    match card.res with
    | none => scanError { res := none, planes := none }
    | some found =>
        if found.crtcsArray && found.encodersArray && found.connectorsArray &&
            found.fbsArray then getObjects found card
        else scanError
          { res := some
              { crtcs := calloc found.crtcsArray (Object.zero _) found.crtcs.length
                encoders := calloc found.encodersArray none found.encoders.length
                connectors := calloc found.connectorsArray (Object.zero _) found.connectors.length
                fbs := calloc found.fbsArray none found.fbs.length
                named := 0 }
            planes := none }
  else .nothing

/-! ## §4. The blocks of a scan. -/

/-- The pointers of a cell that are set. -/
structure Pointers where
  object : Bool
  props : Bool
  info : Option (List Bool)

def Object.pointers (o : Object α) : Pointers where
  object := o.object.isSome
  props := o.props.isSome
  info := o.propsInfo.map (·.map Option.isSome)

/-- `struct encoder` and `struct fb` have one pointer. -/
def onePointer (o : Option α) : Pointers where
  object := o.isSome
  props := false
  info := none

/-- The cells of a kind; none where the array is null. -/
def Res.places (res : Res) : Kind → List Pointers
  | .crtc => res.crtcs.items.map Object.pointers
  | .encoder => res.encoders.items.map onePointer
  | .connector => res.connectors.items.map Object.pointers
  | .fb => res.fbs.items.map onePointer
  | .plane => []

def Resources.places (r : Resources) : Kind → List Pointers
  | .plane => (r.planes.elim [] Cells.items).map Object.pointers
  | k => r.res.elim [] fun res => res.places k

def Resources.array (r : Resources) : Kind → Bool
  | .crtc => r.res.any (·.crtcs.present)
  | .encoder => r.res.any (·.encoders.present)
  | .connector => r.res.any (·.connectors.present)
  | .fb => r.res.any (·.fbs.present)
  | .plane => r.planes.any Cells.present

/-- Some pointer of the scan points to the block. -/
def Resources.Holds (r : Resources) : Block → Prop
  | .resources => True
  | .res => r.res.isSome = true
  | .planeRes => r.planes.isSome = true
  | .array k => r.array k = true
  | .object k i => ∃ p, (r.places k)[i]? = some p ∧ p.object = true
  | .name i => (∃ res, r.res = some res ∧ i < res.named) ∧ i < (r.places .connector).length
  | .props k i => ∃ p, (r.places k)[i]? = some p ∧ p.props = true
  | .propsInfo k i => ∃ p, (r.places k)[i]? = some p ∧ p.info.isSome = true
  | .property k i j => ∃ p info, (r.places k)[i]? = some p ∧ p.info = some info ∧
      info[j]? = some true

/-- The blocks that are not given back: the descriptions of the properties, what
a connector has of its properties, and the objects behind one that is null. -/
def Resources.Forgets (r : Resources) : Block → Prop
  | .property _ _ _ => True
  | .props k _ => k = .connector
  | .propsInfo k _ => k = .connector
  | .object k i => ∃ j < i, ∃ p, (r.places k)[j]? = some p ∧ p.object = false
  | _ => False

/-! ## §5. The release. -/

theorem walk_ok {cells : Cells α} {items : List α} (h : cells.walk = .ok items) :
    cells.items = items := by
  cases cells with
  | null count =>
      cases count with
      | zero => exact Except.ok.inj h
      | succ count => cases h
  | cells items' => exact Except.ok.inj h

/-- The properties of a kind. -/
def PropsOf (k : Kind) (items : List (Object α)) : Block → Prop
  | .props k' i => k' = k ∧ ∃ o, items[i]? = some o ∧ o.props.isSome = true
  | .propsInfo k' i => k' = k ∧ ∃ o, items[i]? = some o ∧ o.propsInfo.isSome = true
  | _ => False

/-- The objects of a kind up to the first null, and their array. -/
def ObjectsOf (k : Kind) (object : α → Bool) (cells : Cells α) : Block → Prop
  | .object k' i => k' = k ∧ ∀ j ≤ i, ∃ o, cells.items[j]? = some o ∧ object o = true
  | .array k' => k' = k ∧ cells.present = true
  | _ => False

def NamesOf (named count : Nat) : Block → Prop
  | .name i => i < named ∧ i < count
  | _ => False

theorem lists_freeProperties (k : Kind) (items : List (Object α)) :
    Lists (freeProperties k items) (PropsOf k items) := by
  have hloop := lists_indexed
    (P := fun i (o : Object α) b => o.props.isSome = true ∧ b = Block.props k i ∨
      o.propsInfo.isSome = true ∧ b = Block.propsInfo k i) items
    (fun i o => (lists_if (o.props.isSome = true) (Block.props k i)).append
      (lists_if (o.propsInfo.isSome = true) (Block.propsInfo k i)) (by
        rintro b ⟨-, rfl⟩ ⟨-, hb⟩
        exact absurd hb (by simp)))
    (by
      rintro i j o o' b (⟨-, rfl⟩ | ⟨-, rfl⟩) (⟨-, hb⟩ | ⟨-, hb⟩)
      · exact (Block.props.inj hb).2
      · exact absurd hb (by simp)
      · exact absurd hb (by simp)
      · exact (Block.propsInfo.inj hb).2)
  refine hloop.congr fun b => ?_
  cases b with
  | props k' i =>
      constructor
      · rintro ⟨j, o, ho, ⟨hprops, hb⟩ | ⟨-, hb⟩⟩
        · obtain ⟨rfl, rfl⟩ := Block.props.inj hb
          exact ⟨rfl, o, ho, hprops⟩
        · exact absurd hb (by simp)
      · rintro ⟨rfl, o, ho, hprops⟩
        exact ⟨i, o, ho, .inl ⟨hprops, rfl⟩⟩
  | propsInfo k' i =>
      constructor
      · rintro ⟨j, o, ho, ⟨-, hb⟩ | ⟨hinfo, hb⟩⟩
        · exact absurd hb (by simp)
        · obtain ⟨rfl, rfl⟩ := Block.propsInfo.inj hb
          exact ⟨rfl, o, ho, hinfo⟩
      · rintro ⟨rfl, o, ho, hinfo⟩
        exact ⟨i, o, ho, .inr ⟨hinfo, rfl⟩⟩
  | _ =>
      refine iff_of_false ?_ id
      rintro ⟨j, o, -, ⟨-, hb⟩ | ⟨-, hb⟩⟩ <;> exact absurd hb (by simp)

theorem lists_freeResource (k : Kind) (object : α → Bool) (cells : Cells α) :
    Lists (freeResource k object cells) (ObjectsOf k object cells) := by
  cases cells with
  | null count =>
      refine lists_nil fun b hb => ?_
      cases b with
      | object k' i =>
          obtain ⟨o, ho, -⟩ := hb.2 i (Nat.le_refl i)
          cases ho
      | array k' => cases hb.2
      | _ => exact hb
  | cells items =>
      have hobjects := lists_first object items (f := Block.object k)
        fun i j hij => (Block.object.inj hij).2
      have harray := lists_one (Block.array k)
      refine (hobjects.append harray ?_).congr fun b => ?_
      · rintro b ⟨i, -, rfl⟩ hb
        exact absurd hb (by simp)
      · cases b with
        | object k' i =>
            constructor
            · rintro (⟨j, hall, hb⟩ | hb)
              · obtain ⟨rfl, rfl⟩ := Block.object.inj hb
                exact ⟨rfl, hall⟩
              · exact absurd hb (by simp)
            · rintro ⟨rfl, hall⟩
              exact .inl ⟨i, hall, rfl⟩
        | array k' =>
            constructor
            · rintro (⟨j, -, hb⟩ | hb)
              · exact absurd hb (by simp)
              · exact ⟨Block.array.inj hb, rfl⟩
            · rintro ⟨rfl, -⟩
              exact .inr rfl
        | _ =>
            refine iff_of_false ?_ id
            rintro (⟨j, -, hb⟩ | hb) <;> exact absurd hb (by simp)

theorem lists_freeNames (named : Nat) (items : List (Object ModeConnector)) :
    Lists (freeNames named items) (NamesOf named items.length) := by
  have hloop := lists_indexed
    (P := fun i (_ : Object ModeConnector) b => i < named ∧ b = Block.name i) items
    (fun i _ => lists_if (i < named) (Block.name i))
    (by
      rintro i j _ _ b ⟨-, rfl⟩ ⟨-, hb⟩
      exact Block.name.inj hb)
  refine hloop.congr fun b => ?_
  cases b with
  | name i =>
      constructor
      · rintro ⟨j, o, ho, hnamed, hb⟩
        obtain rfl := Block.name.inj hb
        exact ⟨hnamed, (List.getElem?_eq_some_iff.mp ho).1⟩
      · rintro ⟨hnamed, hi⟩
        exact ⟨i, items[i], List.getElem?_eq_getElem hi, hnamed, rfl⟩
  | _ =>
      refine iff_of_false ?_ id
      rintro ⟨j, o, -, -, hb⟩
      exact absurd hb (by simp)

/-- The release of `res` with everything of its kinds. -/
theorem lists_freeRes {res : Option Res} {freed : List Block} (h : freeRes res = .ok freed) :
    Lists freed fun b => ∃ r, res = some r ∧
      (PropsOf .crtc r.crtcs.items b ∨
        ObjectsOf .crtc (·.object.isSome) r.crtcs b ∨
        ObjectsOf .encoder Option.isSome r.encoders b ∨
        NamesOf r.named r.connectors.items.length b ∨
        ObjectsOf .connector (·.object.isSome) r.connectors b ∨
        ObjectsOf .fb Option.isSome r.fbs b ∨ b = .res) := by
  cases res with
  | none =>
      obtain rfl := Except.ok.inj h
      refine lists_nil ?_
      rintro b ⟨r, hr, -⟩
      exact absurd hr (by simp)
  | some r =>
      obtain ⟨crtcs, hcrtcs, h⟩ := bind_ok h
      obtain ⟨connectors, hconnectors, h⟩ := bind_ok h
      obtain rfl := Except.ok.inj h
      obtain rfl := walk_ok hcrtcs
      obtain rfl := walk_ok hconnectors
      refine Lists.congr (P := fun b => _ ∨ _) ?_ fun b =>
        ⟨fun hb => ⟨r, rfl, hb⟩, fun ⟨r', hr, hb⟩ => Option.some.inj hr ▸ hb⟩
      refine (lists_freeProperties _ _).append ?_ ?_
      · refine (lists_freeResource _ _ _).append ?_ ?_
        · refine (lists_freeResource _ _ _).append ?_ ?_
          · refine (lists_freeNames _ _).append ?_ ?_
            · refine (lists_freeResource _ _ _).append ?_ ?_
              · refine (lists_freeResource _ _ _).append (lists_one _) ?_
                intro b hb hb'
                cases b <;> simp_all [ObjectsOf]
              · intro b hb hb'
                cases b <;> simp_all [ObjectsOf]
            · intro b hb hb'
              cases b <;> simp_all [ObjectsOf, NamesOf]
          · intro b hb hb'
            cases b <;> simp_all [ObjectsOf, NamesOf]
        · intro b hb hb'
          cases b <;> simp_all [ObjectsOf, NamesOf]
      · intro b hb hb'
        cases b <;> simp_all [ObjectsOf, NamesOf, PropsOf]

theorem lists_freePlanes {planes : Option (Cells (Object ModePlane))} {freed : List Block}
    (h : freePlanes planes = .ok freed) :
    Lists freed fun b => ∃ cells, planes = some cells ∧
      (PropsOf .plane cells.items b ∨ ObjectsOf .plane (·.object.isSome) cells b ∨
        b = .planeRes) := by
  cases planes with
  | none =>
      obtain rfl := Except.ok.inj h
      refine lists_nil ?_
      rintro b ⟨cells, hcells, -⟩
      exact absurd hcells (by simp)
  | some cells =>
      obtain ⟨items, hwalk, h⟩ := bind_ok h
      obtain rfl := Except.ok.inj h
      obtain rfl := walk_ok hwalk
      refine Lists.congr (P := fun b => _ ∨ _) ?_ fun b =>
        ⟨fun hb => ⟨cells, rfl, hb⟩, fun ⟨c, hc, hb⟩ => Option.some.inj hc ▸ hb⟩
      refine (lists_freeProperties _ _).append ?_ ?_
      · refine (lists_freeResource _ _ _).append (lists_one _) ?_
        intro b hb hb'
        cases b <;> simp_all [ObjectsOf]
      · intro b hb hb'
        cases b <;> simp_all [ObjectsOf, PropsOf]

/-! ## §6. What is forgotten. -/

@[simp] theorem pointers_object (o : Object α) : o.pointers.object = o.object.isSome := rfl

@[simp] theorem pointers_props (o : Object α) : o.pointers.props = o.props.isSome := rfl

@[simp] theorem pointers_info (o : Object α) :
    o.pointers.info = o.propsInfo.map (·.map Option.isSome) := rfl

@[simp] theorem onePointer_object (o : Option α) : (onePointer o).object = o.isSome := rfl

/-- A position before the first null, in terms of pointers. -/
theorem first_iff {view : α → Pointers} {object : α → Bool}
    (hview : ∀ o, (view o).object = object o) (items : List α) (i : Nat) :
    (∀ j ≤ i, ∃ o, items[j]? = some o ∧ object o = true) ↔
      (∃ p, (items.map view)[i]? = some p ∧ p.object = true) ∧
        ¬ ∃ j < i, ∃ p, (items.map view)[j]? = some p ∧ p.object = false := by
  constructor
  · intro hall
    refine ⟨?_, ?_⟩
    · obtain ⟨o, ho, hobject⟩ := hall i (Nat.le_refl i)
      refine ⟨view o, ?_, (hview o).trans hobject⟩
      rw [List.getElem?_map, ho]
      rfl
    · rintro ⟨j, hj, p, hp, hnull⟩
      obtain ⟨o, ho, hobject⟩ := hall j (Nat.le_of_lt hj)
      rw [List.getElem?_map, ho] at hp
      obtain rfl := Option.some.inj hp
      rw [hview, hobject] at hnull
      exact absurd hnull (by simp)
  · rintro ⟨⟨p, hp, hobject⟩, hnone⟩ j hj
    have hi : i < items.length := by
      obtain ⟨hlt, -⟩ := List.getElem?_eq_some_iff.mp hp
      rwa [List.length_map] at hlt
    have hjlen : j < items.length := by omega
    refine ⟨items[j], List.getElem?_eq_getElem hjlen, ?_⟩
    have hjp : (items.map view)[j]? = some (view items[j]) := by
      rw [List.getElem?_map, List.getElem?_eq_getElem hjlen]
      rfl
    by_cases hij : j = i
    · subst hij
      obtain rfl := Option.some.inj (hjp.symm.trans hp)
      rwa [hview] at hobject
    · cases hnull : object items[j] with
      | true => rfl
      | false => exact absurd ⟨j, by omega, _, hjp, (hview _).trans hnull⟩ hnone

/-- What the release gives back is what the scan holds, less what is forgotten. -/
theorem freed_iff (r : Resources) (b : Block) :
    ((∃ res, r.res = some res ∧
      (PropsOf .crtc res.crtcs.items b ∨
        ObjectsOf .crtc (·.object.isSome) res.crtcs b ∨
        ObjectsOf .encoder Option.isSome res.encoders b ∨
        NamesOf res.named res.connectors.items.length b ∨
        ObjectsOf .connector (·.object.isSome) res.connectors b ∨
        ObjectsOf .fb Option.isSome res.fbs b ∨ b = .res)) ∨
      (∃ cells, r.planes = some cells ∧
        (PropsOf .plane cells.items b ∨ ObjectsOf .plane (·.object.isSome) cells b ∨
          b = .planeRes)) ∨ b = .resources) ↔ r.Holds b ∧ ¬ r.Forgets b := by
  obtain ⟨res, planes⟩ := r
  cases b with
  | resources => simp [Resources.Holds, Resources.Forgets]
  | res => cases res <;> simp [Resources.Holds, Resources.Forgets, PropsOf, ObjectsOf, NamesOf]
  | planeRes =>
      cases planes <;> simp [Resources.Holds, Resources.Forgets, PropsOf, ObjectsOf, NamesOf]
  | array k =>
      cases k <;> cases res <;> cases planes <;>
        simp [Resources.Holds, Resources.Forgets, Resources.array, PropsOf, ObjectsOf, NamesOf]
  | object k i =>
      cases k with
      | crtc =>
          cases res with
          | none => simp [Resources.Holds, Resources.places, ObjectsOf, PropsOf]
          | some res =>
              simpa [Resources.Holds, Resources.Forgets, Resources.places, Res.places, ObjectsOf,
                PropsOf, NamesOf] using first_iff pointers_object res.crtcs.items i
      | encoder =>
          cases res with
          | none => simp [Resources.Holds, Resources.places, ObjectsOf, PropsOf]
          | some res =>
              simpa [Resources.Holds, Resources.Forgets, Resources.places, Res.places, ObjectsOf,
                PropsOf, NamesOf] using first_iff onePointer_object res.encoders.items i
      | connector =>
          cases res with
          | none => simp [Resources.Holds, Resources.places, ObjectsOf, PropsOf]
          | some res =>
              simpa [Resources.Holds, Resources.Forgets, Resources.places, Res.places, ObjectsOf,
                PropsOf, NamesOf] using first_iff pointers_object res.connectors.items i
      | fb =>
          cases res with
          | none => simp [Resources.Holds, Resources.places, ObjectsOf, PropsOf]
          | some res =>
              simpa [Resources.Holds, Resources.Forgets, Resources.places, Res.places, ObjectsOf,
                PropsOf, NamesOf] using first_iff onePointer_object res.fbs.items i
      | plane =>
          cases planes with
          | none => simp [Resources.Holds, Resources.places, ObjectsOf, PropsOf, NamesOf]
          | some cells =>
              simpa [Resources.Holds, Resources.Forgets, Resources.places, ObjectsOf, PropsOf,
                NamesOf] using first_iff pointers_object cells.items i
  | name i =>
      cases res <;>
        simp [Resources.Holds, Resources.Forgets, Resources.places, Res.places, PropsOf, ObjectsOf,
          NamesOf]
  | props k i =>
      cases k <;> cases res <;> cases planes <;>
        simp [Resources.Holds, Resources.Forgets, Resources.places, Res.places, onePointer,
          PropsOf, ObjectsOf, NamesOf]
  | propsInfo k i =>
      cases k <;> cases res <;> cases planes <;>
        simp [Resources.Holds, Resources.Forgets, Resources.places, Res.places, onePointer,
          PropsOf, ObjectsOf, NamesOf]
  | property k i j => simp [Resources.Forgets, PropsOf, ObjectsOf, NamesOf]

/-- **A release.**  Every block that the scan holds is given back once, except
those it forgets, and nothing else. -/
theorem freeResources_lists {r : Resources} {freed : List Block}
    (h : freeResources r = .ok freed) : Lists freed fun b => r.Holds b ∧ ¬ r.Forgets b := by
  obtain ⟨first, hfirst, h⟩ := bind_ok h
  obtain ⟨second, hsecond, h⟩ := bind_ok h
  obtain rfl := Except.ok.inj h
  have hplanes := (lists_freePlanes hsecond).append (lists_one Block.resources) (by
    rintro b ⟨cells, -, hb⟩ rfl
    simp [PropsOf, ObjectsOf] at hb)
  refine ((lists_freeRes hfirst).append hplanes ?_).congr (freed_iff r)
  rintro b ⟨res, -, hb⟩ (⟨cells, -, hb'⟩ | rfl)
  · cases b <;> simp_all [PropsOf, ObjectsOf, NamesOf]
  · simp [PropsOf, ObjectsOf, NamesOf] at hb

/-! ## §7. A scan that is returned. -/

/-- The pointers of all objects of the kinds that the program follows are set. -/
structure Resources.Complete (r : Resources) : Prop where
  res : ∃ res, r.res = some res ∧ (∀ o ∈ res.crtcs.items, o.object.isSome = true) ∧
    (∀ o ∈ res.connectors.items, o.object.isSome = true) ∧ res.crtcs.present = true ∧
    res.connectors.present = true
  planes : ∀ cells, r.planes = some cells →
    cells.present = true ∧ ∀ o ∈ cells.items, o.object.isSome = true

theorem getProperties_objects {found : List (Found α)} {objects : List (Object α)}
    (h : getProperties found = .ok objects) : ∀ o ∈ objects, o.object.isSome = true := by
  induction found generalizing objects with
  | nil =>
      obtain rfl := Except.ok.inj h
      exact fun _ ho => absurd ho List.not_mem_nil
  | cons f found ih =>
      rw [getProperties, List.mapM_cons] at h
      obtain ⟨o, ho, h⟩ := bind_ok h
      obtain ⟨rest, hrest, h⟩ := bind_ok h
      obtain rfl := Except.ok.inj h
      refine List.forall_mem_cons.mpr ⟨?_, ih hrest⟩
      split at ho
      next => exact absurd ho (by simp)
      next => rw [← Except.ok.inj ho]; rfl

theorem scanError_ne_returned (r r' : Resources) : scanError r ≠ .returned r' := by
  intro h
  unfold scanError at h
  split at h <;> exact absurd h (by simp)

theorem getAllProperties_complete {found : CardRes} {card : Card} {named : Nat} {r : Resources}
    (h : getAllProperties found card named = .returned r) : r.Complete := by
  unfold getAllProperties at h
  split at h
  next crtcs connectors hcrtcs hconnectors =>
      have hres := And.intro (getProperties_objects hcrtcs) (getProperties_objects hconnectors)
      unfold getPlanes at h
      split at h
      next =>
          obtain rfl := Scan.returned.inj h
          exact ⟨⟨_, rfl, hres.1, hres.2, rfl, rfl⟩, fun _ hc => absurd hc (by simp)⟩
      next planes _ =>
          split at h
          next =>
              split at h
              next => exact absurd h (by simp)
              next cells hcells =>
                  obtain rfl := Scan.returned.inj h
                  refine ⟨⟨_, rfl, hres.1, hres.2, rfl, rfl⟩, ?_⟩
                  intro cells' hc
                  obtain rfl := Option.some.inj hc
                  exact ⟨rfl, getProperties_objects hcells⟩
          next => exact absurd h (scanError_ne_returned _ _)
  next => exact absurd h (by simp)

/-- **A scan that is returned** has the objects that the program follows. -/
theorem getResources_complete {card : Card} {r : Resources}
    (h : getResources card = .returned r) : r.Complete := by
  unfold getResources at h
  split at h
  case isFalse => exact absurd h (by simp)
  split at h
  next => exact absurd h (scanError_ne_returned _ _)
  next found _ =>
  split at h
  case isFalse => exact absurd h (scanError_ne_returned _ _)
  unfold getObjects at h
  split at h
  next => exact absurd h (by simp)
  next => exact getAllProperties_complete h
  next => exact absurd h (scanError_ne_returned _ _)

theorem walk_present {cells : Cells α} (h : cells.present = true) :
    cells.walk = .ok cells.items := by
  cases cells with
  | null count => cases h
  | cells items => rfl

/-- Its release does not follow a null pointer. -/
theorem Resources.Complete.freed {r : Resources} (h : r.Complete) :
    ∃ freed, freeResources r = .ok freed := by
  obtain ⟨res, hres, -, -, hcrtcs, hconnectors⟩ := h.res
  have hfirst : ∃ first, freeRes r.res = .ok first := by
    rw [hres]
    simp only [freeRes, walk_present hcrtcs, walk_present hconnectors]
    exact ⟨_, rfl⟩
  have hsecond : ∃ second, freePlanes r.planes = .ok second := by
    cases hplanes : r.planes with
    | none => exact ⟨[], rfl⟩
    | some cells =>
        simp only [freePlanes, walk_present (h.planes cells hplanes).1]
        exact ⟨_, rfl⟩
  obtain ⟨first, hfirst⟩ := hfirst
  obtain ⟨second, hsecond⟩ := hsecond
  simp only [freeResources, hfirst, hsecond]
  exact ⟨_, rfl⟩

end MesonDisplay.Drm
