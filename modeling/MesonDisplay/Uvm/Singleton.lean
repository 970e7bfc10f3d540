/-
  MesonDisplay.Uvm.Singleton — one object for all threads.

  common/include/utils/Singleton.h: `getInstance` builds the object of a class
  at its first call, `hasInstance` asks for it, both under one static mutex.
  The class is a parameter; its constructor gets an answer of the system and
  may end the process.  Objects are never deleted, so a pointer is the position
  of an object among those that were built.

  Main results:
    * `body_getInstance`, `body_hasInstance` — what one call does.
    * `inTurn_once` — calls one behind the other build one object at most, and
      all of them answer for it.
    * `linear_built` — so do calls of several threads, also while one of them
      builds it.
-/
import MesonDisplay.Lib.Serial

namespace MesonDisplay.Uvm

open MesonDisplay.Serial

/-! ## §1. The class template. -/

/-- The static `sInstance` and the objects on the heap. -/
structure Statics (TYPE : Type) where
  sInstance : Option Nat
  built : List TYPE

def Statics.initial (TYPE : Type) : Statics TYPE where
  sInstance := none
  built := []

inductive Op where
  | getInstance
  | hasInstance
  deriving DecidableEq

/-- The places of the two bodies; `instance` is the local variable. -/
inductive Place where
  | load
  | test (instance_ : Option Nat)
  | store (instance_ : Nat)
  | give (instance_ : Nat)
  | compare
  deriving DecidableEq

inductive Answer where
  | object (instance_ : Nat)
  | present (answer : Bool)
  deriving DecidableEq

/-- The two bodies.  `construct` is `TYPE()`; `none` is an `abort()`. -/
def singleton {TYPE ε : Type} (construct : ε → Option TYPE) :
    Guarded (Statics TYPE) Op Place ε Answer where
  enter
    | .getInstance => .load
    | .hasInstance => .compare
  step env place statics :=
    match place with
    | .load => some (.goOn (.test statics.sInstance), statics)
    | .test (some instance_) => some (.goOn (.give instance_), statics)
    | .test none =>
        (construct env).map fun object =>
          (.goOn (.store statics.built.length),
            { statics with built := statics.built ++ [object] })
    | .store instance_ =>
        some (.goOn (.give instance_), { statics with sInstance := some instance_ })
    | .give instance_ => some (.return (.object instance_), statics)
    | .compare => some (.return (.present statics.sInstance.isSome), statics)

variable {TYPE ε τ : Type} {construct : ε → Option TYPE}

/-! ## §2. One call. -/

/-- The state behind a new object that `sInstance` does not point to yet. -/
def Statics.grown (statics : Statics TYPE) (object : TYPE) : Statics TYPE :=
  { statics with built := statics.built ++ [object] }

/-- What a call has done at a place. -/
def Reached (construct : ε → Option TYPE) (statics : Statics TYPE) :
    Place → Statics TYPE → Prop
  | .load, now => now = statics
  | .compare, now => now = statics
  | .test instance_, now => now = statics ∧ instance_ = statics.sInstance
  | .store instance_, now =>
      statics.sInstance = none ∧ instance_ = statics.built.length ∧
        ∃ env object, construct env = some object ∧ now = statics.grown object
  | .give instance_, now =>
      now = statics ∧ statics.sInstance = some instance_ ∨
      statics.sInstance = none ∧ instance_ = statics.built.length ∧
        ∃ env object, construct env = some object ∧
          now = { statics.grown object with sInstance := some statics.built.length }

/-- One small step. -/
theorem step_reached {statics now now' : Statics TYPE} {place place' : Place} {env : ε}
    (h : Reached construct statics place now)
    (hstep : (singleton construct).step env place now = some (.goOn place', now')) :
    Reached construct statics place' now' := by
  cases place with
  | load =>
      obtain rfl : now = statics := h
      obtain ⟨hplace, rfl⟩ := Prod.mk.inj (Option.some.inj hstep)
      obtain rfl := Next.goOn.inj hplace
      exact ⟨rfl, rfl⟩
  | test instance_ =>
      obtain ⟨rfl, rfl⟩ := h
      cases hinstance : now.sInstance with
      | some p =>
          rw [hinstance] at hstep
          obtain ⟨hplace, rfl⟩ := Prod.mk.inj (Option.some.inj hstep)
          obtain rfl := Next.goOn.inj hplace
          exact .inl ⟨rfl, hinstance⟩
      | none =>
          rw [hinstance] at hstep
          obtain ⟨object, hobject, heq⟩ := Option.map_eq_some_iff.mp hstep
          obtain ⟨hplace, rfl⟩ := Prod.mk.inj heq
          obtain rfl := Next.goOn.inj hplace
          exact ⟨hinstance, rfl, env, object, hobject, rfl⟩
  | store instance_ =>
      obtain ⟨hnone, rfl, env', object, hobject, rfl⟩ := h
      obtain ⟨hplace, rfl⟩ := Prod.mk.inj (Option.some.inj hstep)
      obtain rfl := Next.goOn.inj hplace
      exact .inr ⟨hnone, rfl, env', object, hobject, rfl⟩
  | give instance_ =>
      obtain ⟨hplace, -⟩ := Prod.mk.inj (Option.some.inj hstep)
      exact absurd hplace (by simp)
  | compare =>
      obtain ⟨hplace, -⟩ := Prod.mk.inj (Option.some.inj hstep)
      exact absurd hplace (by simp)

/-- The part of a call up to a place. -/
theorem partway_reached {statics now : Statics TYPE} {op : Op} {place : Place}
    (h : Partway (singleton construct) ((singleton construct).enter op) statics place now) :
    Reached construct statics place now := by
  induction h with
  | refl => cases op <;> rfl
  | step env _ hstep ih => exact step_reached ih hstep

/-- A body that goes on is the one of `getInstance`. -/
theorem goOn_getInstance {now now' : Statics TYPE} {place place' : Place} {env : ε}
    (hstep : (singleton construct).step env place now = some (.goOn place', now')) :
    place ≠ .compare ∧ place' ≠ .compare := by
  cases place with
  | load =>
      obtain rfl := Next.goOn.inj (Prod.mk.inj (Option.some.inj hstep)).1
      exact ⟨by simp, by simp⟩
  | test instance_ =>
      cases instance_ with
      | some p =>
          obtain rfl := Next.goOn.inj (Prod.mk.inj (Option.some.inj hstep)).1
          exact ⟨by simp, by simp⟩
      | none =>
          obtain ⟨object, -, heq⟩ := Option.map_eq_some_iff.mp hstep
          obtain rfl := Next.goOn.inj (Prod.mk.inj heq).1
          exact ⟨by simp, by simp⟩
  | store instance_ =>
      obtain rfl := Next.goOn.inj (Prod.mk.inj (Option.some.inj hstep)).1
      exact ⟨by simp, by simp⟩
  | give instance_ => exact absurd ((Prod.mk.inj (Option.some.inj hstep)).1) (by simp)
  | compare => exact absurd ((Prod.mk.inj (Option.some.inj hstep)).1) (by simp)

/-- Only a call of `hasInstance` is at its place. -/
theorem partway_compare {statics now : Statics TYPE} {op : Op} {place : Place}
    (h : Partway (singleton construct) ((singleton construct).enter op) statics place now) :
    place = .compare ↔ op = .hasInstance := by
  induction h with
  | refl => cases op <;> simp [singleton]
  | step env _ hstep ih =>
      obtain ⟨hplace, hplace'⟩ := goOn_getInstance hstep
      exact iff_of_false hplace' fun hop => hplace (ih.mpr hop)

/-- Objects are built and never deleted. -/
theorem step_built {now now' : Statics TYPE} {place : Place} {env : ε} {next : Next Place Answer}
    (hstep : (singleton construct).step env place now = some (next, now')) :
    now.built <+: now'.built := by
  cases place with
  | test instance_ =>
      cases instance_ with
      | none =>
          obtain ⟨object, -, heq⟩ := Option.map_eq_some_iff.mp hstep
          obtain rfl := (Prod.mk.inj heq).2
          exact List.prefix_append _ _
      | some p =>
          obtain rfl := (Prod.mk.inj (Option.some.inj hstep)).2
          exact List.prefix_refl _
  | _ =>
      obtain rfl := (Prod.mk.inj (Option.some.inj hstep)).2
      exact List.prefix_refl _

/-- A place from which a call returns. -/
theorem return_place {now now' : Statics TYPE} {place : Place} {env : ε} {answer : Answer}
    (hstep : (singleton construct).step env place now = some (.return answer, now')) :
    now' = now ∧ ((∃ p, place = .give p ∧ answer = .object p) ∨
      place = .compare ∧ answer = .present now.sInstance.isSome) := by
  cases place with
  | load => exact absurd ((Prod.mk.inj (Option.some.inj hstep)).1) (by simp)
  | test instance_ =>
      cases instance_ with
      | some p => exact absurd ((Prod.mk.inj (Option.some.inj hstep)).1) (by simp)
      | none =>
          obtain ⟨object, -, heq⟩ := Option.map_eq_some_iff.mp hstep
          exact absurd ((Prod.mk.inj heq).1) (by simp)
  | store instance_ => exact absurd ((Prod.mk.inj (Option.some.inj hstep)).1) (by simp)
  | give instance_ =>
      obtain ⟨hanswer, rfl⟩ := Prod.mk.inj (Option.some.inj hstep)
      exact ⟨rfl, .inl ⟨instance_, rfl, (Next.return.inj hanswer).symm⟩⟩
  | compare =>
      obtain ⟨hanswer, rfl⟩ := Prod.mk.inj (Option.some.inj hstep)
      exact ⟨rfl, .inr ⟨rfl, (Next.return.inj hanswer).symm⟩⟩

/-- **A call of `getInstance`** gives what `sInstance` points to, or builds the
object and gives that. -/
theorem body_getInstance {statics after : Statics TYPE} {answer : Answer}
    (h : Body (singleton construct) .getInstance statics answer after) :
    (∃ p, statics.sInstance = some p ∧ answer = .object p ∧ after = statics) ∨
    (statics.sInstance = none ∧ answer = .object statics.built.length ∧
      ∃ env object, construct env = some object ∧
        after = { statics.grown object with sInstance := some statics.built.length }) := by
  obtain ⟨place, now, env, hpart, hstep⟩ := h
  have hreached := partway_reached hpart
  have hcompare := partway_compare hpart
  obtain ⟨rfl, ⟨p, rfl, rfl⟩ | ⟨rfl, -⟩⟩ := return_place hstep
  · rcases hreached with ⟨hnow, hp⟩ | ⟨hnone, rfl, hbuilt⟩
    · exact .inl ⟨p, hp, rfl, hnow⟩
    · exact .inr ⟨hnone, rfl, hbuilt⟩
  · exact absurd (hcompare.mp rfl) (by simp)

/-- **A call of `hasInstance`.** -/
theorem body_hasInstance {statics after : Statics TYPE} {answer : Answer}
    (h : Body (singleton construct) .hasInstance statics answer after) :
    after = statics ∧ answer = .present statics.sInstance.isSome := by
  obtain ⟨place, now, env, hpart, hstep⟩ := h
  obtain rfl := (partway_compare hpart).mpr rfl
  obtain rfl : now = statics := partway_reached hpart
  obtain ⟨rfl, ⟨p, hplace, -⟩ | ⟨-, hanswer⟩⟩ := return_place hstep
  · exact absurd hplace (by simp)
  · exact ⟨rfl, hanswer⟩

/-! ## §3. All calls. -/

/-- An answer from before there was an object. -/
def Early (r : τ × Op × Answer) : Prop := r.2 = (.hasInstance, .present false)

/-- An answer for the first object. -/
def Late (r : τ × Op × Answer) : Prop :=
  r.2 = (.getInstance, .object 0) ∨ r.2 = (.hasInstance, .present true)

/-- What calls one behind the other did: nothing yet, or they built one object,
and answered for it from then on. -/
def Once (construct : ε → Option TYPE) (returned : List (τ × Op × Answer))
    (statics : Statics TYPE) : Prop :=
  (statics = Statics.initial TYPE ∧ ∀ r ∈ returned, Early r) ∨
  ∃ env object before after, construct env = some object ∧
    statics = { sInstance := some 0, built := [object] } ∧
    returned = before ++ after ∧ (∀ r ∈ before, Early r) ∧ (∀ r ∈ after, Late r) ∧ after ≠ []

/-- One more call. -/
theorem Once.more {returned : List (τ × Op × Answer)} {statics statics' : Statics TYPE} {t : τ}
    {op : Op} {answer : Answer} (h : Once construct returned statics)
    (hbody : Body (singleton construct) op statics answer statics') :
    Once construct (returned ++ [(t, op, answer)]) statics' := by
  rcases h with ⟨rfl, hearly⟩ | ⟨env, object, before, after, hobject, rfl, rfl, hb, ha, hne⟩
  · cases op with
    | getInstance =>
        rcases body_getInstance hbody with ⟨p, hp, -⟩ | ⟨-, rfl, env, object, hobject, rfl⟩
        · cases hp
        · refine .inr ⟨env, object, returned, _, hobject, rfl, rfl, hearly, ?_, by simp⟩
          intro r hr
          obtain rfl := List.mem_singleton.mp hr
          exact .inl rfl
    | hasInstance =>
        obtain ⟨rfl, rfl⟩ := body_hasInstance hbody
        refine .inl ⟨rfl, ?_⟩
        intro r hr
        rcases List.mem_append.mp hr with hr | hr
        · exact hearly r hr
        · obtain rfl := List.mem_singleton.mp hr
          rfl
  · have hlate : statics' = { sInstance := some 0, built := [object] } ∧
        Late (t, op, answer) := by
      cases op with
      | getInstance =>
          rcases body_getInstance hbody with ⟨p, hp, rfl, rfl⟩ | ⟨hnone, -⟩
          · obtain rfl := Option.some.inj hp
            exact ⟨rfl, .inl rfl⟩
          · exact absurd hnone (by simp)
      | hasInstance =>
          obtain ⟨rfl, rfl⟩ := body_hasInstance hbody
          exact ⟨rfl, .inr rfl⟩
    refine .inr ⟨env, object, before, after ++ [(t, op, answer)], hobject, hlate.1,
      List.append_assoc .., hb, ?_, by simp⟩
    intro r hr
    rcases List.mem_append.mp hr with hr | hr
    · exact ha r hr
    · obtain rfl := List.mem_singleton.mp hr
      exact hlate.2

/-- **Calls one behind the other.** -/
theorem inTurn_once {returned : List (τ × Op × Answer)} {statics : Statics TYPE}
    (h : InTurn (singleton construct) (Statics.initial TYPE) returned statics) :
    Once construct returned statics :=
  serial_rule (I := Once construct) (.inl ⟨rfl, fun _ hr => absurd hr List.not_mem_nil⟩)
    (fun _ _ _ _ _ _ hI hbody => hI.more hbody) h

/-- What the objects are while a thread is in a call: those of the calls that
returned, or there was none and the thread built the first one. -/
theorem Reached.built {statics now : Statics TYPE} {place : Place}
    (h : Reached construct statics place now) :
    now.built = statics.built ∨
      statics.sInstance = none ∧ ∃ env object, construct env = some object ∧
        now.built = statics.built ++ [object] := by
  cases place with
  | load => exact .inl (congrArg Statics.built h)
  | compare => exact .inl (congrArg Statics.built h)
  | test instance_ => exact .inl (congrArg Statics.built h.1)
  | store instance_ =>
      obtain ⟨hnone, -, env, object, hobject, rfl⟩ := h
      exact .inr ⟨hnone, env, object, hobject, rfl⟩
  | give instance_ =>
      rcases h with ⟨rfl, -⟩ | ⟨hnone, -, env, object, hobject, rfl⟩
      · exact .inl rfl
      · exact .inr ⟨hnone, env, object, hobject, rfl⟩

/-- What was built, and whom the calls that returned answer for. -/
def Built (construct : ε → Option TYPE) (returned : List (τ × Op × Answer))
    (built : List TYPE) : Prop :=
  (built = [] ∧ ∀ r ∈ returned, Early r) ∨
  ∃ env object before after, construct env = some object ∧ built = [object] ∧
    returned = before ++ after ∧ (∀ r ∈ before, Early r) ∧ ∀ r ∈ after, Late r

theorem Once.built {returned : List (τ × Op × Answer)} {statics : Statics TYPE}
    (h : Once construct returned statics) : Built construct returned statics.built := by
  rcases h with ⟨rfl, hearly⟩ | ⟨env, object, before, after, hobject, rfl, hsplit, hb, ha, -⟩
  · exact .inl ⟨rfl, hearly⟩
  · exact .inr ⟨env, object, before, after, hobject, rfl, hsplit, hb, ha⟩

/-- A part of a call behind the calls that returned. -/
theorem Once.partway {returned : List (τ × Op × Answer)} {statics now : Statics TYPE}
    {place : Place} (h : Once construct returned statics)
    (hreached : Reached construct statics place now) : Built construct returned now.built := by
  rcases hreached.built with hsame | ⟨hnone, env, object, hobject, hgrown⟩
  · rw [hsame]
    exact h.built
  · rcases h with ⟨rfl, hearly⟩ | ⟨_, _, _, _, _, rfl, _⟩
    · exact .inr ⟨env, object, returned, [], hobject, hgrown, (List.append_nil _).symm, hearly,
        fun _ hr => absurd hr List.not_mem_nil⟩
    · exact absurd hnone (by simp)

variable {s : State τ (Statics TYPE) Op Place Answer}

/-- **Calls of several threads** build one object at most, and answer for it,
in every state between their steps. -/
theorem linear_built (h : Linear (singleton construct) (Statics.initial TYPE) s) :
    Built construct s.returned s.shared.built := by
  cases hholder : s.holder with
  | none => exact (inTurn_once (h.free hholder)).built
  | some t =>
      have ht : (s.phase t).Inside := (h.excludes t).mpr hholder
      cases hphase : s.phase t with
      | idle => rw [hphase] at ht; exact ht.elim
      | waiting op => rw [hphase] at ht; exact ht.elim
      | inside op place =>
          obtain ⟨statics, hturn, hpart⟩ := h.inside t op place hphase
          exact (inTurn_once hturn).partway (partway_reached hpart)
      | leaving op answer =>
          obtain ⟨statics, hturn, place, now, env, hpart, hstep⟩ := h.leaving t op answer hphase
          rw [(return_place hstep).1]
          exact (inTurn_once hturn).partway (partway_reached hpart)

end MesonDisplay.Uvm
