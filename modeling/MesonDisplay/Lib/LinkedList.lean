/-
  MesonDisplay.Lib.LinkedList — doubly linked lists on a heap.

  A heap maps addresses to nodes.  An address is never used twice: the address
  of a node that was freed stays unusable, and an access through it is an
  error.  A list is described by its entries, in order: address, `prev`
  pointer and data of every node.  The `next` pointers are those of the order
  (`Chain`); the `prev` pointers are data of the description, and `BackLinks`
  says which of them are right.

  Main results:
    * `forEachList_chain` — a loop over a list is a fold over its data.
    * `chain_unlink`, `chain_append` — removing a node, adding one behind the
      last.
    * `Linked.doublyLinked` — the pointers of a list, address by address.
-/
import Mathlib.Data.List.Forall2
import Mathlib.Data.List.Perm.Subperm
import Mathlib.Data.List.Induction
import Mathlib.Tactic.Common

namespace MesonDisplay.LinkedList

variable {δ : Type} {ε : Type} {σ : Type}

/-! ## §1. The heap. -/

structure Node (δ : Type) where
  prev : Option Nat
  next : Option Nat
  data : δ

/-- Nodes by address.  The addresses from `fresh` on were never used. -/
@[ext]
structure Heap (δ : Type) where
  cell : Nat → Option (Node δ)
  fresh : Nat
  bound : ∀ a, fresh ≤ a → cell a = none

namespace Heap

/-- A heap whose only node is at `root` is unused behind it. -/
theorem bound_single (root : Nat) (n : Node δ) :
    ∀ a, root + 1 ≤ a → (if a = root then some n else none) = none := by
  intro a ha
  rw [if_neg]
  show a ≠ root
  omega

/-- Change the node at `a`, if there is one. -/
def update (h : Heap δ) (a : Nat) (f : Node δ → Node δ) : Heap δ where
  cell := fun x => if x = a then (h.cell a).map f else h.cell x
  fresh := h.fresh
  bound := by
    intro x hx
    by_cases hxa : x = a
    · rw [if_pos hxa, ← hxa, h.bound x hx]
      rfl
    · rw [if_neg hxa]
      exact h.bound x hx

/-- Allocate a node, at the address `h.fresh`. -/
def alloc (h : Heap δ) (n : Node δ) : Heap δ where
  cell := fun x => if x = h.fresh then some n else h.cell x
  fresh := h.fresh + 1
  bound := by
    intro x hx
    rw [if_neg (by omega)]
    exact h.bound x (by omega)

def free (h : Heap δ) (a : Nat) : Heap δ where
  cell := fun x => if x = a then none else h.cell x
  fresh := h.fresh
  bound := by
    intro x hx
    by_cases hxa : x = a
    · rw [if_pos hxa]
    · rw [if_neg hxa]
      exact h.bound x hx

/-- An address whose node was freed. -/
def Freed (h : Heap δ) (a : Nat) : Prop := a < h.fresh ∧ h.cell a = none

@[simp] theorem update_fresh (h : Heap δ) (a : Nat) (f : Node δ → Node δ) :
    (h.update a f).fresh = h.fresh := rfl

theorem update_cell (h : Heap δ) (a x : Nat) (f : Node δ → Node δ) :
    (h.update a f).cell x = if x = a then (h.cell a).map f else h.cell x := rfl

theorem update_cell_ne (h : Heap δ) {a x : Nat} (hx : x ≠ a) (f : Node δ → Node δ) :
    (h.update a f).cell x = h.cell x := by
  rw [update_cell, if_neg hx]

theorem update_cell_self {h : Heap δ} {a : Nat} {n : Node δ} (hn : h.cell a = some n)
    (f : Node δ → Node δ) : (h.update a f).cell a = some (f n) := by
  rw [update_cell, if_pos rfl, hn]
  rfl

theorem update_cell_eq_none {h : Heap δ} {a x : Nat} {f : Node δ → Node δ} :
    (h.update a f).cell x = none ↔ h.cell x = none := by
  rw [update_cell]
  by_cases hx : x = a
  · rw [if_pos hx, hx]
    simp
  · rw [if_neg hx]

theorem update_live {h : Heap δ} {x : Nat} {n : Node δ} (hn : h.cell x = some n) (a : Nat)
    (f : Node δ → Node δ) : ∃ n', (h.update a f).cell x = some n' := by
  cases hx : (h.update a f).cell x with
  | some n' => exact ⟨n', rfl⟩
  | none =>
      rw [update_cell_eq_none.mp hx] at hn
      exact absurd hn (by simp)

/-- Only what `f` does to the node matters. -/
theorem update_congr {h : Heap δ} {a : Nat} {n : Node δ} (hn : h.cell a = some n)
    {f g : Node δ → Node δ} (hfg : f n = g n) : h.update a f = h.update a g := by
  refine Heap.ext ?_ rfl
  funext x
  rw [update_cell, update_cell, hn, Option.map_some, Option.map_some, hfg]

theorem free_cell_ne (h : Heap δ) {a x : Nat} (hx : x ≠ a) :
    (h.free a).cell x = h.cell x := if_neg hx

theorem alloc_cell_ne (h : Heap δ) {x : Nat} (hx : x ≠ h.fresh) (n : Node δ) :
    (h.alloc n).cell x = h.cell x := if_neg hx

theorem alloc_cell_fresh (h : Heap δ) (n : Node δ) :
    (h.alloc n).cell h.fresh = some n := if_pos rfl

theorem lt_fresh {h : Heap δ} {a : Nat} {n : Node δ} (hn : h.cell a = some n) :
    a < h.fresh := by
  by_contra hlt
  rw [h.bound a (by omega)] at hn
  exact absurd hn (by simp)

end Heap

/-! ## §2. Access through pointers. -/

section Access

-- the error of an access through a NULL pointer or into freed memory
variable (bad : ε)

/-- `*p`. -/
def load (h : Heap δ) (a : Nat) : Except ε (Node δ) :=
  match h.cell a with
  | some n => .ok n
  | none => .error bad

/-- A store to fields of `*p`. -/
def modify (h : Heap δ) (a : Nat) (f : Node δ → Node δ) : Except ε (Heap δ) :=
  match h.cell a with
  | some _ => .ok (h.update a f)
  | none => .error bad

/-- `free(p)`. -/
def release (h : Heap δ) (a : Nat) : Except ε (Heap δ) :=
  match h.cell a with
  | some _ => .ok (h.free a)
  | none => .error bad

/-- The address in a pointer that is about to be followed. -/
def deref (p : Option Nat) : Except ε Nat :=
  match p with
  | some a => .ok a
  | none => .error bad

variable {bad} {h : Heap δ} {a : Nat} {n : Node δ}

theorem load_eq (hn : h.cell a = some n) : load bad h a = .ok n := by
  unfold load
  rw [hn]

theorem modify_eq (hn : h.cell a = some n) (f : Node δ → Node δ) :
    modify bad h a f = .ok (h.update a f) := by
  unfold modify
  rw [hn]

theorem modify_freed (hn : h.cell a = none) (f : Node δ → Node δ) :
    modify bad h a f = .error bad := by
  unfold modify
  rw [hn]

theorem release_eq (hn : h.cell a = some n) : release bad h a = .ok (h.free a) := by
  unfold release
  rw [hn]

@[simp] theorem ok_bind {α β : Type} (x : α) (f : α → Except ε β) :
    (Except.ok x >>= f) = f x := rfl

@[simp] theorem error_bind {α β : Type} (e : ε) (f : α → Except ε β) :
    (Except.error e >>= f) = .error e := rfl

/-- A sequence returns when both parts do. -/
theorem bind_eq_ok {α β : Type} {x : Except ε α} {f : α → Except ε β} {b : β} :
    x >>= f = .ok b ↔ ∃ a, x = .ok a ∧ f a = .ok b := by
  cases x with
  | error e => simp
  | ok a => simp

/-- The result of a call that returns, made from what it returns. -/
theorem toOption_bind {α β : Type} {x : Except ε α} {f : α → β} {b : β}
    (hrun : (x >>= fun a => Except.ok (f a)).toOption = some b) : ∃ a, x = .ok a ∧ f a = b := by
  cases x with
  | error e => exact absurd hrun (by simp [Except.toOption])
  | ok a => exact ⟨a, rfl, Option.some.inj hrun⟩

end Access

/-! ## §3. Lists. -/

/-- A node of a list, without its `next` pointer. -/
structure Entry (δ : Type) where
  addr : Nat
  prev : Option Nat
  data : δ

/-- The address a list starts at; `q` if it is empty. -/
def firstAddr : List (Entry δ) → Option Nat → Option Nat
  | [], q => q
  | e :: _, _ => some e.addr

/-- The heap holds the entries, each with the address of the following one in
its `next` pointer; behind the last one comes `q`. -/
def Chain (h : Heap δ) : List (Entry δ) → Option Nat → Prop
  | [], _ => True
  | e :: es, q =>
      h.cell e.addr = some ⟨e.prev, firstAddr es q, e.data⟩ ∧ Chain h es q

/-- The addresses of a list. -/
def addrs (es : List (Entry δ)) : List Nat := es.map Entry.addr

@[simp] theorem addrs_nil : addrs ([] : List (Entry δ)) = [] := rfl

@[simp] theorem addrs_cons (e : Entry δ) (es : List (Entry δ)) :
    addrs (e :: es) = e.addr :: addrs es := rfl

@[simp] theorem addrs_append (es es' : List (Entry δ)) :
    addrs (es ++ es') = addrs es ++ addrs es' := List.map_append

@[simp] theorem firstAddr_cons (e : Entry δ) (es : List (Entry δ)) (q : Option Nat) :
    firstAddr (e :: es) q = some e.addr := rfl

theorem firstAddr_append (es es' : List (Entry δ)) (q : Option Nat) :
    firstAddr (es ++ es') q = firstAddr es (firstAddr es' q) := by
  cases es <;> rfl

theorem chain_append_iff {h : Heap δ} (es es' : List (Entry δ)) (q : Option Nat) :
    Chain h (es ++ es') q ↔ Chain h es (firstAddr es' q) ∧ Chain h es' q := by
  induction es with
  | nil => simp [Chain]
  | cons e es ih =>
      rw [List.cons_append]
      show (_ ∧ Chain h (es ++ es') q) ↔ (_ ∧ Chain h es (firstAddr es' q)) ∧ _
      rw [ih, firstAddr_append, and_assoc]

theorem chain_cons_iff {h : Heap δ} (e : Entry δ) (es : List (Entry δ)) (q : Option Nat) :
    Chain h (e :: es) q ↔
      h.cell e.addr = some ⟨e.prev, firstAddr es q, e.data⟩ ∧ Chain h es q := Iff.rfl

/-- A list depends on its own nodes only. -/
theorem chain_congr {h h' : Heap δ} {es : List (Entry δ)} {q : Option Nat}
    (hsame : ∀ a ∈ addrs es, h'.cell a = h.cell a) (hc : Chain h es q) :
    Chain h' es q := by
  induction es with
  | nil => trivial
  | cons e es ih =>
      obtain ⟨he, hes⟩ := hc
      refine ⟨?_, ih (fun a ha => hsame a (List.mem_cons_of_mem _ ha)) hes⟩
      rw [hsame e.addr List.mem_cons_self, he]

theorem chain_update {h : Heap δ} {es : List (Entry δ)} {q : Option Nat} {a : Nat}
    (ha : a ∉ addrs es) (f : Node δ → Node δ) (hc : Chain h es q) :
    Chain (h.update a f) es q :=
  chain_congr (fun x hx => h.update_cell_ne (fun (hxa : x = a) => ha (hxa ▸ hx)) f) hc

theorem chain_free {h : Heap δ} {es : List (Entry δ)} {q : Option Nat} {a : Nat}
    (ha : a ∉ addrs es) (hc : Chain h es q) : Chain (h.free a) es q :=
  chain_congr (fun x hx => h.free_cell_ne (fun (hxa : x = a) => ha (hxa ▸ hx))) hc

/-- The nodes of a list are there. -/
theorem chain_mem {h : Heap δ} {es : List (Entry δ)} {q : Option Nat}
    (hc : Chain h es q) {a : Nat} (ha : a ∈ addrs es) : ∃ n, h.cell a = some n := by
  induction es with
  | nil => exact absurd ha (by simp)
  | cons e es ih =>
      obtain ⟨he, hes⟩ := hc
      rcases List.mem_cons.mp ha with rfl | ha
      · exact ⟨_, he⟩
      · exact ih hes ha

theorem chain_fresh {h : Heap δ} {es : List (Entry δ)} {q : Option Nat}
    (hc : Chain h es q) : h.fresh ∉ addrs es := by
  intro hmem
  obtain ⟨n, hn⟩ := chain_mem hc hmem
  exact absurd (Heap.lt_fresh hn) (Nat.lt_irrefl _)

/-- A list of different nodes is no longer than the heap. -/
theorem chain_length_le {h : Heap δ} {es : List (Entry δ)} {q : Option Nat}
    (hc : Chain h es q) (hnd : (addrs es).Nodup) : es.length ≤ h.fresh := by
  have hsub : addrs es ⊆ List.range h.fresh := by
    intro a ha
    obtain ⟨n, hn⟩ := chain_mem hc ha
    exact List.mem_range.mpr (Heap.lt_fresh hn)
  have hle := (hnd.subperm hsub).length_le
  rw [List.length_range] at hle
  unfold addrs at hle
  rwa [List.length_map] at hle

/-! ## §4. Stores to a list. -/

section Stores

variable {h : Heap δ} {q : Option Nat}

/-- A store to the `next` pointer of the last node. -/
theorem chain_set_next {es : List (Entry δ)} {e : Entry δ} (he : e.addr ∉ addrs es)
    (q' : Option Nat) (hc : Chain h (es ++ [e]) q) :
    Chain (h.update e.addr (fun n => { n with next := q' })) (es ++ [e]) q' := by
  rw [chain_append_iff] at hc ⊢
  obtain ⟨hes, hlast, -⟩ := hc
  refine ⟨chain_update he _ hes, ?_, trivial⟩
  rw [Heap.update_cell_self hlast]
  rfl

/-- A store to the `prev` pointer of the first node. -/
theorem chain_set_prev {e : Entry δ} {es : List (Entry δ)} (he : e.addr ∉ addrs es)
    (p : Option Nat) (hc : Chain h (e :: es) q) :
    Chain (h.update e.addr (fun n => { n with prev := p })) ({ e with prev := p } :: es) q := by
  obtain ⟨hfirst, hes⟩ := hc
  refine ⟨?_, chain_update he _ hes⟩
  show (h.update e.addr _).cell e.addr = _
  rw [Heap.update_cell_self hfirst]

/-- A store to the data of a node. -/
theorem chain_set_data {es es' : List (Entry δ)} {e : Entry δ}
    (hnd : (addrs (es ++ e :: es')).Nodup) (d : δ) (hc : Chain h (es ++ e :: es') q) :
    Chain (h.update e.addr (fun n => { n with data := d }))
      (es ++ { e with data := d } :: es') q := by
  rw [addrs_append, addrs_cons, List.nodup_append, List.nodup_cons] at hnd
  obtain ⟨-, ⟨he', -⟩, hdisj⟩ := hnd
  have he : e.addr ∉ addrs es := fun hmem =>
    hdisj e.addr hmem e.addr List.mem_cons_self rfl
  rw [chain_append_iff] at hc ⊢
  obtain ⟨hes, hnode, hes'⟩ := hc
  refine ⟨chain_update he _ hes, ?_, chain_update he' _ hes'⟩
  show (h.update e.addr _).cell e.addr = _
  rw [Heap.update_cell_self hnode]

/-- **Unlinking.**  A node whose `prev` pointer is right is taken out between
its neighbours and freed. -/
theorem chain_unlink {es es' : List (Entry δ)} {p e f : Entry δ}
    (hnd : (addrs (es ++ p :: e :: f :: es')).Nodup)
    (hc : Chain h (es ++ p :: e :: f :: es') q) :
    Chain (((h.update p.addr (fun n => { n with next := some f.addr })).update f.addr
        (fun n => { n with prev := e.prev })).free e.addr)
      (es ++ p :: { f with prev := e.prev } :: es') q := by
  have hsplit : es ++ p :: e :: f :: es' = (es ++ [p]) ++ e :: f :: es' := by simp
  have hgoal : es ++ p :: { f with prev := e.prev } :: es'
      = (es ++ [p]) ++ { f with prev := e.prev } :: es' := by simp
  rw [hsplit] at hc hnd
  simp only [addrs_append, addrs_cons, addrs_nil, List.nodup_append, List.nodup_cons,
    List.mem_append, List.mem_cons, List.not_mem_nil, or_false, List.nodup_nil,
    not_or] at hnd
  obtain ⟨⟨-, -, hpes⟩, ⟨⟨hef, hees'⟩, hfes', -⟩, hdisj⟩ := hnd
  have hp : p.addr ∉ addrs es := fun hmem => hpes p.addr hmem p.addr rfl rfl
  rw [chain_append_iff] at hc
  obtain ⟨hleft, hnode, hright⟩ := hc
  -- the three nodes are different, so each store keeps the other part
  have hpf : p.addr ∉ addrs (f :: es') := by
    intro hmem
    rcases List.mem_cons.mp hmem with hmem | hmem
    · exact hdisj p.addr (.inr rfl) f.addr (.inr (.inl rfl)) hmem
    · exact hdisj p.addr (.inr rfl) p.addr (.inr (.inr hmem)) rfl
  have hfl : f.addr ∉ addrs (es ++ [p]) := by
    intro hmem
    rw [addrs_append, List.mem_append] at hmem
    rcases hmem with hmem | hmem
    · exact hdisj f.addr (.inl hmem) f.addr (.inr (.inl rfl)) rfl
    · have hfp : f.addr = p.addr := by simpa using hmem
      exact hdisj p.addr (.inr rfl) f.addr (.inr (.inl rfl)) hfp.symm
  have hel : e.addr ∉ addrs (es ++ [p]) := by
    intro hmem
    rw [addrs_append, List.mem_append] at hmem
    rcases hmem with hmem | hmem
    · exact hdisj e.addr (.inl hmem) e.addr (.inl rfl) rfl
    · have hep : e.addr = p.addr := by simpa using hmem
      exact hdisj p.addr (.inr rfl) e.addr (.inl rfl) hep.symm
  have her : e.addr ∉ addrs ({ f with prev := e.prev } :: es') := by
    intro hmem
    rcases List.mem_cons.mp hmem with hmem | hmem
    · exact hef hmem
    · exact hees' hmem
  have h₁ := chain_set_next hp (some f.addr) hleft
  have h₂ := chain_update hpf (fun n => { n with next := some f.addr }) hright
  have h₃ := chain_update hfl (fun n => { n with prev := e.prev }) h₁
  have h₄ := chain_set_prev hfes' e.prev h₂
  rw [hgoal, chain_append_iff]
  exact ⟨chain_free hel h₃, chain_free her h₄⟩

/-- **Appending.**  In `h'` there is a new node, and the last one of the list
points to it. -/
theorem chain_append {h' : Heap δ} {es : List (Entry δ)} {e : Entry δ} {d : δ}
    (hc : Chain h (es ++ [e]) none)
    (hold : ∀ a ∈ addrs es, h'.cell a = h.cell a)
    (hlast : h'.cell e.addr = some ⟨e.prev, some h.fresh, e.data⟩)
    (hnew : h'.cell h.fresh = some ⟨some e.addr, none, d⟩) :
    Chain h' (es ++ [e] ++ [⟨h.fresh, some e.addr, d⟩]) none := by
  rw [chain_append_iff] at hc
  rw [chain_append_iff, chain_append_iff]
  exact ⟨⟨chain_congr hold hc.1, hlast, trivial⟩, hnew, trivial⟩

end Stores

/-! ## §5. Back links. -/

/-- Every `prev` pointer is the address of the preceding node, `p` for the
first one, or an address of `dangling`. -/
def BackLinks (dangling : Nat → Prop) : Option Nat → List (Entry δ) → Prop
  | _, [] => True
  | p, e :: es =>
      (e.prev = p ∨ ∃ a, e.prev = some a ∧ dangling a) ∧
        BackLinks dangling (some e.addr) es

theorem backLinks_mono {dangling dangling' : Nat → Prop}
    (hsub : ∀ a, dangling a → dangling' a) :
    ∀ {p : Option Nat} {es : List (Entry δ)}, BackLinks dangling p es →
      BackLinks dangling' p es := by
  intro p es
  induction es generalizing p with
  | nil => exact fun _ => trivial
  | cons e es ih =>
      intro ⟨he, hes⟩
      refine ⟨?_, ih hes⟩
      rcases he with he | ⟨a, ha, hd⟩
      · exact .inl he
      · exact .inr ⟨a, ha, hsub a hd⟩

/-- The address of the last node; `p` if there is none. -/
def lastAddr (p : Option Nat) : List (Entry δ) → Option Nat
  | [] => p
  | e :: es => lastAddr (some e.addr) es

theorem lastAddr_concat (p : Option Nat) (es : List (Entry δ)) (e : Entry δ) :
    lastAddr p (es ++ [e]) = some e.addr := by
  induction es generalizing p with
  | nil => rfl
  | cons e' es ih => exact ih (some e'.addr)

theorem backLinks_append_iff {dangling : Nat → Prop} (es es' : List (Entry δ)) :
    ∀ p, BackLinks dangling p (es ++ es') ↔
      BackLinks dangling p es ∧ BackLinks dangling (lastAddr p es) es' := by
  induction es with
  | nil =>
      intro p
      simp [BackLinks, lastAddr]
  | cons e es ih =>
      intro p
      show (_ ∧ BackLinks dangling (some e.addr) (es ++ es')) ↔ (_ ∧ _) ∧ _
      rw [ih (some e.addr), and_assoc]
      rfl

/-- Nodes whose `prev` pointers are all right are known by addresses and data. -/
theorem entries_ext {es es' : List (Entry δ)} {p : Option Nat}
    (hb : BackLinks (fun _ => False) p es) (hb' : BackLinks (fun _ => False) p es')
    (haddr : addrs es' = addrs es) (hdata : es'.map Entry.data = es.map Entry.data) :
    es' = es := by
  induction es generalizing es' p with
  | nil => exact List.map_eq_nil_iff.mp haddr
  | cons e es ih =>
      cases es' with
      | nil => exact absurd haddr (by simp)
      | cons e' es' =>
          obtain ⟨ha, has⟩ := List.cons_eq_cons.mp haddr
          obtain ⟨hd, hds⟩ := List.cons_eq_cons.mp hdata
          obtain ⟨hp, hrest⟩ := hb
          obtain ⟨hp', hrest'⟩ := hb'
          have hprev : e'.prev = e.prev := by
            rcases hp with hp | ⟨_, _, hfalse⟩
            · rcases hp' with hp' | ⟨_, _, hfalse⟩
              · rw [hp, hp']
              · exact hfalse.elim
            · exact hfalse.elim
          rw [ha] at hrest'
          rw [ih hrest hrest' has hds]
          obtain ⟨addr, prev, data⟩ := e
          obtain ⟨addr', prev', data'⟩ := e'
          obtain rfl : addr' = addr := ha
          obtain rfl : prev' = prev := hprev
          obtain rfl : data' = data := hd
          rfl

/-- Back links do not depend on the data. -/
theorem backLinks_set_data {dangling : Nat → Prop} {p : Option Nat}
    {es es' : List (Entry δ)} {e : Entry δ} (d : δ) :
    BackLinks dangling p (es ++ { e with data := d } :: es')
      ↔ BackLinks dangling p (es ++ e :: es') := by
  rw [backLinks_append_iff, backLinks_append_iff]
  exact Iff.rfl

/-! ## §6. Loops over a list. -/

/-- How the body of a loop ends. -/
inductive Loop (σ : Type) where
  | continue (s : σ)
  | break (s : σ)

/-- The variables behind the body. -/
def Loop.vars : Loop σ → σ
  | .continue s => s
  | .break s => s

/-- `for (pos = list; pos->next != NULL; pos = pos->next)`.  The last node is
not visited.  The body works on its own variables `s` and on the data of
`*pos`; the result is the heap, the variables and `pos` behind the loop. -/
def forEachList (bad : ε) (body : σ → δ → Except ε (δ × Loop σ)) :
    (fuel : Nat) → Heap δ → (pos : Nat) → σ → Except ε (Heap δ × σ × Nat)
  | 0, _, _, _ => .error bad
  | fuel + 1, h, pos, s =>
      match h.cell pos with
      | none => .error bad
      | some n =>
          match n.next with
          | none => .ok (h, s, pos)
          | some next =>
              match body s n.data with
              | .error e => .error e
              | .ok (d, .break s') =>
                  .ok (h.update pos (fun n => { n with data := d }), s', pos)
              | .ok (d, .continue s') =>
                  forEachList bad body fuel
                    (h.update pos (fun n => { n with data := d })) next s'

/-- What the body keeps of its variables, the loop keeps, on any heap. -/
theorem forEachList_keeps_vars {bad : ε} {body : σ → δ → Except ε (δ × Loop σ)} {P : σ → Prop}
    (hbody : ∀ s d d' l, P s → body s d = .ok (d', l) → P l.vars) (fuel : Nat) :
    ∀ {h h' : Heap δ} {pos q : Nat} {s s' : σ}, P s →
      forEachList bad body fuel h pos s = .ok (h', s', q) → P s' := by
  induction fuel with
  | zero => exact fun _ hrun => absurd hrun (by simp [forEachList])
  | succ fuel ih =>
      intro h h' pos q s s' hs hrun
      unfold forEachList at hrun
      -- the loop ends at a freed node, at the last node, at a failure
      -- of the body or at its break
      cases hcell : h.cell pos with
      | none =>
          rw [hcell] at hrun
          exact absurd hrun (by simp)
      | some n =>
          simp only [hcell] at hrun
          cases hnext : n.next with
          | none =>
              simp only [hnext, Except.ok.injEq, Prod.mk.injEq] at hrun
              exact hrun.2.1 ▸ hs
          | some next =>
              simp only [hnext] at hrun
              cases hd : body s n.data with
              | error e =>
                  rw [hd] at hrun
                  exact absurd hrun (by simp)
              | ok r =>
                  obtain ⟨d, l⟩ := r
                  have hl := hbody s n.data d l hs hd
                  rw [hd] at hrun
                  cases l with
                  | «continue» s₁ => exact ih hl hrun
                  | «break» s₁ =>
                      simp only [Except.ok.injEq, Prod.mk.injEq] at hrun
                      exact hrun.2.1 ▸ hl

/-- The loop on a list of data: the data afterwards, the variables, and the
number of data it went past. -/
def visit (body : σ → δ → Except ε (δ × Loop σ)) :
    σ → List δ → Except ε (List δ × σ × Nat)
  | s, [] => .ok ([], s, 0)
  | s, d :: ds =>
      match body s d with
      | .error e => .error e
      | .ok (d', .break s') => .ok (d' :: ds, s', 0)
      | .ok (d', .continue s') =>
          match visit body s' ds with
          | .error e => .error e
          | .ok (ds', s'', i) => .ok (d' :: ds', s'', i + 1)

/-- The data of a list. -/
def dataOf (es : List (Entry δ)) : List δ := es.map Entry.data

/-- The list with other data. -/
def withData (es : List (Entry δ)) (ds : List δ) : List (Entry δ) :=
  List.zipWith (fun e d => { e with data := d }) es ds

theorem withData_dataOf (es : List (Entry δ)) : withData es (dataOf es) = es := by
  induction es with
  | nil => rfl
  | cons e es ih =>
      show _ :: withData es (dataOf es) = _
      rw [ih]

theorem dataOf_append (es es' : List (Entry δ)) :
    dataOf (es ++ es') = dataOf es ++ dataOf es' := List.map_append

theorem dataOf_withData (es : List (Entry δ)) :
    ∀ ds : List δ, ds.length = es.length → dataOf (withData es ds) = ds := by
  induction es with
  | nil => exact fun ds hlen => (List.length_eq_zero_iff.mp hlen).symm
  | cons e es ih =>
      intro ds hlen
      cases ds with
      | nil => exact absurd hlen (by simp)
      | cons d ds =>
          show d :: dataOf (withData es ds) = d :: ds
          rw [ih ds (by simpa using hlen)]

theorem addrs_withData (es : List (Entry δ)) :
    ∀ ds : List δ, ds.length = es.length → addrs (withData es ds) = addrs es := by
  induction es with
  | nil => exact fun _ _ => rfl
  | cons e es ih =>
      intro ds hlen
      cases ds with
      | nil => exact absurd hlen (by simp)
      | cons d ds =>
          show e.addr :: addrs (withData es ds) = e.addr :: addrs es
          rw [ih ds (by simpa using hlen)]

theorem backLinks_withData {dangling : Nat → Prop} (es es' : List (Entry δ)) :
    ∀ (p : Option Nat) (ds : List δ), ds.length = es.length →
      BackLinks dangling p (es ++ es') → BackLinks dangling p (withData es ds ++ es') := by
  induction es with
  | nil => exact fun _ _ _ hb => hb
  | cons e es ih =>
      intro p ds hlen hb
      cases ds with
      | nil => exact absurd hlen (by simp)
      | cons d ds => exact ⟨hb.1, ih _ ds (by simpa using hlen) hb.2⟩

section Loops

variable (bad : ε) {body : σ → δ → Except ε (δ × Loop σ)}

theorem visit_length {s s' : σ} {ds ds' : List δ} {i : Nat}
    (hv : visit body s ds = .ok (ds', s', i)) :
    ds'.length = ds.length ∧ i ≤ ds.length := by
  induction ds generalizing s s' ds' i with
  | nil =>
      obtain ⟨rfl, -, rfl⟩ : [] = ds' ∧ s = s' ∧ 0 = i := by simpa [visit] using hv
      exact ⟨rfl, Nat.le_refl _⟩
  | cons d ds ih =>
      unfold visit at hv
      cases hb : body s d with
      | error e => simp [hb] at hv
      | ok r =>
          obtain ⟨d', l⟩ := r
          cases l with
          -- the position counts the data in front of the break
          | «break» s₁ =>
              simp only [hb] at hv
              obtain ⟨rfl, -, rfl⟩ : d' :: ds = ds' ∧ s₁ = s' ∧ 0 = i := by
                simpa using hv
              exact ⟨rfl, Nat.zero_le _⟩
          | «continue» s₁ =>
              simp only [hb] at hv
              cases hrest : visit body s₁ ds with
              | error e => simp [hrest] at hv
              | ok r =>
                  obtain ⟨ds₁, s₂, j⟩ := r
                  simp only [hrest] at hv
                  obtain ⟨rfl, -, rfl⟩ : d' :: ds₁ = ds' ∧ s₂ = s' ∧ j + 1 = i := by
                    simpa using hv
                  obtain ⟨hlen, hj⟩ := ih hrest
                  rw [List.length_cons, List.length_cons, hlen]
                  exact ⟨rfl, Nat.succ_le_succ hj⟩

/-- A body that goes on behind every node. -/
theorem visit_map {f : δ → δ} {g : σ → δ → σ} (ds : List δ) :
    ∀ {s : σ}, (∀ s, ∀ d ∈ ds, body s d = .ok (f d, .continue (g s d))) →
      visit body s ds = .ok (ds.map f, ds.foldl g s, ds.length) := by
  induction ds with
  | nil => exact fun _ => rfl
  | cons d ds ih =>
      intro s hbody
      unfold visit
      rw [hbody s d List.mem_cons_self]
      simp only [ih (fun s d' hd' => hbody s d' (List.mem_cons_of_mem _ hd'))]
      rfl

/-- What a body does to the data it is given, the loop does to each element;
what is behind a break is left as it was. -/
theorem visit_related {R : δ → δ → Prop} (hsame : ∀ d, R d d)
    (hbody : ∀ s d d' l, body s d = .ok (d', l) → R d d') (ds : List δ) :
    ∀ {s s' ds' i}, visit body s ds = .ok (ds', s', i) → List.Forall₂ R ds ds' := by
  induction ds with
  | nil =>
      intro s s' ds' i hv
      obtain ⟨rfl, -, -⟩ : [] = ds' ∧ s = s' ∧ 0 = i := by simpa [visit] using hv
      exact .nil
  | cons d ds ih =>
      intro s s' ds' i hv
      unfold visit at hv
      cases hb : body s d with
      | error e => simp [hb] at hv
      | ok r =>
          obtain ⟨d', l⟩ := r
          have hd' := hbody s d d' l hb
          cases l with
          | «break» s₁ =>
              simp only [hb] at hv
              obtain ⟨rfl, -, -⟩ : d' :: ds = ds' ∧ s₁ = s' ∧ 0 = i := by
                simpa using hv
              exact .cons hd' (List.forall₂_same.mpr fun d _ => hsame d)
          | «continue» s₁ =>
              simp only [hb] at hv
              cases hv' : visit body s₁ ds with
              | error e => simp [hv'] at hv
              | ok r =>
                  obtain ⟨ds₁, s₂, j⟩ := r
                  simp only [hv'] at hv
                  obtain ⟨rfl, -, -⟩ : d' :: ds₁ = ds' ∧ s₂ = s' ∧ j + 1 = i := by
                    simpa using hv
                  exact .cons hd' (ih hv')

/-- A body that keeps good data good. -/
theorem visit_keeps {good : δ → Prop}
    (hbody : ∀ s d d' l, good d → body s d = .ok (d', l) → good d') (ds : List δ)
    {s s' : σ} {ds' : List δ} {i : Nat} (hv : visit body s ds = .ok (ds', s', i))
    (hgood : ∀ d ∈ ds, good d) : ∀ d ∈ ds', good d := by
  have hkept := visit_related (R := fun d d' => good d → good d') (fun _ hd => hd)
    (fun s d d' l hb hd => hbody s d d' l hd hb) ds hv
  have hboth := (List.forall₂_and_left ds ds').mpr ⟨hgood, hkept⟩
  have hall : List.Forall₂ (fun d' _ => good d' ∧ True) ds' ds :=
    .flip (hboth.imp fun _ _ h => ⟨h.2 h.1, trivial⟩)
  exact ((List.forall₂_and_left ds' ds).mp hall).1

/-- A body that changes nothing that is visible of good data. -/
theorem visit_view {β : Type} {good : δ → Prop} {view : δ → β}
    (hbody : ∀ s d d' l, good d → body s d = .ok (d', l) → view d' = view d) (ds : List δ)
    {s s' : σ} {ds' : List δ} {i : Nat} (hv : visit body s ds = .ok (ds', s', i))
    (hgood : ∀ d ∈ ds, good d) : ds'.map view = ds.map view := by
  have hsame := visit_related (R := fun d d' => good d → view d' = view d) (fun _ _ => rfl)
    (fun s d d' l hb hd => hbody s d d' l hd hb) ds hv
  have hboth := (List.forall₂_and_left ds ds').mpr ⟨hgood, hsame⟩
  have hmap : List.Forall₂ (· = ·) (ds.map view) (ds'.map view) := by
    rw [List.forall₂_map_left_iff, List.forall₂_map_right_iff]
    exact hboth.imp fun _ _ h => (h.2 h.1).symm
  rw [List.forall₂_eq_eq_eq] at hmap
  exact hmap.symm

/-- A body that is defined on good data and keeps it good. -/
theorem visit_returns {good : δ → Prop}
    (hbody : ∀ s d, good d → ∃ d' l, body s d = .ok (d', l) ∧ good d') (ds : List δ) :
    ∀ s, (∀ d ∈ ds, good d) → ∃ ds' s' i, visit body s ds = .ok (ds', s', i) := by
  induction ds with
  | nil => exact fun s _ => ⟨[], s, 0, rfl⟩
  | cons d ds ih =>
      intro s hgood
      obtain ⟨d', l, hb, -⟩ := hbody s d (hgood d List.mem_cons_self)
      unfold visit
      cases l with
      | «break» s' => exact ⟨d' :: ds, s', 0, by simp only [hb]⟩
      | «continue» s' =>
          obtain ⟨ds', s'', i, hv⟩ :=
            ih s' (fun d' hd' => hgood d' (List.mem_cons_of_mem _ hd'))
          exact ⟨d' :: ds', s'', i + 1, by simp only [hb, hv]⟩

/-- `h'` has the nodes of `h`; only the nodes at `as` may differ. -/
structure SameNodes (h h' : Heap δ) (as : List Nat) : Prop where
  fresh : h'.fresh = h.fresh
  cell : ∀ a, a ∉ as → h'.cell a = h.cell a
  dead : ∀ a, h'.cell a = none ↔ h.cell a = none

theorem SameNodes.refl (h : Heap δ) (as : List Nat) : SameNodes h h as where
  fresh := rfl
  cell := fun _ _ => rfl
  dead := fun _ => Iff.rfl

theorem SameNodes.update (h : Heap δ) {a : Nat} {as : List Nat} (ha : a ∈ as)
    (f : Node δ → Node δ) : SameNodes h (h.update a f) as where
  fresh := rfl
  cell := fun x hx => h.update_cell_ne (fun (hxa : x = a) => hx (hxa ▸ ha)) f
  dead := fun _ => Heap.update_cell_eq_none

theorem SameNodes.trans {h₁ h₂ h₃ : Heap δ} {as : List Nat}
    (h : SameNodes h₁ h₂ as) (h' : SameNodes h₂ h₃ as) : SameNodes h₁ h₃ as where
  fresh := h'.fresh.trans h.fresh
  cell := fun a ha => (h'.cell a ha).trans (h.cell a ha)
  dead := fun a => (h'.dead a).trans (h.dead a)

theorem SameNodes.mono {h h' : Heap δ} {as as' : List Nat} (hs : SameNodes h h' as)
    (hsub : ∀ a ∈ as, a ∈ as') : SameNodes h h' as' where
  fresh := hs.fresh
  cell := fun a ha => hs.cell a (fun hmem => ha (hsub a hmem))
  dead := hs.dead

theorem SameNodes.freed_iff {h h' : Heap δ} {as : List Nat} (hs : SameNodes h h' as)
    (a : Nat) : h'.Freed a ↔ h.Freed a := by
  unfold Heap.Freed
  rw [hs.fresh, hs.dead a]

/-- Other data, the same first node. -/
theorem firstAddr_withData {es : List (Entry δ)} {ds : List δ} (t : Entry δ)
    (hlen : ds.length = es.length) (q : Option Nat) :
    firstAddr (withData es ds ++ [t]) q = firstAddr (es ++ [t]) q := by
  cases es with
  | nil => rfl
  | cons e es =>
      cases ds with
      | nil => exact absurd hlen (by simp)
      | cons d ds => rfl

/-- The first step of a loop over a list went on, and the rest of the loop
returned: the list behind the first node has its new data. -/
theorem chain_withData_cons {h h' : Heap δ} {e t : Entry δ} {es : List (Entry δ)}
    {ds : List δ} {d : δ} {next : Option Nat} (hnotin : e.addr ∉ addrs (es ++ [t]))
    (hlen : ds.length = es.length) (hnext : firstAddr (es ++ [t]) none = next)
    (hfirst : h.cell e.addr = some ⟨e.prev, next, d⟩)
    (hc : Chain h' (withData es ds ++ [t]) none) (hsame : SameNodes h h' (addrs es)) :
    Chain h' (withData (e :: es) (d :: ds) ++ [t]) none := by
  have hkept : h'.cell e.addr = some ⟨e.prev, next, d⟩ := by
    rw [hsame.cell e.addr (fun hmem => hnotin (by simp [hmem])), hfirst]
  show _ ∧ Chain h' (withData es ds ++ [t]) none
  refine ⟨?_, hc⟩
  show h'.cell e.addr = some ⟨e.prev, firstAddr (withData es ds ++ [t]) none, d⟩
  rw [firstAddr_withData t hlen, hnext, hkept]

/-- **A loop is a fold.**  Over a list with the last node `t`, the loop does to
the data what `visit` does, stops at the node `visit` stops at, and changes
nothing else. -/
theorem forEachList_chain {t : Entry δ} (es : List (Entry δ)) :
    ∀ (fuel : Nat) (h : Heap δ) (s : σ) (pos : Nat),
      Chain h (es ++ [t]) none → (addrs (es ++ [t])).Nodup → es.length < fuel →
      firstAddr (es ++ [t]) none = some pos →
      (∀ e, visit body s (dataOf es) = .error e →
        forEachList bad body fuel h pos s = .error e) ∧
      (∀ ds s' i, visit body s (dataOf es) = .ok (ds, s', i) →
        ∃ h', forEachList bad body fuel h pos s
            = .ok (h', s', (addrs (es ++ [t])).getD i 0) ∧
          Chain h' (withData es ds ++ [t]) none ∧ SameNodes h h' (addrs es)) := by
  induction es with
  | nil =>
      intro fuel h s pos hc _ hfuel hpos
      obtain ⟨fuel, rfl⟩ := Nat.exists_eq_succ_of_ne_zero (n := fuel) (by
        rw [List.length_nil] at hfuel
        omega)
      obtain rfl : t.addr = pos := by simpa using hpos
      obtain ⟨ht, -⟩ := hc
      refine ⟨fun e he => absurd he (by simp [visit, dataOf]), ?_⟩
      intro ds s' i hv
      obtain ⟨rfl, rfl, rfl⟩ : [] = ds ∧ s = s' ∧ 0 = i := by
        simpa [visit, dataOf] using hv
      refine ⟨h, ?_, ⟨ht, trivial⟩, SameNodes.refl h _⟩
      unfold forEachList
      rw [ht]
      rfl
  | cons e es ih =>
      intro fuel h s pos hc hnd hfuel hpos
      obtain ⟨fuel, rfl⟩ := Nat.exists_eq_succ_of_ne_zero (n := fuel) (by
        rw [List.length_cons] at hfuel
        omega)
      obtain rfl : e.addr = pos := by simpa using hpos
      rw [List.cons_append] at hc hnd
      have hnode := hc.1
      rw [addrs_cons, List.nodup_cons] at hnd
      obtain ⟨hnotin, hnd'⟩ := hnd
      obtain ⟨next, hnext⟩ : ∃ next, firstAddr (es ++ [t]) none = some next := by
        cases es with
        | nil => exact ⟨t.addr, rfl⟩
        | cons e' es => exact ⟨e'.addr, rfl⟩
      rw [hnext] at hnode
      -- what a store to the data of the first node does
      have hstore : ∀ d, Chain (h.update e.addr (fun n => { n with data := d }))
          (es ++ [t]) none := fun d => chain_update hnotin _ hc.2
      have hfirst : ∀ d, (h.update e.addr (fun n => { n with data := d })).cell e.addr
          = some ⟨e.prev, some next, d⟩ := fun d => Heap.update_cell_self hnode _
      show (∀ er, visit body s (e.data :: dataOf es) = .error er → _) ∧
        (∀ ds s' i, visit body s (e.data :: dataOf es) = .ok (ds, s', i) → _)
      unfold forEachList visit
      simp only [hnode]
      cases hb : body s e.data with
      | error er =>
          refine ⟨fun er' her => ?_, fun ds s' i hv => absurd hv (by simp)⟩
          simpa using her
      | ok r =>
          obtain ⟨d, l⟩ := r
          cases l with
          | «break» s₁ =>
              refine ⟨fun er her => absurd her (by simp), ?_⟩
              intro ds s' i hv
              obtain ⟨rfl, rfl, rfl⟩ : d :: dataOf es = ds ∧ s₁ = s' ∧ 0 = i := by
                simpa using hv
              have hdata : withData (e :: es) (d :: dataOf es) ++ [t]
                  = { e with data := d } :: (es ++ [t]) := by
                show _ :: (withData es (dataOf es) ++ [t]) = _
                rw [withData_dataOf]
              refine ⟨_, rfl, ?_, ?_⟩
              · rw [hdata, chain_cons_iff, hnext]
                exact ⟨hfirst d, hstore d⟩
              · exact SameNodes.update h List.mem_cons_self _
          | «continue» s₁ =>
              have hlen : es.length < fuel := by
                rw [List.length_cons] at hfuel
                omega
              obtain ⟨iherr, ihok⟩ := ih fuel _ s₁ next (hstore d) hnd' hlen hnext
              cases hrest : visit body s₁ (dataOf es) with
              | error er =>
                  simp only [hrest]
                  refine ⟨fun er' her => ?_, fun ds s' i hv => absurd hv (by simp)⟩
                  rw [← Except.error.inj her]
                  exact iherr er hrest
              | ok r =>
                  obtain ⟨ds₁, s₂, j⟩ := r
                  simp only [hrest]
                  refine ⟨fun er her => absurd her (by simp), ?_⟩
                  intro ds s' i hv
                  obtain ⟨rfl, rfl, rfl⟩ : d :: ds₁ = ds ∧ s₂ = s' ∧ j + 1 = i := by
                    simpa using hv
                  obtain ⟨h', hrun, hc', hsame⟩ := ihok ds₁ s₂ j hrest
                  have hlen₁ : ds₁.length = es.length := by
                    have hcount := (visit_length hrest).1
                    unfold dataOf at hcount
                    rwa [List.length_map] at hcount
                  refine ⟨h', hrun, ?_, ?_⟩
                  · apply chain_withData_cons hnotin hlen₁ hnext (hfirst d) hc' hsame
                  · exact (SameNodes.update h List.mem_cons_self _).trans
                      (hsame.mono (fun a ha => List.mem_cons_of_mem _ ha))

end Loops

/-! ## §7. A list with a static head. -/

/-- The nodes found by following `next` pointers from `head`. -/
inductive Reach (h : Heap δ) (head : Nat) : Nat → Prop where
  | head : Reach h head head
  | next {a b : Nat} {n : Node δ} : Reach h head a → h.cell a = some n → n.next = some b →
      Reach h head b

/-- The data of the nodes, read by following the `next` pointers; the last
node is left out. -/
def readData (h : Heap δ) : (fuel : Nat) → (pos : Nat) → List δ
  | 0, _ => []
  | fuel + 1, pos =>
      match h.cell pos with
      | none => []
      | some n =>
          match n.next with
          | none => []
          | some next => n.data :: readData h fuel next

theorem readData_chain {h : Heap δ} {t : Entry δ} (es : List (Entry δ)) :
    ∀ (fuel pos : Nat), Chain h (es ++ [t]) none → es.length < fuel →
      firstAddr (es ++ [t]) none = some pos → readData h fuel pos = dataOf es := by
  induction es with
  | nil =>
      intro fuel pos hc hfuel hpos
      obtain ⟨fuel, rfl⟩ : ∃ k, fuel = k + 1 := ⟨fuel - 1, by omega⟩
      obtain rfl : t.addr = pos := by simpa using hpos
      unfold readData
      rw [hc.1]
      rfl
  | cons e es ih =>
      intro fuel pos hc hfuel hpos
      rw [List.length_cons] at hfuel
      obtain ⟨fuel, rfl⟩ : ∃ k, fuel = k + 1 := ⟨fuel - 1, by omega⟩
      obtain rfl : e.addr = pos := by simpa using hpos
      rw [List.cons_append, chain_cons_iff] at hc
      obtain ⟨hnode, hrest⟩ := hc
      obtain ⟨next, hnext⟩ : ∃ next, firstAddr (es ++ [t]) none = some next := by
        cases es with
        | nil => exact ⟨t.addr, rfl⟩
        | cons e' es => exact ⟨e'.addr, rfl⟩
      unfold readData
      rw [hnode, hnext]
      show e.data :: readData h fuel next = e.data :: dataOf es
      rw [ih fuel next hrest (by omega) hnext]

/-- The list of `es`, with the last node `t`, starts at `head`; its `prev`
pointers are right but for some that lead to freed nodes. -/
structure Linked (head : Nat) (dangling : Nat → Prop) (h : Heap δ)
    (es : List (Entry δ)) (t : Entry δ) : Prop where
  chain : Chain h (es ++ [t]) none
  nodup : (addrs (es ++ [t])).Nodup
  first : firstAddr (es ++ [t]) none = some head
  back : BackLinks dangling none (es ++ [t])
  freed : ∀ a, dangling a → h.Freed a

namespace Linked

variable {head : Nat} {dangling : Nat → Prop} {h : Heap δ} {t : Entry δ}

/-- A loop over the list. -/
theorem forEach (bad : ε) {body : σ → δ → Except ε (δ × Loop σ)} {es : List (Entry δ)}
    (hl : Linked head dangling h es t) {fuel : Nat} (hfuel : h.fresh < fuel) {s s' : σ}
    {ds : List δ} {i : Nat} (hv : visit body s (dataOf es) = .ok (ds, s', i)) :
    ∃ h', forEachList bad body fuel h head s
        = .ok (h', s', (addrs (es ++ [t])).getD i 0) ∧
      Linked head dangling h' (withData es ds) t ∧ SameNodes h h' (addrs es) := by
  have hlen : es.length < fuel := by
    have hle := chain_length_le hl.chain hl.nodup
    rw [List.length_append, List.length_singleton] at hle
    omega
  -- the run on the chain, with the fuel the number of nodes needs
  obtain ⟨h', hrun, hchain, hsame⟩ :=
    (forEachList_chain bad es fuel h s head hl.chain hl.nodup hlen hl.first).2
      ds s' i hv
  have hds : ds.length = es.length := by
    have hcount := (visit_length hv).1
    unfold dataOf at hcount
    rwa [List.length_map] at hcount
  -- only data have changed, so addresses and `prev` pointers carry over
  have haddrs : addrs (withData es ds ++ [t]) = addrs (es ++ [t]) := by
    rw [addrs_append, addrs_append, addrs_withData es ds hds]
  refine ⟨h', hrun, ⟨hchain, ?_, ?_, ?_, ?_⟩, hsame⟩
  · rw [haddrs]
    exact hl.nodup
  · have hfirst := hl.first
    cases es with
    | nil => exact hfirst
    | cons e es =>
        cases ds with
        | nil => exact absurd hds (by simp)
        | cons d ds => exact hfirst
  · exact backLinks_withData es [t] none ds hds hl.back
  · exact fun a ha => (hsame.freed_iff a).mpr (hl.freed a ha)

/-- A loop whose body fails. -/
theorem forEach_error (bad : ε) {body : σ → δ → Except ε (δ × Loop σ)} {es : List (Entry δ)}
    (hl : Linked head dangling h es t) {fuel : Nat} (hfuel : h.fresh < fuel) {s : σ} {e : ε}
    (hv : visit body s (dataOf es) = .error e) :
    forEachList bad body fuel h head s = .error e := by
  have hlen : es.length < fuel := by
    have hle := chain_length_le hl.chain hl.nodup
    rw [List.length_append, List.length_singleton] at hle
    omega
  exact (forEachList_chain bad es fuel h s head hl.chain hl.nodup hlen hl.first).1 e hv

theorem last_notin {es : List (Entry δ)} (hl : Linked head dangling h es t) :
    t.addr ∉ addrs es := by
  have hnd := hl.nodup
  rw [addrs_append, List.nodup_append] at hnd
  exact fun hmem => hnd.2.2 t.addr hmem t.addr (by simp) rfl

/-- The last node. -/
theorem last_cell {es : List (Entry δ)} (hl : Linked head dangling h es t) :
    h.cell t.addr = some ⟨t.prev, none, t.data⟩ :=
  ((chain_append_iff es [t] none).mp hl.chain).2.1

/-- A node before the last one. -/
theorem cell {es es' : List (Entry δ)} {e : Entry δ}
    (hl : Linked head dangling h (es ++ e :: es') t) :
    h.cell e.addr = some ⟨e.prev, firstAddr (es' ++ [t]) none, e.data⟩ := by
  have hc := hl.chain
  rw [List.append_assoc, List.cons_append, chain_append_iff] at hc
  exact hc.2.1

/-- The first node, if it is not the last one. -/
theorem head_cell {es : List (Entry δ)} {e : Entry δ}
    (hl : Linked head dangling h (e :: es) t) :
    e.addr = head ∧ h.cell head = some ⟨e.prev, firstAddr (es ++ [t]) none, e.data⟩ := by
  have hhead : e.addr = head := by simpa using hl.first
  refine ⟨hhead, ?_⟩
  rw [← hhead]
  exact hl.chain.1

/-- The only node. -/
theorem only_cell (hl : Linked head dangling h [] t) :
    t.addr = head ∧ h.cell head = some ⟨t.prev, none, t.data⟩ := by
  have hhead : t.addr = head := by simpa using hl.first
  refine ⟨hhead, ?_⟩
  rw [← hhead]
  exact hl.last_cell

/-- The nodes behind the first one are not the head. -/
theorem ne_head {pre rest : List (Entry δ)} {p e : Entry δ}
    (hl : Linked head dangling h (pre ++ p :: e :: rest) t) : e.addr ≠ head := by
  have hfirst := hl.first
  have hnd := hl.nodup
  intro he
  cases pre with
  | nil =>
      have hp : p.addr = head := by simpa using hfirst
      rw [List.nil_append, List.cons_append, addrs_cons, List.nodup_cons] at hnd
      apply hnd.1
      rw [hp, ← he]
      simp
  | cons q pre =>
      have hq : q.addr = head := by simpa using hfirst
      rw [List.cons_append, List.cons_append, addrs_cons, List.nodup_cons] at hnd
      apply hnd.1
      rw [hq, ← he]
      simp

/-- The `prev` pointer of a node behind the first one. -/
theorem prev_eq {pre rest : List (Entry δ)} {p e : Entry δ}
    (hl : Linked head dangling h (pre ++ p :: e :: rest) t) :
    e.prev = some p.addr ∨ ∃ a, e.prev = some a ∧ dangling a := by
  have hback := hl.back
  rw [List.append_assoc, backLinks_append_iff] at hback
  exact hback.2.2.1

theorem set_data {es es' : List (Entry δ)} {e : Entry δ}
    (hl : Linked head dangling h (es ++ e :: es') t) (d : δ) :
    Linked head dangling (h.update e.addr (fun n => { n with data := d }))
      (es ++ { e with data := d } :: es') t := by
  have hsplit : ∀ e : Entry δ, (es ++ e :: es') ++ [t] = es ++ e :: (es' ++ [t]) := by
    intro e
    rw [List.append_assoc, List.cons_append]
  have hc := hl.chain
  have hnd := hl.nodup
  have hback := hl.back
  have hfirst := hl.first
  rw [hsplit] at hc hnd hback hfirst
  refine ⟨?_, ?_, ?_, ?_, ?_⟩
  · rw [hsplit]
    exact chain_set_data hnd d hc
  · rw [hsplit, addrs_append, addrs_cons]
    rw [addrs_append, addrs_cons] at hnd
    exact hnd
  · rw [hsplit, firstAddr_append]
    rw [firstAddr_append] at hfirst
    exact hfirst
  · rw [hsplit]
    exact (backLinks_set_data d).mpr hback
  · intro a ha
    obtain ⟨hlt, hnone⟩ := hl.freed a ha
    exact ⟨hlt, Heap.update_cell_eq_none.mpr hnone⟩

theorem set_last {es : List (Entry δ)} (hl : Linked head dangling h es t) (d : δ) :
    Linked head dangling (h.update t.addr (fun n => { n with data := d })) es
      { t with data := d } := by
  have hfirst := hl.first
  refine ⟨chain_set_data hl.nodup d hl.chain, ?_, ?_, ?_, ?_⟩
  · have hnd := hl.nodup
    rw [addrs_append] at hnd ⊢
    exact hnd
  · rw [firstAddr_append] at hfirst ⊢
    exact hfirst
  · exact (backLinks_set_data d).mpr hl.back
  · intro a ha
    obtain ⟨hlt, hnone⟩ := hl.freed a ha
    exact ⟨hlt, Heap.update_cell_eq_none.mpr hnone⟩

/-- Node number `i`. -/
theorem getD_split {es : List (Entry δ)} {i : Nat} (hi : i < es.length) (t : Entry δ) :
    ∃ pre e post, es = pre ++ e :: post ∧ pre.length = i ∧
      (addrs (es ++ [t])).getD i 0 = e.addr := by
  refine ⟨es.take i, es[i], es.drop (i + 1), ?_, ?_, ?_⟩
  · rw [List.getElem_cons_drop, List.take_append_drop]
  · rw [List.length_take]
    omega
  · unfold addrs
    rw [List.getD_eq_getElem?_getD, List.getElem?_map, List.getElem?_append_left hi,
      List.getElem?_eq_getElem hi]
    rfl

/-- A store to the data of node number `i`. -/
theorem set_getD {es : List (Entry δ)} (hl : Linked head dangling h es t) {i : Nat}
    (hi : i < es.length) (d : δ) :
    ∃ es' n, h.cell ((addrs (es ++ [t])).getD i 0) = some n ∧
      (dataOf es)[i]? = some n.data ∧
      Linked head dangling (h.update ((addrs (es ++ [t])).getD i 0)
        (fun n => { n with data := d })) es' t ∧
      dataOf es' = (dataOf es).set i d := by
  obtain ⟨pre, e, post, rfl, hlen, haddr⟩ := getD_split hi t
  -- the node number `i` is the one behind `pre`
  refine ⟨pre ++ { e with data := d } :: post,
    ⟨e.prev, firstAddr (post ++ [t]) none, e.data⟩, ?_, ?_, ?_, ?_⟩
  · rw [haddr]
    exact hl.cell
  · rw [dataOf_append]
    have hlen' : (dataOf pre).length = i := by
      unfold dataOf
      rw [List.length_map, hlen]
    show (dataOf pre ++ e.data :: dataOf post)[i]? = some e.data
    rw [← hlen']
    simp
  · rw [haddr]
    exact hl.set_data d
  · rw [dataOf_append, dataOf_append]
    have hlen' : (dataOf pre).length = i := by
      unfold dataOf
      rw [List.length_map, hlen]
    show dataOf pre ++ d :: dataOf post = (dataOf pre ++ e.data :: dataOf post).set i d
    rw [← hlen']
    simp

/-- A new last node. -/
theorem append {h' : Heap δ} {es : List (Entry δ)} {d : δ}
    (hl : Linked head dangling h es t) (hfresh : h'.fresh = h.fresh + 1)
    (hold : ∀ a, a ≠ t.addr → a ≠ h.fresh → h'.cell a = h.cell a)
    (hlast : h'.cell t.addr = some ⟨t.prev, some h.fresh, t.data⟩)
    (hnew : h'.cell h.fresh = some ⟨some t.addr, none, d⟩) :
    Linked head dangling h' (es ++ [t]) ⟨h.fresh, some t.addr, d⟩ := by
  have hnot := chain_fresh hl.chain
  -- the new node is not one of the old ones
  have hnotes : h.fresh ∉ addrs es := by
    intro hmem
    apply hnot
    rw [addrs_append]
    exact List.mem_append_left _ hmem
  refine ⟨chain_append hl.chain ?_ hlast hnew, ?_, ?_, ?_, ?_⟩
  -- a freed node is neither the old last node nor the new one
  · intro a ha
    exact hold a (fun hat => hl.last_notin (hat ▸ ha)) (fun haf => hnotes (haf ▸ ha))
  · rw [addrs_append, List.nodup_append]
    refine ⟨hl.nodup, by simp, ?_⟩
    intro a ha b hb
    obtain rfl : b = h.fresh := by simpa using hb
    exact fun hab => hnot (hab ▸ ha)
  · rw [firstAddr_append, firstAddr_append]
    have hfirst := hl.first
    rw [firstAddr_append] at hfirst
    exact hfirst
  · rw [backLinks_append_iff]
    refine ⟨hl.back, ?_, trivial⟩
    rw [lastAddr_concat]
    exact .inl rfl
  · intro a ha
    obtain ⟨hlt, hnone⟩ := hl.freed a ha
    have hat : a ≠ t.addr := by
      intro hat
      rw [hat, hl.last_cell] at hnone
      exact absurd hnone (by simp)
    refine ⟨by omega, ?_⟩
    rw [hold a hat (by omega), hnone]

/-- Change the `prev` pointer of the first of the nodes `es`, `t`. -/
theorem exists_set_first_prev (es : List (Entry δ)) (t : Entry δ) (p : Option Nat) :
    ∃ f es₁ es' t', es ++ [t] = f :: es₁ ∧ es' ++ [t'] = { f with prev := p } :: es₁ ∧
      dataOf es' = dataOf es ∧ t'.data = t.data := by
  cases es with
  | nil => exact ⟨t, [], [], { t with prev := p }, rfl, rfl, rfl, rfl⟩
  | cons e es => exact ⟨e, es ++ [t], { e with prev := p } :: es, t, rfl, rfl, rfl, rfl⟩

/-- **Unlinking.**  The node behind `p` is taken out and freed.  The `prev`
pointer of the node `f` that follows is changed; the data stay. -/
theorem unlink {es rest : List (Entry δ)} {p e : Entry δ}
    (hl : Linked head dangling h (es ++ p :: e :: rest) t) (hprev : e.prev = some p.addr) :
    ∃ f rest' t', firstAddr (rest ++ [t]) none = some f ∧
      firstAddr (rest' ++ [t']) none = some f ∧
      dataOf rest' = dataOf rest ∧ t'.data = t.data ∧
      Linked head dangling (((h.update p.addr (fun n => { n with next := some f })).update f
        (fun n => { n with prev := e.prev })).free e.addr) (es ++ p :: rest') t' := by
  obtain ⟨f, es₁, rest', t', hrest, hrest', hdata, htail⟩ :=
    exists_set_first_prev rest t e.prev
  have hsplit : (es ++ p :: e :: rest) ++ [t] = es ++ p :: e :: f :: es₁ := by
    rw [List.append_assoc, List.cons_append, List.cons_append, hrest]
  have hsplit' : (es ++ p :: rest') ++ [t'] = es ++ p :: { f with prev := e.prev } :: es₁ := by
    rw [List.append_assoc, List.cons_append, hrest']
  have hc := hl.chain
  have hnd := hl.nodup
  have hback := hl.back
  have hfirst := hl.first
  rw [hsplit] at hc hnd hback hfirst
  -- `f` is the node behind `e`, of the rest or the last one
  refine ⟨f.addr, rest', t', ?_, ?_, hdata, htail, ?_, ?_, ?_, ?_, ?_⟩
  · rw [hrest]
    rfl
  · rw [hrest']
    rfl
  · rw [hsplit']
    exact chain_unlink hnd hc
  · rw [hsplit']
    refine List.Nodup.sublist ?_ hnd
    rw [addrs_append, addrs_append]
    exact List.Sublist.append_left
      (List.Sublist.cons_cons _ (List.sublist_cons_self _ _)) _
  · rw [hsplit', firstAddr_append]
    rw [firstAddr_append] at hfirst
    exact hfirst
  · rw [hsplit']
    rw [backLinks_append_iff] at hback ⊢
    obtain ⟨hleft, hp, -, -, hright⟩ := hback
    exact ⟨hleft, hp, .inl hprev, hright⟩
  · intro a ha
    obtain ⟨hlt, hnone⟩ := hl.freed a ha
    refine ⟨hlt, ?_⟩
    -- the node taken out is freed now, the others stay freed
    by_cases hae : a = e.addr
    · rw [hae]
      exact if_pos rfl
    · rw [Heap.free_cell_ne _ hae, Heap.update_cell_eq_none, Heap.update_cell_eq_none]
      exact hnone

/-- The stores of an unlinking go through. -/
theorem unlink_stores (bad : ε) {es rest : List (Entry δ)} {p e : Entry δ}
    (hl : Linked head dangling h (es ++ p :: e :: rest) t) (hprev : e.prev = some p.addr) :
    ∃ f rest' t' h₁ h₂ h₃, h.cell e.addr = some ⟨some p.addr, some f, e.data⟩ ∧
      modify bad h p.addr (fun n => { n with next := some f }) = .ok h₁ ∧
      modify bad h₁ f (fun n => { n with prev := some p.addr }) = .ok h₂ ∧
      release bad h₂ e.addr = .ok h₃ ∧
      Linked head dangling h₃ (es ++ p :: rest') t' ∧
      firstAddr (rest' ++ [t']) none = some f ∧
      dataOf rest' = dataOf rest ∧ t'.data = t.data := by
  obtain ⟨f, rest', t', hf, hf', hdata, htail, hl'⟩ := hl.unlink hprev
  have hl₁ : Linked head dangling h ((es ++ [p]) ++ e :: rest) t := by
    simpa using hl
  have hcell := hl₁.cell
  rw [hf] at hcell
  have hfmem : f ∈ addrs (es ++ p :: e :: rest ++ [t]) := by
    cases rest with
    | nil =>
        obtain rfl : t.addr = f := by simpa using hf
        simp
    | cons r rest =>
        obtain rfl : r.addr = f := by simpa using hf
        simp
  -- the nodes are there when they are stored to
  obtain ⟨nf, hnf⟩ := chain_mem hl.chain hfmem
  obtain ⟨nf₁, hnf₁⟩ := Heap.update_live hnf p.addr (fun n => { n with next := some f })
  obtain ⟨ne₁, hne₁⟩ := Heap.update_live hcell p.addr (fun n => { n with next := some f })
  obtain ⟨ne₂, hne₂⟩ := Heap.update_live hne₁ f (fun n => { n with prev := some p.addr })
  rw [hprev] at hcell hl'
  exact ⟨f, rest', t', _, _, _, hcell, modify_eq hl.cell _, modify_eq hnf₁ _,
    release_eq hne₂, hl', hf', hdata, htail⟩

theorem readData_eq {es : List (Entry δ)} (hl : Linked head dangling h es t) :
    readData h (h.fresh + 1) head = dataOf es := by
  have hlen := chain_length_le hl.chain hl.nodup
  rw [List.length_append, List.length_singleton] at hlen
  exact readData_chain es _ head hl.chain (by omega) hl.first

/-- What is reached is a node of the list. -/
theorem split_of_reach {es : List (Entry δ)} (hl : Linked head dangling h es t) {a : Nat}
    (hr : Reach h head a) :
    ∃ pre e post, es ++ [t] = pre ++ e :: post ∧ e.addr = a ∧
      h.cell a = some ⟨e.prev, firstAddr post none, e.data⟩ := by
  have hcell : ∀ {pre post : List (Entry δ)} {e : Entry δ}, es ++ [t] = pre ++ e :: post →
      h.cell e.addr = some ⟨e.prev, firstAddr post none, e.data⟩ := by
    intro pre post e hsplit
    have hc := hl.chain
    rw [hsplit, chain_append_iff] at hc
    exact hc.2.1
  -- along the `next` pointers; a node that is reached splits the list
  induction hr with
  | head =>
      have hfirst := hl.first
      cases hes : es ++ [t] with
      | nil => exact absurd hes (by simp)
      | cons e post =>
          rw [hes] at hfirst
          obtain rfl : e.addr = head := by simpa using hfirst
          exact ⟨[], e, post, rfl, rfl, @hcell [] post e hes⟩
  | next _ hn hnext ih =>
      obtain ⟨pre, e, post, hsplit, -, hnode⟩ := ih
      rw [hnode] at hn
      obtain rfl := Option.some.inj hn
      cases post with
      | nil => exact absurd hnext (by simp [firstAddr])
      | cons f post =>
          obtain rfl := Option.some.inj hnext
          have hsplit' : es ++ [t] = (pre ++ [e]) ++ f :: post := by
            rw [hsplit]
            simp
          exact ⟨pre ++ [e], f, post, hsplit', rfl, hcell hsplit'⟩

/-- Every node of the list is reached. -/
theorem reach_of_split {es : List (Entry δ)} (hl : Linked head dangling h es t)
    (pre : List (Entry δ)) :
    ∀ {e : Entry δ} {post : List (Entry δ)}, es ++ [t] = pre ++ e :: post →
      Reach h head e.addr := by
  induction pre using List.reverseRecOn with
  | nil =>
      intro e post hsplit
      have hfirst := hl.first
      rw [hsplit] at hfirst
      obtain rfl : e.addr = head := by simpa using hfirst
      exact .head
  | append_singleton pre p ih =>
      intro e post hsplit
      have hsplit' : es ++ [t] = pre ++ p :: (e :: post) := by
        rw [hsplit]
        simp
      have hc := hl.chain
      rw [hsplit', chain_append_iff] at hc
      exact .next (ih hsplit') hc.2.1 rfl

end Linked

/-! ## §8. Addresses. -/

/-- The live nodes at the addresses `as`, in order, are a doubly linked list
from `head` on. -/
structure DoublyLinked (h : Heap δ) (head : Nat) (as : List Nat) : Prop where
  first : as.head? = some head
  nodup : as.Nodup
  next : ∀ i a, as[i]? = some a → ∃ n, h.cell a = some n ∧ n.next = as[i + 1]?
  prev : ∀ i a b n, as[i]? = some a → as[i + 1]? = some b → h.cell b = some n →
    n.prev = some a

section Addresses

variable {head : Nat} {dangling : Nat → Prop} {h : Heap δ} {es : List (Entry δ)} {t : Entry δ}

theorem firstAddr_eq_head? (es : List (Entry δ)) : firstAddr es none = (addrs es).head? := by
  cases es with
  | nil => rfl
  | cons e es => rfl

/-- The entry at an address of the list. -/
theorem exists_entry {i a : Nat} (ha : (addrs es)[i]? = some a) :
    ∃ pre e post, es = pre ++ e :: post ∧ pre.length = i ∧ e.addr = a := by
  unfold addrs at ha
  rw [List.getElem?_map] at ha
  obtain ⟨e, he, rfl⟩ := Option.map_eq_some_iff.mp ha
  obtain ⟨hi, rfl⟩ := List.getElem?_eq_some_iff.mp he
  refine ⟨es.take i, es[i], es.drop (i + 1), ?_, ?_, rfl⟩
  · rw [List.getElem_cons_drop, List.take_append_drop]
  · rw [List.length_take]
    omega

theorem addrs_behind (pre : List (Entry δ)) (e : Entry δ) (post : List (Entry δ)) :
    (addrs (pre ++ e :: post))[pre.length + 1]? = (addrs post).head? := by
  have hlen : (addrs pre).length = pre.length := List.length_map _
  have hsub : pre.length + 1 - pre.length = 1 := by omega
  rw [addrs_append, addrs_cons, List.getElem?_append_right (by omega), hlen, hsub,
    List.head?_eq_getElem?]
  rfl

/-- The node at a position of the list. -/
theorem Linked.entry (hl : Linked head dangling h es t) {i a : Nat}
    (ha : (addrs (es ++ [t]))[i]? = some a) :
    ∃ e, (es ++ [t])[i]? = some e ∧ e.addr = a ∧
      h.cell a = some ⟨e.prev, (addrs (es ++ [t]))[i + 1]?, e.data⟩ := by
  obtain ⟨pre, e, post, hsplit, rfl, rfl⟩ := exists_entry ha
  have hc := hl.chain
  rw [hsplit] at hc ⊢
  rw [chain_append_iff] at hc
  refine ⟨e, by simp, rfl, ?_⟩
  rw [addrs_behind, ← firstAddr_eq_head?]
  exact hc.2.1

/-- A linked list without dangling pointers. -/
theorem Linked.doublyLinked (hl : Linked head (fun _ => False) h es t) :
    DoublyLinked h head (addrs (es ++ [t])) where
  first := by
    rw [← firstAddr_eq_head?]
    exact hl.first
  nodup := hl.nodup
  next := by
    intro i a ha
    obtain ⟨e, -, -, hcell⟩ := hl.entry ha
    exact ⟨_, hcell, rfl⟩
  prev := by
    intro i a b n ha hb hn
    obtain ⟨pre, e, post, hsplit, rfl, rfl⟩ := exists_entry ha
    have hc := hl.chain
    have hback := hl.back
    rw [hsplit] at hc hback hb
    rw [addrs_behind] at hb
    cases post with
    | nil => exact absurd hb (by simp)
    | cons f post =>
        obtain rfl : f.addr = b := by simpa using hb
        have hsplit' : pre ++ e :: f :: post = (pre ++ [e]) ++ f :: post := by simp
        rw [hsplit', chain_append_iff] at hc
        rw [hsplit', backLinks_append_iff, lastAddr_concat] at hback
        rw [hc.2.1] at hn
        obtain rfl := Option.some.inj hn
        rcases hback.2.1 with hprev | ⟨_, _, hfalse⟩
        · exact hprev
        · exact hfalse.elim

end Addresses

end MesonDisplay.LinkedList
