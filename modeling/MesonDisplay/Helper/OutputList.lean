/-
  MesonDisplay.Helper.OutputList — the list of the compositor's outputs.

  `g_output_list` is a doubly linked list with a static head.  Its last node is
  always empty, and the loop macro `for_each_list` does not visit it.
  `help_updata_compositor_output` puts an output in the place of another one;
  it searches, blanks duplicates, appends, takes out the empty nodes while it
  walks, and moves the last node into the head if the head is empty.

  The functions are translated statement by statement, on a heap in which a
  freed address is never used again: following a pointer into freed memory is
  a fault.
-/
import MesonDisplay.Lib.LinkedList

namespace MesonDisplay.Helper

open MesonDisplay.LinkedList

/-! ## §1. Faults. -/

/-- How a call can go wrong. -/
inductive Fault where
  /-- A NULL pointer or a pointer into freed memory is followed, or a list has
  no end. -/
  | badPointer
  /-- An assert() fails. -/
  | assertion
  /-- strcmp() is given NULL. -/
  | strcmpNull
  /-- `json_object_object_foreach` is given no object. -/
  | foreachNonObject
  /-- A function pointer that is NULL is called. -/
  | nullCallback
  /-- A loop does not end. -/
  | endless
  deriving DecidableEq, Repr

/-! ## §2. The list. -/

/-- The members of `compositor_output_list` besides the links.  An output is
known by its address; `none` is NULL. -/
structure OutputNode where
  data : Option Nat
  enable : Bool
  deriving DecidableEq, Repr

/-- A node of zeroes, as `calloc` makes it. -/
def OutputNode.zero : OutputNode := ⟨none, false⟩

abbrev OutputHeap := Heap OutputNode

/-- `&g_output_list`. -/
def gOutputList : Nat := 0

/-- `compositor_output_list g_output_list = { 0 }`, and nothing else. -/
def outputHeapInit : OutputHeap where
  cell := fun a => if a = gOutputList then some ⟨none, none, .zero⟩ else none
  fresh := 1
  bound := Heap.bound_single gOutputList _

/-- `for_each_list(current, &g_output_list)`. -/
def forEachOutput {σ : Type}
    (body : σ → OutputNode → Except Fault (OutputNode × Loop σ)) (h : OutputHeap) (s : σ) :
    Except Fault (OutputHeap × σ × Nat) :=
  forEachList .badPointer body (h.fresh + 1) h gOutputList s

/-! ## §3. help_updata_compositor_output. -/

/-- The locals of `help_updata_compositor_output` that its loops share. -/
structure UpdateVars where
  updated : Bool
  updateIndex : Nat
  index : Nat

/-- Remove old output or replace same one. -/
def searchOlder (older newer : Option Nat) (v : UpdateVars) (n : OutputNode) :
    Except Fault (OutputNode × Loop UpdateVars) :=
  if older = none then
    if n.data = newer then
      .ok (n, .break { v with updated := true, updateIndex := v.index })
    else .ok (n, .continue { v with index := v.index + 1 })
  else if n.data = older then
    .ok (n, .break { v with updated := true, updateIndex := v.index })
  else .ok (n, .continue { v with index := v.index + 1 })

/-- Remove the output same as newer. -/
def removeSame (newer : Option Nat) (v : UpdateVars) (n : OutputNode) :
    Except Fault (OutputNode × Loop UpdateVars) :=
  if n.data = newer then
    if v.updated ∧ v.updateIndex ≠ v.index then
      -- hold a empty output
      .ok (⟨none, false⟩, .continue { v with index := v.index + 1 })
    else if ¬ v.updated then
      .ok (n, .continue
        { v with updated := true, updateIndex := v.index, index := v.index + 1 })
    else .ok (n, .continue { v with index := v.index + 1 })
  else .ok (n, .continue { v with index := v.index + 1 })

/-- Seek to newer position. -/
def seekPosition (v : UpdateVars) (n : OutputNode) :
    Except Fault (OutputNode × Loop UpdateVars) :=
  if v.updated ∧ v.index = v.updateIndex then .ok (n, .break v)
  else if ¬ v.updated ∧ n.data = none then
    .ok (n, .break { v with updated := true, updateIndex := v.index })
  else .ok (n, .continue { v with index := v.index + 1 })

/-- The three loops that find the node for `newer`. -/
def findPosition (older newer : Option Nat) (h : OutputHeap) :
    Except Fault (OutputHeap × UpdateVars × Nat) := do
  let (h, v, _) ← forEachOutput (searchOlder older newer) h ⟨false, 0, 0⟩
  let (h, v, _) ← forEachOutput (removeSame newer) h { v with index := 0 }
  forEachOutput seekPosition h { v with index := 0 }

/-- Append a empty element at end; `none` if `calloc` fails. -/
def appendEmpty (callocOk : Bool) (h : OutputHeap) (current : Nat) :
    Except Fault (Option OutputHeap) := do
  let c ← load .badPointer h current
  if c.next ≠ none then .error .assertion
  else if callocOk then
    let next := h.fresh
    let h := h.alloc ⟨none, none, .zero⟩
    let h ← modify .badPointer h current (fun n => { n with next := some next })
    let h ← modify .badPointer h next (fun n => { n with prev := some current })
    let h ← modify .badPointer h next (fun n => { n with next := none })
    .ok (some h)
  else .ok none

/-- `none` if the function goes to `error_out`. -/
def appendIfNeeded (callocOk : Bool) (newer : Option Nat) (h : OutputHeap) (v : UpdateVars)
    (current : Nat) : Except Fault (Option OutputHeap) :=
  if ¬ v.updated ∧ newer ≠ none then appendEmpty callocOk h current else .ok (some h)

/-- Shrink empty output: the loop with `current` and `last_element`. -/
def shrinkLoop : (fuel : Nat) → OutputHeap → (current : Option Nat) →
    (lastElement : Nat) → Except Fault (OutputHeap × Nat)
  | 0, _, _, _ => .error .badPointer
  | _ + 1, h, none, lastElement => .ok (h, lastElement)
  | fuel + 1, h, some current, lastElement => do
      let c ← load .badPointer h current
      if c.data.data = none ∧ current ≠ gOutputList ∧ c.next ≠ none then
        let prev ← deref .badPointer c.prev
        let next ← deref .badPointer c.next
        let h ← modify .badPointer h prev (fun n => { n with next := c.next })
        let h ← modify .badPointer h next (fun n => { n with prev := c.prev })
        let h ← release .badPointer h current
        let p ← load .badPointer h prev
        shrinkLoop fuel h p.next lastElement
      else
        -- last not empty element or first element
        shrinkLoop fuel h c.next (if c.next ≠ none then current else lastElement)

/-- Swap end with first, then remove the last.  The `memcpy` copies
`sizeof(connector_list)` bytes: the links and `data`, but not `enable`, which
lies behind them. -/
def swapLast (h : OutputHeap) (lastElement : Nat) : Except Fault OutputHeap := do
  let first ← load .badPointer h gOutputList
  if first.data.data = none ∧ lastElement ≠ gOutputList then
    let last ← load .badPointer h lastElement
    let prev ← deref .badPointer last.prev
    let h ← modify .badPointer h prev (fun n => { n with next := last.next })
    let first ← load .badPointer h gOutputList
    let h ← modify .badPointer h lastElement (fun n => { n with next := first.next })
    let h ← modify .badPointer h lastElement (fun n => { n with prev := none })
    let last ← load .badPointer h lastElement
    let h ← modify .badPointer h gOutputList (fun n =>
      { prev := last.prev, next := last.next, data := { n.data with data := last.data.data } })
    release .badPointer h lastElement
  else .ok h

/-- `help_updata_compositor_output`. -/
def helpUpdataCompositorOutput (callocOk : Bool) (older newer : Option Nat)
    (h : OutputHeap) : Except Fault OutputHeap := do
  if older = newer then .ok h
  else
    let (h, v, current) ← findPosition older newer h
    match ← appendIfNeeded callocOk newer h v current with
    | none => .ok h
    | some h => do
        -- do real update newer output
        let h ← modify .badPointer h current (fun n => { n with data := ⟨newer, false⟩ })
        let (h, lastElement) ← shrinkLoop (h.fresh + 1) h (some gOutputList) gOutputList
        swapLast h lastElement

/-- The body of the loop in `help_switch_compositor_output`. -/
def switchEnable (output : Nat) (enable : Bool) (_ : Unit) (n : OutputNode) :
    Except Fault (OutputNode × Loop Unit) :=
  if some output = n.data then .ok ({ n with enable := enable }, .break ())
  else .ok (n, .continue ())

/-- `help_switch_compositor_output`. -/
def helpSwitchCompositorOutput (output : Option Nat) (enable : Bool) (h : OutputHeap) :
    Except Fault OutputHeap :=
  match output with
  | none => .ok h
  | some output => do
      let (h, _, _) ← forEachOutput (switchEnable output enable) h ()
      .ok h

/-! ## §4. Runs. -/

/-- A call that changes the list. -/
inductive OutputCall where
  | updata (older newer : Option Nat)
  | switch (output : Option Nat) (enable : Bool)

/-- One call, with memory to be had. -/
def OutputCall.run (h : OutputHeap) : OutputCall → Except Fault OutputHeap
  | .updata older newer => helpUpdataCompositorOutput true older newer h
  | .switch output enable => helpSwitchCompositorOutput output enable h

/-- Call after call. -/
def runOutputCalls (h : OutputHeap) : List OutputCall → Except Fault OutputHeap
  | [] => .ok h
  | c :: cs => do
      let h ← c.run h
      runOutputCalls h cs

end MesonDisplay.Helper
