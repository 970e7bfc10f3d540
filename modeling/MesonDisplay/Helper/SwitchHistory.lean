/-
  MesonDisplay.Helper.SwitchHistory — which outputs are switched to which mode.

  The compositor reports outputs that come and go and which of them are enabled;
  clients ask for modes.  A list of nodes with two links, a ring of tasks and
  three callbacks stand in between.  The abstract machine knows none of them: it
  has a set of outputs, a set of enabled ones, and what was asked for so far.

  An update that moves the last node into the vacated head forgets its flag, and
  one that gets no memory forgets the new output.

  Main results:
    * `displaysOk_call` — a call that forgets nothing keeps the two in agreement.
    * `not_agrees_of_forgets` — behind a call that does, they do not agree.
    * `switched_as_asked_iff` — exactly the runs in which the outputs are
      switched as the abstract machine says.
-/
import MesonDisplay.Helper.SetMode
import MesonDisplay.Helper.Shown
import Mathlib.Data.Finset.Option
import Mathlib.Data.Finset.Dedup

namespace MesonDisplay.Helper

open MesonDisplay.LinkedList
open MesonDisplay.Runs
open MesonDisplay.Json (jsonText)

/-! ## §1. The abstract machine. -/

/-- The outputs of the compositor, and the sets of outputs that modes were asked
for. -/
structure Displays where
  registered : Bool
  /-- The output of the old interface. -/
  output : Option Nat
  outputs : Finset Nat
  enabled : Finset Nat
  switched : List (Finset Nat × DrmHelperMode)

def Displays.init : Displays where
  registered := false
  output := none
  outputs := ∅
  enabled := ∅
  switched := []

/-- The outputs that a mode is for: the enabled ones, or the one of the old
interface while no other is known. -/
def Displays.targets (v : Displays) : Finset Nat :=
  if v.registered then
    if v.outputs = ∅ then v.output.toFinset else v.enabled
  else ∅

/-- `newer` takes the place of `older`, and is not enabled yet. -/
def Displays.update (older newer : Option Nat) (v : Displays) : Displays :=
  if older = newer then v
  else
    { v with
      outputs := (v.outputs \ older.toFinset) ∪ newer.toFinset
      enabled := (v.enabled \ older.toFinset) \ newer.toFinset }

def Displays.switch (output : Option Nat) (enable : Bool) (v : Displays) : Displays :=
  match output with
  | none => v
  | some o =>
      if o ∈ v.outputs then
        { v with enabled := if enable then insert o v.enabled else v.enabled.erase o }
      else v

def Displays.request (copyOk : Bool) (mode : Option DrmHelperMode) (v : Displays) : Displays :=
  match mode with
  | some mode => if copyOk then { v with switched := v.switched ++ [(v.targets, mode)] } else v
  | none => v

def Displays.after (jc : JsonC) (v : Displays) : HelperCall → Displays
  | .setSwitchModeFunction ctx registered => { v with registered := registered, output := ctx }
  | .updataCompositorOutput _ older newer => v.update older newer
  | .switchCompositorOutput output enable => v.switch output enable
  | .message env dataIn => v.request env.copyOk (setModeOf jc dataIn)
  | _ => v

/-- The calls of `switch_mode`, request after request: every output of the set
once. -/
inductive Realizes :
    List (Nat × DrmHelperMode) → List (Finset Nat × DrmHelperMode) → Prop
  | nil : Realizes [] []
  | request {calls asked} (targets : List Nat) (mode : DrmHelperMode) :
      Realizes calls asked → targets.Nodup →
        Realizes (calls ++ targets.map fun output => (output, mode))
          (asked ++ [(targets.toFinset, mode)])

/-! ## §2. The enabled outputs in the cells. -/

section Cells

variable {older newer : Option Nat} {cells : List OutputNode}

theorem mem_enabledOutputs {o : Nat} :
    o ∈ enabledOutputs cells ↔ ∃ n ∈ cells, n.enable = true ∧ n.data = some o := by
  unfold enabledOutputs
  rw [List.mem_filterMap]
  constructor
  · intro ⟨n, hn, ho⟩
    split_ifs at ho with henable
    exact ⟨n, hn, henable, ho⟩
  · intro ⟨n, hn, henable, ho⟩
    exact ⟨n, hn, by rw [if_pos henable, ho]⟩

theorem mem_enabledOutputs_cons {o : Nat} {n : OutputNode} :
    o ∈ enabledOutputs (n :: cells)
      ↔ n.enable = true ∧ n.data = some o ∨ o ∈ enabledOutputs cells := by
  simp only [mem_enabledOutputs, List.mem_cons, exists_eq_or_imp]

/-- The flag of the one cell that an output is in. -/
theorem enable_iff_mem (hd : (cells.map OutputNode.data).Nodup) {n : OutputNode} {o : Nat}
    (hn : n ∈ cells) (ho : n.data = some o) : n.enable = true ↔ o ∈ enabledOutputs cells := by
  constructor
  · intro henable
    exact mem_enabledOutputs.mpr ⟨n, hn, henable, ho⟩
  · intro hmem
    obtain ⟨m, hm, henable, hdm⟩ := mem_enabledOutputs.mp hmem
    rwa [eq_of_data_eq hd hm hn (ho.trans hdm.symm)]

theorem enabledOutputs_nodup_of (hd : (outputsOf cells).Nodup) :
    (enabledOutputs cells).Nodup := by
  have hfilter : enabledOutputs cells = outputsOf (cells.filter OutputNode.enable) := by
    unfold enabledOutputs outputsOf
    rw [List.filterMap_filter]
  rw [hfilter]
  exact hd.sublist (List.filter_sublist.filterMap OutputNode.data)

/-- Cells with the same flags for the other outputs. -/
theorem mem_enabledOutputs_update (ht : Tidy cells) (hd : (outputsOf cells).Nodup)
    (hne : older ≠ newer) (hkeep : ¬ LosesFlag older newer cells) (o : Nat) :
    o ∈ enabledOutputs (updateCells older newer cells)
      ↔ (o ∈ enabledOutputs cells ∧ some o ≠ older) ∧ some o ≠ newer := by
  have hdata := (nodup_data_iff ht).mpr hd
  have hflags := (sameFlags_updateCells_iff ht hdata).mpr hkeep
  obtain ⟨-, houtputs⟩ := outputsOf_updateCells hd hne
  constructor
  · intro ho
    obtain ⟨n', hn', henable, hdn'⟩ := mem_enabledOutputs.mp ho
    -- `newer` is put into its cell without the flag
    have hnew : some o ≠ newer := by
      intro heq
      have hoff := newer_disabled ht hdata hne (by rw [← heq]; simp) hn' (hdn'.trans heq)
      rw [henable] at hoff
      exact absurd hoff (by simp)
    -- any other output was there before, with the same flag
    rcases (houtputs o).mp (mem_outputsOf.mpr ⟨n', hn', hdn'⟩) with ⟨hmem, hold⟩ | heq
    · obtain ⟨n, hn, hdn⟩ := mem_outputsOf.mp hmem
      have hsame : n'.enable = n.enable :=
        hflags n hn n' hn' (by rw [hdn]; simp) (hdn ▸ hold) (hdn ▸ hnew) (hdn'.trans hdn.symm)
      exact ⟨⟨mem_enabledOutputs.mpr ⟨n, hn, hsame ▸ henable, hdn⟩, hold⟩, hnew⟩
    · exact absurd heq hnew
  · intro ⟨⟨ho, hold⟩, hnew⟩
    obtain ⟨n, hn, henable, hdn⟩ := mem_enabledOutputs.mp ho
    have hmem := (houtputs o).mpr (.inl ⟨mem_outputsOf.mpr ⟨n, hn, hdn⟩, hold⟩)
    obtain ⟨n', hn', hdn'⟩ := mem_outputsOf.mp hmem
    have hsame : n'.enable = n.enable :=
      hflags n hn n' hn' (by rw [hdn]; simp) (hdn ▸ hold) (hdn ▸ hnew) (hdn'.trans hdn.symm)
    exact mem_enabledOutputs.mpr ⟨n', hn', hsame.trans henable, hdn'⟩

/-- The other way round: with the enabled outputs of the abstract update, no
flag was lost. -/
theorem not_losesFlag_of_enabled (ht : Tidy cells) (hd : (outputsOf cells).Nodup)
    (hne : older ≠ newer)
    (henabled : ∀ o, o ∈ enabledOutputs (updateCells older newer cells)
      ↔ (o ∈ enabledOutputs cells ∧ some o ≠ older) ∧ some o ≠ newer) :
    ¬ LosesFlag older newer cells := by
  have hdata := (nodup_data_iff ht).mpr hd
  have hdata' := (nodup_data_iff (updateCells_tidy ht)).mpr (outputsOf_updateCells hd hne).1
  rw [← sameFlags_updateCells_iff ht hdata]
  intro n hn n' hn' hfull hold hnew heq
  obtain ⟨o, ho⟩ := Option.ne_none_iff_exists'.mp hfull
  rw [ho] at hold hnew heq
  rw [Bool.eq_iff_iff, enable_iff_mem hdata hn ho, enable_iff_mem hdata' hn' heq, henabled o]
  exact ⟨fun h => h.1.1, fun h => ⟨⟨h, hold⟩, hnew⟩⟩

theorem outputsOf_switchCells (output : Nat) (enable : Bool) :
    outputsOf (switchCells output enable cells) = outputsOf cells := by
  have hmap : ∀ ns : List OutputNode,
      outputsOf ns = (ns.map OutputNode.data).filterMap id := by
    intro ns
    rw [List.filterMap_map]
    rfl
  rw [hmap, switchCells_map_data, ← hmap]

theorem mem_enabledOutputs_switch (hd : (outputsOf cells).Nodup) (output : Nat) (enable : Bool)
    (o : Nat) :
    o ∈ enabledOutputs (switchCells output enable cells)
      ↔ if o = output then enable = true ∧ o ∈ outputsOf cells else o ∈ enabledOutputs cells := by
  induction cells with
  | nil => simp [switchCells, enabledOutputs, outputsOf]
  | cons n ns ih =>
      rw [outputsOf_cons, List.nodup_append] at hd
      obtain ⟨-, hrest, hdisjoint⟩ := hd
      unfold switchCells
      by_cases hn : some output = n.data
      · -- the loop ends here, and the output is in no other cell
        have hfresh : output ∉ outputsOf ns := fun h =>
          hdisjoint output (mem_toList_iff.mpr hn) output h rfl
        rw [if_pos hn, mem_enabledOutputs_cons, outputsOf_cons, ← hn]
        by_cases ho : o = output
        · subst ho
          have hoff : o ∉ enabledOutputs ns := by
            intro h
            obtain ⟨m, hm, -, hdm⟩ := mem_enabledOutputs.mp h
            exact hfresh (mem_outputsOf.mpr ⟨m, hm, hdm⟩)
          simp [hoff]
        · rw [if_neg ho, mem_enabledOutputs_cons]
          have hother : ¬ some output = some o := fun h => ho (Option.some.inj h).symm
          simp [← hn, hother]
      · -- the loop goes on to the next cell
        rw [if_neg hn, mem_enabledOutputs_cons, ih hrest, mem_enabledOutputs_cons, outputsOf_cons]
        by_cases ho : o = output
        · subst ho
          have hdata : ¬ n.data = some o := fun h => hn h.symm
          have hlist : o ∉ n.data.toList := fun h => hn (mem_toList_iff.mp h)
          simp [hdata, hlist]
        · rw [if_neg ho, if_neg ho]

end Cells

/-! ## §3. Agreement. -/

/-- The outputs and the calls of `switch_mode` are those of the abstract
machine. -/
structure Agrees (s : HelperState) (v : Displays) : Prop where
  outputs : (outputsOf (outputCells s.outputList)).toFinset = v.outputs
  enabled : (enabledOutputs (outputCells s.outputList)).toFinset = v.enabled
  switched : Realizes (switchCalls s.effects) v.switched

/-- The invariant of two machines that agree. -/
structure DisplaysOk (jc : JsonC) (s : HelperState) (v : Displays) : Prop where
  agrees : Agrees s v
  helper : HelperOk jc s
  nodup : (outputsOf (outputCells s.outputList)).Nodup
  idle : pendingTasks s.taskAfterRepaintCycle = []
  registered : s.interface.switchMode = v.registered
  output : s.output = v.output

/-- What decides which outputs are switched. -/
structure Screen where
  registered : Bool
  output : Option Nat
  cells : List OutputNode

def HelperState.screen (s : HelperState) : Screen :=
  ⟨s.interface.switchMode, s.output, outputCells s.outputList⟩

section Agreement

variable {jc : JsonC} {s s' : HelperState} {v : Displays}

theorem displaysOk_init (atomicModesetEnable : Bool) :
    DisplaysOk jc (.init atomicModesetEnable) .init where
  agrees := ⟨rfl, rfl, .nil⟩
  helper := helperOk_reachable (.init atomicModesetEnable)
  nodup := List.nodup_nil
  idle := pendingTasks_zero
  registered := rfl
  output := rfl

theorem DisplaysOk.mem_outputs (h : DisplaysOk jc s v) (o : Nat) :
    o ∈ outputsOf (outputCells s.outputList) ↔ o ∈ v.outputs := by
  rw [← h.agrees.outputs, List.mem_toFinset]

theorem DisplaysOk.mem_enabled (h : DisplaysOk jc s v) (o : Nat) :
    o ∈ enabledOutputs (outputCells s.outputList) ↔ o ∈ v.enabled := by
  rw [← h.agrees.enabled, List.mem_toFinset]

/-- A step that switches nothing. -/
theorem DisplaysOk.of_same (h : DisplaysOk jc s v) (hok : HelperOk jc s')
    (hscreen : s'.screen = s.screen) (hidle : pendingTasks s'.taskAfterRepaintCycle = [])
    (hcalls : switchCalls s'.effects = switchCalls s.effects) : DisplaysOk jc s' v := by
  have hcells : outputCells s'.outputList = outputCells s.outputList :=
    congrArg Screen.cells hscreen
  have hregistered : s'.interface.switchMode = s.interface.switchMode :=
    congrArg Screen.registered hscreen
  have houtput : s'.output = s.output := congrArg Screen.output hscreen
  refine ⟨⟨?_, ?_, ?_⟩, hok, ?_, hidle, hregistered.trans h.registered, houtput.trans h.output⟩
  · rw [hcells]
    exact h.agrees.outputs
  · rw [hcells]
    exact h.agrees.enabled
  · rw [hcalls]
    exact h.agrees.switched
  · rw [hcells]
    exact h.nodup

/-- The outputs that `process_task` switches are those of the abstract
machine. -/
theorem DisplaysOk.targets (h : DisplaysOk jc s v) :
    (switchTargets s).Nodup ∧ (switchTargets s).toFinset = v.targets := by
  obtain ⟨dangling, es, t, hok⟩ := h.helper.outputs
  have htidy : Tidy (outputCells s.outputList) := outputCells_eq hok ▸ hok.tidy
  unfold switchTargets Displays.targets
  rw [h.registered, h.output, ← h.agrees.outputs, ← h.agrees.enabled]
  cases v.registered with
  | false => exact ⟨List.nodup_nil, rfl⟩
  | true =>
      rw [if_pos rfl, if_pos rfl]
      -- the code looks at the first cell, the abstract machine at the whole set
      cases hcells : outputCells s.outputList with
      | nil =>
          have hempty : (outputsOf ([] : List OutputNode)).toFinset = ∅ := rfl
          rw [if_pos hempty]
          cases v.output <;> simp
      | cons n ns =>
          rw [hcells] at htidy
          cases hn : n.data with
          | none =>
              -- an empty first cell is the only one
              have hempty : (outputsOf (n :: ns)).toFinset = ∅ := by
                rw [htidy.2 hn, outputsOf_cons, hn]
                rfl
              rw [if_pos hempty]
              cases v.output <;> simp [hn]
          | some o =>
              have hfull : (outputsOf (n :: ns)).toFinset ≠ ∅ := by
                intro hempty
                have ho : o ∈ (outputsOf (n :: ns)).toFinset := by
                  rw [List.mem_toFinset]
                  exact mem_outputsOf.mpr ⟨n, List.mem_cons_self, hn⟩
                rw [hempty] at ho
                exact absurd ho (Finset.notMem_empty o)
              have hnodup := enabledOutputs_nodup_of h.nodup
              rw [hcells] at hnodup
              rw [if_neg hfull, if_pos (by simp [hn])]
              exact ⟨hnodup, rfl⟩

/-! ## §4. Requests. -/

theorem forEachEnabled_screen {call : Nat → Effect} (hrun : forEachEnabled call s = .ok s')
    (hl : OutputsListed s.outputList) :
    OutputsListed s'.outputList ∧ s'.screen = s.screen := by
  obtain ⟨dangling, es, t, hlinked, htail, henabled⟩ := hl
  have hcells : outputCells s.outputList = dataOf es := hlinked.readData_eq
  have hv := visit_callEnabled call (dataOf es) s.effects henabled
  obtain ⟨h', es', hloop, hl', hdata, -, -⟩ := forEachOutput_spec hlinked rfl hv
  unfold forEachEnabled at hrun
  rw [hloop] at hrun
  obtain rfl := Except.ok.inj hrun
  refine ⟨⟨dangling, es', t, hl', htail, by rw [hdata]; exact henabled⟩, ?_⟩
  unfold HelperState.screen
  rw [hcells, ← hdata]
  exact congrArg (Screen.mk _ _) hl'.readData_eq

/-- "set mode" chooses the outputs, and leaves them as they are. -/
theorem taskFrame_screen :
    TaskFrame (fun s s' => OutputsListed s.outputList →
      OutputsListed s'.outputList ∧ s'.screen = s.screen) where
  refl := fun _ hl => ⟨hl, rfl⟩
  trans := by
    intro s s' s'' h₁ h₂ hl
    obtain ⟨hl', hscreen⟩ := h₁ hl
    obtain ⟨hl'', hscreen'⟩ := h₂ hl'
    exact ⟨hl'', hscreen'.trans hscreen⟩
  emit := fun _ _ hl => ⟨hl, rfl⟩
  tasks := fun _ _ hl => ⟨hl, rfl⟩
  outputs := forEachEnabled_screen

/-- The other requests do not even call `switch_mode`. -/
theorem requestFrame_screen :
    RequestFrame (fun s s' => s'.screen = s.screen ∧
      s'.taskAfterRepaintCycle = s.taskAfterRepaintCycle ∧
      switchCalls s'.effects = switchCalls s.effects) where
  refl := fun _ => ⟨rfl, rfl, rfl⟩
  trans := fun h₁ h₂ =>
    ⟨h₂.1.trans h₁.1, h₂.2.1.trans h₁.2.1, h₂.2.2.trans h₁.2.2⟩
  locked := by
    intro s h
    refine ⟨rfl, rfl, ?_⟩
    have hlog : ({ s.emit .lock with connectorList := h }.emit .unlock).effects
        = s.effects ++ [.lock] ++ [.unlock] := rfl
    rw [hlog, switchCalls_append, switchCalls_append]
    exact (List.append_nil _).trans (List.append_nil _)
  info := by
    intro s value
    refine ⟨rfl, rfl, ?_⟩
    have hlog : (s.emit (.printInfo value)).effects = s.effects ++ [.printInfo value] := rfl
    rw [hlog, switchCalls_append]
    exact List.append_nil _

variable {env : MessageEnv} {dataIn out : Json}

/-- A request for a mode is a "set mode" whose text is understood. -/
theorem setModeOf_eq (hcmd : (dataIn.objectGetEx "cmd").bind jc.getString = some "set mode") :
    setModeOf jc dataIn = (jc.getString (dataIn.objectGet "value")).bind parseModestring := by
  obtain ⟨tmp, htmp, hget⟩ := Option.bind_eq_some_iff.mp hcmd
  unfold setModeOf
  simp only [htmp, hget, if_true]

theorem setModeOf_other (hcmd : (dataIn.objectGetEx "cmd").bind jc.getString ≠ some "set mode") :
    setModeOf jc dataIn = none := by
  unfold setModeOf
  cases htmp : dataIn.objectGetEx "cmd" with
  | none => rfl
  | some tmp =>
      rw [htmp, Option.bind_some] at hcmd
      exact if_neg hcmd

/-- "set mode" without a mode. -/
theorem handleSetMode_rejects
    (hmode : (jc.getString (dataIn.objectGet "value")).bind parseModestring = none) :
    handleSetMode jc env s dataIn (dataIn.objectGet "value") = .ok (s, .null) := by
  -- the copies of the task are counted there, and play no part here
  let owned : OwnedState := ⟨s, [], 0, []⟩
  have hrun : setModeOwned jc env owned dataIn (dataIn.objectGet "value") = .ok (owned, .null) :=
    setModeOwned_rejects hmode
  have herases : eraseOwned (setModeOwned jc env owned dataIn (dataIn.objectGet "value"))
      = handleSetMode jc env s dataIn (dataIn.objectGet "value") := setModeOwned_erases owned _ _
  rw [← herases, hrun]
  rfl

/-- "set mode" with an empty ring. -/
theorem handleSetMode_switches (h : DisplaysOk jc s v) (hcopy : env.copyOk = true)
    (hmode : setModeOf jc dataIn ≠ none) :
    ∃ s', handleSetMode jc env s dataIn (dataIn.objectGet "value") = .ok (s', .null) ∧
      pendingTasks s'.taskAfterRepaintCycle = [] ∧
      switchCalls s'.effects
        = switchCalls s.effects ++ callsFor jc (switchTargets s) dataIn := by
  let owned : OwnedState := ⟨s, List.replicate maxTaskNum 0, 0, []⟩
  have hslots : owned.slots.length = maxTaskNum := List.length_replicate
  have hring : owned.helper.taskAfterRepaintCycle.InRange := h.helper.ring
  obtain ⟨s', hrun, hidle, hcalls⟩ :=
    setModeOwned_switches h.helper.listed hring h.idle hslots hcopy hmode
  have herases : eraseOwned (setModeOwned jc env owned dataIn (dataIn.objectGet "value"))
      = handleSetMode jc env s dataIn (dataIn.objectGet "value") := setModeOwned_erases owned _ _
  refine ⟨s', ?_, hidle, hcalls⟩
  rw [← herases, hrun]
  rfl

/-- A task that cannot be copied is dropped; the outputs are refreshed. -/
theorem handleSetMode_noCopy (h : DisplaysOk jc s v) (hcopy : env.copyOk = false)
    (hrun : handleSetMode jc env s dataIn (dataIn.objectGet "value") = .ok (s', out)) :
    pendingTasks s'.taskAfterRepaintCycle = [] ∧
      switchCalls s'.effects = switchCalls s.effects := by
  have hdropped : scheduleTask env.copyOk s.taskAfterRepaintCycle dataIn
      = (s.taskAfterRepaintCycle, false) := by
    unfold scheduleTask
    simp [hcopy]
  obtain ⟨s₁, hrefresh, hkept⟩ := triggerRefresh_switches h.helper.listed
  unfold handleSetMode at hrun
  -- no text, no mode, or a mode
  split at hrun
  · obtain ⟨rfl, -⟩ := Prod.mk.inj (Except.ok.inj hrun)
    exact ⟨h.idle, rfl⟩
  · split at hrun
    · obtain ⟨rfl, -⟩ := Prod.mk.inj (Except.ok.inj hrun)
      exact ⟨h.idle, rfl⟩
    · simp only [hdropped, Bool.false_eq_true, if_false, ok_bind, hrefresh] at hrun
      obtain ⟨rfl, -⟩ := Prod.mk.inj (Except.ok.inj hrun)
      refine ⟨?_, ?_⟩
      · rw [hkept.queue]
        exact h.idle
      · rw [hkept.calls, List.append_nil]

/-- **A request** asks for a mode, or changes nothing that matters here. -/
theorem displaysOk_message (h : DisplaysOk jc s v)
    (hrun : mMessageHandle jc env s dataIn = .ok (s', out)) :
    DisplaysOk jc s' (v.request env.copyOk (setModeOf jc dataIn)) := by
  have hok : HelperOk jc s' := mMessageHandle_ok h.helper hrun
  by_cases hmode : (dataIn.objectGetEx "cmd").bind jc.getString = some "set mode"
  · rw [mMessageHandle_setMode env hmode] at hrun
    obtain ⟨-, hscreen⟩ := handleSetMode_frame taskFrame_screen hrun h.helper.listed
    cases hasked : setModeOf jc dataIn with
    | none =>
        rw [setModeOf_eq hmode] at hasked
        rw [handleSetMode_rejects hasked] at hrun
        obtain ⟨rfl, -⟩ := Prod.mk.inj (Except.ok.inj hrun)
        exact h
    | some mode =>
        cases hcopy : env.copyOk with
        | false =>
            obtain ⟨hidle, hcalls⟩ := handleSetMode_noCopy h hcopy hrun
            exact h.of_same hok hscreen hidle hcalls
        | true =>
            obtain ⟨s₁, hswitch, hidle, hcalls⟩ :=
              handleSetMode_switches h hcopy (by rw [hasked]; simp)
            obtain ⟨rfl, -⟩ := Prod.mk.inj (Except.ok.inj (hswitch.symm.trans hrun))
            obtain ⟨hnodup, htargets⟩ := h.targets
            -- as far as the outputs go, nothing has happened
            have hsame : DisplaysOk jc { s₁ with effects := s.effects } v :=
              h.of_same (hok.of_same rfl rfl rfl) hscreen hidle rfl
            refine ⟨⟨hsame.agrees.outputs, hsame.agrees.enabled, ?_⟩, hok, hsame.nodup, hidle,
              hsame.registered, hsame.output⟩
            have hasked' : callsFor jc (switchTargets s) dataIn
                = (switchTargets s).map fun output => (output, mode) := by
              unfold callsFor
              rw [hasked]
            rw [hcalls, hasked']
            unfold Displays.request
            rw [← htargets]
            exact .request (switchTargets s) mode h.agrees.switched hnodup
  · rw [setModeOf_other hmode]
    by_cases hrect : (dataIn.objectGetEx "cmd").bind jc.getString = some "set ui rect"
    · obtain ⟨tmp, htmp, hget⟩ := Option.bind_eq_some_iff.mp hrect
      rw [mMessageHandle_setUiRect env htmp hget] at hrun
      obtain ⟨rfl, -⟩ := Prod.mk.inj (Except.ok.inj hrun)
      rw [setUiRect_eq] at hok ⊢
      split_ifs at hok ⊢ with hrefused
      · exact h
      · exact h.of_same hok rfl h.idle rfl
    · obtain ⟨hscreen, hqueue, hcalls⟩ := otherRequest_frame requestFrame_screen hmode hrect hrun
      exact h.of_same hok hscreen (hqueue ▸ h.idle) hcalls

/-! ## §5. The list of outputs. -/

/-- An update that returned did what `updateCells` says, or had no memory. -/
theorem outputCells_updata (hs : HelperOk jc s) {callocOk : Bool} {older newer : Option Nat}
    {h : OutputHeap}
    (hrun : helpUpdataCompositorOutput callocOk older newer s.outputList = .ok h) :
    (AllocFails callocOk older newer (outputCells s.outputList) →
      outputCells h = outputCells s.outputList) ∧
    (¬ AllocFails callocOk older newer (outputCells s.outputList) →
      outputCells h = updateCells older newer (outputCells s.outputList)) := by
  obtain ⟨dangling, es, t, hok⟩ := hs.outputs
  rw [outputCells_eq hok]
  rcases helpUpdata_spec callocOk older newer hok.linked hok.tidy with
    ⟨-, hbad⟩ | ⟨h', dangling', es', t', hgood, hl', -, hfailed, hdone, -, -⟩
  · rw [hrun] at hbad
    exact absurd hbad (by simp)
  · obtain rfl := Except.ok.inj (hrun.symm.trans hgood)
    have hcells : outputCells h = dataOf es' := hl'.readData_eq
    rw [hcells]
    exact ⟨fun hf => (hfailed hf).2.1, hdone⟩

theorem outputCells_switch (hs : HelperOk jc s) {output : Nat} {enable : Bool} {h : OutputHeap}
    (hrun : helpSwitchCompositorOutput (some output) enable s.outputList = .ok h) :
    outputCells h = switchCells output enable (outputCells s.outputList) := by
  obtain ⟨dangling, es, t, hok⟩ := hs.outputs
  rw [outputCells_eq hok]
  obtain ⟨i, hi⟩ := visit_switchEnable output enable (dataOf es)
  obtain ⟨h', es', hloop, hl', hdata, -, -⟩ := forEachOutput_spec hok.linked rfl hi
  unfold helpSwitchCompositorOutput at hrun
  simp only [hloop, ok_bind] at hrun
  obtain rfl := Except.ok.inj hrun
  rw [← hdata]
  exact hl'.readData_eq

/-- The update forgets something: it gets no memory for `newer`, or it moves an
enabled output into the vacated head. -/
def ForgetsOutput (callocOk : Bool) (older newer : Option Nat) (cells : List OutputNode) :
    Prop :=
  AllocFails callocOk older newer cells ∨ LosesFlag older newer cells

section Update

variable {callocOk : Bool} {older newer : Option Nat} {h' : OutputHeap}

theorem displaysOk_update (h : DisplaysOk jc s v)
    (hkeep : ¬ ForgetsOutput callocOk older newer (outputCells s.outputList))
    (hrun : helpUpdataCompositorOutput callocOk older newer s.outputList = .ok h')
    (hok : HelperOk jc { s with outputList := h' }) :
    DisplaysOk jc { s with outputList := h' } (v.update older newer) := by
  obtain ⟨hmemory, hflags⟩ := not_or.mp hkeep
  have hcells := (outputCells_updata h.helper hrun).2 hmemory
  unfold Displays.update
  by_cases hne : older = newer
  · rw [if_pos hne]
    unfold updateCells at hcells
    rw [if_pos hne] at hcells
    exact h.of_same hok (congrArg (Screen.mk _ _) hcells) h.idle rfl
  · rw [if_neg hne]
    obtain ⟨dangling, es, t, hlist⟩ := h.helper.outputs
    have htidy : Tidy (outputCells s.outputList) := outputCells_eq hlist ▸ hlist.tidy
    obtain ⟨hnodup, houtputs⟩ := outputsOf_updateCells h.nodup hne
    have henabled := mem_enabledOutputs_update htidy h.nodup hne hflags
    rw [← hcells] at hnodup houtputs henabled
    refine ⟨⟨?_, ?_, h.agrees.switched⟩, hok, hnodup, h.idle, h.registered, h.output⟩
    · ext o
      rw [List.mem_toFinset, houtputs o, h.mem_outputs]
      simp [eq_comm]
    · ext o
      rw [List.mem_toFinset, henabled o, h.mem_enabled]
      simp [eq_comm]

/-- Behind an update that forgets something the outputs are not those of the
abstract machine. -/
theorem not_agrees_of_forgets (h : DisplaysOk jc s v)
    (hforgets : ForgetsOutput callocOk older newer (outputCells s.outputList))
    (hrun : helpUpdataCompositorOutput callocOk older newer s.outputList = .ok h') :
    ¬ Agrees { s with outputList := h' } (v.update older newer) := by
  intro hagrees
  have hcells := outputCells_updata h.helper hrun
  have houtputs := hagrees.outputs
  have henabled := hagrees.enabled
  by_cases hmemory : AllocFails callocOk older newer (outputCells s.outputList)
  · -- the new output is not in the list, which is as it was
    have hsame := hcells.1 hmemory
    obtain ⟨hne, -, hneed⟩ := hmemory
    obtain ⟨hnew, habsent⟩ := needsNode_iff.mp hneed
    obtain ⟨o, rfl⟩ := Option.ne_none_iff_exists'.mp hnew
    simp only [hsame] at houtputs
    have ho : o ∈ (v.update older (some o)).outputs := by
      unfold Displays.update
      rw [if_neg hne]
      simp
    rw [← houtputs, List.mem_toFinset] at ho
    obtain ⟨n, hn, hdn⟩ := mem_outputsOf.mp ho
    exact (habsent n hn).2.2 hdn
  · -- the flag of the output that moved is gone
    have hlose := hforgets.resolve_left hmemory
    have hne : older ≠ newer := by
      intro heq
      cases hlist : outputCells s.outputList with
      | nil =>
          rw [hlist] at hlose
          exact hlose.1.elim
      | cons x rest =>
          rw [hlist] at hlose
          exact hlose.1.1 heq
    obtain ⟨dangling, es, t, hlist⟩ := h.helper.outputs
    have htidy : Tidy (outputCells s.outputList) := outputCells_eq hlist ▸ hlist.tidy
    refine not_losesFlag_of_enabled htidy h.nodup hne (fun o => ?_) hlose
    simp only [hcells.2 hmemory] at henabled
    rw [← List.mem_toFinset, henabled, h.mem_enabled]
    unfold Displays.update
    rw [if_neg hne]
    simp [eq_comm]

theorem displaysOk_switch (h : DisplaysOk jc s v) {output : Option Nat} {enable : Bool}
    (hrun : helpSwitchCompositorOutput output enable s.outputList = .ok h')
    (hok : HelperOk jc { s with outputList := h' }) :
    DisplaysOk jc { s with outputList := h' } (v.switch output enable) := by
  cases output with
  | none =>
      obtain rfl := Except.ok.inj hrun
      exact h
  | some o =>
      have hcells := outputCells_switch h.helper hrun
      have houtputs : outputsOf (switchCells o enable (outputCells s.outputList))
          = outputsOf (outputCells s.outputList) := outputsOf_switchCells o enable
      have henabled := mem_enabledOutputs_switch h.nodup o enable
      rw [← hcells] at houtputs henabled
      have hnodup : (outputsOf (outputCells h')).Nodup := houtputs ▸ h.nodup
      have hsame : (outputsOf (outputCells h')).toFinset = v.outputs := by
        rw [houtputs]
        exact h.agrees.outputs
      unfold Displays.switch
      by_cases ho : o ∈ v.outputs
      · simp only [if_pos ho]
        refine ⟨⟨hsame, ?_, h.agrees.switched⟩, hok, hnodup, h.idle, h.registered, h.output⟩
        ext o'
        rw [List.mem_toFinset, henabled o', h.mem_enabled]
        by_cases heq : o' = o
        · subst heq
          rw [if_pos rfl]
          cases enable <;> simp [(h.mem_outputs o').mpr ho]
        · rw [if_neg heq]
          cases enable <;> simp [heq]
      · -- an output that is not in the list is enabled nowhere
        simp only [if_neg ho]
        refine ⟨⟨hsame, ?_, h.agrees.switched⟩, hok, hnodup, h.idle, h.registered, h.output⟩
        ext o'
        rw [List.mem_toFinset, henabled o', h.mem_enabled]
        by_cases heq : o' = o
        · subst heq
          have hoff : o' ∉ v.enabled := by
            intro hmem
            obtain ⟨n, hn, -, hdn⟩ := mem_enabledOutputs.mp ((h.mem_enabled o').mpr hmem)
            exact ho ((h.mem_outputs o').mp (mem_outputsOf.mpr ⟨n, hn, hdn⟩))
          rw [if_pos rfl]
          exact iff_of_false (fun hmem => ho ((h.mem_outputs o').mp hmem.2)) hoff
        · rw [if_neg heq]

end Update

/-! ## §6. Runs. -/

/-- A call that returns, and forgets something. -/
def Forgets (s : HelperState) : HelperCall → Prop
  | .updataCompositorOutput callocOk older newer =>
      (∃ h, helpUpdataCompositorOutput callocOk older newer s.outputList = .ok h) ∧
        ForgetsOutput callocOk older newer (outputCells s.outputList)
  | _ => False

instance decidableForgetsOutput (callocOk : Bool) (older newer : Option Nat)
    (cells : List OutputNode) : Decidable (ForgetsOutput callocOk older newer cells) :=
  inferInstanceAs (Decidable ((older ≠ newer ∧ callocOk = false ∧
    (targetCell older newer cells = none ∧ newer ≠ none)) ∨ LosesFlag older newer cells))

instance decidableForgets (s : HelperState) : (call : HelperCall) → Decidable (Forgets s call)
  | .updataCompositorOutput callocOk older newer =>
      match hrun : helpUpdataCompositorOutput callocOk older newer s.outputList with
      | .ok h =>
          decidable_of_iff (ForgetsOutput callocOk older newer (outputCells s.outputList))
            ⟨fun hforgets => ⟨⟨h, hrun⟩, hforgets⟩, And.right⟩
      | .error _ => .isFalse fun hforgets => by
          obtain ⟨⟨h, hok⟩, -⟩ := hforgets
          rw [hrun] at hok
          cases hok
  | .appendConnector .. | .updateConnector .. | .deleteConnector .. | .atomicReqAddProp ..
  | .setSwitchModeFunction .. | .setForceRefreshFunction .. | .setPrintinfoFunction ..
  | .updateUiLogicSizeInfo .. | .updateDisplayModeInfo .. | .doRepaintCycleCompleted
  | .switchCompositorOutput .. | .message .. => .isFalse id

/-- **A call that forgets nothing.** -/
theorem displaysOk_call (h : DisplaysOk jc s v) (call : HelperCall) (hkeep : ¬ Forgets s call)
    (hrun : call.run jc s = .ok s') : DisplaysOk jc s' (v.after jc call) := by
  have hok : HelperOk jc s' := helperOk_step call h.helper hrun
  cases call with
  | setSwitchModeFunction ctx registered =>
      obtain rfl := Except.ok.inj hrun
      exact ⟨⟨h.agrees.outputs, h.agrees.enabled, h.agrees.switched⟩, hok, h.nodup, h.idle, rfl,
        rfl⟩
  | updataCompositorOutput callocOk older newer =>
      obtain ⟨list, hlist, hset⟩ := bind_eq_ok.mp hrun
      obtain rfl := Except.ok.inj hset
      exact displaysOk_update h (fun hforgets => hkeep ⟨⟨list, hlist⟩, hforgets⟩) hlist hok
  | switchCompositorOutput output enable =>
      obtain ⟨list, hlist, hset⟩ := bind_eq_ok.mp hrun
      obtain rfl := Except.ok.inj hset
      exact displaysOk_switch h hlist hok
  | message env dataIn =>
      obtain ⟨⟨s₁, out⟩, hhandle, hset⟩ := bind_eq_ok.mp hrun
      obtain rfl := Except.ok.inj hset
      exact displaysOk_message h hhandle
  | doRepaintCycleCompleted =>
      -- the ring is empty between two calls
      have hnone : getTask s.taskAfterRepaintCycle = none := by
        rw [getTask_eq_none_iff, ← Bool.not_eq_true, haveTask_iff h.helper.ring]
        exact fun hhave => hhave h.idle
      have hidle : helpDoRepaintCycleCompleted jc s = .ok s := by
        unfold helpDoRepaintCycleCompleted maxTaskNum repaintLoop
        simp only [hnone]
      obtain rfl := Except.ok.inj (hidle.symm.trans hrun)
      exact h
  | updateUiLogicSizeInfo w hh =>
      obtain rfl := Except.ok.inj hrun
      have hsame : (helpUpdateUiLogicSizeInfo s w hh).screen = s.screen ∧
          (helpUpdateUiLogicSizeInfo s w hh).taskAfterRepaintCycle = s.taskAfterRepaintCycle ∧
          (helpUpdateUiLogicSizeInfo s w hh).effects = s.effects := by
        unfold helpUpdateUiLogicSizeInfo
        split_ifs <;> exact ⟨rfl, rfl, rfl⟩
      obtain ⟨hscreen, hqueue, heffects⟩ := hsame
      exact h.of_same hok hscreen (hqueue ▸ h.idle) (congrArg switchCalls heffects)
  | updateDisplayModeInfo mode =>
      obtain rfl := Except.ok.inj hrun
      exact h.of_same hok rfl h.idle rfl
  | setForceRefreshFunction registered =>
      obtain rfl := Except.ok.inj hrun
      exact h.of_same hok rfl h.idle rfl
  | setPrintinfoFunction registered =>
      obtain rfl := Except.ok.inj hrun
      exact h.of_same hok rfl h.idle rfl
  | _ =>
      -- the connectors have nothing to do with it
      obtain ⟨r, -, hset⟩ := bind_eq_ok.mp hrun
      obtain rfl := Except.ok.inj hset
      exact h.of_same hok rfl h.idle rfl

/-- The helper and the abstract machine, side by side. -/
def displayStep (jc : JsonC) (x : HelperState × Displays) (call : HelperCall) :
    Option (HelperState × Displays) :=
  (callStep jc x.1 call).map fun s => (s, x.2.after jc call)

/-- **What is asked for is switched.**  For any calls by the compositor and by
clients: the outputs, the enabled ones among them, and what `switch_mode` is
called for are in every state those of the abstract machine if and only if no
call forgets anything. -/
theorem switched_as_asked_iff (jc : JsonC) (atomicModesetEnable : Bool)
    (calls : List HelperCall) :
    Throughout (displayStep jc) (fun x => Agrees x.1 x.2)
        (HelperState.init atomicModesetEnable, Displays.init) calls
      ↔ Meets (displayStep jc) (fun x call => ¬ Forgets x.1 call)
        (HelperState.init atomicModesetEnable, Displays.init) calls := by
  refine throughout_iff (I := fun x : HelperState × Displays => DisplaysOk jc x.1 x.2)
    (fun _ h => h.agrees) ?_ ?_ calls
    (displaysOk_init atomicModesetEnable)
  · intro x call h hstuck hforgets
    cases call with
    | updataCompositorOutput callocOk older newer =>
        -- it returns, so it is not stuck
        obtain ⟨⟨list, hlist⟩, -⟩ := hforgets
        have hrun : (HelperCall.updataCompositorOutput callocOk older newer).run jc x.1
            = .ok { x.1 with outputList := list } := by
          unfold HelperCall.run
          simp only [hlist, ok_bind]
        have hstep : callStep jc x.1 (.updataCompositorOutput callocOk older newer)
            = some { x.1 with outputList := list } := callStep_eq_some.mpr hrun
        unfold displayStep at hstuck
        rw [hstep] at hstuck
        exact absurd hstuck (by simp)
    | _ => exact hforgets
  · intro x call x' h hstep
    obtain ⟨s', hcall, rfl⟩ := Option.map_eq_some_iff.mp hstep
    have hrun := callStep_eq_some.mp hcall
    by_cases hforgets : Forgets x.1 call
    · refine .inr ⟨not_not.mpr hforgets, ?_⟩
      cases call with
      | updataCompositorOutput callocOk older newer =>
          obtain ⟨list, hlist, hset⟩ := bind_eq_ok.mp hrun
          obtain rfl := Except.ok.inj hset
          exact not_agrees_of_forgets h hforgets.2 hlist
      | _ => exact hforgets.elim
    · exact .inl ⟨hforgets, displaysOk_call h call hforgets hrun⟩

end Agreement

end MesonDisplay.Helper
