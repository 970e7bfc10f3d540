/-
  MesonDisplay.Helper.MessageFrame — what a request leaves alone.

  The handlers of `m_message_handle` are built from a few steps: a task is put
  into the ring or taken out of it, a loop over the outputs calls a callback, a
  loop over the connectors writes properties, an effect is recorded.  A relation
  between two states that holds across these steps holds across the handlers.

  Main results:
    * `handleSetMode_frame` — "set mode", with the tasks it processes.
    * `otherRequest_frame` — every other request but "set ui rect".
-/
import MesonDisplay.Helper.Message

namespace MesonDisplay.Helper

open MesonDisplay.LinkedList

/-! ## §1. The steps. -/

/-- The steps of "set mode". -/
structure TaskFrame (K : HelperState → HelperState → Prop) : Prop where
  refl : ∀ s, K s s
  trans : ∀ {s s' s''}, K s s' → K s' s'' → K s s''
  emit : ∀ s e, K s (s.emit e)
  tasks : ∀ s tasks, K s { s with taskAfterRepaintCycle := tasks }
  outputs : ∀ {s s' call}, forEachEnabled call s = .ok s' → K s s'

/-- The steps of the requests that have nothing to do with outputs. -/
structure RequestFrame (K : HelperState → HelperState → Prop) : Prop where
  refl : ∀ s, K s s
  trans : ∀ {s s' s''}, K s s' → K s' s'' → K s s''
  locked : ∀ s h, K s ({ s.emit .lock with connectorList := h }.emit .unlock)
  info : ∀ s value, K s (s.emit (.printInfo value))

variable {K : HelperState → HelperState → Prop} {jc : JsonC} {env : MessageEnv}
  {s s' : HelperState} {dataIn out : Json}

/-! ## §2. Tasks. -/

section Tasks

variable (hK : TaskFrame K)

include hK

theorem switchModes_frame {mode : DrmHelperMode} (hrun : switchModes s mode = .ok s') :
    K s s' := by
  unfold switchModes at hrun
  split_ifs at hrun with hregistered
  · obtain ⟨first, -, hrest⟩ := bind_eq_ok.mp hrun
    split_ifs at hrest with hdata
    · exact hK.outputs hrest
    · split at hrest
      · obtain rfl := Except.ok.inj hrest
        exact hK.emit s _
      · obtain rfl := Except.ok.inj hrest
        exact hK.refl s
  · obtain rfl := Except.ok.inj hrun
    exact hK.refl s

theorem processTask_frame {task : Json} (hrun : processTask jc s task = .ok s') : K s s' := by
  unfold processTask at hrun
  split at hrun
  · exact absurd hrun (by simp)
  · simp only at hrun
    split at hrun
    · exact absurd hrun (by simp)
    · split_ifs at hrun with hset
      · split at hrun
        · exact absurd hrun (by simp)
        · split at hrun
          · obtain rfl := Except.ok.inj hrun
            exact hK.refl s
          -- the callbacks run between the lock and the unlock
          · obtain ⟨s₁, hswitch, hok⟩ := bind_eq_ok.mp hrun
            obtain rfl := Except.ok.inj hok
            have hlock : K s (s.emit .lock) := hK.emit s .lock
            have hcalls : K (s.emit .lock) s₁ := switchModes_frame hK hswitch
            have hunlock : K s₁ (s₁.emit .unlock) := hK.emit s₁ .unlock
            exact hK.trans (hK.trans hlock hcalls) hunlock
      · obtain rfl := Except.ok.inj hrun
        exact hK.refl s

theorem repaintLoop_frame (fuel : Nat) : ∀ {s : HelperState},
    repaintLoop jc fuel s = .ok s' → K s s' := by
  induction fuel with
  | zero =>
      intro s hrun
      exact absurd hrun (by simp [repaintLoop])
  | succ fuel ih =>
      intro s hrun
      unfold repaintLoop at hrun
      split at hrun
      · obtain rfl := Except.ok.inj hrun
        exact hK.refl s
      · next task tasks _ =>
          have htaken : K s { s with taskAfterRepaintCycle := tasks } := hK.tasks s tasks
          simp only at hrun
          split_ifs at hrun with hnull
          · obtain ⟨s₁, hok, hrest⟩ := bind_eq_ok.mp hrun
            obtain rfl := Except.ok.inj hok
            exact hK.trans htaken (ih hrest)
          · obtain ⟨s₁, htask, hrest⟩ := bind_eq_ok.mp hrun
            exact hK.trans (hK.trans htaken (processTask_frame hK htask)) (ih hrest)

theorem triggerRefresh_frame (hrun : triggerRefresh s = .ok s') : K s s' := by
  unfold triggerRefresh at hrun
  split_ifs at hrun with hregistered
  · obtain ⟨first, -, hrest⟩ := bind_eq_ok.mp hrun
    split_ifs at hrest with hdata
    · exact hK.outputs hrest
    · obtain rfl := Except.ok.inj hrest
      exact hK.refl s
  · obtain rfl := Except.ok.inj hrun
    exact hK.refl s

/-- **"set mode".** -/
theorem handleSetMode_frame {opt : Json}
    (hrun : handleSetMode jc env s dataIn opt = .ok (s', out)) : K s s' := by
  unfold handleSetMode at hrun
  split at hrun
  · obtain ⟨rfl, -⟩ := Prod.mk.inj (Except.ok.inj hrun)
    exact hK.refl s
  · split at hrun
    · obtain ⟨rfl, -⟩ := Prod.mk.inj (Except.ok.inj hrun)
      exact hK.refl s
    -- the task is scheduled or not, and both branches end with the refresh
    · have hrefresh : ∀ {s₁ : HelperState}, K s s₁ →
          (do let s ← triggerRefresh s₁; .ok (s, Json.null)) = .ok (s', out) → K s s' := by
        intro s₁ hs₁ hrest
        obtain ⟨s₂, hrun₂, hok⟩ := bind_eq_ok.mp hrest
        obtain ⟨rfl, -⟩ := Prod.mk.inj (Except.ok.inj hok)
        exact hK.trans hs₁ (triggerRefresh_frame hK hrun₂)
      have hscheduled := hK.tasks s (scheduleTask env.copyOk s.taskAfterRepaintCycle dataIn).1
      simp only at hrun
      split_ifs at hrun with haccepted
      · obtain ⟨s₁, hcycle, hrest⟩ := bind_eq_ok.mp hrun
        exact hrefresh (hK.trans hscheduled (repaintLoop_frame hK maxTaskNum hcycle)) hrest
      · obtain ⟨s₁, hok, hrest⟩ := bind_eq_ok.mp hrun
        obtain rfl := Except.ok.inj hok
        exact hrefresh hscheduled hrest

end Tasks

theorem mMessageHandle_setMode (env : MessageEnv)
    (hcmd : (dataIn.objectGetEx "cmd").bind jc.getString = some "set mode") :
    mMessageHandle jc env s dataIn
      = handleSetMode jc env s dataIn (dataIn.objectGet "value") := by
  obtain ⟨tmp, htmp, hget⟩ := Option.bind_eq_some_iff.mp hcmd
  unfold mMessageHandle
  simp only [htmp, hget, if_true]

theorem mMessageHandle_setRange (env : MessageEnv)
    (hcmd : (dataIn.objectGetEx "cmd").bind jc.getString
      = some "set connector range properties") :
    mMessageHandle jc env s dataIn
      = handleSetRangeProperties jc env s (dataIn.objectGet "value") := by
  obtain ⟨tmp, htmp, hget⟩ := Option.bind_eq_some_iff.mp hcmd
  unfold mMessageHandle
  simp only [htmp, hget, if_true]
  rw [if_neg (by decide), if_neg (by decide)]

/-! ## §3. Other requests. -/

section Requests

variable (hK : RequestFrame K)

include hK

theorem lockedLoop_frame {σ : Type}
    {body : σ → ConnectorNode → Except Fault (ConnectorNode × Loop σ)} {init x : σ}
    (hrun : lockedLoop body s init = .ok (s', x)) : K s s' := by
  obtain ⟨⟨h, x', _⟩, -, hok⟩ := bind_eq_ok.mp hrun
  obtain ⟨rfl, -⟩ := Prod.mk.inj (Except.ok.inj hok)
  exact hK.locked s h

theorem setRangeProperties_frame (fs : List (String × Json)) : ∀ {s : HelperState},
    setRangeProperties jc env s fs = .ok s' → K s s' := by
  induction fs with
  | nil =>
      intro s hrun
      obtain rfl := Except.ok.inj hrun
      exact hK.refl s
  | cons f fs ih =>
      intro s hrun
      obtain ⟨s₁, hset, hrest⟩ := bind_eq_ok.mp hrun
      rcases setRangeProperty_cases hset with rfl | ⟨i, u, -, -, -, hloop⟩
      · exact ih hrest
      · exact hK.trans (lockedLoop_frame hK hloop) (ih hrest)

/-- **A request** that sets neither a mode nor a rectangle. -/
theorem otherRequest_frame
    (hmode : (dataIn.objectGetEx "cmd").bind jc.getString ≠ some "set mode")
    (hrect : (dataIn.objectGetEx "cmd").bind jc.getString ≠ some "set ui rect")
    (hrun : mMessageHandle jc env s dataIn = .ok (s', out)) : K s s' := by
  let Kept (r : Except Fault (HelperState × Json)) : Prop :=
    ∀ s' out, r = .ok (s', out) → K s s'
  have hall : Kept (mMessageHandle jc env s dataIn) := by
    apply mMessageHandle_cases
    case absent =>
      intro _ s' out h
      obtain ⟨rfl, -⟩ := Prod.mk.inj (Except.ok.inj h)
      exact hK.refl s
    case null => exact fun _ _ _ _ _ h => absurd h (by simp)
    case command =>
      intro tmp cmd htmp hcmd
      have hsome : (dataIn.objectGetEx "cmd").bind jc.getString = some cmd := by
        rw [htmp, Option.bind_some, hcmd]
      refine ⟨?setMode, ?getModes, ?setRange, ?getRange, ?setUi, ?getInfo, ?reply⟩
      case setMode => exact fun hset => absurd (hset ▸ hsome) hmode
      case getModes => exact fun _ _ _ h => lockedLoop_frame hK h
      case setRange =>
        intro _ s' out h
        unfold handleSetRangeProperties at h
        split at h
        · obtain ⟨rfl, -⟩ := Prod.mk.inj (Except.ok.inj h)
          exact hK.refl s
        · obtain ⟨s₁, hset, hok⟩ := bind_eq_ok.mp h
          obtain ⟨rfl, -⟩ := Prod.mk.inj (Except.ok.inj hok)
          exact setRangeProperties_frame hK _ hset
        · exact absurd h (by simp)
      case getRange =>
        intro _ s' out h
        unfold handleGetRangeProperties at h
        split at h
        · obtain ⟨rfl, -⟩ := Prod.mk.inj (Except.ok.inj h)
          exact hK.refl s
        · split_ifs at h with hname
          · obtain ⟨rfl, -⟩ := Prod.mk.inj (Except.ok.inj h)
            exact hK.refl s
          · exact lockedLoop_frame hK h
      case setUi => exact fun hset => absurd (hset ▸ hsome) hrect
      case getInfo =>
        intro _ s' out h
        unfold handleGetInfo at h
        split_ifs at h with hregistered
        obtain ⟨rfl, -⟩ := Prod.mk.inj (Except.ok.inj h)
        exact hK.info s _
      case reply =>
        intro dataOut s' out h
        obtain ⟨rfl, -⟩ := Prod.mk.inj (Except.ok.inj h)
        exact hK.refl s
  exact hall s' out hrun

end Requests

end MesonDisplay.Helper
