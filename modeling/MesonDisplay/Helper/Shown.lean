/-
  MesonDisplay.Helper.Shown — the rectangle and the mode that clients are told.

  Two queries need no connector: "get ui rect" and "get display mode".  What
  they report is written by three calls only: a request with a rectangle, the
  size of the UI and the mode of the display.  All other calls, whatever they
  do to connectors, outputs, tasks and callbacks, leave it alone.

  Main results:
    * `mMessageHandle_reported` — a request writes the rectangle it carries,
      or nothing.
    * `shows_run` — behind any calls the state shows what these three calls
      have written.
-/
import MesonDisplay.Helper.MessageFrame
import MesonDisplay.Helper.UiViewport

namespace MesonDisplay.Helper

open MesonDisplay.LinkedList
open MesonDisplay.Runs

/-! ## §1. What is reported. -/

/-- The variables behind the two queries. -/
structure Reported where
  uiViewportNeedModify : Bool
  uiViewport : DrmHelperRect
  displayMode : DrmModeModeInfo

def HelperState.reported (s : HelperState) : Reported :=
  ⟨s.uiViewportNeedModify, s.uiViewport, s.displayMode⟩

section Frame

variable {jc : JsonC} {env : MessageEnv} {s s' : HelperState} {dataIn out : Json}

theorem forEachEnabled_reported {call : Nat → Effect}
    (hrun : forEachEnabled call s = .ok s') : s'.reported = s.reported := by
  obtain ⟨r, -, hok⟩ := bind_eq_ok.mp hrun
  obtain rfl := Except.ok.inj hok
  rfl

/-- No step of "set mode" writes one of them. -/
theorem taskFrame_reported : TaskFrame (fun s s' => s'.reported = s.reported) where
  refl := fun _ => rfl
  trans := fun h₁ h₂ => h₂.trans h₁
  emit := fun _ _ => rfl
  tasks := fun _ _ => rfl
  outputs := forEachEnabled_reported

theorem requestFrame_reported : RequestFrame (fun s s' => s'.reported = s.reported) where
  refl := fun _ => rfl
  trans := fun h₁ h₂ => h₂.trans h₁
  locked := fun _ _ => rfl
  info := fun _ _ => rfl

/-! ## §2. Requests. -/

/-- The rectangle that a request sets. -/
def requestRect (jc : JsonC) (dataIn : Json) : Option DrmHelperRect :=
  let opt := dataIn.objectGet "value"
  if (dataIn.objectGetEx "cmd").bind jc.getString = some "set ui rect" then
    if opt = .null ∨ ∃ key ∈ uiRectKeys, (jc.getInt (opt.objectGet key)).2 ≠ 0 then none
    else some (convertedRect jc opt)
  else none

/-- A rectangle is written, and no size replaces it from then on. -/
def Reported.setRect (r : Reported) : Option DrmHelperRect → Reported
  | some rect => { r with uiViewport := rect, uiViewportNeedModify := true }
  | none => r

/-- A request that is none for a rectangle. -/
theorem mMessageHandle_kept
    (hother : (dataIn.objectGetEx "cmd").bind jc.getString ≠ some "set ui rect")
    (hrun : mMessageHandle jc env s dataIn = .ok (s', out)) : s'.reported = s.reported := by
  by_cases hmode : (dataIn.objectGetEx "cmd").bind jc.getString = some "set mode"
  · rw [mMessageHandle_setMode env hmode] at hrun
    exact handleSetMode_frame taskFrame_reported hrun
  · exact otherRequest_frame requestFrame_reported hmode hother hrun

/-- **A request** writes the rectangle it carries, or nothing. -/
theorem mMessageHandle_reported (hrun : mMessageHandle jc env s dataIn = .ok (s', out)) :
    s'.reported = s.reported.setRect (requestRect jc dataIn) := by
  unfold requestRect
  by_cases hcmd : (dataIn.objectGetEx "cmd").bind jc.getString = some "set ui rect"
  · obtain ⟨tmp, htmp, hget⟩ := Option.bind_eq_some_iff.mp hcmd
    rw [mMessageHandle_setUiRect env htmp hget] at hrun
    obtain ⟨rfl, -⟩ := Prod.mk.inj (Except.ok.inj hrun)
    rw [setUiRect_eq, if_pos hcmd]
    split_ifs with hrefused
    · rfl
    · rfl
  · rw [if_neg hcmd]
    exact mMessageHandle_kept hcmd hrun

end Frame

/-! ## §3. All calls. -/

/-- What was written so far: the rectangle that was set last, the size and the
mode that were reported last. -/
structure Shown where
  rect : Option DrmHelperRect
  size : Nat × Nat
  mode : DrmModeModeInfo

def Shown.init : Shown where
  rect := none
  size := (0, 0)
  mode := (HelperState.init true).displayMode

/-- The rectangle of the UI. -/
def Shown.uiRect (v : Shown) : DrmHelperRect :=
  v.rect.getD ⟨0, 0, v.size.1, v.size.2⟩

/-- The rectangle that a call sets. -/
def HelperCall.uiRect (jc : JsonC) : HelperCall → Option DrmHelperRect
  | .message _ dataIn => requestRect jc dataIn
  | _ => none

/-- A call. -/
def Shown.after (jc : JsonC) (v : Shown) : HelperCall → Shown
  | .updateUiLogicSizeInfo w h => { v with size := (w, h) }
  | .updateDisplayModeInfo mode => { v with mode := mode }
  | .message _ dataIn => { v with rect := (requestRect jc dataIn).or v.rect }
  | _ => v

/-- Call after call. -/
def shownAfter (jc : JsonC) (calls : List HelperCall) : Shown :=
  calls.foldl (Shown.after jc) .init

/-- The state shows what was written. -/
def Shows (v : Shown) (s : HelperState) : Prop :=
  s.reported = ⟨v.rect.isSome, v.uiRect, v.mode⟩

/-- A call that returns. -/
def callStep (jc : JsonC) (s : HelperState) (call : HelperCall) : Option HelperState :=
  (call.run jc s).toOption

section Runs

variable {jc : JsonC} {v : Shown} {s s' : HelperState}

theorem callStep_eq_some {call : HelperCall} :
    callStep jc s call = some s' ↔ call.run jc s = .ok s' := by
  unfold callStep
  cases call.run jc s <;> simp [Except.toOption]

theorem Shows.of_reported (hv : Shows v s) (hkept : s'.reported = s.reported) : Shows v s' :=
  hkept.trans hv

/-- A size replaces the rectangle until one is set. -/
theorem shows_size (hv : Shows v s) (w h : Nat) :
    Shows { v with size := (w, h) } (helpUpdateUiLogicSizeInfo s w h) := by
  have hneed : s.uiViewportNeedModify = v.rect.isSome := congrArg Reported.uiViewportNeedModify hv
  have hrect : s.uiViewport = v.uiRect := congrArg Reported.uiViewport hv
  have hmode : s.displayMode = v.mode := congrArg Reported.displayMode hv
  unfold helpUpdateUiLogicSizeInfo Shows HelperState.reported
  unfold Shown.uiRect at hrect ⊢
  cases hset : v.rect with
  | none =>
      rw [hset] at hneed
      rw [if_pos (by simp [hneed]), hmode, hneed]
      rfl
  | some rect =>
      rw [hset] at hneed hrect
      rw [if_neg (by simp [hneed]), hmode, hneed, hrect]
      rfl

/-- **One call.** -/
theorem shows_call (hv : Shows v s) (call : HelperCall) (hrun : call.run jc s = .ok s') :
    Shows (v.after jc call) s' := by
  cases call with
  | updateUiLogicSizeInfo w h =>
      obtain rfl := Except.ok.inj hrun
      exact shows_size hv w h
  | updateDisplayModeInfo mode =>
      obtain rfl := Except.ok.inj hrun
      have hneed : s.uiViewportNeedModify = v.rect.isSome := congrArg Reported.uiViewportNeedModify hv
      have hrect : s.uiViewport = v.uiRect := congrArg Reported.uiViewport hv
      unfold Shows HelperState.reported
      rw [hneed, hrect]
      rfl
  | message env dataIn =>
      obtain ⟨⟨s₁, out⟩, hhandle, hok⟩ := bind_eq_ok.mp hrun
      obtain rfl := Except.ok.inj hok
      have hwritten := mMessageHandle_reported hhandle
      rw [hv] at hwritten
      have hafter : v.after jc (.message env dataIn)
          = { v with rect := (requestRect jc dataIn).or v.rect } := rfl
      rw [hafter]
      refine hwritten.trans ?_
      cases requestRect jc dataIn with
      | none =>
          rw [Option.none_or]
          rfl
      | some rect =>
          rw [Option.some_or]
          rfl
  | setSwitchModeFunction ctx registered =>
      obtain rfl := Except.ok.inj hrun
      exact hv
  | setForceRefreshFunction registered =>
      obtain rfl := Except.ok.inj hrun
      exact hv
  | setPrintinfoFunction registered =>
      obtain rfl := Except.ok.inj hrun
      exact hv
  | doRepaintCycleCompleted => exact hv.of_reported (repaintLoop_frame taskFrame_reported maxTaskNum hrun)
  | _ =>
      -- a list is changed, and nothing else
      obtain ⟨h, -, hok⟩ := bind_eq_ok.mp hrun
      obtain rfl := Except.ok.inj hok
      exact hv

/-- **A run of calls.** -/
theorem shows_run (calls : List HelperCall) : ∀ {v : Shown} {s : HelperState}, Shows v s →
    run (callStep jc) s calls = some s' → Shows (calls.foldl (Shown.after jc) v) s' := by
  induction calls with
  | nil =>
      intro v s hv hrun
      obtain rfl := Option.some.inj hrun
      exact hv
  | cons call calls ih =>
      intro v s hv hrun
      obtain ⟨s₁, hstep, hrest⟩ := run_cons_some hrun
      exact ih (shows_call hv call (callStep_eq_some.mp hstep)) hrest

theorem shows_init (atomicModesetEnable : Bool) : Shows .init (.init atomicModesetEnable) := rfl

theorem after_rect {call : HelperCall} {rect : DrmHelperRect}
    (hset : call.uiRect jc = some rect) (v : Shown) : (v.after jc call).rect = some rect := by
  cases call with
  | message env dataIn =>
      have hrect : requestRect jc dataIn = some rect := hset
      simp only [Shown.after, hrect, Option.some_or]
  | _ => exact absurd hset (by simp [HelperCall.uiRect])

/-- Calls that set no rectangle. -/
theorem rect_kept {calls : List HelperCall} (hkept : ∀ call ∈ calls, call.uiRect jc = none) :
    ∀ v : Shown, (calls.foldl (Shown.after jc) v).rect = v.rect := by
  induction calls with
  | nil => exact fun _ => rfl
  | cons call calls ih =>
      intro v
      obtain ⟨hcall, hcalls⟩ := List.forall_mem_cons.mp hkept
      rw [List.foldl_cons, ih hcalls]
      cases call with
      | message env dataIn =>
          have hnone : requestRect jc dataIn = none := hcall
          simp only [Shown.after, hnone, Option.none_or]
      | _ => rfl

/-- The mode is one of those that were reported, if there is one. -/
theorem mode_reported (calls : List HelperCall) : ∀ v : Shown,
    (calls.foldl (Shown.after jc) v).mode = v.mode ∨
      .updateDisplayModeInfo (calls.foldl (Shown.after jc) v).mode ∈ calls := by
  induction calls with
  | nil => exact fun _ => .inl rfl
  | cons call calls ih =>
      intro v
      rw [List.foldl_cons]
      rcases ih (v.after jc call) with hmode | hmem
      · cases call with
        | updateDisplayModeInfo mode => exact .inr (by rw [hmode]; exact List.mem_cons_self)
        | _ => exact .inl hmode
      · exact .inr (List.mem_cons_of_mem _ hmem)

end Runs

end MesonDisplay.Helper
