/-
  MesonDisplay.Helper.UiViewport — the rectangle that the UI is shown in.

  The compositor reports the size of the UI, and asks for the rectangle when it
  builds a frame.  Clients set the rectangle and get it.  A rectangle that was
  set is kept from then on, whatever the compositor reports.

  Main results:
    * `ui_viewport_follows_history` — the answers of both queries, from the
      calls before them.
    * `uiViewport_kept_iff` — the requests that leave the rectangle alone.
-/
import MesonDisplay.Helper.ReplyObjects
import MesonDisplay.Helper.Requests
import MesonDisplay.Lib.Runs

namespace MesonDisplay.Helper

open MesonDisplay.Runs
open MesonDisplay.Json (jsonText jsonText_readsObjects jsonText_getsInts)

/-! ## §1. The requests. -/

/-- `drm_output_rect`. -/
structure DrmOutputRect where
  x : Int32
  y : Int32
  w : UInt32
  h : UInt32
  deriving DecidableEq

/-- The numbers of a rectangle. -/
def DrmOutputRect.numbers (r : DrmOutputRect) : DrmHelperRect :=
  ⟨r.x.toInt, r.y.toInt, r.w.toNat, r.h.toNat⟩

/-- `drm_help_client_set_ui_rect`: what it sends. -/
def setUiRectData (rect : DrmOutputRect) : Option Json :=
  let info := addAll .newObject
    [("x", newInt rect.x.toInt), ("y", newInt rect.y.toInt),
      ("w", newInt rect.w.toNat), ("h", newInt rect.h.toNat)]
  Ipc.sendCmd (some "set ui rect") (some (.jsonObject info))

/-- `drm_help_client_get_ui_rect`: what it sends. -/
def getUiRectData : Option Json := Ipc.sendCmd (some "get ui rect") none

/-- The rectangle that `drm_help_client_get_ui_rect` returns, if there is a
reply. -/
def readUiRect (jc : JsonC) (reply : Json) : Option DrmOutputRect :=
  if reply.isNull then none
  else some
    { x := Int32.ofInt (jc.getInt (reply.objectGet "x")).1
      y := Int32.ofInt (jc.getInt (reply.objectGet "y")).1
      w := UInt32.ofInt (jc.getInt (reply.objectGet "w")).1
      h := UInt32.ofInt (jc.getInt (reply.objectGet "h")).1 }

/-- `help_get_scanout_viewport`, on the values its arguments point to. -/
def helpGetScanoutViewport (s : HelperState) (out : DrmHelperRect) : DrmHelperRect :=
  if s.uiViewportNeedModify then s.uiViewport else out

/-! ## §2. Numbers on the way. -/

theorem toInt32_toInt (x : Int32) : toInt32 x.toInt = x.toInt := by
  have hlo := x.le_toInt
  have hhi := x.toInt_lt
  unfold toInt32
  rw [Int.bmod_def]
  omega

theorem toUInt32_toInt32 {n : Nat} (h : n < 2 ^ 32) : toUInt32 (toInt32 n) = n := by
  unfold toUInt32 toInt32
  rw [Int.bmod_def]
  omega

section Numbers

variable {jc : JsonC}

theorem getInt_newInt (hg : jc.GetsInts) (n : Int) : jc.getInt (newInt n) = (toInt32 n, 0) :=
  hg.int32 _ (toInt32_bounds n).1 (toInt32_bounds n).2

/-- The object of a rectangle, as both sides build it. -/
def rectObject (r : DrmHelperRect) : Json :=
  .object [("x", newInt r.x), ("y", newInt r.y), ("w", newInt r.w), ("h", newInt r.h)]

theorem wf_rectObject (r : DrmHelperRect) : (rectObject r).wf = true := by
  have hx : isCString "x" = true := by decide
  have hy : isCString "y" = true := by decide
  have hw : isCString "w" = true := by decide
  have hh : isCString "h" = true := by decide
  simp [rectObject, Json.wf, Json.wfFields, wf_newInt, hx, hy, hw, hh]

/-! ## §3. One call. -/

/-- A call about the rectangle. -/
inductive UiCall where
  | setUiRect (env : MessageEnv) (rect : DrmOutputRect)
  | updateUiLogicSizeInfo (w h : UInt32)
  | getScanoutViewport (out : DrmHelperRect)
  | getUiRect (env : MessageEnv)

/-- The state after a call. -/
def UiCall.run (jc : JsonC) (s : HelperState) : UiCall → Except Fault HelperState
  | .setUiRect env rect => do
      let (s, _) ← exchange jc env s (setUiRectData rect)
      .ok s
  | .updateUiLogicSizeInfo w h => .ok (helpUpdateUiLogicSizeInfo s w.toNat h.toNat)
  | .getScanoutViewport _ => .ok s
  | .getUiRect env => do
      let (s, _) ← exchange jc env s getUiRectData
      .ok s

/-- A call that returns. -/
def uiStep (jc : JsonC) (s : HelperState) (call : UiCall) : Option HelperState :=
  (call.run jc s).toOption

/-- `drm_help_client_get_ui_rect`: the rectangle it returns. -/
def getUiRectResult (jc : JsonC) (env : MessageEnv) (s : HelperState) :
    Except Fault (Option DrmOutputRect) := do
  let (_, out) ← exchange jc env s getUiRectData
  .ok (readUiRect jc (replyOf (jc.received out)))

theorem exchange_setUiRect (hr : jc.ReadsObjects) (hg : jc.GetsInts) (env : MessageEnv)
    (s : HelperState) (rect : DrmOutputRect) :
    exchange jc env s (setUiRectData rect)
      = .ok ({ s with uiViewport := rect.numbers, uiViewportNeedModify := true }, .null) := by
  have hdata : setUiRectData rect
      = some (.object [("cmd", .string "set ui rect"), ("value", rectObject rect.numbers)]) := rfl
  have hrequest : (Json.object [("cmd", .string "set ui rect"),
      ("value", rectObject rect.numbers)]).IsRequest := by
    have hcmd : isCString "cmd" = true := by decide
    have hvalue : isCString "value" = true := by decide
    refine ⟨?_, rfl⟩
    simp [Json.wf, Json.wfFields, wf_rectObject, hcmd, hvalue]
  have hw := toUInt32_toInt32 rect.w.toNat_lt
  have hh := toUInt32_toInt32 rect.h.toNat_lt
  -- the handler gets the numbers one by one
  have hset : setUiRect jc s (rectObject rect.numbers)
      = { s with uiViewport := rect.numbers, uiViewportNeedModify := true } := by
    have hmember : ∀ key n, (rectObject rect.numbers).objectGet key = newInt n →
        jc.getInt ((rectObject rect.numbers).objectGet key) = (toInt32 n, 0) := by
      intro key n hn
      rw [hn, getInt_newInt hg]
    unfold setUiRect
    rw [hmember "x" rect.numbers.x rfl, hmember "y" rect.numbers.y rfl,
      hmember "w" rect.numbers.w rfl, hmember "h" rect.numbers.h rfl]
    simp [rectObject, DrmOutputRect.numbers, Json.isNull, toInt32_toInt, hw, hh]
  unfold exchange
  rw [hdata]
  simp only
  rw [hr.received_eq hrequest]
  show Except.ok (setUiRect jc s (rectObject rect.numbers), Json.null) = _
  rw [hset]

theorem exchange_getUiRect (hr : jc.ReadsObjects) (env : MessageEnv) (s : HelperState) :
    exchange jc env s getUiRectData = .ok (s, rectObject s.uiViewport) := by
  have hdata : getUiRectData = some (.object [("cmd", .string "get ui rect")]) := rfl
  have hrequest : (Json.object [("cmd", .string "get ui rect")]).IsRequest := by decide
  unfold exchange
  rw [hdata]
  simp only
  rw [hr.received_eq hrequest]
  rfl

theorem readUiRect_reply (hr : jc.ReadsObjects) (hg : jc.GetsInts) (rect : DrmOutputRect) :
    readUiRect jc (replyOf (jc.received (rectObject rect.numbers))) = some rect := by
  have hreply : replyOf (rectObject rect.numbers) = rectObject rect.numbers := rfl
  have hint : ∀ x : Int32, Int32.ofInt (toInt32 x.toInt) = x := by
    intro x
    rw [toInt32_toInt, Int32.ofInt_toInt]
  have hnat : ∀ w : UInt32, UInt32.ofInt (toInt32 w.toNat) = w := by
    intro w
    have hw := toUInt32_toInt32 w.toNat_lt
    unfold toUInt32 at hw
    unfold UInt32.ofInt
    rw [hw, UInt32.ofNat_toNat]
  have hmember : ∀ key n, (rectObject rect.numbers).objectGet key = newInt n →
      (jc.getInt ((rectObject rect.numbers).objectGet key)).1 = toInt32 n := by
    intro key n hn
    rw [hn, getInt_newInt hg]
  rw [hr.received_eq ⟨wf_rectObject _, rfl⟩, hreply]
  unfold readUiRect
  rw [if_neg (by simp [rectObject]), hmember "x" rect.numbers.x rfl,
    hmember "y" rect.numbers.y rfl, hmember "w" rect.numbers.w rfl,
    hmember "h" rect.numbers.h rfl]
  simp only [DrmOutputRect.numbers, hint, hnat]

/-! ## §4. What a history says. -/

/-- The rectangle that was set last.  The last call comes first. -/
def lastUiRect : List UiCall → Option DrmOutputRect
  | [] => none
  | .setUiRect _ rect :: _ => some rect
  | _ :: past => lastUiRect past

/-- The size that was reported last. -/
def lastLogicSize : List UiCall → UInt32 × UInt32
  | [] => (0, 0)
  | .updateUiLogicSizeInfo w h :: _ => (w, h)
  | _ :: past => lastLogicSize past

/-- The rectangle of the UI: the one that was set, or the whole size. -/
def uiRectAfter (past : List UiCall) : DrmOutputRect :=
  match lastUiRect past with
  | some rect => rect
  | none => ⟨0, 0, (lastLogicSize past).1, (lastLogicSize past).2⟩

/-- The state says what the history says. -/
structure UiFollows (s : HelperState) (past : List UiCall) : Prop where
  viewport : s.uiViewport = (uiRectAfter past).numbers
  modified : s.uiViewportNeedModify = (lastUiRect past).isSome

theorem uiFollows_init (atomicModesetEnable : Bool) :
    UiFollows (.init atomicModesetEnable) [] := ⟨rfl, rfl⟩

/-- **One call** returns, and the state follows. -/
theorem uiStep_spec (hr : jc.ReadsObjects) (hg : jc.GetsInts) {s : HelperState}
    {past : List UiCall} (call : UiCall) (hs : UiFollows s past) :
    ∃ s', uiStep jc s call = some s' ∧ UiFollows s' (call :: past) := by
  unfold uiStep
  cases call with
  | setUiRect env rect =>
      simp only [UiCall.run, exchange_setUiRect hr hg, LinkedList.ok_bind]
      exact ⟨_, rfl, rfl, rfl⟩
  | updateUiLogicSizeInfo w h =>
      refine ⟨_, rfl, ?_⟩
      have hlast : lastUiRect (.updateUiLogicSizeInfo w h :: past) = lastUiRect past := rfl
      have hmodified := hs.modified
      have hviewport := hs.viewport
      unfold helpUpdateUiLogicSizeInfo
      unfold uiRectAfter at hviewport
      cases hrect : lastUiRect past with
      | none =>
          -- no rectangle was set: the size is the rectangle
          rw [hrect] at hmodified
          rw [if_pos (by simp [hmodified])]
          exact ⟨by simp [uiRectAfter, hlast, hrect, lastLogicSize, DrmOutputRect.numbers],
            by rw [hlast, hrect]; exact hmodified⟩
      | some rect =>
          rw [hrect] at hmodified hviewport
          rw [if_neg (by simp [hmodified])]
          exact ⟨by simp [uiRectAfter, hlast, hrect, hviewport],
            by rw [hlast, hrect]; exact hmodified⟩
  | getScanoutViewport out => exact ⟨s, rfl, hs.viewport, hs.modified⟩
  | getUiRect env =>
      simp only [UiCall.run, exchange_getUiRect hr, LinkedList.ok_bind]
      exact ⟨s, rfl, hs.viewport, hs.modified⟩

/-- Call after call. -/
theorem uiFollows_run (hr : jc.ReadsObjects) (hg : jc.GetsInts) (calls : List UiCall) :
    ∀ {s : HelperState} {past : List UiCall}, UiFollows s past →
      ∃ s', run (uiStep jc) s calls = some s' ∧ UiFollows s' (calls.reverse ++ past) := by
  induction calls with
  | nil => exact fun hs => ⟨_, rfl, hs⟩
  | cons call calls ih =>
      intro s past hs
      obtain ⟨s₁, hstep, hs₁⟩ := uiStep_spec hr hg call hs
      rw [run_cons hstep, List.reverse_cons, List.append_assoc]
      exact ih hs₁

/-- **The viewport follows its history.**  Every run of calls returns.  Behind
it a client gets the rectangle that was set last, or the size that was reported
last if none was set; the compositor gets the rectangle that was set last, or
nothing if none was set. -/
theorem ui_viewport_follows_history (hr : jc.ReadsObjects) (hg : jc.GetsInts)
    (atomicModesetEnable : Bool) (calls : List UiCall) :
    ∃ s, run (uiStep jc) (.init atomicModesetEnable) calls = some s ∧
      (∀ env, getUiRectResult jc env s = .ok (some (uiRectAfter calls.reverse))) ∧
      ∀ out, helpGetScanoutViewport s out
        = ((lastUiRect calls.reverse).map DrmOutputRect.numbers).getD out := by
  obtain ⟨s, hrun, hs⟩ := uiFollows_run hr hg calls (uiFollows_init atomicModesetEnable)
  rw [List.append_nil] at hs
  have hviewport := hs.viewport
  refine ⟨s, hrun, ?_, ?_⟩
  · intro env
    unfold getUiRectResult
    simp only [exchange_getUiRect hr, LinkedList.ok_bind, hviewport, readUiRect_reply hr hg]
  · intro out
    unfold helpGetScanoutViewport
    rw [hs.modified]
    cases hrect : lastUiRect calls.reverse with
    | none => rfl
    | some rect =>
        unfold uiRectAfter at hviewport
        rw [hrect] at hviewport
        exact hviewport

end Numbers

/-- A rectangle is set between two reports of the size. -/
theorem rect_set_between_sizes :
    ∃ s, run (uiStep jsonText) (.init true)
        [.updateUiLogicSizeInfo 1920 1080, .setUiRect .silent ⟨-8, 4, 1280, 4294967295⟩,
          .updateUiLogicSizeInfo 3840 2160] = some s ∧
      (∀ env, getUiRectResult jsonText env s = .ok (some ⟨-8, 4, 1280, 4294967295⟩)) ∧
      ∀ out, helpGetScanoutViewport s out = ⟨-8, 4, 1280, 4294967295⟩ :=
  ui_viewport_follows_history jsonText_readsObjects jsonText_getsInts true
    [.updateUiLogicSizeInfo 1920 1080, .setUiRect .silent ⟨-8, 4, 1280, 4294967295⟩,
      .updateUiLogicSizeInfo 3840 2160]

/-! ## §5. Rectangles that are not complete. -/

/-- The members of a rectangle. -/
def uiRectKeys : List String := ["x", "y", "w", "h"]

/-- The value of a "set ui rect" that is no rectangle: it is missing, no object,
or some member is missing or no integer. -/
def UiRectMalformed (opt : Json) : Prop :=
  ∃ key ∈ uiRectKeys, ∀ n, opt.objectGet key ≠ .int n

/-- The rectangle that the conversions of the members give. -/
def convertedRect (jc : JsonC) (opt : Json) : DrmHelperRect where
  x := toInt32 (jc.getInt (opt.objectGet "x")).1
  y := toInt32 (jc.getInt (opt.objectGet "y")).1
  w := toUInt32 (jc.getInt (opt.objectGet "w")).1
  h := toUInt32 (jc.getInt (opt.objectGet "h")).1

/-- The request is handled, and the viewport and its flag are as before. -/
def UiViewportKept (jc : JsonC) (env : MessageEnv) (s : HelperState) (dataIn : Json) : Prop :=
  ∃ s' out, mMessageHandle jc env s dataIn = .ok (s', out) ∧
    s'.uiViewport = s.uiViewport ∧ s'.uiViewportNeedModify = s.uiViewportNeedModify

section Malformed

variable {jc : JsonC} {s : HelperState}

/-- A rectangle is set unless a conversion fails. -/
theorem setUiRect_eq (opt : Json) :
    setUiRect jc s opt =
      if opt = .null ∨ ∃ key ∈ uiRectKeys, (jc.getInt (opt.objectGet key)).2 ≠ 0 then s
      else { s with uiViewport := convertedRect jc opt, uiViewportNeedModify := true } := by
  unfold setUiRect
  by_cases hnull : opt = .null
  · rw [if_pos (Json.isNull_eq_true.mpr hnull), if_pos (.inl hnull)]
  · rw [if_neg (fun h => hnull (Json.isNull_eq_true.mp h))]
    simp only [uiRectKeys, List.mem_cons, List.not_mem_nil, or_false, exists_eq_or_imp,
      exists_eq_left, hnull, false_or]
    by_cases hok : (jc.getInt (opt.objectGet "x")).2 = 0 ∧ (jc.getInt (opt.objectGet "y")).2 = 0 ∧
        (jc.getInt (opt.objectGet "w")).2 = 0 ∧ (jc.getInt (opt.objectGet "h")).2 = 0
    · rw [if_pos hok, if_neg (by simp [hok])]
      rfl
    · rw [if_neg hok, if_pos (by simpa only [not_and_or] using hok)]

theorem mMessageHandle_setUiRect (env : MessageEnv) {dataIn tmp : Json}
    (htmp : dataIn.objectGetEx "cmd" = some tmp) (hcmd : jc.getString tmp = some "set ui rect") :
    mMessageHandle jc env s dataIn = .ok (setUiRect jc s (dataIn.objectGet "value"), .null) := by
  unfold mMessageHandle
  simp only [htmp, hcmd]
  rfl

/-- **When an incomplete rectangle leaves the viewport alone.**  A member that
is missing is converted to 0 without an error, so a rectangle is only refused if
there is no value at all, or if a member that is there cannot be converted; in
any other case it is set, which changes nothing only if it is there already. -/
theorem uiViewport_kept_iff (hnull : jc.getInt .null = (0, 0)) (env : MessageEnv)
    {dataIn tmp : Json} (htmp : dataIn.objectGetEx "cmd" = some tmp)
    (hcmd : jc.getString tmp = some "set ui rect") :
    UiViewportKept jc env s dataIn ↔
      dataIn.objectGet "value" = .null ∨
      (∃ key ∈ uiRectKeys, (dataIn.objectGet "value").objectGet key ≠ .null ∧
        (jc.getInt ((dataIn.objectGet "value").objectGet key)).2 ≠ 0) ∨
      (s.uiViewportNeedModify = true ∧
        s.uiViewport = convertedRect jc (dataIn.objectGet "value")) := by
  generalize hopt : dataIn.objectGet "value" = opt
  have hhandle : mMessageHandle jc env s dataIn
      = .ok (setUiRect jc s (dataIn.objectGet "value"), .null) :=
    mMessageHandle_setUiRect env htmp hcmd
  rw [hopt, setUiRect_eq] at hhandle
  -- a conversion that fails is one of a member that is there
  have herrno : ∀ key, (jc.getInt (opt.objectGet key)).2 ≠ 0 ↔
      opt.objectGet key ≠ .null ∧ (jc.getInt (opt.objectGet key)).2 ≠ 0 := by
    intro key
    refine ⟨fun h => ⟨fun hmissing => ?_, h⟩, And.right⟩
    rw [hmissing, hnull] at h
    exact h rfl
  simp only [← herrno]
  unfold UiViewportKept
  rw [hhandle, ← or_assoc]
  by_cases hrefused : opt = .null ∨ ∃ key ∈ uiRectKeys, (jc.getInt (opt.objectGet key)).2 ≠ 0
  · rw [if_pos hrefused]
    exact iff_of_true ⟨s, .null, rfl, rfl, rfl⟩ (.inl hrefused)
  · rw [if_neg hrefused, or_iff_right hrefused]
    constructor
    · rintro ⟨s', out, hrun, hrect, hflag⟩
      obtain ⟨rfl, -⟩ := Prod.mk.inj (Except.ok.inj hrun)
      exact ⟨hflag.symm, hrect.symm⟩
    · rintro ⟨hflag, hrect⟩
      exact ⟨_, .null, rfl, hrect.symm, hflag.symm⟩

end Malformed

/-- The width is no number: the rectangle is refused. -/
theorem uiRect_without_width_refused :
    let dataIn := Json.object [("cmd", .string "set ui rect"), ("value", .object
      [("x", .int 10), ("y", .int 20), ("w", .string "wide"), ("h", .int 360)])]
    UiRectMalformed (dataIn.objectGet "value") ∧
      UiViewportKept jsonText .silent (.init true) dataIn := by
  refine ⟨⟨"w", by decide, fun n h => Json.noConfusion (h : Json.string "wide" = .int n)⟩, ?_⟩
  refine (uiViewport_kept_iff rfl .silent rfl (by decide +kernel)).mpr ?_
  exact .inr (.inl ⟨"w", by decide, by decide +kernel, by decide +kernel⟩)

/-- A rectangle without a height is set, with a height of 0. -/
theorem uiRect_without_height_set :
    let dataIn := Json.object [("cmd", .string "set ui rect"),
      ("value", .object [("x", .int 10), ("y", .int 20), ("w", .int 640)])]
    UiRectMalformed (dataIn.objectGet "value") ∧
      (∃ s', mMessageHandle jsonText .silent (.init true) dataIn = .ok (s', .null) ∧
        s'.uiViewport = ⟨10, 20, 640, 0⟩ ∧ s'.uiViewportNeedModify = true) ∧
      ¬ UiViewportKept jsonText .silent (.init true) dataIn := by
  refine ⟨⟨"h", by decide, fun n h => Json.noConfusion (h : Json.null = .int n)⟩,
    ⟨_, rfl, by decide +kernel, by decide +kernel⟩, ?_⟩
  rintro ⟨s', out, hrun, -, hflag⟩
  obtain ⟨rfl, -⟩ := Prod.mk.inj (Except.ok.inj hrun)
  exact absurd hflag (by decide +kernel)

end MesonDisplay.Helper
