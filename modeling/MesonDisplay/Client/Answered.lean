/-
  MesonDisplay.Client.Answered — the requests that get a reply.

  `m_message_handle` leaves `*data_out` at NULL for some requests, and then
  nothing is sent to the client.  Which requests these are depends on the
  request alone: on its command, and for one command on its value.

  Main results:
    * `reply_isNull_iff` — the requests without a reply.
    * `mMessageHandle_interface` — a request leaves the callbacks as they are.
    * `query_replied_iff` — the queries that are answered.
-/
import MesonDisplay.Client.Replies
import MesonDisplay.Helper.MessageFrame
import MesonDisplay.Helper.MessageReturns
import MesonDisplay.Helper.UiViewport

namespace MesonDisplay.Client

open MesonDisplay.Helper
open MesonDisplay.LinkedList
open MesonDisplay.Json (jsonText)

/-! ## §1. Commands. -/

/-- The commands that `m_message_handle` answers.  The name of a property must
not be empty. -/
def CommandAnswered (jc : JsonC) (cmd : String) (opt : Json) : Prop :=
  cmd = "get modes" ∨
  (cmd = "get connector range properties" ∧ jc.getString opt ≠ none ∧
    jc.getString opt ≠ some "") ∨
  cmd = "get display mode" ∨
  cmd = "get ui rect" ∨
  cmd = "get "

/-- A request with such a command. -/
def Answered (jc : JsonC) (dataIn : Json) : Prop :=
  match dataIn.objectGetEx "cmd" with
  | none => False
  | some tmp =>
      match jc.getString tmp with
      | none => False
      | some cmd => CommandAnswered jc cmd (dataIn.objectGet "value")

instance (jc : JsonC) (cmd : String) (opt : Json) : Decidable (CommandAnswered jc cmd opt) := by
  unfold CommandAnswered
  infer_instance

instance (jc : JsonC) (dataIn : Json) : Decidable (Answered jc dataIn) := by
  unfold Answered
  split
  · infer_instance
  · split <;> infer_instance

/-! ## §2. Replies. -/

section Handler

variable {jc : JsonC} {env : MessageEnv} {s s' : HelperState} {dataIn out : Json}

theorem not_isNull_addAll (members : List (String × Json)) :
    (addAll .newObject members).isNull = false := by
  have hobject : (addAll .newObject members).isObject = true := isObject_addAll members rfl
  obtain ⟨fs, hfs⟩ := Json.isObject_iff.mp hobject
  rw [hfs]
  rfl

theorem handleGetModes_out (hs : HelperOk jc s)
    (hrun : handleGetModes env s = .ok (s', out)) : out.isNull = false := by
  obtain ⟨es, t, hok⟩ := hs.connectors
  obtain ⟨ns', hv, hnamed⟩ := visit_getModes env.drm (dataOf es) .newObject hok.named
  obtain ⟨s₁, hloop⟩ := lockedLoop_eq hok hv hnamed
  obtain ⟨-, rfl⟩ := Prod.mk.inj (Except.ok.inj (hloop.symm.trans hrun))
  exact not_isNull_addAll _

/-- Without a name of a property nothing is replied. -/
theorem handleGetRangeProperties_out (hs : HelperOk jc s) {opt : Json}
    (hrun : handleGetRangeProperties jc env s opt = .ok (s', out)) :
    out.isNull = true ↔ jc.getString opt = none ∨ jc.getString opt = some "" := by
  unfold handleGetRangeProperties at hrun
  cases hname : jc.getString opt with
  | none =>
      simp only [hname] at hrun
      obtain ⟨-, rfl⟩ := Prod.mk.inj (Except.ok.inj hrun)
      exact iff_of_true rfl (.inl rfl)
  | some name =>
      simp only [hname] at hrun
      by_cases hempty : name = ""
      · rw [if_pos hempty] at hrun
        obtain ⟨-, rfl⟩ := Prod.mk.inj (Except.ok.inj hrun)
        exact iff_of_true rfl (.inr (by rw [hempty]))
      · rw [if_neg hempty] at hrun
        obtain ⟨es, t, hok⟩ := hs.connectors
        obtain ⟨s₁, hloop⟩ :=
          lockedLoop_eq hok (visit_getRange env.drm name (dataOf es) .newObject) hok.named
        obtain ⟨-, rfl⟩ := Prod.mk.inj (Except.ok.inj (hloop.symm.trans hrun))
        refine iff_of_false (by rw [not_isNull_addAll]; simp) ?_
        simpa using hempty

theorem handleSetRangeProperties_out {opt : Json}
    (hrun : handleSetRangeProperties jc env s opt = .ok (s', out)) : out = .null := by
  cases opt with
  | null => exact (Prod.mk.inj (Except.ok.inj hrun)).2.symm
  | object fs =>
      unfold handleSetRangeProperties at hrun
      cases hfs : setRangeProperties jc env s fs with
      | error f =>
          simp only [hfs] at hrun
          exact absurd hrun (by simp)
      | ok s₁ =>
          simp only [hfs, ok_bind] at hrun
          exact (Prod.mk.inj (Except.ok.inj hrun)).2.symm
  | _ => exact absurd hrun (by simp [handleSetRangeProperties])

theorem handleSetMode_out {opt : Json}
    (hrun : handleSetMode jc env s dataIn opt = .ok (s', out)) : out = .null := by
  unfold handleSetMode at hrun
  cases hvalue : jc.getString opt with
  | none =>
      simp only [hvalue] at hrun
      exact (Prod.mk.inj (Except.ok.inj hrun)).2.symm
  | some value =>
      simp only [hvalue] at hrun
      cases hmode : parseModestring value with
      | none =>
          simp only [hmode] at hrun
          exact (Prod.mk.inj (Except.ok.inj hrun)).2.symm
      | some mode =>
          simp only [hmode] at hrun
          split_ifs at hrun with hscheduled
          · obtain ⟨s₁, -, hrest⟩ := bind_eq_ok.mp hrun
            obtain ⟨s₂, -, hout⟩ := bind_eq_ok.mp hrest
            exact (Prod.mk.inj (Except.ok.inj hout)).2.symm
          · obtain ⟨s₁, -, hrest⟩ := bind_eq_ok.mp hrun
            obtain ⟨s₂, -, hout⟩ := bind_eq_ok.mp hrest
            exact (Prod.mk.inj (Except.ok.inj hout)).2.symm

/-- **Which requests get a reply.** -/
theorem reply_isNull_iff (hs : HelperOk jc s)
    (hrun : mMessageHandle jc env s dataIn = .ok (s', out)) :
    out.isNull = true ↔ ¬ Answered jc dataIn := by
  unfold mMessageHandle at hrun
  unfold Answered
  cases htmp : dataIn.objectGetEx "cmd" with
  | none =>
      simp only [htmp] at hrun ⊢
      obtain ⟨-, rfl⟩ := Prod.mk.inj (Except.ok.inj hrun)
      exact iff_of_true rfl id
  | some tmp =>
      cases hcmd : jc.getString tmp with
      | none =>
          simp only [htmp, hcmd] at hrun
          exact absurd hrun (by simp)
      | some cmd =>
          simp only [htmp, hcmd] at hrun ⊢
          unfold CommandAnswered
          -- one case for every strcmp(), in the order of the source
          split_ifs at hrun with h₁ h₂ h₃ h₄ h₅ h₆ h₇ h₈ h₉
          · rw [handleSetMode_out hrun, h₁]
            exact iff_of_true rfl (by simp)
          · rw [handleGetModes_out hs hrun]
            exact iff_of_false (by simp) (fun h => h (.inl h₂))
          · rw [handleSetRangeProperties_out hrun, h₃]
            exact iff_of_true rfl (by simp)
          · rw [handleGetRangeProperties_out hs hrun, h₄]
            simp only [ne_eq, String.reduceEq, true_and, false_or, or_false, not_and_or, not_not]
          · obtain ⟨-, rfl⟩ := Prod.mk.inj (Except.ok.inj hrun)
            exact iff_of_false (by rw [getDisplayMode, not_isNull_addAll]; simp)
              (fun h => h (.inr (.inr (.inl h₅))))
          · obtain ⟨-, rfl⟩ := Prod.mk.inj (Except.ok.inj hrun)
            exact iff_of_false (by rw [getUiRect, not_isNull_addAll]; simp)
              (fun h => h (.inr (.inr (.inr (.inl h₆)))))
          · obtain ⟨-, rfl⟩ := Prod.mk.inj (Except.ok.inj hrun)
            rw [h₇]
            exact iff_of_true rfl (by simp)
          · obtain ⟨-, rfl⟩ := Prod.mk.inj (Except.ok.inj hrun)
            exact iff_of_false (by simp [Json.newObject, Json.isNull])
              (fun h => h (.inr (.inr (.inr (.inr h₈)))))
          · unfold handleGetInfo at hrun
            split_ifs at hrun with hregistered
            obtain ⟨-, rfl⟩ := Prod.mk.inj (Except.ok.inj hrun)
            rw [h₉]
            exact iff_of_true rfl (by simp)
          · obtain ⟨-, rfl⟩ := Prod.mk.inj (Except.ok.inj hrun)
            exact iff_of_true rfl (by simp [h₂, h₄, h₅, h₆, h₈])

/-- A request that gets a reply is handled without a fault. -/
theorem messageSafe_of_answered (ha : Answered jc dataIn) : MessageSafe jc s dataIn := by
  intro tmp htmp
  unfold Answered at ha
  simp only [htmp] at ha
  cases hcmd : jc.getString tmp with
  | none =>
      rw [hcmd] at ha
      exact absurd ha id
  | some cmd =>
      simp only [hcmd] at ha
      refine ⟨?_, ?_, ?_⟩
      · rw [Json.isNull_eq_false]
        intro hnull
        rw [JsonC.getString_eq_none.mpr hnull] at hcmd
        exact absurd hcmd (by simp)
      · intro h
        obtain rfl := Option.some.inj h
        simp [CommandAnswered] at ha
      · intro h
        obtain rfl := Option.some.inj h
        simp [CommandAnswered] at ha

/-! ## §3. The callbacks. -/

theorem forEachEnabled_interface {call : Nat → Effect}
    (hrun : forEachEnabled call s = .ok s') : s'.interface = s.interface := by
  obtain ⟨r, -, hok⟩ := bind_eq_ok.mp hrun
  obtain rfl := Except.ok.inj hok
  rfl

/-- No step of "set mode" registers a callback. -/
theorem taskFrame_interface : TaskFrame (fun s s' => s'.interface = s.interface) where
  refl := fun _ => rfl
  trans := fun h₁ h₂ => h₂.trans h₁
  emit := fun _ _ => rfl
  tasks := fun _ _ => rfl
  outputs := forEachEnabled_interface

/-- Nor does any of the other requests. -/
theorem requestFrame_interface : RequestFrame (fun s s' => s'.interface = s.interface) where
  refl := fun _ => rfl
  trans := fun h₁ h₂ => h₂.trans h₁
  locked := fun _ _ => rfl
  info := fun _ _ => rfl

/-- If the handler returns, the callbacks are as they were. -/
def KeepsCallbacks (s : HelperState) (r : Except Fault (HelperState × Json)) : Prop :=
  ∀ s' out, r = .ok (s', out) → s'.interface = s.interface

/-- **A request registers no callback.** -/
theorem mMessageHandle_keepsCallbacks (env : MessageEnv) :
    KeepsCallbacks s (mMessageHandle jc env s dataIn) := by
  intro s' out hrun
  by_cases hmode : (dataIn.objectGetEx "cmd").bind jc.getString = some "set mode"
  · rw [mMessageHandle_setMode env hmode] at hrun
    exact handleSetMode_frame taskFrame_interface hrun
  · by_cases hrect : (dataIn.objectGetEx "cmd").bind jc.getString = some "set ui rect"
    · obtain ⟨tmp, htmp, hget⟩ := Option.bind_eq_some_iff.mp hrect
      rw [mMessageHandle_setUiRect env htmp hget] at hrun
      obtain ⟨rfl, -⟩ := Prod.mk.inj (Except.ok.inj hrun)
      -- the rectangle is written or refused
      rw [setUiRect_eq]
      split_ifs <;> rfl
    · exact otherRequest_frame requestFrame_interface hmode hrect hrun

theorem mMessageHandle_interface (hrun : mMessageHandle jc env s dataIn = .ok (s', out)) :
    s'.interface = s.interface :=
  mMessageHandle_keepsCallbacks env s' out hrun

/-- So what it does without a fault is the same before and after it. -/
theorem messageSafe_interface (hsame : s'.interface = s.interface) :
    MessageSafe jc s' dataIn ↔ MessageSafe jc s dataIn := by
  unfold MessageSafe
  rw [hsame]

instance : Decidable (MessageSafe jc s dataIn) :=
  inferInstanceAs (Decidable (∀ tmp ∈ dataIn.objectGetEx "cmd",
    tmp.isNull = false ∧
    (jc.getString tmp = some "set connector range properties" →
      (dataIn.objectGet "value").isNull = true ∨ (dataIn.objectGet "value").isObject = true) ∧
    (jc.getString tmp = some "get info" → s.interface.printInfo = true)))

end Handler

/-! ## §4. Queries. -/

/-- A query: the command is a string that starts with "get ", but it is not
"get info", for which no client waits. -/
structure IsQuery (jc : JsonC) (dataIn : Json) (cmd : String) : Prop where
  request : dataIn.isObject = true
  command : ∃ text, dataIn.objectGetEx "cmd" = some (.string text) ∧
    jc.getString (.string text) = some cmd
  get : "get ".toList <+: cmd.toList
  waited : cmd ≠ "get info"

/-- The query is handled, and something is left in `*data_out`. -/
def Replied (jc : JsonC) (env : MessageEnv) (s : HelperState) (dataIn : Json) : Prop :=
  ∃ s' out, mMessageHandle jc env s dataIn = .ok (s', out) ∧ out.isNull = false

/-- **Which queries are answered.**  What is meant for unknown commands and wrong
parameters compares the whole command with "get ", so an unknown query gets no
reply, nor does "get connector range properties" without a name. -/
theorem query_replied_iff {jc : JsonC} {s : HelperState} (hr : HelperReachable jc s)
    (env : MessageEnv) {dataIn : Json} {cmd : String} (hq : IsQuery jc dataIn cmd) :
    Replied jc env s dataIn ↔ CommandAnswered jc cmd (dataIn.objectGet "value") := by
  have hs := helperOk_reachable hr
  have hanswered : Answered jc dataIn ↔ CommandAnswered jc cmd (dataIn.objectGet "value") := by
    obtain ⟨text, htmp, hcmd⟩ := hq.command
    unfold Answered
    simp only [htmp, hcmd]
  rw [← hanswered]
  constructor
  · rintro ⟨s', out, hrun, hout⟩
    by_contra hno
    rw [(reply_isNull_iff hs hrun).mpr hno] at hout
    exact absurd hout (by simp)
  · intro ha
    obtain ⟨s', out, hrun, -⟩ := mMessageHandle_answers env hs (messageSafe_of_answered ha)
    refine ⟨s', out, hrun, ?_⟩
    by_contra hout
    rw [Bool.not_eq_false] at hout
    exact (reply_isNull_iff hs hrun).mp hout ha

theorem query_replied_getModes :
    Replied jsonText .silent (.init true) (.object [("cmd", .string "get modes")]) ↔
      CommandAnswered jsonText "get modes" .null :=
  query_replied_iff (.init true) .silent
    ⟨rfl, ⟨_, rfl, by decide +kernel⟩, by decide, by decide⟩

/-- An unknown query, and a query for a property without a name. -/
theorem unknown_query_not_replied :
    let unknown := Json.object [("cmd", .string "get color")]
    let unnamed := Json.object [("cmd", .string "get connector range properties")]
    HelperReachable jsonText (.init true) ∧
      IsQuery jsonText unknown "get color" ∧
      ¬ Replied jsonText .silent (.init true) unknown ∧
      IsQuery jsonText unnamed "get connector range properties" ∧
      ¬ Replied jsonText .silent (.init true) unnamed := by
  refine ⟨.init true, ⟨rfl, ⟨_, rfl, by decide +kernel⟩, by decide, by decide⟩, ?_,
    ⟨rfl, ⟨_, rfl, by decide +kernel⟩, by decide, by decide⟩, ?_⟩
  · rintro ⟨s', out, hrun, hout⟩
    obtain ⟨-, rfl⟩ := Prod.mk.inj (Except.ok.inj hrun)
    exact absurd hout (by decide)
  · rintro ⟨s', out, hrun, hout⟩
    obtain ⟨-, rfl⟩ := Prod.mk.inj (Except.ok.inj hrun)
    exact absurd hout (by decide)

end MesonDisplay.Client
