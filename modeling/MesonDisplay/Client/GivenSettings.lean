/-
  MesonDisplay.Client.GivenSettings — what drm-helper-client sets.

  With `-c` the client is given a mode, with `-s` a property and its value.  Both
  are texts.  A mode goes to the helper as it is, and is scanned there; the name
  and the value of a property are scanned by the client, and the value is sent
  as a signed number.

  From there on a mode becomes calls of `switch_mode`, and a property an entry
  of the next atomic commit.

  Main results:
    * `given_mode_is_switched` — every enabled output is switched to the mode.
    * `scanProperty_iff` — the texts of `-s` that are accepted.
    * `given_property_is_committed` — the next commit has the value.
-/
import MesonDisplay.Client.Options
import MesonDisplay.Helper.ModeAccepted
import MesonDisplay.Helper.PendingHistory
import MesonDisplay.Helper.SwitchHistory

namespace MesonDisplay.Client

open MesonDisplay.Helper
open MesonDisplay.Ipc
open MesonDisplay.Runs
open MesonDisplay.Json (jsonText jsonText_readsObjects jsonText_getsInts)

/-! ## §1. A mode. -/

/-- The request of an option, as the server reads it. -/
def optionCall (jc : JsonC) (env : MessageEnv) (o : MainOption) : Option HelperCall :=
  (o.call.bind LibraryCall.command).map fun data => .message env (jc.received data)

/-- The abstract machine behind some calls. -/
def displaysAfter (jc : JsonC) (calls : List HelperCall) : Displays :=
  calls.foldl (Displays.after jc) .init

section Mode

variable {jc : JsonC} {env : MessageEnv} {call : HelperCall} {optarg : CString}

/-- `-c` asks for the mode of its text. -/
theorem after_changMode (hr : jc.ReadsObjects)
    (hcall : optionCall jc env (.changMode optarg) = some call) (v : Displays) :
    v.after jc call = v.request env.copyOk (parseModestring optarg.val) := by
  have hrequest : (setModeRequest optarg.val).IsRequest := (isCommand_value "set mode" rfl).1
  have hsent : optionCall jc env (.changMode optarg)
      = some (.message env (jc.received (setModeRequest optarg.val))) := rfl
  obtain rfl := Option.some.inj (hsent.symm.trans hcall)
  have hcmd : ((setModeRequest optarg.val).objectGetEx "cmd").bind jc.getString
      = some "set mode" := rfl
  have hvalue : (setModeRequest optarg.val).objectGet "value" = .string optarg.val := rfl
  have hget : jc.getString (.string optarg.val) = some optarg.val :=
    JsonC.getString_string optarg.property
  rw [hr.received_eq hrequest]
  unfold Displays.after
  simp only
  rw [setModeOf_eq hcmd, hvalue, hget, Option.bind_some]

/-- The states that a run of both machines leads to. -/
theorem displaysOk_run (calls : List HelperCall) {s : HelperState} {v : Displays}
    (hs : DisplaysOk jc s v) {s' : HelperState}
    (hmeets : Meets (displayStep jc) (fun x call => ¬ Forgets x.1 call) (s, v) calls)
    (hrun : run (callStep jc) s calls = some s') :
    DisplaysOk jc s' (calls.foldl (Displays.after jc) v) := by
  induction calls generalizing s v with
  | nil =>
      obtain rfl := Option.some.inj hrun
      exact hs
  | cons call calls ih =>
      obtain ⟨s₁, hstep, hrest⟩ := run_cons_some hrun
      have hboth : displayStep jc (s, v) call = some (s₁, v.after jc call) := by
        unfold displayStep
        rw [hstep]
        rfl
      obtain ⟨hkeep, hmeets'⟩ := (meets_cons hboth).mp hmeets
      exact ih (displaysOk_call hs call hkeep (callStep_eq_some.mp hstep)) hmeets' hrest

/-- The last request, as calls of `switch_mode`. -/
theorem realizes_request {calls : List (Nat × DrmHelperMode)}
    {asked : List (Finset Nat × DrmHelperMode)} {targets : Finset Nat} {mode : DrmHelperMode}
    (h : Realizes calls (asked ++ [(targets, mode)])) :
    ∃ before, ∃ order : List Nat, Realizes before asked ∧ order.Nodup ∧ order.toFinset = targets ∧
      calls = before ++ order.map fun output => (output, mode) := by
  generalize hall : asked ++ [(targets, mode)] = all at h
  cases h with
  | nil => exact absurd hall (by simp)
  | request order mode' hbefore hnodup =>
      obtain ⟨rfl, hlast⟩ := List.append_inj' hall rfl
      obtain ⟨rfl, rfl⟩ := Prod.mk.inj (List.singleton_inj.mp hlast)
      exact ⟨_, order, hbefore, hnodup, rfl, rfl⟩

/-- **A mode is switched as it was given.**  A mode is written as the usage text
says, and behind any calls that forget no output it is given to `-c`: then
`switch_mode` is called with exactly this mode, once for each of the outputs that
are enabled at that time, and the calls before stay the ones that were asked
for. -/
theorem given_mode_is_switched (hr : jc.ReadsObjects) {atomicModesetEnable : Bool}
    {before : List HelperCall} {s : HelperState} {width height : Nat} {flags : List ModeFlag}
    {tail : Option (Nat × Option AspectRatio)} (hwidth : width < 2 ^ 31)
    (hheight : height < 2 ^ 31) (hrefresh : ∀ t ∈ tail, t.1 < 2 ^ 31)
    (htext : optarg.val = printMode width height flags tail) (hcopy : env.copyOk = true)
    (hcall : optionCall jc env (.changMode optarg) = some call)
    (hmeets : Meets (displayStep jc) (fun x call => ¬ Forgets x.1 call)
      (HelperState.init atomicModesetEnable, Displays.init) before)
    (hrun : run (callStep jc) (.init atomicModesetEnable) (before ++ [call]) = some s) :
    ∃ calls, ∃ order : List Nat, switchCalls s.effects
        = calls ++ order.map (fun output => (output, printedMode width height flags tail)) ∧
      Realizes calls (displaysAfter jc before).switched ∧
      order.Nodup ∧ order.toFinset = (displaysAfter jc before).targets := by
  obtain ⟨s₁, hbefore, hlast⟩ := run_append_some hrun
  obtain ⟨s₂, hstep, hend⟩ := run_cons_some hlast
  obtain rfl := Option.some.inj hend
  have hok := displaysOk_run before (displaysOk_init atomicModesetEnable) hmeets hbefore
  -- a request forgets no output
  have hkeep : ¬ Forgets s₁ call := by
    obtain ⟨data, -, rfl⟩ := Option.map_eq_some_iff.mp hcall
    exact fun hforgets => hforgets.elim
  have hlater := displaysOk_call hok call hkeep (callStep_eq_some.mp hstep)
  rw [after_changMode hr hcall, htext, parseModestring_printMode flags hwidth hheight hrefresh,
    hcopy] at hlater
  obtain ⟨calls, order, hasked, hnodup, htargets, hcalls⟩ :=
    realizes_request hlater.agrees.switched
  exact ⟨calls, order, hcalls, hasked, hnodup, htargets⟩

/-- An output appears and is enabled. -/
def enabledOutput : List HelperCall :=
  [.setSwitchModeFunction none true, .updataCompositorOutput true none (some 3),
    .switchCompositorOutput (some 3) true]

/-- An interlaced mode is given. -/
theorem given_mode_1080i :
    ∃ call s, optionCall jsonText .silent (.changMode ⟨"1920x1080i@60", by decide⟩) = some call ∧
      run (callStep jsonText) (.init true) (enabledOutput ++ [call]) = some s ∧
      ∃ calls, ∃ order : List Nat, switchCalls s.effects
          = calls ++ order.map (fun output => (output, ⟨1920, 1080, 60, 2 ^ 4, ""⟩)) ∧
        order.toFinset = {3} := by
  have hcall : optionCall jsonText .silent (.changMode ⟨"1920x1080i@60", by decide⟩)
      = some (.message .silent (jsonText.received (setModeRequest "1920x1080i@60"))) := rfl
  have hkeeps : Meets (displayStep jsonText) (fun x call => ¬ Forgets x.1 call)
      (HelperState.init true, Displays.init) enabledOutput := by decide +kernel
  have htargets : (displaysAfter jsonText enabledOutput).targets = {3} := by decide +kernel
  obtain ⟨s, hrun⟩ := Option.isSome_iff_exists.mp
    (by decide +kernel : (run (callStep jsonText) (.init true)
      (enabledOutput ++
        [.message .silent (jsonText.received (setModeRequest "1920x1080i@60"))])).isSome = true)
  have htext : "1920x1080i@60" = printMode 1920 1080 [.interlace] (some (60, none)) := by
    decide +kernel
  obtain ⟨calls, order, hcalls, -, -, horder⟩ := given_mode_is_switched jsonText_readsObjects
    (by decide) (by decide) (by decide) htext rfl hcall hkeeps hrun
  exact ⟨_, s, hcall, hrun, calls, order, hcalls, horder.trans htargets⟩

end Mode

/-! ## §2. A property. -/

/-- What strtoul() makes of a number and its sign. -/
def storedUnsigned64 (negative : Bool) (n : Nat) : Nat :=
  if 2 ^ 64 ≤ n then 2 ^ 64 - 1 else if negative then (2 ^ 64 - n) % 2 ^ 64 else n

theorem scanUnsigned64_assigned_iff {s rest : List Char} {value : Nat} :
    scanUnsigned64 s = .assigned value rest ↔
      ∃ negative n, DecimalText s negative n rest ∧ value = storedUnsigned64 negative n := by
  have hstored : ∀ (negative : Bool) (n : Nat),
      (if 2 ^ 64 ≤ n then 2 ^ 64 - 1
        else if negative then (-(n : Int)) % 2 ^ 64 else (n : Int)).toNat
        = storedUnsigned64 negative n := by
    intro negative n
    unfold storedUnsigned64
    split_ifs <;> omega
  constructor
  · intro hscan
    unfold scanUnsigned64 at hscan
    cases hdigits : scanDigits s with
    | assigned r rest' =>
        obtain ⟨negative, n⟩ := r
        simp only [hdigits] at hscan
        obtain ⟨rfl, rfl⟩ := Scan.assigned.inj hscan
        exact ⟨negative, n, scanDigits_assigned_iff.mp hdigits, hstored negative n⟩
    | mismatch =>
        simp only [hdigits] at hscan
        exact absurd hscan (by simp)
    | endOfText =>
        simp only [hdigits] at hscan
        exact absurd hscan (by simp)
  · intro ⟨negative, n, htext, hvalue⟩
    unfold scanUnsigned64
    rw [scanDigits_assigned_iff.mpr htext, hvalue]
    simp only [hstored]

/-- `%32[^=]` on a name that ends in front of an equals sign. -/
theorem scanName_eq_iff {s name text : List Char} :
    scanName s = .assigned name ('=' :: text) ↔
      s = name ++ '=' :: text ∧ name ≠ [] ∧ name.length ≤ 32 ∧ '=' ∉ name := by
  constructor
  · intro hscan
    unfold scanName at hscan
    cases hname : (s.take 32).takeWhile (· != '=') with
    | nil =>
        simp only [hname] at hscan
        split_ifs at hscan
    | cons c cs =>
        simp only [hname] at hscan
        obtain ⟨rfl, hrest⟩ := Scan.assigned.inj hscan
        have hprefix : (c :: cs) <+: s := by
          rw [← hname]
          exact (List.takeWhile_prefix _).trans (List.take_prefix 32 s)
        obtain ⟨behind, rfl⟩ := hprefix
        rw [List.drop_left] at hrest
        refine ⟨by rw [hrest], by simp, ?_, ?_⟩
        · have hle := (List.takeWhile_prefix (p := (· != '=')) (l := (c :: cs ++ behind).take 32)).length_le
          rw [hname] at hle
          exact hle.trans (List.length_take_le 32 _)
        · intro hmem
          rw [← hname] at hmem
          have hne := List.mem_takeWhile_imp hmem
          simp at hne
  · rintro ⟨rfl, hne, hlen, hnot⟩
    have hall : ∀ c ∈ name, (c != '=') = true := by
      intro c hc
      rw [bne_iff_ne]
      exact fun heq => hnot (heq ▸ hc)
    -- behind 32 characters the equals sign is not seen, and not needed
    have hstop : ∀ c ∈ (('=' :: text).take (32 - name.length)).head?, (c != '=') = false := by
      intro c hc
      cases hroom : 32 - name.length with
      | zero => simp [hroom] at hc
      | succ n =>
          obtain rfl : '=' = c := by simpa [hroom] using hc
          rfl
    have htake : ((name ++ '=' :: text).take 32).takeWhile (· != '=') = name := by
      rw [List.take_append, List.take_of_length_le hlen]
      exact (takeWhile_run hall hstop).1
    unfold scanName
    rw [htake]
    cases name with
    | nil => exact absurd rfl hne
    | cons c cs => simp only [List.drop_left]

/-- The text is a name that fits into its array, an equals sign and a number. -/
def StatesProperty (optarg : CString) (name : String) (value : Nat) : Prop :=
  ∃ text negative n rest, optarg.val.toList = name.toList ++ '=' :: text ∧ name ≠ "" ∧
    name.length < 32 ∧ '=' ∉ name.toList ∧ DecimalText text negative n rest ∧
    value = storedUnsigned64 negative n

/-- **The texts that `-s` accepts**, where the name leaves room for the zero
behind it. -/
theorem scanProperty_iff {optarg : CString} {name : String} {value : Nat} :
    scanProperty optarg.val.toList = some (name.toList, value) ∧ name.length < 32
      ↔ StatesProperty optarg name value := by
  constructor
  · intro ⟨hscan, hlen⟩
    unfold scanProperty at hscan
    cases hname : scanName optarg.val.toList with
    | assigned name' rest =>
        simp only [hname] at hscan
        cases heq : scanChar '=' rest with
        | assigned u text =>
            simp only [heq] at hscan
            cases hvalue : scanUnsigned64 text with
            | assigned value' rest' =>
                simp only [hvalue] at hscan
                obtain ⟨rfl, rfl⟩ := Prod.mk.inj (Option.some.inj hscan)
                obtain rfl := scanChar_assigned_iff.mp heq
                obtain ⟨htext, hne, -, hnot⟩ := scanName_eq_iff.mp hname
                obtain ⟨negative, n, hdecimal, hstored⟩ := scanUnsigned64_assigned_iff.mp hvalue
                have hne' : name ≠ "" := by
                  intro hempty
                  exact hne (by rw [hempty]; rfl)
                exact ⟨text, negative, n, rest', htext, hne', hlen, hnot, hdecimal, hstored⟩
            | _ => simp [hvalue] at hscan
        | _ => simp [heq] at hscan
    | _ => simp [hname] at hscan
  · intro ⟨text, negative, n, rest, htext, hne, hlen, hnot, hdecimal, hstored⟩
    have hne' : name.toList ≠ [] := by
      intro hempty
      exact hne (String.toList_inj.mp (hempty.trans String.toList_empty.symm))
    have hname : scanName optarg.val.toList = .assigned name.toList ('=' :: text) :=
      scanName_eq_iff.mpr ⟨htext, hne', Nat.le_of_lt (by rwa [String.length_toList]), hnot⟩
    have hvalue : scanUnsigned64 text = .assigned value rest :=
      scanUnsigned64_assigned_iff.mpr ⟨negative, n, hdecimal, hstored⟩
    refine ⟨?_, hlen⟩
    unfold scanProperty
    simp only [hname, scanChar_assigned_iff.mpr rfl, hvalue]

/-- Every 64-bit number can be given, in digits. -/
theorem statesProperty_printed {optarg : CString} {name : String} {value : Nat}
    (htext : optarg.val.toList = name.toList ++ '=' :: Nat.toDigits 10 value) (hne : name ≠ "")
    (hlen : name.length < 32) (hnot : '=' ∉ name.toList) (hvalue : value < 2 ^ 64) :
    StatesProperty optarg name value := by
  have hdecimal : DecimalText (Nat.toDigits 10 value) false value [] := by
    simpa using decimalText_toDigits value noDigitNext_nil
  refine ⟨Nat.toDigits 10 value, false, value, [], htext, hne, hlen, hnot, hdecimal, ?_⟩
  unfold storedUnsigned64
  rw [if_neg (by omega), if_neg Bool.false_ne_true]

/-! ## §3. The commit. -/

/-- The request that `main` sends for such a text. -/
theorem setProperty_command {optarg : CString} {name : String} {value : Nat}
    (hstates : StatesProperty optarg name value) :
    ∃ request : PropertyRequest, request.name = name ∧ request.value = value ∧
      (MainOption.setProperty optarg).call.bind LibraryCall.command = some request.object := by
  obtain ⟨hscan, -⟩ := scanProperty_iff.mpr hstates
  obtain ⟨hpart, hbound⟩ := scanProperty_spec hscan
  have hcString : isCString name = true := by
    have hall := optarg.property
    unfold isCString at hall ⊢
    rw [List.all_eq_true] at hall ⊢
    exact fun c hc => hall c (hpart c hc)
  refine ⟨⟨name, value, hcString, hbound⟩, rfl, rfl, ?_⟩
  simp only [MainOption.call, hscan, Option.bind_some, String.ofList_toList]
  rfl

/-- It sets the one value. -/
theorem settings_request {jc : JsonC} (hg : jc.GetsInts) (request : PropertyRequest) {p : Nat}
    (hp : propertyIndex request.name = some p) :
    settings jc request.object = [(p, request.value)] := by
  have hb := toInt64_bounds request.bound
  have hsetting : setting jc (request.name, .int (toInt64 request.value))
      = some (p, request.value) := by
    unfold setting
    rw [hg.int64 _ hb.1 hb.2, if_pos rfl, hp, toInt64_mod request.bound, Option.map_some]
  have hcmd : (request.object.objectGetEx "cmd").bind jc.getString
      = some "set connector range properties" := rfl
  have hvalue : request.object.objectGet "value"
      = .object [(request.name, .int (toInt64 request.value))] := rfl
  unfold settings
  simp only [if_pos hcmd, hvalue, List.filterMap_cons, hsetting, List.filterMap_nil]

/-- **A property is committed as it was given.**  `-s` is given a text with the
name of a property of the table and a number: then `main` sends a request with
which, behind any calls, and with any calls behind it that leave the property
alone, the next commit adds the number to the property of every HDMI connector
that was listed at the request, and for everything else what is due. -/
theorem given_property_is_committed {jc : JsonC} (hr : jc.ReadsObjects) (hg : jc.GetsInts)
    {optarg : CString} {name : String} {value p : Nat} (hstates : StatesProperty optarg name value)
    (hp : propertyIndex name = some p) (env : MessageEnv) :
    ∃ call, optionCall jc env (.setProperty optarg) = some call ∧
      ∀ (before after : List HelperCall) (s₁ s : HelperState),
        run (callStep jc) (.init true) before = some s₁ →
        run (callStep jc) s₁ (call :: after) = some s →
        ∀ (drm : Drm) (atomicAdd : Nat → Int), ∃ h' adds ret,
          helpAtomicReqAddProp drm atomicAdd s.atomicModesetEnable s.connectorList
            = .ok (h', adds, ret) ∧
          adds.map (fun a => (a.connectorId, a.value))
            = dueFor drm (cellsAfter jc (before ++ call :: after)) ∧
          ∀ c, ConnectorListed s₁.connectorList c → hdmiOf env.drm c = true →
            (∀ call ∈ after, Leaves jc c p call) →
            ⟨(drm.connector c).connectorId, propIdOf s.connectorList c p, value⟩ ∈ adds := by
  obtain ⟨request, rfl, rfl, hcommand⟩ := setProperty_command hstates
  refine ⟨.message env request.object, ?_, ?_⟩
  · unfold optionCall
    rw [hcommand, Option.map_some, hr.received_eq request.isRequest]
  intro before after s₁ s hbefore hrun drm atomicAdd
  obtain ⟨hrep₁, henable₁⟩ := represents_calls before represents_init hbefore
  obtain ⟨hrep, henable⟩ := represents_calls (.message env request.object :: after) hrep₁ hrun
  obtain ⟨h', ret, hcommit, -⟩ := represents_commit drm atomicAdd hrep
  have hatomic : s.atomicModesetEnable = true := henable.trans henable₁
  refine ⟨h', _, ret, hatomic ▸ hcommit, ?_, ?_⟩
  · unfold cellsAfter
    rw [List.foldl_append]
    exact commitAdds_due drm hrep
  · intro c hlisted hhdmi hleaves
    have hc := (connectorListed_iff hrep₁ c).mp hlisted
    have hwaits : Waits c p request.value (cellsAfterCall jc (before.foldl (cellsAfterCall jc) [])
        (.message env request.object)) := by
      show Waits c p request.value (setAll _ _ (settings jc request.object))
      rw [settings_request hg request hp]
      exact waits_set hrep₁ hc hhdmi (propertyIndex_lt hp)
    exact (hwaits.calls hleaves).added drm hrep

/-- An HDMI connector is listed and replaced by another one. -/
def hdmiReplaced : List HelperCall :=
  [.appendConnector (CallAnswers.silent.drm hdmiConnector) true (some 5),
    .updateConnector (CallAnswers.silent.drm hdmiConnector) true (some 5) (some 7)]

/-- Another one is listed, the modes are asked for, and the size of the UI is
reported. -/
def hdmiAdded : List HelperCall :=
  [.appendConnector (CallAnswers.silent.drm hdmiConnector) true (some 6),
    .message .silent (.object [("cmd", .string "get modes")]), .updateUiLogicSizeInfo 1920 1080]

/-- A negative number is committed as `strtoul()` reads it. -/
theorem given_color_depth :
    ∃ call s, optionCall jsonText ⟨CallAnswers.silent.drm hdmiConnector, true⟩
        (.setProperty ⟨"Color Depth= -1", by decide⟩) = some call ∧
      run (callStep jsonText) (.init true) (hdmiReplaced ++ call :: hdmiAdded) = some s ∧
      ∃ h' adds ret, helpAtomicReqAddProp (CallAnswers.silent.drm hdmiConnector) (fun _ => 1)
          s.atomicModesetEnable s.connectorList = .ok (h', adds, ret) ∧
        ⟨100, propIdOf s.connectorList 7 1, 2 ^ 64 - 1⟩ ∈ adds := by
  have hdecimal : DecimalText " -1".toList true 1 [] :=
    ⟨[' '], ['-'], ['1'], by rfl, List.forall_mem_singleton.mpr rfl, .inr (.inr ⟨rfl, rfl⟩),
      by decide, List.forall_mem_singleton.mpr (by decide), by decide, noDigitNext_nil⟩
  have hstates : StatesProperty ⟨"Color Depth= -1", by decide⟩ "Color Depth" (2 ^ 64 - 1) :=
    ⟨" -1".toList, true, 1, [], by rfl, by decide, by decide, by decide +kernel, hdecimal,
      by decide +kernel⟩
  obtain ⟨call, hcall, hcommits⟩ := given_property_is_committed jsonText_readsObjects
    jsonText_getsInts hstates (by decide : propertyIndex "Color Depth" = some 1)
    ⟨CallAnswers.silent.drm hdmiConnector, true⟩
  have hruns : ((optionCall jsonText ⟨CallAnswers.silent.drm hdmiConnector, true⟩
      (.setProperty ⟨"Color Depth= -1", by decide⟩)).bind fun call =>
        run (callStep jsonText) (.init true) (hdmiReplaced ++ call :: hdmiAdded)).isSome = true := by
    decide +kernel
  rw [hcall, Option.bind_some] at hruns
  obtain ⟨s, hrun⟩ := Option.isSome_iff_exists.mp hruns
  obtain ⟨s₁, hbefore, hrest⟩ := run_append_some hrun
  obtain ⟨h', adds, ret, hcommit, -, hadded⟩ :=
    hcommits hdmiReplaced hdmiAdded s₁ s hbefore hrest (CallAnswers.silent.drm hdmiConnector)
      fun _ => 1
  have hlisted : ConnectorListed s₁.connectorList 7 := by
    have hdecided : ∀ t ∈ run (callStep jsonText) (.init true) hdmiReplaced,
        ConnectorListed t.connectorList 7 := by
      decide +kernel
    exact hdecided s₁ hbefore
  have hleaves : ∀ call ∈ hdmiAdded, Leaves jsonText 7 1 call := by
    refine List.forall_mem_cons.mpr ⟨trivial, List.forall_mem_cons.mpr ⟨?_, ?_⟩⟩
    · -- a query sets nothing
      have hnone : settings jsonText (.object [("cmd", .string "get modes")]) = [] := by
        decide +kernel
      show ∀ e ∈ settings jsonText _, e.1 ≠ 1
      rw [hnone]
      exact fun _ he => absurd he List.not_mem_nil
    · exact List.forall_mem_singleton.mpr trivial
  exact ⟨call, s, hcall, hrun, h', adds, ret, hcommit, hadded 7 hlisted rfl hleaves⟩

end MesonDisplay.Client
