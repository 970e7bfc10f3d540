/-
  MesonDisplay.Client.CommandLine — what drm-helper-client prints.

  With `-S ui-rect` the client reads four numbers from its arguments and sends
  them; with `-G ui-rect` and `-G display-mode` it asks for numbers and prints
  them.  On the way a number is a text twice, in the request and in the reply,
  and an integer of several widths: an unsigned size is sent and printed as a
  signed number.

  Between the two the helper serves other clients and the compositor.

  Main results:
    * `get_prints_shown` — the line of a query is what was written last.
    * `set_rect_is_printed` — the numbers of a rectangle come back as they were
      given.
-/
import MesonDisplay.Client.Options
import MesonDisplay.Client.Queries
import MesonDisplay.Helper.ModeAccepted
import MesonDisplay.Helper.Shown

namespace MesonDisplay.Client

open MesonDisplay.Helper
open MesonDisplay.Framing
open MesonDisplay.Ipc
open MesonDisplay.Runs
open MesonDisplay.Json (jsonText jsonText_readsObjects jsonText_getsInts)

/-! ## §1. Printing. -/

/-- `%PRId32`. -/
def printInt (n : Int) : List Char :=
  (if n < 0 then ['-'] else []) ++ Nat.toDigits 10 n.natAbs

/-- `%PRIu32`. -/
def printUnsigned (n : Nat) : List Char := Nat.toDigits 10 n

/-- The line of a rectangle.  Its width and its height are printed as signed
numbers. -/
def printUiRect (rect : DrmOutputRect) : List Char :=
  printInt rect.x.toInt ++ ',' :: (printInt rect.y.toInt ++
    ',' :: (printInt (toInt32 rect.w.toNat) ++ ',' :: (printInt (toInt32 rect.h.toNat) ++ ['\n'])))

/-- The line of a mode. -/
def printDisplayMode (mode : DrmOutputMode) : List Char :=
  mode.name.toList ++ ',' :: (printInt (toInt32 mode.width) ++
    ',' :: (printInt (toInt32 mode.height) ++ ',' :: (printUnsigned mode.refresh ++ ['\n'])))

/-! ## §2. The case `G` of `main`. -/

/-- A query that `main` makes for an argument of `-G`: what is printed, and
whether `ret` is set to -1.  The variables are not initialised; a name that
fills its array is not terminated. -/
def mainGet (jc : JsonC) (rcvbuf : Nat) (copyOk : Bool) (reads : List (Read Char))
    (rect : DrmOutputRect) (mode : DrmOutputMode) (optarg : CString) :
    Waited (List Char × Bool) :=
  if optarg.val = "ui-rect" then
    match drmHelpClientGetUiRect jc rcvbuf copyOk reads rect with
    | .blocked => .blocked
    | .undefined => .undefined
    | .done (true, rect) => .done (printUiRect rect, false)
    | .done (false, _) => .done ([], true)
  else if optarg.val = "display-mode" then
    match drmHelpClientGetDisplayMode jc rcvbuf copyOk reads mode with
    | .blocked => .blocked
    | .undefined => .undefined
    | .done (true, mode) =>
        if mode.name.length < drmDisplayModeLen then .done (printDisplayMode mode, false)
        else .undefined
    | .done (false, _) => .done ([], true)
  else .done ([], true)

/-- The line that shows what was written: all numbers as 32-bit numbers. -/
def uiRectLine (rect : DrmHelperRect) : List Char :=
  printInt (toInt32 rect.x) ++ ',' :: (printInt (toInt32 rect.y) ++
    ',' :: (printInt (toInt32 rect.w) ++ ',' :: (printInt (toInt32 rect.h) ++ ['\n'])))

def displayModeLine (mode : DrmModeModeInfo) : List Char :=
  mode.name.toList ++ ',' :: (printInt (toInt32 mode.hdisplay) ++
    ',' :: (printInt (toInt32 mode.vdisplay) ++
      ',' :: (printUnsigned (mode.vrefresh % 2 ^ 32) ++ ['\n'])))

/-- The reply arrives in some pieces, and something may follow it. -/
structure Arrives (jc : JsonC) (rcvbuf : Nat) (reply : Json) (reads : List (Read Char)) :
    Prop where
  usable : 0 < rcvbuf ∧ rcvbuf ≤ maxRequestBufferSize
  fits : (clientSendRequest jc reply).length ≤ capacity rcvbuf
  offered : Offered jc rcvbuf (fun _ => true) [] reads
  pieces : ∃ (chunks : List (List Char)) (rest : List (Read Char)),
    reads = chunks.map .bytes ++ rest ∧ (∀ c ∈ chunks, c ≠ []) ∧
      chunks.flatten = clientSendRequest jc reply

section Arrival

variable {jc : JsonC} {rcvbuf : Nat} {reads : List (Read Char)}

/-- An object is complete with the last piece of its text, and not before. -/
theorem replies_of_arrives (hr : jc.ReadsObjects) {reply : Json} (hreply : reply.IsRequest)
    (h : Arrives jc rcvbuf reply reads) : Replies jc rcvbuf reads reply := by
  obtain ⟨chunks, rest, hreads, hpieces, htext⟩ := h.pieces
  have hfits := h.fits
  rcases List.eq_nil_or_concat chunks with rfl | ⟨before, c, rfl⟩
  · -- the text of an object is not empty
    have hcomplete := hr.complete reply hreply []
    rw [List.append_nil] at hcomplete
    unfold clientSendRequest at htext
    rw [← htext, List.flatten_nil, jc.tokenerParse_nil] at hcomplete
    exact absurd hcomplete.symm (Json.ne_null_of_isObject hreply.2)
  · rw [List.concat_eq_append] at hreads hpieces htext
    have hc : c ≠ [] := hpieces c (by simp)
    have hlen : 0 < c.length := List.length_pos_iff.mpr hc
    have hwhole : before.flatten ++ c = jc.toJsonString reply := by
      rw [← flatten_concat]
      exact htext
    have hsplit : (clientSendRequest jc reply).length = before.flatten.length + c.length := by
      unfold clientSendRequest
      rw [← hwhole, List.length_append]
    refine ⟨before, c, rest, ?_, hlen, ?_, by omega, ?_, Json.ne_null_of_isObject hreply.2⟩
    · rw [hreads, reads_concat]
    · intro k hk
      -- the first pieces are a part of the text
      have hpart : (before.take k).flatten <+: before.flatten :=
        (List.take_prefix k before).flatten
      refine hr.incomplete reply hreply _ (hpart.trans ⟨c, hwhole⟩) ?_
      intro heq
      have hle := hpart.length_le
      rw [heq] at hle
      unfold clientSendRequest at hsplit
      omega
    · rw [htext]
      have hcomplete := hr.complete reply hreply []
      rwa [List.append_nil] at hcomplete

/-- So `send_cmd_sync` returns it, if it can copy it. -/
theorem sendCmdSync_of_arrives (hr : jc.ReadsObjects) {reply : Json} (hreply : reply.IsRequest)
    (h : Arrives jc rcvbuf reply reads) :
    sendCmdSync jc rcvbuf true reads = .done reply := by
  obtain ⟨n, rest, hn, hrun⟩ := readRequest_of_replies h.usable.1 h.usable.2 h.offered
    (replies_of_arrives hr hreply h)
  rw [sendCmdSync_returned hrun (Json.ne_null_of_isObject hreply.2)]
  rw [if_neg (by simp)]

end Arrival

/-! ## §3. The lines. -/

section Lines

variable {jc : JsonC}

/-- A number that was sent as a signed one, stored as an unsigned one and is
printed as a signed one. -/
theorem toInt32_ofInt (n : Int) : toInt32 (UInt32.ofInt (toInt32 n)).toNat = toInt32 n := by
  have hb := toInt32_bounds n
  rw [toNat_ofInt]
  generalize toInt32 n = m at hb ⊢
  unfold toUInt32 toInt32
  rw [Int.bmod_def]
  omega

/-- The client prints the rectangle of the reply. -/
theorem printUiRect_reply (hg : jc.GetsInts) (r : DrmHelperRect) :
    ∃ rect, readUiRect jc (rectObject r) = some rect ∧ printUiRect rect = uiRectLine r := by
  have hmember : ∀ key n, (rectObject r).objectGet key = newInt n →
      (jc.getInt ((rectObject r).objectGet key)).1 = toInt32 n := by
    intro key n hn
    rw [hn, Helper.getInt_newInt hg]
  have hsigned : ∀ n : Int, (Int32.ofInt (toInt32 n)).toInt = toInt32 n := by
    intro n
    have hb := toInt32_bounds n
    exact Int32.toInt_ofInt_of_le hb.1 hb.2
  refine ⟨_, if_neg (by simp [rectObject]), ?_⟩
  unfold printUiRect uiRectLine
  simp only [hmember "x" r.x rfl, hmember "y" r.y rfl, hmember "w" r.w rfl, hmember "h" r.h rfl,
    hsigned, toInt32_ofInt]

/-- The reply to "get display mode". -/
def displayModeObject (mode : DrmModeModeInfo) : Json :=
  .object [("name", .string mode.name), ("vrefresh", newInt mode.vrefresh),
    ("hdisplay", newInt mode.hdisplay), ("vdisplay", newInt mode.vdisplay)]

theorem isRequest_displayModeObject (mode : DrmModeModeInfo) :
    (displayModeObject mode).IsRequest := by
  have hname : isCString "name" = true := by decide
  have hv : isCString "vrefresh" = true := by decide
  have hh : isCString "hdisplay" = true := by decide
  have hd : isCString "vdisplay" = true := by decide
  refine ⟨?_, rfl⟩
  simp [displayModeObject, Json.wf, Json.wfFields, wf_newInt, hname, hv, hh, hd]

/-- The client prints the mode of the reply. -/
theorem printDisplayMode_reply (hg : jc.GetsInts) {mode : DrmModeModeInfo}
    (hname : NameFits mode) :
    ∃ m, jsonFormatToDrmOutputMode jc (displayModeObject mode) = some m ∧
      m.name.length < drmDisplayModeLen ∧ printDisplayMode m = displayModeLine mode := by
  have hget : (displayModeObject mode).objectGet "name" = .string mode.name := rfl
  have hcopy : strncpy mode.name drmDisplayModeLen = mode.name := by
    unfold strncpy
    rw [List.take_of_length_le, String.ofList_toList]
    rw [String.length_toList]
    exact Nat.le_of_lt hname.2
  have hmember : ∀ key (n : Nat), (displayModeObject mode).objectGet key = newInt n →
      toUInt32 (getMember jc (displayModeObject mode) key) = n % 2 ^ 32 := by
    intro key n h
    rw [getMember_newInt hg h, toUInt32_toInt32_mod]
  have hsigned : ∀ n : Nat, toInt32 ((n % 2 ^ 32 : Nat) : Int) = toInt32 n := by
    intro n
    unfold toInt32
    rw [Int.bmod_def, Int.bmod_def]
    omega
  unfold jsonFormatToDrmOutputMode
  rw [hget, JsonC.getString_string hname.1]
  refine ⟨_, rfl, ?_, ?_⟩
  · rw [hcopy]
    exact hname.2
  · unfold printDisplayMode displayModeLine printUnsigned
    simp only [hcopy, hmember "vrefresh" mode.vrefresh rfl, hmember "hdisplay" mode.hdisplay rfl,
      hmember "vdisplay" mode.vdisplay rfl, hsigned]

/-! ## §4. Queries behind a run. -/

/-- The request that `main` sends for an argument of `-G`. -/
def getCommand (optarg : CString) : Option Json :=
  (MainOption.get optarg).call.bind LibraryCall.command

/-- The line that shows what was written. -/
def shownLine (v : Shown) (optarg : CString) : List Char :=
  if optarg.val = "ui-rect" then uiRectLine v.uiRect else displayModeLine v.mode

/-- The option prints the line: the request is answered, the state stays, and
however the reply arrives, the line is printed if the reply can be copied. -/
def Prints (jc : JsonC) (s : HelperState) (optarg : CString) (line : List Char) : Prop :=
  ∀ env, ∃ reply, exchange jc env s (getCommand optarg) = .ok (s, reply) ∧
    ∀ rcvbuf reads rect mode, Arrives jc rcvbuf reply reads →
      mainGet jc rcvbuf true reads rect mode optarg = .done (line, false)

theorem prints_uiRect (hr : jc.ReadsObjects) (hg : jc.GetsInts) (s : HelperState)
    {optarg : CString} (hopt : optarg.val = "ui-rect") :
    Prints jc s optarg (uiRectLine s.uiViewport) := by
  intro env
  have hcommand : getCommand optarg = getUiRectData := by
    unfold getCommand
    simp only [MainOption.call, if_pos hopt]
    rfl
  refine ⟨rectObject s.uiViewport, by rw [hcommand, exchange_getUiRect hr], ?_⟩
  intro rcvbuf reads rect mode harrives
  obtain ⟨shown, hread, hline⟩ := printUiRect_reply hg s.uiViewport
  have hsync := sendCmdSync_of_arrives hr ⟨wf_rectObject s.uiViewport, rfl⟩ harrives
  unfold mainGet drmHelpClientGetUiRect
  rw [if_pos hopt, hsync]
  simp only [hread]
  rw [hline]

theorem prints_displayMode (hr : jc.ReadsObjects) (hg : jc.GetsInts) {s : HelperState}
    (hname : NameFits s.displayMode) {optarg : CString} (hopt : optarg.val = "display-mode") :
    Prints jc s optarg (displayModeLine s.displayMode) := by
  intro env
  have hrect : ¬ optarg.val = "ui-rect" := by rw [hopt]; decide
  have hcommand : getCommand optarg = some (.object [("cmd", .string "get display mode")]) := by
    unfold getCommand
    simp only [MainOption.call, if_neg hrect, if_pos hopt]
    rfl
  have hrequest : (Json.object [("cmd", .string "get display mode")]).IsRequest := by decide
  have hexchange : exchange jc env s (getCommand optarg)
      = .ok (s, displayModeObject s.displayMode) := by
    rw [hcommand]
    unfold exchange
    simp only
    rw [hr.received_eq hrequest]
    rfl
  refine ⟨_, hexchange, ?_⟩
  intro rcvbuf reads rect mode harrives
  obtain ⟨m, hread, hlen, hline⟩ := printDisplayMode_reply hg hname
  have hsync := sendCmdSync_of_arrives hr (isRequest_displayModeObject s.displayMode) harrives
  have hnull : (displayModeObject s.displayMode).isNull = false := rfl
  unfold mainGet drmHelpClientGetDisplayMode
  rw [if_neg hrect, if_pos hopt, hsync]
  simp only [hnull, hread, Option.getD_some, Bool.false_eq_true, if_false]
  rw [if_pos hlen, hline]

/-- The modes that were reported have names that fit. -/
def ReportsModes (calls : List HelperCall) : Prop :=
  ∀ mode, .updateDisplayModeInfo mode ∈ calls → NameFits mode

/-- **What the queries print.**  Behind any calls of the helper, by clients and
by the compositor, `-G` prints what was written last. -/
theorem get_prints_shown (hr : jc.ReadsObjects) (hg : jc.GetsInts) {atomicModesetEnable : Bool}
    {calls : List HelperCall} {s : HelperState} (hmodes : ReportsModes calls)
    (hrun : run (callStep jc) (.init atomicModesetEnable) calls = some s) {optarg : CString}
    (hopt : optarg.val ∈ ["ui-rect", "display-mode"]) :
    Prints jc s optarg (shownLine (shownAfter jc calls) optarg) := by
  have hshows := shows_run calls (shows_init atomicModesetEnable) hrun
  have hrect : s.uiViewport = (shownAfter jc calls).uiRect := congrArg Reported.uiViewport hshows
  have hmode : s.displayMode = (shownAfter jc calls).mode := congrArg Reported.displayMode hshows
  unfold shownLine
  rcases List.mem_cons.mp hopt with hui | hother
  · rw [if_pos hui, ← hrect]
    exact prints_uiRect hr hg s hui
  · have hdisplay := List.mem_singleton.mp hother
    have hname : NameFits s.displayMode := by
      rw [hmode]
      have hreported : (shownAfter jc calls).mode = Shown.init.mode ∨
          .updateDisplayModeInfo (shownAfter jc calls).mode ∈ calls := mode_reported calls .init
      rcases hreported with hsame | hmem
      · rw [hsame]
        exact ⟨rfl, by decide⟩
      · exact hmodes _ hmem
    rw [if_neg (by rw [hdisplay]; decide), ← hmode]
    exact prints_displayMode hr hg hname hdisplay

/-! ## §5. Setting the rectangle. -/

/-- The argument states a number that fits into an `int`.  White space and a
plus sign may stand before it, and anything that is no digit behind it. -/
def StatesInt (arg : CString) (n : Int) : Prop :=
  ∃ negative m rest, DecimalText arg.val.toList negative m rest ∧ FitsInt negative m ∧
    n = signed negative m

theorem atoi_of_states {arg : CString} {n : Int} (h : StatesInt arg n) :
    atoi arg = n ∧ toInt32 n = n := by
  obtain ⟨negative, m, rest, htext, hfits, rfl⟩ := h
  constructor
  · unfold atoi
    rw [scanInt_of_fits htext hfits]
  · have hstored := storedInt_of_fits hfits
    unfold signed at hstored ⊢
    unfold FitsInt at hfits
    unfold toInt32
    rw [Int.bmod_def]
    cases negative with
    | false =>
        simp only [Bool.false_eq_true, if_false] at hfits ⊢
        omega
    | true =>
        simp only [if_true] at hfits ⊢
        omega

theorem states_of_scan {arg : CString} {negative : Bool} {m : Nat} {rest : List Char}
    (hscan : scanDigits arg.val.toList = .assigned (negative, m) rest) (hm : m < 2 ^ 31) :
    StatesInt arg (signed negative m) := by
  refine ⟨negative, m, rest, scanDigits_assigned_iff.mp hscan, ?_, rfl⟩
  unfold FitsInt
  split_ifs
  · omega
  · exact hm

/-- What is printed is an argument that states the number. -/
theorem states_printInt {n : Int} (hn : toInt32 n = n) (arg : CString)
    (harg : arg.val.toList = printInt n) : StatesInt arg n := by
  have hb := toInt32_bounds n
  rw [hn] at hb
  have hdigits : ∀ c ∈ Nat.toDigits 10 n.natAbs, c.isDigit = true :=
    fun c hc => Nat.isDigit_of_mem_toDigits (by omega) (by omega) hc
  unfold printInt at harg
  by_cases hneg : n < 0
  · rw [if_pos hneg] at harg
    refine ⟨true, n.natAbs, [], ⟨[], ['-'], _, ?_, by simp, .inr (.inr ⟨rfl, rfl⟩),
      Nat.toDigits_ne_nil, hdigits, Nat.ofDigitChars_ten_toDigits, noDigitNext_nil⟩, ?_, ?_⟩
    · rw [harg, List.append_nil, List.nil_append]
    · unfold FitsInt
      rw [if_pos rfl]
      omega
    · unfold signed
      rw [if_pos rfl]
      omega
  · rw [if_neg hneg, List.nil_append] at harg
    refine ⟨false, n.natAbs, [], ?_, ?_, ?_⟩
    · rw [harg, ← List.append_nil (Nat.toDigits 10 n.natAbs)]
      exact decimalText_toDigits _ noDigitNext_nil
    · unfold FitsInt
      rw [if_neg Bool.false_ne_true]
      omega
    · unfold signed
      rw [if_neg Bool.false_ne_true]
      omega

/-- The request of `-S ui-rect`, as the server reads it. -/
def setCall (jc : JsonC) (env : MessageEnv) (optarg : CString) (args : List CString) :
    Option HelperCall :=
  ((MainOption.set optarg args).call.bind LibraryCall.command).map
    fun data => .message env (jc.received data)

/-- The request of a rectangle. -/
def rectRequest (rect : DrmOutputRect) : Json :=
  .object [("cmd", .string "set ui rect"), ("value", rectObject rect.numbers)]

theorem requestRect_rectRequest (hg : jc.GetsInts) (rect : DrmOutputRect) :
    requestRect jc (rectRequest rect) = some rect.numbers := by
  have hcmd : ((rectRequest rect).objectGetEx "cmd").bind jc.getString = some "set ui rect" := rfl
  have hopt : (rectRequest rect).objectGet "value" = rectObject rect.numbers := rfl
  have hmember : ∀ key n, (rectObject rect.numbers).objectGet key = newInt n →
      jc.getInt ((rectObject rect.numbers).objectGet key) = (toInt32 n, 0) := by
    intro key n hn
    rw [hn, Helper.getInt_newInt hg]
  have hx := hmember "x" rect.numbers.x rfl
  have hy := hmember "y" rect.numbers.y rfl
  have hw := hmember "w" rect.numbers.w rfl
  have hh := hmember "h" rect.numbers.h rfl
  have hobject : rectObject rect.numbers ≠ .null := by simp [rectObject]
  unfold requestRect
  simp only [hopt]
  rw [if_pos hcmd, if_neg (by simp [hobject, uiRectKeys, hx, hy, hw, hh])]
  unfold convertedRect
  rw [hx, hy, hw, hh]
  simp only [DrmOutputRect.numbers, toInt32_toInt,
    toUInt32_toInt32 rect.w.toNat_lt, toUInt32_toInt32 rect.h.toNat_lt]

/-- It carries the rectangle of the arguments. -/
theorem setCall_uiRect (hr : jc.ReadsObjects) (hg : jc.GetsInts) (env : MessageEnv)
    {optarg : CString} (hopt : optarg.val = "ui-rect") (x y w h : CString)
    (rest : List CString) {call : HelperCall}
    (hcall : setCall jc env optarg (x :: y :: w :: h :: rest) = some call) :
    call.uiRect jc = some (rectOf x y w h).numbers := by
  have hset : setCall jc env optarg (x :: y :: w :: h :: rest)
      = some (.message env (jc.received (rectRequest (rectOf x y w h)))) := by
    unfold setCall
    simp only [MainOption.call, if_pos hopt]
    rfl
  have hrequest : (rectRequest (rectOf x y w h)).IsRequest := by
    have hcmd : isCString "cmd" = true := by decide
    have hvalue : isCString "value" = true := by decide
    refine ⟨?_, rfl⟩
    simp [rectRequest, Json.wf, Json.wfFields, wf_rectObject, hcmd, hvalue]
  obtain rfl := Option.some.inj (hset.symm.trans hcall)
  rw [hr.received_eq hrequest]
  exact requestRect_rectRequest hg _

/-- The line of four numbers. -/
def rectLine (x y w h : Int) : List Char :=
  printInt x ++ ',' :: (printInt y ++ ',' :: (printInt w ++ ',' :: (printInt h ++ ['\n'])))

theorem uiRectLine_rectOf {x y w h : CString} {nx ny nw nh : Int} (hx : StatesInt x nx)
    (hy : StatesInt y ny) (hw : StatesInt w nw) (hh : StatesInt h nh) :
    uiRectLine (rectOf x y w h).numbers = rectLine nx ny nw nh := by
  have hsigned : ∀ {arg : CString} {n : Int}, StatesInt arg n →
      toInt32 (Int32.ofInt (atoi arg)).toInt = n := by
    intro arg n harg
    obtain ⟨rfl, hn⟩ := atoi_of_states harg
    rw [toInt32_toInt, Int32.toInt_ofInt]
    exact hn
  have hunsigned : ∀ {arg : CString} {n : Int}, StatesInt arg n →
      toInt32 (UInt32.ofInt (atoi arg)).toNat = n := by
    intro arg n harg
    obtain ⟨rfl, hn⟩ := atoi_of_states harg
    have hsent := toInt32_ofInt (atoi arg)
    rwa [hn] at hsent
  unfold uiRectLine rectLine rectOf DrmOutputRect.numbers
  simp only [hsigned hx, hsigned hy, hunsigned hw, hunsigned hh]

/-- Given as arguments again, the printed numbers make the same rectangle. -/
theorem rectOf_printed {x y w h x' y' w' h' : CString} {nx ny nw nh : Int}
    (hx : StatesInt x nx) (hy : StatesInt y ny) (hw : StatesInt w nw) (hh : StatesInt h nh)
    (hx' : x'.val.toList = printInt nx) (hy' : y'.val.toList = printInt ny)
    (hw' : w'.val.toList = printInt nw) (hh' : h'.val.toList = printInt nh) :
    rectOf x' y' w' h' = rectOf x y w h := by
  have hsame : ∀ {arg arg' : CString} {n : Int}, StatesInt arg n → arg'.val.toList = printInt n →
      atoi arg' = atoi arg := by
    intro arg arg' n harg hprinted
    obtain ⟨hatoi, hn⟩ := atoi_of_states harg
    rw [hatoi]
    exact (atoi_of_states (states_printInt hn arg' hprinted)).1
  unfold rectOf
  rw [hsame hx hx', hsame hy hy', hsame hw hw', hsame hh hh']

/-- **A rectangle comes back.**  Behind `-S ui-rect` with four numbers, and any
calls that set no other rectangle, `-G ui-rect` prints the four numbers; given
to `-S ui-rect` again they make the same rectangle. -/
theorem set_rect_is_printed (hr : jc.ReadsObjects) (hg : jc.GetsInts)
    {atomicModesetEnable : Bool} {before after : List HelperCall} {call : HelperCall}
    {s : HelperState} {env : MessageEnv} {optarg x y w h : CString} {rest : List CString}
    {nx ny nw nh : Int} (hopt : optarg.val = "ui-rect")
    (hcall : setCall jc env optarg (x :: y :: w :: h :: rest) = some call)
    (hx : StatesInt x nx) (hy : StatesInt y ny) (hw : StatesInt w nw) (hh : StatesInt h nh)
    (hkept : ∀ c ∈ after, c.uiRect jc = none)
    (hrun : run (callStep jc) (.init atomicModesetEnable) (before ++ call :: after) = some s) :
    Prints jc s optarg (rectLine nx ny nw nh) ∧
      ∀ x' y' w' h' : CString, x'.val.toList = printInt nx → y'.val.toList = printInt ny →
        w'.val.toList = printInt nw → h'.val.toList = printInt nh →
        rectOf x' y' w' h' = rectOf x y w h := by
  have hrect := setCall_uiRect hr hg env hopt x y w h rest hcall
  have hshows := shows_run _ (shows_init atomicModesetEnable) hrun
  have hviewport : s.uiViewport = (shownAfter jc (before ++ call :: after)).uiRect :=
    congrArg Reported.uiViewport hshows
  have hset : (shownAfter jc (before ++ call :: after)).rect = some (rectOf x y w h).numbers := by
    unfold shownAfter
    rw [List.foldl_append, List.foldl_cons, rect_kept hkept, after_rect hrect]
  refine ⟨?_, fun x' y' w' h' => rectOf_printed hx hy hw hh⟩
  rw [← uiRectLine_rectOf hx hy hw hh]
  have hline := prints_uiRect hr hg s hopt
  rwa [hviewport, Shown.uiRect, hset, Option.getD_some] at hline

end Lines

/-! ### Two runs -/

def mode2160 : DrmModeModeInfo :=
  ⟨"3840x2160", 60, 3840, 4016, 4104, 4400, 2160, 2168, 2178, 2250, 594000, 0, 64⟩

theorem get_prints_mode2160 :
    Prints jsonText
      { HelperState.init true with uiViewport := ⟨0, 0, 1920, 1080⟩, displayMode := mode2160 }
      ⟨"display-mode", by decide⟩ "3840x2160,3840,2160,60\n".toList := by
  have hmodes : ReportsModes
      [.updateUiLogicSizeInfo 1920 1080, .updateDisplayModeInfo mode2160] := by
    intro mode hmem
    have hmode : mode = mode2160 := by simpa using hmem
    rw [hmode]
    exact ⟨by decide, by decide⟩
  have hopt : (⟨"display-mode", by decide⟩ : CString).val ∈ ["ui-rect", "display-mode"] := by
    decide
  have hline : shownLine (shownAfter jsonText
      [.updateUiLogicSizeInfo 1920 1080, .updateDisplayModeInfo mode2160])
      ⟨"display-mode", by decide⟩ = "3840x2160,3840,2160,60\n".toList := by decide +kernel
  rw [← hline]
  exact get_prints_shown jsonText_readsObjects jsonText_getsInts hmodes
    (by rfl : run (callStep jsonText) (.init true)
      [.updateUiLogicSizeInfo 1920 1080, .updateDisplayModeInfo mode2160] = some _) hopt

/-- Numbers as a user may write them; another size is reported behind them. -/
theorem given_rect_is_printed :
    ∃ call s, setCall jsonText .silent ⟨"ui-rect", by decide⟩
        [⟨"-8", by decide⟩, ⟨" +4", by decide⟩, ⟨"1280px", by decide⟩, ⟨"0720", by decide⟩]
          = some call ∧
      run (callStep jsonText) (.init true)
        ([.updateUiLogicSizeInfo 1920 1080] ++ call :: [.updateUiLogicSizeInfo 3840 2160])
          = some s ∧
      Prints jsonText s ⟨"ui-rect", by decide⟩ (rectLine (-8) 4 1280 720) := by
  have hcall : setCall jsonText .silent ⟨"ui-rect", by decide⟩
      [⟨"-8", by decide⟩, ⟨" +4", by decide⟩, ⟨"1280px", by decide⟩, ⟨"0720", by decide⟩]
        = some (.message .silent (jsonText.received (rectRequest ⟨-8, 4, 1280, 720⟩))) := by
    have hrect : rectOf ⟨"-8", by decide⟩ ⟨" +4", by decide⟩ ⟨"1280px", by decide⟩
        ⟨"0720", by decide⟩ = ⟨-8, 4, 1280, 720⟩ := by decide +kernel
    rw [← hrect]
    rfl
  obtain ⟨s, hrun⟩ := Option.isSome_iff_exists.mp
    (by decide +kernel : (run (callStep jsonText) (.init true)
      ([.updateUiLogicSizeInfo 1920 1080] ++
        .message .silent (jsonText.received (rectRequest ⟨-8, 4, 1280, 720⟩)) ::
          [.updateUiLogicSizeInfo 3840 2160])).isSome = true)
  refine ⟨_, s, hcall, hrun, ?_⟩
  refine (set_rect_is_printed jsonText_readsObjects jsonText_getsInts rfl hcall ?_ ?_ ?_ ?_
    (by simp [HelperCall.uiRect]) hrun).1
  · exact states_of_scan (by rfl : scanDigits _ = .assigned (true, 8) []) (by decide)
  · exact states_of_scan (by rfl : scanDigits _ = .assigned (false, 4) []) (by decide)
  · exact states_of_scan (by rfl : scanDigits _ = .assigned (false, 1280) ['p', 'x']) (by decide)
  · exact states_of_scan (by rfl : scanDigits _ = .assigned (false, 720) []) (by decide)

end MesonDisplay.Client
