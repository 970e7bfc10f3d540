/-
  MesonDisplay.Client.Queries — the queries of the client library.

  `drm_help_client_get_ui_rect` and `drm_help_client_get_display_mode` wait for
  a reply and store what is in it.  A connection that ends gives `{}` for the
  reply, and a member that is missing reads as 0.

  Main results:
    * `queries_truthful_iff` — when a query that returns true has stored what
      the server replied.
-/
import MesonDisplay.Client.Modes
import MesonDisplay.Helper.UiViewport
import MesonDisplay.Ipc.ReadOutcome

namespace MesonDisplay.Client

open MesonDisplay.Helper
open MesonDisplay.Framing
open MesonDisplay.Ipc
open MesonDisplay.Json (jsonText)

/-! ## §1. The functions. -/

/-- A call that waits for the server. -/
inductive Waited (α : Type) where
  | blocked
  /-- A variable that was never assigned is read. -/
  | undefined
  | done (a : α)
  deriving DecidableEq

/-- `client_send_request_wait_reply`, behind its `send_request`.  The object is
the new `*data`. -/
def clientSendRequestWaitReply (jc : JsonC) (rcvbuf : Nat) (reads : List (Read Char)) :
    ReadResult :=
  match readRequest jc rcvbuf (fun _ => true) none reads with
  | .returned len out rest => .returned len (Json.objectAdd Json.newObject "ret" out) rest
  | r => r

/-- `send_cmd_sync`, behind its `send_cmd`; `copyOk` tells whether
`json_object_deep_copy` succeeds. -/
def sendCmdSync (jc : JsonC) (rcvbuf : Nat) (copyOk : Bool) (reads : List (Read Char)) :
    Waited Json :=
  match clientSendRequestWaitReply jc rcvbuf reads with
  | .blocked _ => .blocked
  | .undefined => .undefined
  | .returned len data _ =>
      if len < 0 then .done .null
      else
        let reply := data.objectGet "ret"
        if reply.isNull then .done .null
        else if copyOk then .done reply else .done .null

/-- `drm_help_client_get_ui_rect`: its value, and what is in `*rect`. -/
def drmHelpClientGetUiRect (jc : JsonC) (rcvbuf : Nat) (copyOk : Bool)
    (reads : List (Read Char)) (rect : DrmOutputRect) : Waited (Bool × DrmOutputRect) :=
  match sendCmdSync jc rcvbuf copyOk reads with
  | .blocked => .blocked
  | .undefined => .undefined
  | .done reply =>
      match readUiRect jc reply with
      | none => .done (false, rect)
      | some rect => .done (true, rect)

/-- `drm_help_client_get_display_mode`: its value, and what is in `*mode`.  The
value of `json_format_to_drm_output_mode` is not looked at. -/
def drmHelpClientGetDisplayMode (jc : JsonC) (rcvbuf : Nat) (copyOk : Bool)
    (reads : List (Read Char)) (mode : DrmOutputMode) : Waited (Bool × DrmOutputMode) :=
  match sendCmdSync jc rcvbuf copyOk reads with
  | .blocked => .blocked
  | .undefined => .undefined
  | .done reply =>
      if reply.isNull then .done (false, mode)
      else .done (true, (jsonFormatToDrmOutputMode jc reply).getD mode)

/-! ## §2. What the server does. -/

section Reads

variable (jc : JsonC) (rcvbuf : Nat) (reads : List (Read Char))

/-- The reply is complete with the chunk `c`. -/
def Replies (reply : Json) : Prop :=
  ∃ chunks c rest, reads = chunks.map .bytes ++ .bytes c :: rest ∧ 0 < c.length ∧
    Incomplete jc chunks ∧ chunks.flatten.length < capacity rcvbuf ∧
    jc.tokenerParse (chunks ++ [c]).flatten = reply ∧ reply ≠ .null

/-- The connection ends before a reply is complete. -/
def EndsFirst : Prop :=
  ∃ chunks rest, reads = chunks.map .bytes ++ .eof :: rest ∧ Incomplete jc chunks ∧
    chunks.flatten.length < capacity rcvbuf

end Reads

/-! ## §3. What a reply says. -/

section Members

variable (jc : JsonC) (reply : Json)

/-- The member is there, and json-c converts it to `n` without an error. -/
def MemberIs (key : String) (n : Int) : Prop :=
  reply.objectGet key ≠ .null ∧ jc.getInt (reply.objectGet key) = (n, 0)

/-- The member is there, with a number in the range. -/
def CarriesInt (key : String) (lo hi : Int) : Prop :=
  ∃ n, MemberIs jc reply key n ∧ lo ≤ n ∧ n < hi

/-- The rectangle is the one of the reply. -/
structure RectHolds (rect : DrmOutputRect) : Prop where
  x : MemberIs jc reply "x" rect.x.toInt
  y : MemberIs jc reply "y" rect.y.toInt
  w : MemberIs jc reply "w" rect.w.toNat
  h : MemberIs jc reply "h" rect.h.toNat

/-- The reply has the members of a rectangle. -/
structure CarriesRect : Prop where
  x : CarriesInt jc reply "x" (-2 ^ 31) (2 ^ 31)
  y : CarriesInt jc reply "y" (-2 ^ 31) (2 ^ 31)
  w : CarriesInt jc reply "w" 0 (2 ^ 32)
  h : CarriesInt jc reply "h" 0 (2 ^ 32)

/-- The mode is the one of the reply, and a zero byte follows its name. -/
structure ModeHolds (mode : DrmOutputMode) : Prop where
  name : jc.getString (reply.objectGet "name") = some mode.name
  terminated : mode.name.length < drmDisplayModeLen
  refresh : MemberIs jc reply "vrefresh" mode.refresh
  width : MemberIs jc reply "hdisplay" mode.width
  height : MemberIs jc reply "vdisplay" mode.height

/-- The reply has the members of a mode, and the name fits. -/
structure CarriesMode : Prop where
  name : ∃ name, jc.getString (reply.objectGet "name") = some name ∧
    name.length < drmDisplayModeLen
  refresh : CarriesInt jc reply "vrefresh" 0 (2 ^ 32)
  width : CarriesInt jc reply "hdisplay" 0 (2 ^ 32)
  height : CarriesInt jc reply "vdisplay" 0 (2 ^ 32)

end Members

/-! ## §4. Truthful queries. -/

/-- A query that returns true has stored what the server replied; one that
returns false has stored nothing. -/
def Truthful {α : Type} (replies : Json → Prop) (holds : Json → α → Prop) (out : α) :
    Waited (Bool × α) → Prop
  | .blocked => True
  | .undefined => False
  | .done (ret, out') =>
      (ret = true → ∃ reply, replies reply ∧ holds reply out') ∧ (ret = false → out' = out)

def UiRectTruthful (jc : JsonC) (rcvbuf : Nat) (copyOk : Bool) (reads : List (Read Char))
    (rect : DrmOutputRect) : Prop :=
  Truthful (Replies jc rcvbuf reads) (RectHolds jc) rect
    (drmHelpClientGetUiRect jc rcvbuf copyOk reads rect)

def DisplayModeTruthful (jc : JsonC) (rcvbuf : Nat) (copyOk : Bool) (reads : List (Read Char))
    (mode : DrmOutputMode) : Prop :=
  Truthful (Replies jc rcvbuf reads) (ModeHolds jc) mode
    (drmHelpClientGetDisplayMode jc rcvbuf copyOk reads mode)

/-- The block size is usable; and unless the copy of the reply fails, the
connection does not end before the reply, and the reply carries everything. -/
structure Delivers (jc : JsonC) (rcvbuf : Nat) (copyOk : Bool) (reads : List (Read Char))
    (carries : Json → Prop) : Prop where
  block : 0 < rcvbuf ∧ rcvbuf ≤ maxRequestBufferSize
  reply : copyOk = true → ¬ EndsFirst jc rcvbuf reads ∧
    ∀ reply, Replies jc rcvbuf reads reply → carries reply

/-! ## §5. Storing members. -/

section Store

variable {jc : JsonC} {reply : Json}

theorem getMember_eq_of_memberIs {key : String} {n : Int} (h : MemberIs jc reply key n) :
    (jc.getInt (reply.objectGet key)).1 = n := by
  rw [h.2]

theorem memberIs_int32_iff (key : String) :
    MemberIs jc reply key (Int32.ofInt (jc.getInt (reply.objectGet key)).1).toInt ↔
      CarriesInt jc reply key (-2 ^ 31) (2 ^ 31) := by
  constructor
  · intro h
    exact ⟨_, h, Int32.le_toInt _, Int32.toInt_lt _⟩
  · rintro ⟨n, h, hlo, hhi⟩
    rwa [getMember_eq_of_memberIs h, Int32.toInt_ofInt_of_le hlo hhi]

theorem memberIs_nat_iff (key : String) :
    MemberIs jc reply key (toUInt32 (jc.getInt (reply.objectGet key)).1 : Nat) ↔
      CarriesInt jc reply key 0 (2 ^ 32) := by
  constructor
  · intro h
    refine ⟨_, h, Int.natCast_nonneg _, ?_⟩
    unfold toUInt32
    omega
  · rintro ⟨n, h, hlo, hhi⟩
    have hn : (toUInt32 n : Int) = n := by
      unfold toUInt32
      omega
    rwa [getMember_eq_of_memberIs h, hn]

theorem toNat_ofInt (n : Int) : (UInt32.ofInt n).toNat = toUInt32 n := by
  have hlt : toUInt32 n < UInt32.size := by
    unfold toUInt32
    change _ < 2 ^ 32
    omega
  exact UInt32.toNat_ofNat_of_lt' hlt

/-- What `drm_help_client_get_ui_rect` stores. -/
theorem rectHolds_iff {rect : DrmOutputRect} (hrect : readUiRect jc reply = some rect) :
    RectHolds jc reply rect ↔ CarriesRect jc reply := by
  unfold readUiRect at hrect
  by_cases hnull : reply.isNull = true
  · rw [if_pos hnull] at hrect
    exact absurd hrect (by simp)
  · rw [if_neg hnull] at hrect
    obtain rfl := Option.some.inj hrect
    constructor
    · rintro ⟨hx, hy, hw, hh⟩
      rw [toNat_ofInt] at hw hh
      exact ⟨(memberIs_int32_iff "x").mp hx, (memberIs_int32_iff "y").mp hy,
        (memberIs_nat_iff "w").mp hw, (memberIs_nat_iff "h").mp hh⟩
    · rintro ⟨hx, hy, hw, hh⟩
      refine ⟨(memberIs_int32_iff "x").mpr hx, (memberIs_int32_iff "y").mpr hy, ?_, ?_⟩
      · rw [toNat_ofInt]
        exact (memberIs_nat_iff "w").mpr hw
      · rw [toNat_ofInt]
        exact (memberIs_nat_iff "h").mpr hh

/-- What `drm_help_client_get_display_mode` stores, if there is a name. -/
theorem modeHolds_iff {mode : DrmOutputMode}
    (hmode : jsonFormatToDrmOutputMode jc reply = some mode) :
    ModeHolds jc reply mode ↔ CarriesMode jc reply := by
  unfold jsonFormatToDrmOutputMode at hmode
  cases hname : jc.getString (reply.objectGet "name") with
  | none =>
      rw [hname] at hmode
      exact absurd hmode (by simp)
  | some name =>
      rw [hname] at hmode
      obtain rfl := Option.some.inj hmode
      constructor
      · rintro ⟨hsame, hterm, hrefresh, hwidth, hheight⟩
        refine ⟨⟨_, hsame, hterm⟩, (memberIs_nat_iff "vrefresh").mp hrefresh,
          (memberIs_nat_iff "hdisplay").mp hwidth, (memberIs_nat_iff "vdisplay").mp hheight⟩
      · rintro ⟨⟨name', hsame, hterm⟩, hrefresh, hwidth, hheight⟩
        obtain rfl := Option.some.inj (hname.symm.trans hsame)
        -- a name that is shorter than the array is copied whole
        have hcopy : strncpy name drmDisplayModeLen = name := by
          unfold strncpy
          rw [List.take_of_length_le, String.ofList_toList]
          rw [String.length_toList]
          exact Nat.le_of_lt hterm
        refine ⟨?_, ?_, (memberIs_nat_iff "vrefresh").mpr hrefresh,
          (memberIs_nat_iff "hdisplay").mpr hwidth, (memberIs_nat_iff "vdisplay").mpr hheight⟩
        · rw [hcopy, hname]
        · rw [hcopy]
          exact hterm

theorem nameless_of_none (hmode : jsonFormatToDrmOutputMode jc reply = none) :
    jc.getString (reply.objectGet "name") = none := by
  unfold jsonFormatToDrmOutputMode at hmode
  cases h : jc.getString (reply.objectGet "name") with
  | none => rfl
  | some name =>
      rw [h] at hmode
      exact absurd hmode (by simp)

end Store

/-! ## §6. Waiting. -/

section Wait

variable {jc : JsonC} {rcvbuf : Nat} {copyOk : Bool} {reads : List (Read Char)}

theorem sendCmdSync_returned {len : Int} {out : Json} {rest : List (Read Char)}
    (hrun : readRequest jc rcvbuf (fun _ => true) none reads = .returned len out rest)
    (hout : out ≠ .null) :
    sendCmdSync jc rcvbuf copyOk reads
      = .done (if len < 0 ∨ copyOk = false then .null else out) := by
  have hget : (Json.objectAdd Json.newObject "ret" out).objectGet "ret" = out := rfl
  have hnull : out.isNull = false := by
    cases out <;> first | rfl | exact absurd rfl hout
  unfold sendCmdSync clientSendRequestWaitReply
  rw [hrun]
  simp only [hget, hnull]
  by_cases hlen : len < 0
  · simp [hlen]
  · cases copyOk <;> simp [hlen]

/-- A block size that is not usable. -/
theorem readRequest_undefined (h : ¬ (0 < rcvbuf ∧ rcvbuf ≤ maxRequestBufferSize)) :
    readRequest jc rcvbuf (fun _ => true) none reads = .undefined := by
  unfold readRequest
  by_cases h0 : rcvbuf = 0
  · rw [if_pos h0]
  · rw [if_neg h0, Nat.div_eq_of_lt (by omega)]
    rfl

section Usable

variable (h0 : 0 < rcvbuf) (hB : rcvbuf ≤ maxRequestBufferSize)
  (hoff : Offered jc rcvbuf (fun _ => true) [] reads)

include h0 hB hoff

theorem readRequest_of_replies {reply : Json} (h : Replies jc rcvbuf reads reply) :
    ∃ (n : Nat) (rest : List (Read Char)), 0 < n ∧
      readRequest jc rcvbuf (fun _ => true) none reads = .returned n reply rest := by
  obtain ⟨chunks, c, rest, hreads, hc, hnot, hcap, rfl, hv⟩ := h
  exact ⟨c.length, rest, hc, (readRequest_iff_outcome h0 hB none hoff _).mpr
    (.value chunks c rest hreads hc hnot hcap hv)⟩

theorem readRequest_of_endsFirst (h : EndsFirst jc rcvbuf reads) :
    ∃ rest, readRequest jc rcvbuf (fun _ => true) none reads
      = .returned 0 Json.newObject rest := by
  obtain ⟨chunks, rest, hreads, hnot, hcap⟩ := h
  exact ⟨rest, (readRequest_iff_outcome h0 hB none hoff _).mpr
    (.eof chunks rest hreads hnot hcap)⟩

/-- Where nothing can be stored, nothing wrong is. -/
theorem delivers_of_nothing {carries : Json → Prop}
    (hnone : ∀ len out rest,
      readRequest jc rcvbuf (fun _ => true) none reads = .returned len out rest → len < 0) :
    Delivers jc rcvbuf copyOk reads carries := by
  refine ⟨⟨h0, hB⟩, fun _ => ⟨fun hends => ?_, fun reply hreply => ?_⟩⟩
  · obtain ⟨rest, hrun⟩ := readRequest_of_endsFirst h0 hB hoff hends
    exact absurd (hnone _ _ _ hrun) (by decide)
  · obtain ⟨n, rest, -, hrun⟩ := readRequest_of_replies h0 hB hoff hreply
    have hneg := hnone _ _ _ hrun
    omega

theorem replies_unique {reply reply' : Json} (h : Replies jc rcvbuf reads reply)
    (h' : Replies jc rcvbuf reads reply') : reply' = reply := by
  obtain ⟨n, rest, -, hrun⟩ := readRequest_of_replies h0 hB hoff h
  obtain ⟨n', rest', -, hrun'⟩ := readRequest_of_replies h0 hB hoff h'
  exact (ReadResult.returned.inj (hrun'.symm.trans hrun)).2.1

theorem not_endsFirst_of_replies {reply : Json} (h : Replies jc rcvbuf reads reply) :
    ¬ EndsFirst jc rcvbuf reads := by
  intro hends
  obtain ⟨n, rest, hn, hrun⟩ := readRequest_of_replies h0 hB hoff h
  obtain ⟨rest', hrun'⟩ := readRequest_of_endsFirst h0 hB hoff hends
  have hzero : (n : Int) = 0 := (ReadResult.returned.inj (hrun.symm.trans hrun')).1
  omega

/-- Where a reply arrives, it decides. -/
theorem delivers_iff_of_replies {carries : Json → Prop} {reply : Json}
    (h : Replies jc rcvbuf reads reply) :
    Delivers jc rcvbuf true reads carries ↔ carries reply := by
  constructor
  · exact fun hdel => (hdel.reply rfl).2 reply h
  · intro hcarries
    refine ⟨⟨h0, hB⟩, fun _ => ⟨not_endsFirst_of_replies h0 hB hoff h, ?_⟩⟩
    intro reply' h'
    rwa [replies_unique h0 hB hoff h h']

end Usable

/-- A query stores into `out`, unless there is no reply. -/
def Waited.query {α : Type} (store : Json → α) (out : α) : Waited Json → Waited (Bool × α)
  | .blocked => .blocked
  | .undefined => .undefined
  | .done reply => if reply.isNull then .done (false, out) else .done (true, store reply)

/-- What a query that returns true has to show. -/
theorem truthful_true_iff {α : Type} {replies : Json → Prop} {holds : Json → α → Prop}
    {out a : α} :
    Truthful replies holds out (.done (true, a)) ↔ ∃ reply, replies reply ∧ holds reply a :=
  ⟨fun h => h.1 rfl, fun h => ⟨fun _ => h, fun hfalse => absurd hfalse (by decide)⟩⟩

/-- **One query.** -/
theorem truthful_query_iff {α : Type} {holds : Json → α → Prop} {carries : Json → Prop}
    {store : Json → α} {out : α} (hoff : Offered jc rcvbuf (fun _ => true) [] reads)
    (hstore : ∀ reply, reply ≠ .null → (holds reply (store reply) ↔ carries reply)) :
    Truthful (Replies jc rcvbuf reads) holds out
        ((sendCmdSync jc rcvbuf copyOk reads).query store out)
      ↔ Delivers jc rcvbuf copyOk reads carries := by
  by_cases hblock : 0 < rcvbuf ∧ rcvbuf ≤ maxRequestBufferSize
  · obtain ⟨h0, hB⟩ := hblock
    have hout := (readRequest_iff_outcome h0 hB none hoff _).mp rfl
    cases hr : readRequest jc rcvbuf (fun _ => true) none reads with
    | undefined =>
        rw [hr] at hout
        cases hout
    | blocked b =>
        have hsync : sendCmdSync jc rcvbuf copyOk reads = .blocked := by
          unfold sendCmdSync clientSendRequestWaitReply
          rw [hr]
        rw [hsync]
        refine iff_of_true trivial (delivers_of_nothing h0 hB hoff ?_)
        intro len v rest hrun
        exact absurd (hr.symm.trans hrun) (by simp)
    | returned len v rest =>
        rw [hr] at hout
        have hv : v ≠ .null := by
          cases hout with
          | value chunks c rest hreads hc hnot hcap hv => exact hv
          | _ => simp [Json.newObject]
        rw [sendCmdSync_returned hr hv]
        by_cases hfail : len < 0 ∨ copyOk = false
        -- nothing is stored
        · rw [if_pos hfail]
          refine iff_of_true ⟨fun h => absurd h Bool.false_ne_true, fun _ => rfl⟩ ?_
          rcases hfail with hneg | hcopy
          · refine delivers_of_nothing h0 hB hoff ?_
            intro len' v' rest' hrun
            rwa [← (ReadResult.returned.inj (hr.symm.trans hrun)).1]
          · exact ⟨⟨h0, hB⟩, fun h => absurd (hcopy.symm.trans h) Bool.false_ne_true⟩
        -- what was read is stored
        · obtain ⟨hlen, hcopy⟩ := not_or.mp hfail
          obtain rfl : copyOk = true := Bool.not_eq_false _ ▸ hcopy
          have hquery : (Waited.done v).query store out = .done (true, store v) := by
            unfold Waited.query
            simp only
            rw [if_neg (by simpa using hv)]
          rw [if_neg hfail, hquery, truthful_true_iff]
          cases hout with
          | value chunks c rest hreads hc hnot hcap hv =>
              have hreplies : Replies jc rcvbuf reads (jc.tokenerParse (chunks ++ [c]).flatten) :=
                ⟨chunks, c, rest, hreads, hc, hnot, hcap, rfl, hv⟩
              rw [delivers_iff_of_replies h0 hB hoff hreplies, ← hstore _ hv]
              constructor
              · rintro ⟨reply, hreply, hholds⟩
                rwa [replies_unique h0 hB hoff hreplies hreply] at hholds
              · exact fun hholds => ⟨_, hreplies, hholds⟩
          | eof chunks rest hreads hnot hcap =>
              have hends : EndsFirst jc rcvbuf reads := ⟨chunks, rest, hreads, hnot, hcap⟩
              refine iff_of_false ?_ fun hdel => (hdel.reply rfl).1 hends
              rintro ⟨reply, hreply, -⟩
              exact not_endsFirst_of_replies h0 hB hoff hreply hends
          | error chunks rest hreads hnot hcap => exact absurd (by decide) hlen
          | full chunks c rest hreads hnot hcap hfull => exact absurd (by decide) hlen
  · have hsync : sendCmdSync jc rcvbuf copyOk reads = .undefined := by
      unfold sendCmdSync clientSendRequestWaitReply
      rw [readRequest_undefined hblock]
    rw [hsync]
    exact iff_of_false id fun h => hblock h.block

theorem getUiRect_eq (rect : DrmOutputRect) :
    drmHelpClientGetUiRect jc rcvbuf copyOk reads rect
      = (sendCmdSync jc rcvbuf copyOk reads).query
          (fun reply => (readUiRect jc reply).getD rect) rect := by
  unfold drmHelpClientGetUiRect
  cases sendCmdSync jc rcvbuf copyOk reads with
  | blocked => rfl
  | undefined => rfl
  | done reply =>
      unfold Waited.query readUiRect
      by_cases hnull : reply.isNull = true
      · simp only [if_pos hnull]
      · simp only [if_neg hnull, Option.getD_some]

theorem getDisplayMode_eq (mode : DrmOutputMode) :
    drmHelpClientGetDisplayMode jc rcvbuf copyOk reads mode
      = (sendCmdSync jc rcvbuf copyOk reads).query
          (fun reply => (jsonFormatToDrmOutputMode jc reply).getD mode) mode := by
  unfold drmHelpClientGetDisplayMode
  cases sendCmdSync jc rcvbuf copyOk reads <;> rfl

theorem uiRectTruthful_iff (hoff : Offered jc rcvbuf (fun _ => true) [] reads)
    (rect : DrmOutputRect) :
    UiRectTruthful jc rcvbuf copyOk reads rect
      ↔ Delivers jc rcvbuf copyOk reads (CarriesRect jc) := by
  unfold UiRectTruthful
  rw [getUiRect_eq]
  refine truthful_query_iff hoff ?_
  intro reply hreply
  obtain ⟨r, hr⟩ : ∃ r, readUiRect jc reply = some r := by
    unfold readUiRect
    rw [if_neg (by simpa using hreply)]
    exact ⟨_, rfl⟩
  rw [hr, Option.getD_some]
  exact rectHolds_iff hr

theorem displayModeTruthful_iff (hoff : Offered jc rcvbuf (fun _ => true) [] reads)
    (mode : DrmOutputMode) :
    DisplayModeTruthful jc rcvbuf copyOk reads mode
      ↔ Delivers jc rcvbuf copyOk reads (CarriesMode jc) := by
  unfold DisplayModeTruthful
  rw [getDisplayMode_eq]
  refine truthful_query_iff hoff ?_
  intro reply _
  cases hr : jsonFormatToDrmOutputMode jc reply with
  | none =>
      have hname := nameless_of_none hr
      refine iff_of_false (fun hholds => ?_) (fun hcarries => ?_)
      · exact absurd (hname.symm.trans hholds.name) (by simp)
      · obtain ⟨name, hsome, -⟩ := hcarries.name
        exact absurd (hname.symm.trans hsome) (by simp)
  | some m => exact modeHolds_iff hr

end Wait

/-- **When the queries are truthful.**  A query that returns true has stored
what the server replied, and one that returns false has stored nothing, if and
only if the connection does not end before the reply and the reply carries
every member; its numbers have to fit, and its name as well. -/
theorem queries_truthful_iff (jc : JsonC) (rcvbuf : Nat) (copyOk : Bool)
    (reads : List (Read Char)) (hoff : Offered jc rcvbuf (fun _ => true) [] reads)
    (rect : DrmOutputRect) (mode : DrmOutputMode) :
    (UiRectTruthful jc rcvbuf copyOk reads rect
      ↔ Delivers jc rcvbuf copyOk reads (CarriesRect jc)) ∧
    (DisplayModeTruthful jc rcvbuf copyOk reads mode
      ↔ Delivers jc rcvbuf copyOk reads (CarriesMode jc)) :=
  ⟨uiRectTruthful_iff hoff rect, displayModeTruthful_iff hoff mode⟩

/-! ### A reply, and the end of the connection -/

/-- A reply that both queries can store. -/
def fullReply : Json :=
  .object [("x", .int (-16)), ("y", .int 0), ("w", .int 1920), ("h", .int 1080),
    ("name", .string "1920x1080"), ("vrefresh", .int 60), ("hdisplay", .int 1920),
    ("vdisplay", .int 1080)]

theorem full_reply_truthful :
    UiRectTruthful jsonText 4096 true [.bytes (jsonText.toJsonString fullReply)] ⟨0, 0, 0, 0⟩ ∧
      DisplayModeTruthful jsonText 4096 true [.bytes (jsonText.toJsonString fullReply)]
        ⟨"", 0, 0, 0⟩ := by
  have hoff : Offered jsonText 4096 (fun _ => true) []
      [.bytes (jsonText.toJsonString fullReply)] :=
    fun _ => ⟨⟨by decide +kernel, by decide +kernel⟩, fun _ => trivial⟩
  have hreplies : Replies jsonText 4096 [.bytes (jsonText.toJsonString fullReply)] fullReply :=
    ⟨[], jsonText.toJsonString fullReply, [], rfl, by decide +kernel, incomplete_nil,
      by decide, by decide +kernel, by decide⟩
  obtain ⟨hrect, hmode⟩ :=
    queries_truthful_iff jsonText 4096 true _ hoff ⟨0, 0, 0, 0⟩ ⟨"", 0, 0, 0⟩
  have hint : ∀ key n lo hi, fullReply.objectGet key = .int n → lo ≤ n → n < hi →
      -2 ^ 31 ≤ n → n < 2 ^ 31 → CarriesInt jsonText fullReply key lo hi := by
    intro key n lo hi hget hlo hhi hmin hmax
    refine ⟨n, ⟨by rw [hget]; simp, ?_⟩, hlo, hhi⟩
    rw [hget]
    exact Json.jsonText_getsInts.int32 n hmin hmax
  rw [hrect, hmode, delivers_iff_of_replies (by decide) (by decide) hoff hreplies,
    delivers_iff_of_replies (by decide) (by decide) hoff hreplies]
  constructor
  · exact ⟨hint "x" (-16) _ _ rfl (by decide) (by decide) (by decide) (by decide),
      hint "y" 0 _ _ rfl (by decide) (by decide) (by decide) (by decide),
      hint "w" 1920 _ _ rfl (by decide) (by decide) (by decide) (by decide),
      hint "h" 1080 _ _ rfl (by decide) (by decide) (by decide) (by decide)⟩
  · exact ⟨⟨"1920x1080", by decide +kernel, by decide⟩,
      hint "vrefresh" 60 _ _ rfl (by decide) (by decide) (by decide) (by decide),
      hint "hdisplay" 1920 _ _ rfl (by decide) (by decide) (by decide) (by decide),
      hint "vdisplay" 1080 _ _ rfl (by decide) (by decide) (by decide) (by decide)⟩

/-- The connection ends instead of a reply: both queries return true, one with
zeroes and the other one with what was there before. -/
theorem ended_connection_returns_true :
    drmHelpClientGetUiRect jsonText 4096 true [.eof] ⟨5, 6, 7, 8⟩
        = .done (true, ⟨0, 0, 0, 0⟩) ∧
      drmHelpClientGetDisplayMode jsonText 4096 true [.eof] ⟨"720p", 1280, 720, 50⟩
        = .done (true, ⟨"720p", 1280, 720, 50⟩) ∧
      ¬ UiRectTruthful jsonText 4096 true [.eof] ⟨5, 6, 7, 8⟩ ∧
      ¬ DisplayModeTruthful jsonText 4096 true [.eof] ⟨"720p", 1280, 720, 50⟩ := by
  have hoff : Offered jsonText 4096 (fun _ => true) [] [.eof] := trivial
  have hends : EndsFirst jsonText 4096 [.eof] := ⟨[], [], rfl, incomplete_nil, by decide⟩
  refine ⟨by decide +kernel, by decide +kernel, ?_, ?_⟩
  · rw [uiRectTruthful_iff hoff]
    exact fun h => (h.reply rfl).1 hends
  · rw [displayModeTruthful_iff hoff]
    exact fun h => (h.reply rfl).1 hends

end MesonDisplay.Client
