/-
  MesonDisplay.Ipc.Client — what the client library writes.

  `send_cmd` and `set_properties` write one object.  `send_cmd_sync` writes
  its command and then calls `client_send_request_wait_reply` with a NULL
  object, whose text is `null`: four more bytes that belong to no request.

  Main results:
    * `back_in_select` — reads that keep those bytes with the command in front
      of them leave the server in select() after every library call.
    * `trailing_null_blocks` — a read that returns them alone does not.
-/
import MesonDisplay.Ipc.Connection
import MesonDisplay.Lib.Frames

namespace MesonDisplay.Ipc

open MesonDisplay.Framing MesonDisplay.Json

/-! ## §1. The library. -/

/-- `void* opt` with its `opt_type`, for an `opt` that is not NULL. -/
inductive Opt where
  /-- `OPT_TYPE_NULL`. -/
  | null
  /-- `OPT_TYPE_DOUBLE`, by the text of the number. -/
  | double (text : String)
  | int (n : Int)
  | string (s : String)
  | jsonObject (j : Json)
  /-- `OPT_TYPE_MAX`. -/
  | max

/-- The `switch (type)` of `send_cmd`: the value to add, `none` for an error. -/
def optValue : Opt → Option Json
  | .null => some .null
  | .double t => some (.double t)
  | .int n => some (.int n)
  | .string s => some (.string s)
  | .jsonObject j => some j
  | .max => none

/-- `send_cmd`: the object passed to `client_send_request`, if any. -/
def sendCmd (cmd : Option String) (opt : Option Opt) : Option Json :=
  match cmd with
  | none => none
  | some cmd =>
      let data := Json.objectAdd Json.newObject "cmd" (.string cmd)
      match opt with
      | none => some data
      | some o =>
          match optValue o with
          | none => none
          | some value =>
              if value.isNull then some data
              else some (Json.objectAdd data "value" value)

/-- The conversion `(int64_t)value` of a `uint64_t`. -/
def toInt64 (value : Nat) : Int :=
  if value < 2 ^ 63 then value else (value : Int) - 2 ^ 64

/-- `set_properties`: the object passed to `client_send_request`, if any. -/
def setProperties (cmd name : Option String) (value : Nat) : Option Json :=
  match cmd, name with
  | some cmd, some name =>
      let data := Json.objectAdd Json.newObject "cmd" (.string cmd)
      let jsonValue := Json.objectAdd Json.newObject name (.int (toInt64 value))
      some (Json.objectAdd data "value" jsonValue)
  | _, _ => none

/-- A call of the library that writes to the connection. -/
inductive LibraryCall where
  | sendCmd (cmd : Option String) (opt : Option Opt)
  | setProperties (cmd name : Option String) (value : Nat)
  | sendCmdSync (cmd : Option String) (opt : Option Opt)

/-- The command of a call. -/
def LibraryCall.command : LibraryCall → Option Json
  | .sendCmd cmd opt => Ipc.sendCmd cmd opt
  | .setProperties cmd name value => Ipc.setProperties cmd name value
  | .sendCmdSync cmd opt => Ipc.sendCmd cmd opt

/-- The objects a call passes to `send_request`, in order.  The second one of
`send_cmd_sync` is the `*data` of `client_send_request_wait_reply`. -/
def LibraryCall.sends : LibraryCall → List Json
  | .sendCmd cmd opt => (Ipc.sendCmd cmd opt).toList
  | .setProperties cmd name value => (Ipc.setProperties cmd name value).toList
  | .sendCmdSync cmd opt => (Ipc.sendCmd cmd opt).toList ++ [.null]

/-- The bytes a call writes. -/
def LibraryCall.bytes (jc : JsonC) (call : LibraryCall) : List Char :=
  call.sends.flatMap (clientSendRequest jc)

/-! ## §2. Calls are frames. -/

/-- The frame of a call: its command, and the text of NULL behind it. -/
def LibraryCall.frame (jc : JsonC) (call : LibraryCall) : Frame Json Char where
  message := call.command
  trailer :=
    match call with
    | .sendCmdSync _ _ => jc.toJsonString .null
    | _ => []

theorem frame_bytes (jc : JsonC) (call : LibraryCall) :
    (call.frame jc).bytes (clientSendRequest jc) = call.bytes jc := by
  unfold Frame.bytes Frame.text LibraryCall.frame LibraryCall.bytes
  cases call with
  | sendCmd cmd opt =>
      show _ = (Ipc.sendCmd cmd opt).toList.flatMap _
      cases h : Ipc.sendCmd cmd opt with
      | none => simp [LibraryCall.command, h]
      | some d => simp [LibraryCall.command, h]
  | setProperties cmd name value =>
      show _ = (Ipc.setProperties cmd name value).toList.flatMap _
      cases h : Ipc.setProperties cmd name value with
      | none => simp [LibraryCall.command, h]
      | some d => simp [LibraryCall.command, h]
  | sendCmdSync cmd opt =>
      show _ = ((Ipc.sendCmd cmd opt).toList ++ [Json.null]).flatMap _
      cases h : Ipc.sendCmd cmd opt with
      | none => simp [LibraryCall.command, h, clientSendRequest]
      | some d => simp [LibraryCall.command, h, clientSendRequest]

/-- A command is an object. -/
theorem isObject_of_command {call : LibraryCall} {d : Json}
    (h : call.command = some d) : d.isObject = true := by
  -- `send_cmd` and `send_cmd_sync` build the same object
  have hsend : ∀ cmd opt, sendCmd cmd opt = some d → d.isObject = true := by
    intro cmd opt h
    unfold sendCmd at h
    cases cmd with
    | none => simp at h
    | some cmd =>
        cases opt with
        | none =>
            obtain rfl := Option.some.inj h
            rfl
        | some o =>
            cases ho : optValue o with
            | none => simp [ho] at h
            | some value =>
                simp only [ho] at h
                by_cases hv : value.isNull = true
                · rw [if_pos hv] at h
                  obtain rfl := Option.some.inj h
                  rfl
                · rw [if_neg hv] at h
                  obtain rfl := Option.some.inj h
                  rfl
  cases call with
  | sendCmd cmd opt => exact hsend cmd opt h
  | sendCmdSync cmd opt => exact hsend cmd opt h
  | setProperties cmd name value =>
      cases cmd with
      | none => simp [LibraryCall.command, setProperties] at h
      | some cmd =>
          cases name with
          | none => simp [LibraryCall.command, setProperties] at h
          | some name =>
              obtain rfl := Option.some.inj h
              rfl

/-- The bytes of the first `k` calls. -/
def bytesOfCalls (jc : JsonC) (calls : List LibraryCall) (k : Nat) : List Char :=
  (calls.take k).flatMap (LibraryCall.bytes jc)

theorem firstFrames_calls (jc : JsonC) (calls : List LibraryCall) (k : Nat) :
    firstFrames (clientSendRequest jc) (calls.map (LibraryCall.frame jc)) k
      = bytesOfCalls jc calls k := by
  unfold firstFrames bytesOfCalls
  rw [← List.map_take, List.flatMap_map]
  simp only [frame_bytes]

/-- A read that returns `c`, after the bytes `before`: it starts inside the
text of the command of a call, and stops inside that text or where a call has
written everything. -/
def KeepsNullWithCommand (jc : JsonC) (calls : List LibraryCall)
    (before c : List Char) : Prop :=
  ∃ k call d, calls[k]? = some call ∧ call.command = some d ∧
    (bytesOfCalls jc calls k).length ≤ before.length ∧
    before.length
      < (bytesOfCalls jc calls k).length + (clientSendRequest jc d).length ∧
    ((before ++ c).length
        < (bytesOfCalls jc calls k).length + (clientSendRequest jc d).length ∨
      ∃ m, before ++ c = bytesOfCalls jc calls m)

theorem readsFrame_of_keepsNull {jc : JsonC} {calls : List LibraryCall}
    {before c : List Char} (h : KeepsNullWithCommand jc calls before c) :
    ReadsFrame (clientSendRequest jc) (calls.map (LibraryCall.frame jc)) before c := by
  obtain ⟨k, call, d, hk, hd, hlo, hhi, hstop⟩ := h
  have htext : (call.frame jc).text (clientSendRequest jc) = clientSendRequest jc d := by
    unfold Frame.text LibraryCall.frame
    simp only [hd]
  refine ⟨k, call.frame jc, ?_, ?_⟩
  · rw [List.getElem?_map, hk]
    rfl
  · rw [htext]
    simp only [firstFrames_calls]
    exact ⟨hlo, hhi, hstop⟩

/-! ## §3. Back in select(). -/

/-- The server waits in select(), for this connection or without it. -/
def InSelect : ConnState → Prop
  | .select => True
  | .closed => True
  | _ => False

instance (s : ConnState) : Decidable (InSelect s) := by
  cases s <;> unfold InSelect <;> infer_instance

/-- Reads a server can see stay such reads when the later ones are cut off. -/
theorem fits_of_append {parse : List Char → Option Json} {cap : Nat}
    {room : Nat → Nat} (rs rs' : List (Read Char)) :
    ∀ got, Fits parse cap room got (rs ++ rs') → Fits parse cap room got rs := by
  induction rs with
  | nil =>
      intro got _
      trivial
  | cons r rs ih =>
      intro got h
      cases r with
      | eof => trivial
      | error => trivial
      | bytes c =>
          obtain ⟨hc, hnext⟩ : (c ≠ [] ∧ c.length ≤ room got.length) ∧ _ := h
          refine ⟨hc, ?_⟩
          cases hp : parse (got ++ c) with
          | some v =>
              rw [hp] at hnext
              exact ih [] hnext
          | none =>
              rw [hp] at hnext
              intro hlt
              exact ih (got ++ c) (hnext hlt)

section Calls

variable {σ : Type} {jc : JsonC}

/-- **Back in select() after every call.**  In every run in which each read
keeps the `null` of `send_cmd_sync` with the command in front of it, the server
is in select() whenever it has consumed all the bytes of the calls made so
far. -/
theorem back_in_select (hr : jc.ReadsObjects) (rcvbuf : Nat)
    (hB : 0 < rcvbuf ∧ rcvbuf ≤ maxRequestBufferSize)
    (msgHandle : σ → Json → σ × Json) (s : σ) (calls : List LibraryCall)
    (hwf : ∀ call ∈ calls, ∀ d, call.command = some d → d.wf = true)
    (chunks : List (List Char))
    (hseg : Segmentation jc rcvbuf (calls.flatMap (LibraryCall.bytes jc)) chunks)
    (hreads : ∀ j c, chunks[j]? = some c →
      KeepsNullWithCommand jc calls (chunks.take j).flatten c)
    (j m : Nat) (hend : (chunks.take j).flatten = bytesOfCalls jc calls m) :
    InSelect (serveConnection jc rcvbuf msgHandle s
      ((chunks.take j).map Read.bytes)).2 := by
  have hsplit : (chunks.take j).map Read.bytes ++ (chunks.drop j).map Read.bytes
      = chunks.map Read.bytes := by
    rw [← List.map_append, List.take_append_drop]
  have hfit : Readable jc rcvbuf ((chunks.take j).map Read.bytes) :=
    fits_of_append _ _ [] (hsplit ▸ hseg.readable)
  have hstream : (chunks.take j).flatten ++ (chunks.drop j).flatten
      = (calls.map (LibraryCall.frame jc)).flatMap
          (Frame.bytes (clientSendRequest jc)) := by
    rw [← List.flatten_append, List.take_append_drop, hseg.flatten, List.flatMap_map]
    simp only [frame_bytes]
  have hM : ∀ f ∈ calls.map (LibraryCall.frame jc), ∀ d, f.message = some d →
      d.IsRequest := by
    intro f hf d hd
    obtain ⟨call, hcall, rfl⟩ := List.mem_map.mp hf
    exact ⟨hwf call hcall d hd, isObject_of_command hd⟩
  have hframes : ∀ i c, (chunks.take j)[i]? = some c →
      ReadsFrame (clientSendRequest jc) (calls.map (LibraryCall.frame jc))
        ((chunks.take j).take i).flatten c := by
    intro i c hi
    have hij : i < j := by
      have := (List.getElem?_eq_some_iff.mp hi).1
      rw [List.length_take] at this
      omega
    rw [List.getElem?_take_of_lt hij] at hi
    rw [List.take_take, Nat.min_eq_left (Nat.le_of_lt hij)]
    exact readsFrame_of_keepsNull (hreads i c hi)
  rw [← firstFrames_calls] at hend
  obtain ⟨hdel, hpend⟩ := pending_of_readsFrame 
    (requestText_selfDelimiting hr) hM (chunks.take j) _ hstream hframes hend
  rw [serveConnection_state hB.1 hB.2 s _ hfit]
  -- nothing but objects was delivered, and nothing is left in the buffer
  have hnone : (delivered jc.parse (capacity rcvbuf) []
      ((chunks.take j).map Read.bytes)).find? (fun v => !v.isObject) = none := by
    rw [List.find?_eq_none]
    intro v hv
    simp [(hdel v hv).2]
  unfold stateAfter
  rw [hnone]
  cases hp : pending jc.parse (capacity rcvbuf) [] ((chunks.take j).map Read.bytes) with
  | none => trivial
  | some g =>
      rw [hpend g hp]
      trivial

/-- **A `null` at the start of a buffer blocks the server.**  Whatever follows
it, and however it arrives: nothing is handled, and the server stays inside
`read_request` until the buffer is full. -/
theorem null_blocks (hn : jc.ReadsNull) (rcvbuf : Nat)
    (msgHandle : σ → Json → σ × Json) (s : σ) (rest : List Char)
    (chunks : List (List Char))
    (hseg : Segmentation jc rcvbuf ("null".toList ++ rest) chunks)
    (hlen : ("null".toList ++ rest).length < capacity rcvbuf) :
    handled (serveConnection jc rcvbuf msgHandle s (chunks.map Read.bytes)).1 = [] ∧
    (serveConnection jc rcvbuf msgHandle s (chunks.map Read.bytes)).2
      = .blocked ("null".toList ++ rest) := by
  obtain ⟨h0, hB⟩ := capacity_pos_iff.mp (Nat.zero_lt_of_lt hlen)
  have hno : ∀ p, p <+: "null".toList ++ rest → jc.parse p = none := by
    intro p hp
    rw [JsonC.parse_eq_none]
    by_cases hle : p.length ≤ "null".toList.length
    · apply hn.incomplete p
      exact List.prefix_of_prefix_length_le hp (List.prefix_append _ _) hle
    · obtain ⟨r, rfl⟩ : "null".toList <+: p :=
        List.prefix_of_prefix_length_le (List.prefix_append _ _) hp (by omega)
      exact hn.complete r
  obtain ⟨hdel, hpend⟩ := pending_of_no_value hno hlen chunks [] hseg.flatten
  rw [serveConnection_handled h0 hB s _ hseg.readable,
      serveConnection_state h0 hB s _ hseg.readable, hdel, hpend]
  exact ⟨rfl, rfl⟩

end Calls

/-! ### A query, with its `null` and without it -/

def getUiRectCall : LibraryCall := .sendCmdSync (some "get ui rect") none

/-- The query and the `null` in one read. -/
theorem query_read_whole :
    InSelect (serveConnection jsonText 212992 silentHandle ()
      (([getUiRectCall.bytes jsonText].take 1).map Read.bytes)).2 := by
  have hfit : Readable jsonText 212992 ([getUiRectCall.bytes jsonText].map Read.bytes) := by
    refine ⟨by decide +kernel, ?_⟩
    rw [show jsonText.parse ([] ++ getUiRectCall.bytes jsonText)
        = some getUiRectRequest by decide +kernel]
    trivial
  refine back_in_select jsonText_readsObjects 212992 (by decide) silentHandle ()
    [getUiRectCall] ?_ [getUiRectCall.bytes jsonText]
    ⟨by decide +kernel, hfit⟩ ?_ 1 1 (by decide +kernel)
  · intro call hcall d hd
    obtain rfl := List.mem_singleton.mp hcall
    obtain rfl : getUiRectRequest = d := Option.some.inj hd
    decide +kernel
  · intro j c hj
    match j with
    | 0 =>
        obtain rfl := Option.some.inj hj
        exact ⟨0, getUiRectCall, getUiRectRequest, rfl, rfl, by decide +kernel,
          by decide +kernel, .inr ⟨1, by decide +kernel⟩⟩
    | j + 1 => simp at hj

/-- The query in one read, the `null` in the next. -/
theorem trailing_null_blocks :
    Segmentation jsonText 212992 ([getUiRectCall].flatMap (LibraryCall.bytes jsonText))
      [clientSendRequest jsonText getUiRectRequest, "null".toList] ∧
    (serveConnection jsonText 212992 silentHandle ()
      ([clientSendRequest jsonText getUiRectRequest, "null".toList].map Read.bytes)).2
      = .blocked "null".toList := by
  refine ⟨⟨by decide +kernel, by decide +kernel, ?_⟩, by decide +kernel⟩
  rw [show jsonText.parse ([] ++ clientSendRequest jsonText getUiRectRequest)
      = some getUiRectRequest by decide +kernel]
  refine ⟨by decide +kernel, ?_⟩
  rw [show jsonText.parse ([] ++ "null".toList) = none by decide +kernel]
  intro _
  trivial

end MesonDisplay.Ipc
