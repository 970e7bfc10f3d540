/-
  MesonDisplay.Ipc.SocketSend — what a caller learns about a write.

  `socket_send` calls `write()` and prints a line if it failed, but it ends
  without a return statement.  `send_request` and `client_send_request` hand on
  the value of that call, and `send_cmd` and `set_properties` test it.

  Main results:
    * `sent_truthfully_never` — whatever `write()` did, the value may be any
      number.
-/
import MesonDisplay.Ipc.Client

namespace MesonDisplay.Ipc

open MesonDisplay.Json

/-! ## §1. A write. -/

/-- What `write()` did with a text. -/
inductive WriteResult (text : List Char) where
  | error
  | written (n : Nat) (h : n ≤ text.length)

namespace WriteResult

variable {text : List Char}

/-- The value of `write()`. -/
def ret : WriteResult text → Int
  | error => -1
  | written n _ => n

/-- The bytes that are in the stream. -/
def bytes : WriteResult text → List Char
  | error => []
  | written n _ => text.take n

/-- The whole text was written. -/
def Complete (w : WriteResult text) : Prop := w.ret = text.length

instance (w : WriteResult text) : Decidable w.Complete := inferInstanceAs (Decidable (_ = _))

end WriteResult

/-! ## §2. The functions. -/

/-- How the body of a function that returns an `int` ends. -/
inductive Completion where
  | returns (value : Int)
  /-- The closing brace is reached. -/
  | fallsOff

/-- The value of the call.  If the body has no return statement, C says nothing
about it, and the caller finds what was left where the value would be. -/
def Completion.value (left : Int) : Completion → Int
  | returns value => value
  | fallsOff => left

/-- The lines that are printed. -/
inductive SendLog where
  | socketWriteError
  | serverDisconnected
  deriving DecidableEq, Repr

/-- What one message meets. -/
structure SendEnv where
  write : (text : List Char) → WriteResult text
  /-- What is left where `socket_send` would put its value. -/
  left : Int

/-- `socket_send`. -/
def socketSend {text : List Char} (w : WriteResult text) : Completion × List SendLog :=
  let ret := w.ret
  let log := if ret ≤ 0 then [SendLog.socketWriteError] else []
  (.fallsOff, log)

/-- `send_request`, which `client_send_request` calls. -/
def sendRequest (env : SendEnv) (jc : JsonC) (data : Json) : Int × List SendLog :=
  let str := jc.toJsonString data
  let (completion, log) := socketSend (env.write str)
  let ret := completion.value env.left
  (ret, log)

/-- The end of `send_cmd` and of `set_properties`. -/
def sendData (env : SendEnv) (jc : JsonC) : Option Json → List SendLog
  | none => []
  | some data =>
      let (ret, log) := sendRequest env jc data
      if ret ≤ 0 then log ++ [.serverDisconnected] else log

/-- What `send_cmd` or `set_properties` prints about its message. -/
def LibraryCall.sendLog (env : SendEnv) (jc : JsonC) (call : LibraryCall) : List SendLog :=
  sendData env jc call.command

/-- What is in the stream behind some calls, and what they printed about their
messages. -/
def sendAll (jc : JsonC) : List (SendEnv × LibraryCall) → List Char × List SendLog
  | [] => ([], [])
  | (env, call) :: calls =>
      let text := call.sends.flatMap fun data => (env.write (jc.toJsonString data)).bytes
      let (texts, log) := sendAll jc calls
      (text ++ texts, call.sendLog env jc ++ log)

/-! ## §3. The value. -/

/-- A message counts as sent if and only if all of it was written. -/
structure SentTruthfully (jc : JsonC) (write : (text : List Char) → WriteResult text)
    (data : Json) : Prop where
  /-- The value does not depend on what was left. -/
  determined : ∀ left left',
    (sendRequest ⟨write, left⟩ jc data).1 = (sendRequest ⟨write, left'⟩ jc data).1
  positive : ∀ left, 0 < (sendRequest ⟨write, left⟩ jc data).1 →
    (write (jc.toJsonString data)).Complete
  /-- A message that is cut off is reported, and no other one is. -/
  reported : ∀ call : LibraryCall, call.command = some data → ∀ left,
    .serverDisconnected ∈ call.sendLog ⟨write, left⟩ jc ↔
      ¬ (write (jc.toJsonString data)).Complete

variable (jc : JsonC) (write : (text : List Char) → WriteResult text) (left : Int)

theorem sendRequest_value (data : Json) : (sendRequest ⟨write, left⟩ jc data).1 = left := rfl

/-- The line is printed if what was left is not positive. -/
theorem disconnected_mem_sendLog {call : LibraryCall} {data : Json}
    (hdata : call.command = some data) :
    .serverDisconnected ∈ call.sendLog ⟨write, left⟩ jc ↔ left ≤ 0 := by
  have hno : .serverDisconnected ∉ (socketSend (write (jc.toJsonString data))).2 := by
    unfold socketSend
    simp only
    split <;> simp
  have hlog : call.sendLog ⟨write, left⟩ jc = sendData ⟨write, left⟩ jc (some data) :=
    congrArg (sendData ⟨write, left⟩ jc) hdata
  rw [hlog]
  unfold sendData
  by_cases hleft : (sendRequest ⟨write, left⟩ jc data).1 ≤ 0
  · simp only [if_pos hleft]
    exact iff_of_true (List.mem_append_right _ (List.mem_singleton.mpr rfl)) hleft
  · simp only [if_neg hleft]
    exact iff_of_false hno hleft

/-- **Nothing is learned from the value.**  For every message and whatever
`write()` did, the value may be any number; a call that sends the message may
report the end of the connection, and may not. -/
theorem sent_truthfully_never (data : Json) :
    ¬ SentTruthfully jc write data ∧
      (∀ v, ∃ left, (sendRequest ⟨write, left⟩ jc data).1 = v) ∧
      ∀ call : LibraryCall, call.command = some data →
        (∃ left, .serverDisconnected ∈ call.sendLog ⟨write, left⟩ jc) ∧
        ∃ left, .serverDisconnected ∉ call.sendLog ⟨write, left⟩ jc := by
  refine ⟨?_, fun v => ⟨v, sendRequest_value jc write v data⟩, ?_⟩
  · intro h
    have hsame := h.determined 0 1
    rw [sendRequest_value, sendRequest_value] at hsame
    exact absurd hsame (by decide)
  · intro call hdata
    refine ⟨⟨0, ?_⟩, 1, ?_⟩
    · exact (disconnected_mem_sendLog jc write 0 hdata).mpr (Int.le_refl 0)
    · exact fun hmem => absurd ((disconnected_mem_sendLog jc write 1 hdata).mp hmem) (by decide)

/-! ### A write of three bytes -/

/-- `write()` takes three bytes. -/
def threeBytes (text : List Char) : WriteResult text :=
  if h : 3 ≤ text.length then .written 3 h else .error

/-- `write()` takes everything. -/
def allBytes (text : List Char) : WriteResult text := .written text.length le_rfl

/-- The first of two queries is cut off, the second one follows it in the
stream, and nothing is printed. -/
theorem cut_off_silently :
    ¬ (threeBytes (jsonText.toJsonString getUiRectRequest)).Complete ∧
      0 < (sendRequest ⟨threeBytes, 1⟩ jsonText getUiRectRequest).1 ∧
      sendAll jsonText [(⟨threeBytes, 1⟩, .sendCmd (some "get ui rect") none),
          (⟨allBytes, 1⟩, .sendCmd (some "get ui rect") none)]
        = ((jsonText.toJsonString getUiRectRequest).take 3
            ++ jsonText.toJsonString getUiRectRequest, []) ∧
      ¬ SentTruthfully jsonText threeBytes getUiRectRequest := by
  have hcut : ¬ (threeBytes (jsonText.toJsonString getUiRectRequest)).Complete := by
    decide +kernel
  refine ⟨hcut, by decide, by decide +kernel, ?_⟩
  intro h
  exact hcut (h.positive 1 (by decide))

end MesonDisplay.Ipc
