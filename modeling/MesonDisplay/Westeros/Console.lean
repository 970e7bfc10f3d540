/-
  MesonDisplay.Westeros.Console — commands to the Westeros console.

  `wstDisplaySendMessage` runs the console in a shell and reads what it prints.
  A piece of the output that contains "[0:" is the response; the last one counts.
  If there is none in the directory of the environment, the console is run once
  more in "/run".

  What a command prints, and whether the shell can be started, is not known; it
  may be something else every time.

  Main results:
    * `wstDisplaySendMessage_eq` — the response of the console, or failure.
    * `reply_fits` — a response fits in the buffer that it is copied to.
-/
import Mathlib.Data.List.Infix
import MesonDisplay.Lib.Pieces

namespace MesonDisplay.Westeros

open MesonDisplay.Pieces

/-! ## §1. Running a command. -/

/-- The environment of the process, and the shell. -/
structure Console where
  /-- The variable `XDG_RUNTIME_DIR`. -/
  xdgRuntimeDir : Option (List Char)
  /-- What can be read from the pipe of the command that is the `i`-th one of a
  call; `none` if popen() fails. -/
  popen : Nat → List Char → Option (List Char)

/-- `XDG_RUNTIME_DIR` of the source. -/
def defaultRuntimeDir : List Char := "/run".toList

/-- snprintf() into all but the last byte of a buffer of `CMDBUF_SIZE`. -/
def snprintfCmd (text : List Char) : List Char := text.take 510

/-- The text of an array, up to the first NUL. -/
def cString (buf : List Char) : List Char := buf.takeWhile (· != '\x00')

def consoleCommand (xdgRunDir property : List Char) : List Char :=
  snprintfCmd ("export XDG_RUNTIME_DIR=".toList ++ xdgRunDir ++ ";westeros-gl-console ".toList
    ++ property ++ " | grep \"Response\"".toList)

/-- What fgets() stores into `output`, call by call. -/
def outputs (text : List Char) : List (List Char) := pieces (· == '\n') 62 text.length text

/-- `strlen(output) && strstr(output, "[0:")`. -/
def accepted (output : List Char) : Bool :=
  (cString output).length != 0 && decide ("[0:".toList <:+: cString output)

/-- The body of the loop: `ret`, and what is in `response`. -/
def runConsole (console : Console) (i : Nat) (xdgRunDir property response : List Char) :
    Int × List Char :=
  match console.popen i (consoleCommand xdgRunDir property) with
  | none => (-1, response)
  | some text =>
      (outputs text).foldl
        (fun found output => if accepted output then (0, cString output) else found)
        (-1, response)

/-- At most `fuel` rounds of the loop, of which this is the `i`-th. -/
def runLoop (console : Console) (property : List Char) :
    Nat → Nat → List Char → List Char → Int × List Char
  | 0, _, _, response => (-1, response)
  | fuel + 1, i, xdgRunDir, response =>
      let (ret, response) := runConsole console i xdgRunDir property response
      if ret ≠ 0 then
        if xdgRunDir = defaultRuntimeDir then (ret, response)
        else runLoop console property fuel (i + 1) defaultRuntimeDir response
      else (ret, response)

/-- `wstDisplaySendMessage`; `none` is a NULL pointer. -/
def wstDisplaySendMessage (console : Console) (property response : Option (List Char)) :
    Int × Option (List Char) :=
  match response with
  | none => (-1, none)
  | some response =>
      match property with
      | none => (-1, some response)
      | some property =>
          let xdgRunDir := console.xdgRuntimeDir.getD defaultRuntimeDir
          let (ret, response) := runLoop console property 2 0 xdgRunDir response
          (ret, some response)

/-! ## §2. The response. -/

/-- The piece of the output that is accepted last. -/
def lastAccepted (text : Option (List Char)) : Option (List Char) :=
  text.bind fun text => (((outputs text).filter accepted).getLast?).map cString

/-- The response of the console in its directory, or else in "/run". -/
def Console.reply (console : Console) (property : List Char) : Option (List Char) :=
  let xdgRunDir := console.xdgRuntimeDir.getD defaultRuntimeDir
  match lastAccepted (console.popen 0 (consoleCommand xdgRunDir property)) with
  | some line => some line
  | none =>
      if xdgRunDir = defaultRuntimeDir then none
      else lastAccepted (console.popen 1 (consoleCommand defaultRuntimeDir property))

/-- What a caller gets of a response. -/
def replyResult (response : List Char) : Option (List Char) → Int × List Char
  | some line => (0, line)
  | none => (-1, response)

section Response

variable (console : Console) (property response : List Char)

theorem runConsole_eq (i : Nat) (xdgRunDir : List Char) :
    runConsole console i xdgRunDir property response
      = replyResult response
          (lastAccepted (console.popen i (consoleCommand xdgRunDir property))) := by
  unfold runConsole lastAccepted
  cases console.popen i (consoleCommand xdgRunDir property) with
  | none => rfl
  | some text =>
      show (outputs text).foldl _ _ = replyResult response (Option.map _ _)
      rw [foldl_last_match accepted (fun output => ((0 : Int), cString output))]
      cases ((outputs text).filter accepted).getLast? <;> rfl

/-- The round in "/run" is the last one. -/
theorem runLoop_default (fuel i : Nat) :
    runLoop console property (fuel + 1) i defaultRuntimeDir response
      = replyResult response
          (lastAccepted (console.popen i (consoleCommand defaultRuntimeDir property))) := by
  unfold runLoop
  rw [runConsole_eq]
  simp only [if_true]
  exact ite_self _

/-- **The response of the console, or failure.**  Two rounds are enough. -/
theorem runLoop_eq (fuel : Nat) :
    runLoop console property (fuel + 2) 0 (console.xdgRuntimeDir.getD defaultRuntimeDir) response
      = replyResult response (console.reply property) := by
  unfold runLoop Console.reply
  dsimp only
  rw [runConsole_eq]
  cases lastAccepted (console.popen 0 (consoleCommand
      (console.xdgRuntimeDir.getD defaultRuntimeDir) property)) with
  | some line => rfl
  | none =>
      show (if (-1 : Int) ≠ 0 then _ else _) = _
      rw [if_pos (by decide)]
      by_cases hdir : console.xdgRuntimeDir.getD defaultRuntimeDir = defaultRuntimeDir
      · rw [if_pos hdir, if_pos hdir]
      · rw [if_neg hdir, if_neg hdir]
        exact runLoop_default console property response fuel 1

theorem wstDisplaySendMessage_eq :
    wstDisplaySendMessage console (some property) (some response)
      = ((replyResult response (console.reply property)).1,
          some (replyResult response (console.reply property)).2) := by
  unfold wstDisplaySendMessage
  dsimp only
  rw [runLoop_eq console property response 0]

/-- A message succeeds if there is a response. -/
theorem sent_iff :
    0 ≤ (wstDisplaySendMessage console (some property) (some response)).1 ↔
      console.reply property ≠ none := by
  rw [wstDisplaySendMessage_eq]
  cases console.reply property with
  | none => simp [replyResult]
  | some line => simp [replyResult]

end Response

/-! ## §3. Buffers. -/

/-- fgets() loses nothing of the output. -/
theorem flatten_outputs (text : List Char) : (outputs text).flatten = text :=
  flatten_pieces (by decide) (Nat.le_refl _)

theorem lastAccepted_length {text : Option (List Char)} {line : List Char}
    (h : lastAccepted text = some line) : line.length ≤ 62 := by
  obtain ⟨text, -, hline⟩ := Option.bind_eq_some_iff.mp h
  obtain ⟨output, hlast, rfl⟩ := Option.map_eq_some_iff.mp hline
  have hmem := List.mem_of_mem_filter (List.mem_of_getLast? hlast)
  exact Nat.le_trans (List.takeWhile_prefix _).length_le (length_le_of_mem_pieces hmem)

/-- `response` has room for a response and its NUL, in `OUTPUT_SIZE` bytes. -/
theorem reply_fits {console : Console} {property line : List Char}
    (h : console.reply property = some line) : line.length + 1 ≤ 64 := by
  suffices hlen : line.length ≤ 62 by omega
  unfold Console.reply at h
  dsimp only at h
  split at h
  · rename_i first hfirst
    obtain rfl := Option.some.inj h
    exact lastAccepted_length hfirst
  · split_ifs at h
    exact lastAccepted_length h

end MesonDisplay.Westeros
