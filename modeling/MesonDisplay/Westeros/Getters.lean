/-
  MesonDisplay.Westeros.Getters — the getters that ask the console.

  A getter sends a command, and takes the value out of the response.  Two of them
  do this with sscanf(), and return what became of the command: a response with
  another form leaves the value as it was.

  Main results:
    * `scanResponse_iff` — the form of a response, and the value in it.
    * `gives_value_iff` — when a getter that succeeds gives a value.
-/
import Mathlib.Data.List.DropRight
import MesonDisplay.Helper.ModeScan
import MesonDisplay.Westeros.Console

namespace MesonDisplay.Westeros

open MesonDisplay.Helper

/-! ## §1. The getters. -/

/-- One directive, and what comes behind it. -/
def scanThen {α β : Type} (x : Scan α) (next : α → List Char → Scan β) : Scan β :=
  match x with
  | .assigned a rest => next a rest
  | .mismatch => .mismatch
  | .endOfText => .endOfText

/-- Characters of a format. -/
def scanLiteral : List Char → List Char → Scan Unit
  | [], s => .assigned () s
  | c :: cs, s => scanThen (scanChar c s) fun _ rest => scanLiteral cs rest

/-- `Response: [%*d:%*s %d]`.  White space in a format is any white space, and
nothing depends on the bracket behind the last directive. -/
def scanResponse (s : List Char) : Scan Int :=
  scanThen (scanLiteral "Response:".toList s) fun _ rest =>
  scanThen (scanChar '[' (skipWhite rest)) fun _ rest =>
  scanThen (scanInt rest) fun _ rest =>
  scanThen (scanChar ':' rest) fun _ rest =>
  scanThen (scanWord rest) fun _ rest =>
  scanInt (skipWhite rest)

/-- `sscanf(resp, "Response: [%*d:%*s %d]", value)`: the number it returns, and
`*value`. -/
def sscanfResponse (resp : List Char) (value : Int) : Int × Int :=
  match scanResponse resp with
  | .assigned n _ => (1, n)
  | .mismatch => (0, value)
  | .endOfText => (-1, value)

/-- A getter: the command that it sends, and what it stores for a response.
`none` is a NULL pointer. -/
def consoleGetter (console : Console) (property : String) (take : List Char → Int → Int)
    (value : Option Int) : Int × Option Int :=
  match value with
  | none => (-1, none)
  | some value =>
      let cmdBuf := snprintfCmd property.toList
      let (rc, resp) := wstDisplaySendMessage console (some cmdBuf) (some [])
      if rc ≥ 0 then (rc, some (take (resp.getD []) value)) else (rc, some value)

/-- What `getDisplayScaling` does with a response. -/
def takeScaling (resp : List Char) (value : Int) : Int :=
  let (n, value) := sscanfResponse resp value
  -- -1 is not 0 either
  if n ≠ 0 then (if value < 0 then 100 else value) else value

/-- What `getDisplayIsBestMode` does with it. -/
def takeIsBestMode (resp : List Char) (value : Int) : Int := (sscanfResponse resp value).2

/-- What `getDisplayEnabled` does with it. -/
def takeEnabled (resp : List Char) (_enabled : Int) : Int :=
  if "enable 1".toList <:+: resp then 1 else 0

section Getters

variable (console : Console)

def getDisplayScaling (value : Option Int) : Int × Option Int :=
  consoleGetter console "get scaling" takeScaling value

def getDisplayIsBestMode (value : Option Int) : Int × Option Int :=
  consoleGetter console "get bestmode" takeIsBestMode value

def getDisplayEnabled (enabled : Option Int) : Int × Option Int :=
  consoleGetter console "get display enable" takeEnabled enabled

end Getters

/-! ## §2. The form of a response. -/

section Scans

variable {α β : Type}

theorem scanThen_assigned_iff {x : Scan α} {next : α → List Char → Scan β} {b : β}
    {r : List Char} :
    scanThen x next = .assigned b r ↔ ∃ a rest, x = .assigned a rest ∧ next a rest = .assigned b r := by
  cases x with
  | assigned a rest =>
      constructor
      · exact fun h => ⟨a, rest, rfl, h⟩
      · rintro ⟨a', rest', hx, h⟩
        obtain ⟨rfl, rfl⟩ := Scan.assigned.inj hx
        exact h
  | mismatch => simp [scanThen]
  | endOfText => simp [scanThen]

theorem scanLiteral_assigned_iff {cs s rest : List Char} :
    scanLiteral cs s = .assigned () rest ↔ s = cs ++ rest := by
  induction cs generalizing s with
  | nil =>
      constructor
      · exact fun h => (Scan.assigned.inj h).2
      · rintro rfl
        rfl
  | cons c cs ih =>
      unfold scanLiteral
      rw [scanThen_assigned_iff]
      constructor
      · rintro ⟨_, s', hc, h⟩
        rw [scanChar_assigned_iff.mp hc, ih.mp h]
        rfl
      · rintro rfl
        exact ⟨(), cs ++ rest, scanChar_assigned_iff.mpr rfl, ih.mpr rfl⟩

/-- White space, and a character that is none. -/
theorem scanChar_skipWhite_iff {c : Char} (hc : isSpaceChar c = false) {s rest : List Char} :
    scanChar c (skipWhite s) = .assigned () rest ↔
      ∃ white, s = white ++ c :: rest ∧ ∀ d ∈ white, isSpaceChar d = true := by
  rw [scanChar_assigned_iff]
  constructor
  · intro h
    refine ⟨s.takeWhile isSpaceChar, ?_, fun d hd => List.mem_takeWhile_imp hd⟩
    rw [← h]
    exact List.takeWhile_append_dropWhile.symm
  · rintro ⟨white, rfl, hwhite⟩
    refine (takeWhile_run hwhite ?_).2
    intro d hd
    obtain rfl : c = d := by simpa using hd
    exact hc

theorem scanInt_skipWhite (s : List Char) : scanInt (skipWhite s) = scanInt s := by
  unfold scanInt scanDigits skipWhite
  rw [List.dropWhile_idempotent]

end Scans

/-- A line of the form `Response: [<int>:<word> <int>`, and the value of its
last integer. -/
def ResponseText (line : List Char) (value : Int) : Prop :=
  ∃ white rest₁ negative₁ n₁ rest₂ word rest₃ negative n rest,
    line = "Response:".toList ++ (white ++ '[' :: rest₁) ∧
      (∀ c ∈ white, isSpaceChar c = true) ∧
      DecimalText rest₁ negative₁ n₁ (':' :: rest₂) ∧ WordText rest₂ word rest₃ ∧
      DecimalText rest₃ negative n rest ∧ value = storedInt negative n

/-- **What the format matches.** -/
theorem scanResponse_iff {line : List Char} {value : Int} :
    (∃ rest, scanResponse line = .assigned value rest) ↔ ResponseText line value := by
  unfold scanResponse
  constructor
  · rintro ⟨rest, h⟩
    obtain ⟨_, r, hliteral, h₁⟩ := scanThen_assigned_iff.mp h
    obtain ⟨_, rest₁, hbracket, h₂⟩ := scanThen_assigned_iff.mp h₁
    obtain ⟨v₁, r₁, hint, h₃⟩ := scanThen_assigned_iff.mp h₂
    obtain ⟨_, rest₂, hcolon, h₄⟩ := scanThen_assigned_iff.mp h₃
    obtain ⟨word, rest₃, hword, h₅⟩ := scanThen_assigned_iff.mp h₄
    obtain ⟨white, rfl, hwhite⟩ := (scanChar_skipWhite_iff (by decide)).mp hbracket
    obtain ⟨negative₁, n₁, hfirst, -⟩ := scanInt_stores_iff.mp hint
    obtain rfl := scanChar_assigned_iff.mp hcolon
    rw [scanInt_skipWhite] at h₅
    obtain ⟨negative, n, hlast, hvalue⟩ := scanInt_stores_iff.mp h₅
    exact ⟨white, rest₁, negative₁, n₁, rest₂, word, rest₃, negative, n, rest,
      scanLiteral_assigned_iff.mp hliteral, hwhite, hfirst, scanWord_assigned_iff.mp hword, hlast,
      hvalue⟩
  · rintro ⟨white, rest₁, negative₁, n₁, rest₂, word, rest₃, negative, n, rest, rfl, hwhite,
      hfirst, hword, hlast, rfl⟩
    refine ⟨rest, ?_⟩
    refine scanThen_assigned_iff.mpr ⟨_, _, scanLiteral_assigned_iff.mpr rfl, ?_⟩
    refine scanThen_assigned_iff.mpr
      ⟨_, _, (scanChar_skipWhite_iff (by decide)).mpr ⟨white, rfl, hwhite⟩, ?_⟩
    refine scanThen_assigned_iff.mpr
      ⟨_, _, scanInt_stores_iff.mpr ⟨negative₁, n₁, hfirst, rfl⟩, ?_⟩
    refine scanThen_assigned_iff.mpr ⟨_, _, scanChar_assigned_iff.mpr rfl, ?_⟩
    refine scanThen_assigned_iff.mpr ⟨_, _, scanWord_assigned_iff.mpr hword, ?_⟩
    rw [scanInt_skipWhite]
    exact scanInt_stores_iff.mpr ⟨negative, n, hlast, rfl⟩

/-! ## §3. The value. -/

/-- The getters that take a value out of the response. -/
inductive GetterCall where
  | scaling
  | isBestMode
  deriving DecidableEq, Repr

namespace GetterCall

def run (console : Console) : GetterCall → Option Int → Int × Option Int
  | scaling => getDisplayScaling console
  | isBestMode => getDisplayIsBestMode console

def property : GetterCall → String
  | scaling => "get scaling"
  | isBestMode => "get bestmode"

def take : GetterCall → List Char → Int → Int
  | scaling => takeScaling
  | isBestMode => takeIsBestMode

/-- The last line of the console that is accepted as a response. -/
def reply (console : Console) (g : GetterCall) : Option (List Char) :=
  console.reply (snprintfCmd g.property.toList)

/-- What is stored for the integer of the response. -/
def stored : GetterCall → Int → Int
  | scaling, n => if n < 0 then 100 else n
  | isBestMode, n => n

end GetterCall

/-- A getter that succeeds had a response of that form, and stored its value. -/
def GivesValue (console : Console) (g : GetterCall) (value : Option Int) : Prop :=
  0 ≤ (g.run console value).1 →
    ∃ line n, g.reply console = some line ∧ ResponseText line n ∧
      (g.run console value).2 = some (g.stored n)

section Value

variable {console : Console} {g : GetterCall} {value : Int}

/-- A getter, by the response of the console. -/
theorem consoleGetter_eq (property : String) (take : List Char → Int → Int) :
    consoleGetter console property take (some value)
      = match console.reply (snprintfCmd property.toList) with
        | some line => (0, some (take line value))
        | none => (-1, some value) := by
  unfold consoleGetter
  dsimp only
  rw [wstDisplaySendMessage_eq]
  cases console.reply (snprintfCmd property.toList) <;> rfl

theorem GetterCall.run_eq (console : Console) (g : GetterCall) (value : Option Int) :
    g.run console value = consoleGetter console g.property g.take value := by
  cases g with
  | scaling => rfl
  | isBestMode => rfl

theorem GetterCall.take_eq {line rest : List Char} {n : Int}
    (hscan : scanResponse line = .assigned n rest) : g.take line value = g.stored n := by
  cases g with
  | scaling =>
      show takeScaling line value = _
      unfold takeScaling sscanfResponse
      rw [hscan]
      rfl
  | isBestMode =>
      show takeIsBestMode line value = _
      unfold takeIsBestMode sscanfResponse
      rw [hscan]
      rfl

/-- A response, of whatever form, is a success. -/
theorem GetterCall.run_replied {line : List Char} (h : g.reply console = some line) :
    g.run console (some value) = (0, some (g.take line value)) := by
  rw [run_eq, consoleGetter_eq, show console.reply (snprintfCmd g.property.toList) = _ from h]

theorem GetterCall.run_failed (h : g.reply console = none) :
    g.run console (some value) = (-1, some value) := by
  rw [run_eq, consoleGetter_eq, show console.reply (snprintfCmd g.property.toList) = _ from h]

end Value

/-- **A getter gives a value only if the console gave one**, exactly if the
response, if there is one, has the form. -/
theorem gives_value_iff (console : Console) (g : GetterCall) (value : Option Int) :
    GivesValue console g value ↔
      value = none ∨ ∀ line, g.reply console = some line → ∃ n, ResponseText line n := by
  unfold GivesValue
  cases value with
  | none =>
      rw [GetterCall.run_eq]
      exact iff_of_true (fun h => absurd (show (0 : Int) ≤ -1 from h) (by decide)) (.inl rfl)
  | some value =>
      constructor
      · intro h
        refine .inr fun line hline => ?_
        obtain ⟨line', n, hline', htext, -⟩ := h (by rw [GetterCall.run_replied hline])
        rw [hline] at hline'
        obtain rfl := Option.some.inj hline'
        exact ⟨n, htext⟩
      · rintro (hnone | hform) hret
        · exact absurd hnone (by simp)
        · cases hline : g.reply console with
          | none =>
              rw [GetterCall.run_failed hline] at hret
              exact absurd (show (0 : Int) ≤ -1 from hret) (by decide)
          | some line =>
              obtain ⟨n, htext⟩ := hform line hline
              obtain ⟨rest, hscan⟩ := scanResponse_iff.mpr htext
              rw [GetterCall.run_replied hline, GetterCall.take_eq hscan]
              exact ⟨line, n, rfl, htext, rfl⟩

/-- A response without a second integer. -/
def wordyLine : List Char := "Response: [0: ok]\n".toList

/-- It is all that the console prints. -/
def wordyConsole : Console := ⟨none, fun _ _ => some wordyLine⟩

theorem wordyConsole_reply (property : List Char) :
    wordyConsole.reply property = some wordyLine := by
  have haccepted : lastAccepted (some wordyLine) = some wordyLine := by decide +kernel
  unfold Console.reply wordyConsole
  simp only [haccepted]

/-- It counts as a scaling, and the variable keeps what was in it. -/
theorem scaling_without_value :
    GetterCall.scaling.run wordyConsole (some 7) = (0, some 7) ∧
    ¬ GivesValue wordyConsole .scaling (some 7) := by
  have hline : GetterCall.scaling.reply wordyConsole = some wordyLine := wordyConsole_reply _
  refine ⟨GetterCall.run_replied hline, ?_⟩
  intro hgives
  obtain ⟨line, n, hline', htext, -⟩ := hgives (by rw [GetterCall.run_replied hline])
  rw [hline] at hline'
  obtain rfl := Option.some.inj hline'
  obtain ⟨rest, hscan⟩ := scanResponse_iff.mpr htext
  rw [show scanResponse wordyLine = .endOfText from rfl] at hscan
  exact absurd hscan (by simp)

end MesonDisplay.Westeros
