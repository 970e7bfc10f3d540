/-
  MesonDisplay.Client.Options — the options of drm-helper-client.

  `main` goes through its options and makes at most one call of the library for
  each.  A call of `send_cmd_sync` waits for a reply, the other calls do not.
  Whether `main` waits is decided here, by the option and for raw commands by
  the text of the command; whether there is a reply is decided by
  `m_message_handle`.

  Main results:
    * `call_command` — every call sends one request, which is not empty.
-/
import MesonDisplay.Helper.UiViewport

namespace MesonDisplay.Client

open MesonDisplay.Helper
open MesonDisplay.Ipc (LibraryCall isNonEmpty)

/-! ## §1. Arguments. -/

/-- A C string. -/
abbrev CString := {s : String // isCString s = true}

/-- atoi(). -/
def atoi (s : CString) : Int :=
  match scanInt s.val.toList with
  | .assigned n _ => n
  | _ => 0

/-- `%SCNu64`: strtoul(). -/
def scanUnsigned64 (s : List Char) : Scan Nat :=
  match scanDigits s with
  | .assigned (negative, n) rest =>
      .assigned ((if 2 ^ 64 ≤ n then 2 ^ 64 - 1
        else if negative then (-(n : Int)) % 2 ^ 64 else (n : Int)).toNat) rest
  | .mismatch => .mismatch
  | .endOfText => .endOfText

/-- `%32[^=]`: up to 32 characters.  The zero behind 32 of them is outside of
the array `name`. -/
def scanName (s : List Char) : Scan (List Char) :=
  match (s.take 32).takeWhile (· != '=') with
  | [] => if s.isEmpty then .endOfText else .mismatch
  | name => .assigned name (s.drop name.length)

/-- `sscanf(optarg, "%32[^=]=%"SCNu64, name, &value)`, if it returns 2. -/
def scanProperty (s : List Char) : Option (List Char × Nat) :=
  match scanName s with
  | .assigned name rest =>
      match scanChar '=' rest with
      | .assigned () rest =>
          match scanUnsigned64 rest with
          | .assigned value _ => some (name, value)
          | _ => none
      | _ => none
  | _ => none

/-! ## §2. main. -/

/-- An option as getopt_long_only() returns it, with its argument. -/
inductive MainOption where
  /-- `l` -/
  | listModes
  /-- `c` -/
  | changMode (optarg : CString)
  /-- `g` -/
  | getProperty (optarg : CString)
  /-- `s` -/
  | setProperty (optarg : CString)
  /-- `G` -/
  | get (optarg : CString)
  /-- `S`, with the arguments behind it. -/
  | set (optarg : CString) (rest : List CString)
  /-- `r` -/
  | rawCmd (optarg : CString)
  /-- `d` -/
  | debug
  | unknown

/-- The rectangle of four arguments. -/
def rectOf (x y w h : CString) : DrmOutputRect where
  x := Int32.ofInt (atoi x)
  y := Int32.ofInt (atoi y)
  w := UInt32.ofInt (atoi w)
  h := UInt32.ofInt (atoi h)

/-- The members of a rectangle, as `drm_help_client_set_ui_rect` adds them. -/
def rectInfo (rect : DrmOutputRect) : Json :=
  addAll .newObject
    [("x", newInt rect.x.toInt), ("y", newInt rect.y.toInt),
      ("w", newInt rect.w.toNat), ("h", newInt rect.h.toNat)]

/-- The call of the library that `main` makes for an option. -/
def MainOption.call : MainOption → Option LibraryCall
  | .listModes => some (.sendCmdSync (some "get modes") none)
  | .changMode optarg => some (.sendCmd (some "set mode") (some (.string optarg.val)))
  | .getProperty optarg =>
      some (.sendCmdSync (some "get connector range properties") (some (.string optarg.val)))
  | .setProperty optarg =>
      match scanProperty optarg.val.toList with
      | none => none
      | some (name, value) =>
          some (.setProperties (some "set connector range properties")
            (some (String.ofList name)) value)
  | .get optarg =>
      if optarg.val = "ui-rect" then some (.sendCmdSync (some "get ui rect") none)
      else if optarg.val = "display-mode" then
        some (.sendCmdSync (some "get display mode") none)
      else none
  | .set optarg rest =>
      if optarg.val = "ui-rect" then
        match rest with
        | x :: y :: w :: h :: _ =>
            some (.sendCmd (some "set ui rect") (some (.jsonObject (rectInfo (rectOf x y w h)))))
        | _ => none
      else none
  | .rawCmd optarg =>
      if optarg.val = "get " then some (.sendCmdSync (some optarg.val) none)
      else some (.sendCmd (some optarg.val) none)
  | .debug => some (.sendCmd (some "get info") (some (.int 1)))
  | .unknown => none

/-! ## §3. Requests. -/

/-- An object that the server hands to `m_message_handle`. -/
def IsCommand (data : Json) : Prop := data.IsRequest ∧ isNonEmpty data = true

instance (data : Json) : Decidable (IsCommand data) := inferInstanceAs (Decidable (_ ∧ _))

theorem isCommand_cmd (cmd : String) : IsCommand (.object [("cmd", .string cmd)]) := by
  have hcmd : isCString "cmd" = true := by decide
  exact ⟨⟨by simp [Json.wf, Json.wfFields, hcmd], rfl⟩, rfl⟩

theorem isCommand_value (cmd : String) {value : Json} (hvalue : value.wf = true) :
    IsCommand (.object [("cmd", .string cmd), ("value", value)]) := by
  have hcmd : isCString "cmd" = true := by decide
  have hkey : isCString "value" = true := by decide
  exact ⟨⟨by simp [Json.wf, Json.wfFields, hcmd, hkey, hvalue], rfl⟩, rfl⟩

theorem scanName_mem {s name rest : List Char} (hscan : scanName s = .assigned name rest) :
    ∀ c ∈ name, c ∈ s := by
  unfold scanName at hscan
  cases hname : (s.take 32).takeWhile (· != '=') with
  | nil =>
      simp only [hname] at hscan
      split_ifs at hscan
  | cons c cs =>
      simp only [hname] at hscan
      obtain ⟨rfl, -⟩ := Scan.assigned.inj hscan
      intro d hd
      rw [← hname] at hd
      exact List.mem_of_mem_take ((List.takeWhile_prefix _).subset hd)

theorem scanUnsigned64_lt {s rest : List Char} {value : Nat}
    (hscan : scanUnsigned64 s = .assigned value rest) : value < 2 ^ 64 := by
  unfold scanUnsigned64 at hscan
  cases hdigits : scanDigits s with
  | assigned r rest' =>
      obtain ⟨negative, n⟩ := r
      simp only [hdigits] at hscan
      obtain ⟨rfl, -⟩ := Scan.assigned.inj hscan
      split_ifs <;> omega
  | mismatch =>
      simp only [hdigits] at hscan
      exact absurd hscan (by simp)
  | endOfText =>
      simp only [hdigits] at hscan
      exact absurd hscan (by simp)

/-- What sscanf() stores: a part of the text, and a `uint64_t`. -/
theorem scanProperty_spec {s name : List Char} {value : Nat}
    (hscan : scanProperty s = some (name, value)) :
    (∀ c ∈ name, c ∈ s) ∧ value < 2 ^ 64 := by
  unfold scanProperty at hscan
  cases hname : scanName s with
  | assigned name' rest =>
      simp only [hname] at hscan
      cases heq : scanChar '=' rest with
      | assigned u rest' =>
          simp only [heq] at hscan
          cases hvalue : scanUnsigned64 rest' with
          | assigned value' rest'' =>
              simp only [hvalue] at hscan
              obtain ⟨rfl, rfl⟩ := Prod.mk.inj (Option.some.inj hscan)
              exact ⟨scanName_mem hname, scanUnsigned64_lt hvalue⟩
          | _ => simp [hvalue] at hscan
      | _ => simp [heq] at hscan
  | _ => simp [hname] at hscan

/-- The value of a property, as a `PropertyRequest`. -/
theorem isCommand_setProperties {optarg : CString} {name : List Char} {value : Nat}
    (hscan : scanProperty optarg.val.toList = some (name, value)) :
    ∃ data, Ipc.setProperties (some "set connector range properties")
      (some (String.ofList name)) value = some data ∧ IsCommand data := by
  obtain ⟨hname, hvalue⟩ := scanProperty_spec hscan
  have hcString : isCString (String.ofList name) = true := by
    have hall := optarg.property
    unfold isCString at hall ⊢
    rw [List.all_eq_true] at hall ⊢
    intro c hc
    rw [String.toList_ofList] at hc
    exact hall c (hname c hc)
  let r : PropertyRequest := ⟨String.ofList name, value, hcString, hvalue⟩
  exact ⟨r.object, r.data_eq, r.isRequest, rfl⟩

/-- **Every call sends a request.** -/
theorem call_command {o : MainOption} {call : LibraryCall} (hcall : o.call = some call) :
    ∃ data, call.command = some data ∧ IsCommand data := by
  cases o with
  | listModes =>
      obtain rfl := Option.some.inj hcall
      exact ⟨_, rfl, isCommand_cmd _⟩
  | changMode optarg =>
      obtain rfl := Option.some.inj hcall
      exact ⟨_, rfl, isCommand_value _ rfl⟩
  | getProperty optarg =>
      obtain rfl := Option.some.inj hcall
      exact ⟨_, rfl, isCommand_value _ rfl⟩
  | setProperty optarg =>
      simp only [MainOption.call] at hcall
      cases hscan : scanProperty optarg.val.toList with
      | none => simp [hscan] at hcall
      | some r =>
          obtain ⟨name, value⟩ := r
          simp only [hscan] at hcall
          obtain rfl := Option.some.inj hcall
          exact isCommand_setProperties hscan
  -- only the two names that `main` knows are sent
  | get optarg =>
      simp only [MainOption.call] at hcall
      split_ifs at hcall with hrect hmode
      · obtain rfl := Option.some.inj hcall
        exact ⟨_, rfl, isCommand_cmd _⟩
      · obtain rfl := Option.some.inj hcall
        exact ⟨_, rfl, isCommand_cmd _⟩
  | set optarg rest =>
      simp only [MainOption.call] at hcall
      split_ifs at hcall with hrect
      match rest, hcall with
      | x :: y :: w :: h :: _, hcall =>
          obtain rfl := Option.some.inj hcall
          exact ⟨_, rfl, isCommand_value _ (wf_rectObject (rectOf x y w h).numbers)⟩
  | rawCmd optarg =>
      simp only [MainOption.call] at hcall
      split_ifs at hcall with hget
      · obtain rfl := Option.some.inj hcall
        exact ⟨_, rfl, isCommand_cmd _⟩
      · obtain rfl := Option.some.inj hcall
        exact ⟨_, rfl, isCommand_cmd _⟩
  | debug =>
      obtain rfl := Option.some.inj hcall
      exact ⟨_, rfl, isCommand_value _ (by decide)⟩
  | unknown => exact absurd hcall (by simp [MainOption.call])

end MesonDisplay.Client
