/-
  MesonDisplay.Helper.ModeString — reading a mode such as "1920x1080i@60 16:9".

  `parse_modestring` takes the string apart with sscanf().  The directives of
  its two formats are functions on the rest of the text here: a directive
  assigns, finds no match, or finds the end of the text, and sscanf() returns
  the number of assignments, -1 if the text ends before the first one.
-/
import Mathlib.Algebra.Group.Int.Defs
import Mathlib.Algebra.Group.Nat.Defs
import Mathlib.Data.List.Basic

namespace MesonDisplay.Helper

/-! ## §1. Directives of sscanf. -/

/-- isspace() in the C locale. -/
def isSpaceChar (c : Char) : Bool :=
  c == ' ' || c == '\t' || c == '\n' || c == '\r' || c.toNat == 11 || c.toNat == 12

def skipWhite (s : List Char) : List Char := s.dropWhile isSpaceChar

/-- What a directive does with the rest of the text. -/
inductive Scan (α : Type) where
  | assigned (x : α) (rest : List Char)
  | mismatch
  | endOfText

/-- The two's complement value of the low 32 bits. -/
def toInt32 (n : Int) : Int := n.bmod (2 ^ 32)

/-- The low 32 bits, without sign. -/
def toUInt32 (n : Int) : Nat := (n % 2 ^ 32).toNat

def decimal (digits : List Char) : Nat :=
  digits.foldl (fun n c => 10 * n + (c.toNat - '0'.toNat)) 0

/-- An optional sign and the digits behind it. -/
def scanDigits (s : List Char) : Scan (Bool × Nat) :=
  match skipWhite s with
  | [] => .endOfText
  | c :: cs =>
      let digits := if c = '-' ∨ c = '+' then cs else c :: cs
      match digits.takeWhile Char.isDigit with
      | [] => .mismatch
      | ds => .assigned (c = '-', decimal ds) (digits.dropWhile Char.isDigit)

/-- `%d`: strtol(), then stored in an `int`. -/
def scanInt (s : List Char) : Scan Int :=
  match scanDigits s with
  | .assigned (negative, n) rest =>
      .assigned (toInt32 (if negative then max (-(n : Int)) (-2 ^ 63)
        else min (n : Int) (2 ^ 63 - 1))) rest
  | .mismatch => .mismatch
  | .endOfText => .endOfText

/-- `%u`: strtoul(), then stored in an `unsigned int`. -/
def scanUnsigned (s : List Char) : Scan Nat :=
  match scanDigits s with
  | .assigned (negative, n) rest =>
      .assigned (toUInt32 (if 2 ^ 64 ≤ n then 2 ^ 64 - 1
        else if negative then -(n : Int) else n)) rest
  | .mismatch => .mismatch
  | .endOfText => .endOfText

/-- A character of the format. -/
def scanChar (c : Char) : List Char → Scan Unit
  | [] => .endOfText
  | d :: ds => if d = c then .assigned () ds else .mismatch

/-- `%m[^@]`. -/
def scanUntilAt (s : List Char) : Scan (List Char) :=
  match s.takeWhile (· != '@') with
  | [] => if s.isEmpty then .endOfText else .mismatch
  | w => .assigned w (s.dropWhile (· != '@'))

/-- `%ms`. -/
def scanWord (s : List Char) : Scan (List Char) :=
  match skipWhite s with
  | [] => .endOfText
  | w => .assigned (w.takeWhile (! isSpaceChar ·)) (w.dropWhile (! isSpaceChar ·))

/-! ## §2. The two calls of sscanf. -/

/-- What the first sscanf() stores, and the number it returns. -/
structure ModeFields where
  n : Int
  width : Int
  heightStr : Option (List Char)
  refresh : Nat
  aspectWidth : Nat
  aspectHeight : Nat

/-- `sscanf(modestring, "%dx%m[^@]@%d %u:%u", ...)`. -/
def sscanfMode (modestring : List Char) : ModeFields :=
  let init : ModeFields := ⟨0, 0, none, 0, 0, 0⟩
  match scanInt modestring with
  | .endOfText => { init with n := -1 }
  | .mismatch => init
  | .assigned width rest =>
  let fields := { init with n := 1, width := width }
  match scanChar 'x' rest with
  | .assigned () rest =>
      match scanUntilAt rest with
      | .assigned heightStr rest =>
          let fields := { fields with n := 2, heightStr := some heightStr }
          match scanChar '@' rest with
          | .assigned () rest =>
              match scanInt rest with
              | .assigned refresh rest =>
                  let fields := { fields with n := 3, refresh := toUInt32 refresh }
                  match scanUnsigned rest with
                  | .assigned aspectWidth rest =>
                      let fields := { fields with n := 4, aspectWidth := aspectWidth }
                      match scanChar ':' rest with
                      | .assigned () rest =>
                          match scanUnsigned rest with
                          | .assigned aspectHeight _ =>
                              { fields with n := 5, aspectHeight := aspectHeight }
                          | _ => fields
                      | _ => fields
                  | _ => fields
              | _ => fields
          | _ => fields
      | _ => fields
  | _ => fields

/-- `sscanf(height_str, "%d%ms", ...)`: the number it returns, `height` and
`others`. -/
def sscanfHeight (heightStr : List Char) : Int × Int × List Char :=
  match scanInt heightStr with
  | .endOfText => (-1, 0, [])
  | .mismatch => (0, 0, [])
  | .assigned height rest =>
      match scanWord rest with
      | .assigned others _ => (2, height, others)
      | _ => (1, height, [])

/-! ## §3. parse_modestring. -/

/-- `drm_helper_mode`. -/
structure DrmHelperMode where
  width : Int
  height : Int
  refresh : Nat
  flags : Nat
  aspectRatio : String
  deriving DecidableEq, Repr

/-- `aspect_ratio_as_string`. -/
def aspectRatioAsString : List String := ["", " 4:3", " 16:9", " 64:27", " 256:135"]

/-- `DRM_MODE_FLAG_INTERLACE`. -/
def drmModeFlagInterlace : Nat := 2 ^ 4

/-- `DRM_MODE_FLAG_DBLSCAN`. -/
def drmModeFlagDblscan : Nat := 2 ^ 5

/-- The number of the aspect ratio in `aspect_ratio_as_string`. -/
def aspectIndex (aspectWidth aspectHeight : Nat) : Nat :=
  if aspectWidth = 4 ∧ aspectHeight = 3 then 1
  else if aspectWidth = 16 ∧ aspectHeight = 9 then 2
  else if aspectWidth = 64 ∧ aspectHeight = 27 then 3
  else if aspectWidth = 256 ∧ aspectHeight = 135 then 4
  else 0

/-- The flags for the letters behind the height. -/
def modeFlags (others : List Char) : Nat :=
  others.foldl (fun flags c =>
    if c = 'i' then flags ||| drmModeFlagInterlace
    else if c = 'd' then flags ||| drmModeFlagDblscan
    else flags) 0

/-- `parse_modestring`; `none` is false. -/
def parseModestring (modestring : String) : Option DrmHelperMode :=
  let fields := sscanfMode modestring.toList
  match fields.heightStr with
  | none => none
  | some heightStr =>
      if fields.n ≠ 2 ∧ fields.n ≠ 3 ∧ fields.n ≠ 5 then none
      else
        let (n, height, others) := sscanfHeight heightStr
        if n = 0 then none
        else some
          { width := fields.width
            height := height
            refresh := fields.refresh
            flags := if n = 2 then modeFlags others else 0
            aspectRatio := aspectRatioAsString.getD
              (if fields.n = 5 then aspectIndex fields.aspectWidth fields.aspectHeight
                else 0) "" }

example : parseModestring "1920x1080i@60 16:9"
    = some ⟨1920, 1080, 60, drmModeFlagInterlace, " 16:9"⟩ := by
  decide +kernel

end MesonDisplay.Helper
