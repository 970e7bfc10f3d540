/-
  MesonDisplay.Helper.ModeScan — which mode strings are accepted, and as what.

  `DecimalText` says, without the directives, that a text starts with a decimal
  integer: white space, a sign, digits.  It is what `%d` and `%u` assign
  (`scanDigits_assigned_iff`), and `WordText` what `%s` does, so that the results
  of sscanf() are facts about the text.

  Main results:
    * `parseModestring_printMode` — what is printed as a mode is read as it.
    * `parseModestring_states_iff` — a mode that is accepted states a height,
      unless white space stands in its place.
-/
import MesonDisplay.Helper.ModeString
import MesonDisplay.Lib.Digits
import Mathlib.Data.List.TakeWhile

namespace MesonDisplay.Helper

/-! ## §1. Decimal integers at the start of a text. -/

/-- The text does not go on with a digit. -/
def NoDigitNext (rest : List Char) : Prop := ∀ c ∈ rest.head?, c.isDigit = false

/-- The sign in front of the digits. -/
def SignText (sign : List Char) (negative : Bool) : Prop :=
  sign = [] ∧ negative = false ∨ sign = ['+'] ∧ negative = false ∨
    sign = ['-'] ∧ negative = true

/-- The text is white space, a sign if there is one, the digits of `n`, and
`rest`. -/
def DecimalText (s : List Char) (negative : Bool) (n : Nat) (rest : List Char) : Prop :=
  ∃ white sign digits,
    s = white ++ (sign ++ (digits ++ rest)) ∧ (∀ c ∈ white, isSpaceChar c = true) ∧
      SignText sign negative ∧ digits ≠ [] ∧ (∀ c ∈ digits, c.isDigit = true) ∧
      decimal digits = n ∧ NoDigitNext rest

/-- The signed value. -/
def signed (negative : Bool) (n : Nat) : Int := if negative then -(n : Int) else n

section Words

variable {p : Char → Bool} {w rest : List Char}

/-- A longest run of such characters. -/
theorem takeWhile_run (hw : ∀ c ∈ w, p c = true) (hrest : ∀ c ∈ rest.head?, p c = false) :
    (w ++ rest).takeWhile p = w ∧ (w ++ rest).dropWhile p = rest := by
  have hstop : rest.takeWhile p = [] ∧ rest.dropWhile p = rest := by
    cases rest with
    | nil => exact ⟨rfl, rfl⟩
    | cons c cs =>
        have hc := hrest c rfl
        exact ⟨List.takeWhile_cons_of_neg (by simp [hc]), List.dropWhile_cons_of_neg (by simp [hc])⟩
  rw [List.takeWhile_append_of_pos hw, List.dropWhile_append_of_pos hw, hstop.1, hstop.2,
    List.append_nil]
  exact ⟨rfl, rfl⟩

theorem dropWhile_head (s : List Char) : ∀ c ∈ (s.dropWhile p).head?, p c = false := by
  intro c hc
  have hnot := List.head?_dropWhile_not p s
  rw [Option.mem_def.mp hc] at hnot
  simpa using hnot

end Words

theorem isSpaceChar_of_isDigit {c : Char} (hc : c.isDigit = true) : isSpaceChar c = false := by
  have hd : 48 ≤ c.toNat ∧ c.toNat ≤ 57 := Char.isDigit_iff_toNat.mp hc
  by_contra hs
  rw [Bool.not_eq_false] at hs
  simp only [isSpaceChar, Bool.or_eq_true, beq_iff_eq] at hs
  rcases hs with ((((rfl | rfl) | rfl) | rfl) | h) | h
  · exact absurd hc (by decide)
  · exact absurd hc (by decide)
  · exact absurd hc (by decide)
  · exact absurd hc (by decide)
  · omega
  · omega

/-- The digits do not start with a sign. -/
theorem ne_sign_of_isDigit {c : Char} (hc : c.isDigit = true) : ¬ (c = '-' ∨ c = '+') := by
  rintro (rfl | rfl) <;> exact absurd hc (by decide)

/-- The digits are behind the sign, if there is one. -/
theorem scanDigits_body {s cs ds rest : List Char} {c d : Char} (hbody : skipWhite s = c :: cs)
    (hdigits : (if c = '-' ∨ c = '+' then cs else c :: cs) = d :: ds ++ rest)
    (hds : ∀ e ∈ d :: ds, e.isDigit = true) (hrest : NoDigitNext rest) :
    scanDigits s = .assigned (decide (c = '-'), decimal (d :: ds)) rest := by
  obtain ⟨htake, hdrop⟩ := takeWhile_run hds hrest
  unfold scanDigits
  rw [hbody]
  simp only [hdigits, htake, hdrop]

/-- **What `%d` and `%u` match.** -/
theorem scanDigits_assigned_iff {s rest : List Char} {negative : Bool} {n : Nat} :
    scanDigits s = .assigned (negative, n) rest ↔ DecimalText s negative n rest := by
  constructor
  · intro h
    have hsplit : s = s.takeWhile isSpaceChar ++ skipWhite s :=
      List.takeWhile_append_dropWhile.symm
    unfold scanDigits at h
    cases hbody : skipWhite s with
    | nil =>
        rw [hbody] at h
        exact absurd h (by simp)
    | cons c cs =>
        rw [hbody] at h hsplit
        -- the sign, and what is behind it
        obtain ⟨sign, digits, hsign, hdigits, hnegative⟩ : ∃ sign digits,
            c :: cs = sign ++ digits ∧ digits = (if c = '-' ∨ c = '+' then cs else c :: cs) ∧
              SignText sign (decide (c = '-')) := by
          by_cases hm : c = '-'
          · subst hm
            exact ⟨['-'], cs, rfl, by simp, .inr (.inr ⟨rfl, rfl⟩)⟩
          · by_cases hp : c = '+'
            · subst hp
              exact ⟨['+'], cs, rfl, by simp, .inr (.inl ⟨rfl, rfl⟩)⟩
            · exact ⟨[], c :: cs, rfl, by simp [hm, hp], .inl ⟨rfl, by simp [hm]⟩⟩
        simp only [← hdigits] at h
        cases hds : digits.takeWhile Char.isDigit with
        | nil =>
            rw [hds] at h
            exact absurd h (by simp)
        | cons d ds =>
            rw [hds] at h
            obtain ⟨hvalue, hrest⟩ := Scan.assigned.inj h
            obtain ⟨hneg, hn⟩ := Prod.mk.inj hvalue
            refine ⟨s.takeWhile isSpaceChar, sign, d :: ds, ?_, ?_, ?_, by simp, ?_, hn, ?_⟩
            · rw [← hds, ← hrest, List.takeWhile_append_dropWhile, ← hsign]
              exact hsplit
            · exact fun c hc => List.mem_takeWhile_imp hc
            · rw [← hneg]
              exact hnegative
            · rw [← hds]
              exact fun c hc => List.mem_takeWhile_imp hc
            · rw [← hrest]
              exact dropWhile_head digits
  · rintro ⟨white, sign, digits, rfl, hwhite, hsign, hne, hdigits, rfl, hrest⟩
    obtain ⟨d, ds, rfl⟩ := List.exists_cons_of_ne_nil hne
    have hd := hdigits d List.mem_cons_self
    -- the white space ends at the sign or at the first digit
    have hbody : skipWhite (white ++ (sign ++ (d :: ds ++ rest))) = sign ++ (d :: ds ++ rest) := by
      refine (takeWhile_run hwhite ?_).2
      intro c hc
      rcases hsign with ⟨rfl, -⟩ | ⟨rfl, -⟩ | ⟨rfl, -⟩
      · obtain rfl : d = c := by simpa using hc
        exact isSpaceChar_of_isDigit hd
      · obtain rfl : '+' = c := by simpa using hc
        decide
      · obtain rfl : '-' = c := by simpa using hc
        decide
    rcases hsign with ⟨rfl, rfl⟩ | ⟨rfl, rfl⟩ | ⟨rfl, rfl⟩
    · have hnone := ne_sign_of_isDigit hd
      have hminus : decide (d = '-') = false := decide_eq_false fun h => hnone (.inl h)
      rw [scanDigits_body hbody (if_neg hnone) hdigits hrest, hminus]
    · rw [scanDigits_body hbody (if_pos (by decide)) hdigits hrest]
      rfl
    · rw [scanDigits_body hbody (if_pos (by decide)) hdigits hrest]
      rfl

/-- A text starts with one decimal integer at most. -/
theorem DecimalText.unique {s rest rest' : List Char} {negative negative' : Bool} {n n' : Nat}
    (h : DecimalText s negative n rest) (h' : DecimalText s negative' n' rest') :
    negative = negative' ∧ n = n' ∧ rest = rest' := by
  have hscan := (scanDigits_assigned_iff.mpr h).symm.trans (scanDigits_assigned_iff.mpr h')
  obtain ⟨hvalue, hrest⟩ := Scan.assigned.inj hscan
  obtain ⟨hneg, hn⟩ := Prod.mk.inj hvalue
  exact ⟨hneg, hn, hrest⟩

/-! ## §2. The directives, by the text. -/

/-- `n`, with the sign, is a value of an `int`. -/
def FitsInt (negative : Bool) (n : Nat) : Prop := if negative then n ≤ 2 ^ 31 else n < 2 ^ 31

/-- What `%d` stores for a decimal integer. -/
def storedInt (negative : Bool) (n : Nat) : Int :=
  toInt32 (if negative then max (-(n : Int)) (-2 ^ 63) else min (n : Int) (2 ^ 63 - 1))

theorem scanInt_stores_iff {s rest : List Char} {v : Int} :
    scanInt s = .assigned v rest ↔
      ∃ negative n, DecimalText s negative n rest ∧ v = storedInt negative n := by
  simp only [← scanDigits_assigned_iff]
  unfold scanInt
  cases scanDigits s with
  | assigned x r =>
      obtain ⟨negative, n⟩ := x
      constructor
      · intro h
        obtain ⟨rfl, rfl⟩ := Scan.assigned.inj h
        exact ⟨negative, n, rfl, rfl⟩
      · rintro ⟨negative', n', h, rfl⟩
        obtain ⟨hx, rfl⟩ := Scan.assigned.inj h
        obtain ⟨rfl, rfl⟩ := Prod.mk.inj hx
        rfl
  | mismatch => simp
  | endOfText => simp

theorem storedInt_of_fits {negative : Bool} {n : Nat} (hn : FitsInt negative n) :
    storedInt negative n = signed negative n := by
  unfold storedInt toInt32 signed FitsInt at *
  cases negative with
  | false =>
      simp only [Bool.false_eq_true, if_false] at hn ⊢
      rw [min_eq_left (by omega)]
      exact Int.bmod_eq_of_le (by omega) (by omega)
  | true =>
      simp only [if_true] at hn ⊢
      rw [max_eq_left (by omega)]
      exact Int.bmod_eq_of_le (by omega) (by omega)

theorem scanInt_of_fits {s rest : List Char} {negative : Bool} {n : Nat}
    (h : DecimalText s negative n rest) (hn : FitsInt negative n) :
    scanInt s = .assigned (signed negative n) rest :=
  scanInt_stores_iff.mpr ⟨negative, n, h, (storedInt_of_fits hn).symm⟩

/-- `%d` assigns exactly where a decimal integer stands. -/
theorem scanInt_assigned_iff {s rest : List Char} :
    (∃ v, scanInt s = .assigned v rest) ↔ ∃ negative n, DecimalText s negative n rest := by
  simp only [scanInt_stores_iff]
  constructor
  · rintro ⟨v, negative, n, h, -⟩
    exact ⟨negative, n, h⟩
  · rintro ⟨negative, n, h⟩
    exact ⟨storedInt negative n, negative, n, h, rfl⟩

/-- So does `%u`. -/
theorem scanUnsigned_assigned_iff {s rest : List Char} :
    (∃ v, scanUnsigned s = .assigned v rest) ↔ ∃ negative n, DecimalText s negative n rest := by
  simp only [← scanDigits_assigned_iff]
  unfold scanUnsigned
  cases scanDigits s with
  | assigned x r =>
      obtain ⟨negative, n⟩ := x
      constructor
      · rintro ⟨v, hv⟩
        exact ⟨negative, n, by rw [(Scan.assigned.inj hv).2]⟩
      · rintro ⟨negative', n', hv⟩
        exact ⟨_, by rw [(Scan.assigned.inj hv).2]⟩
  | mismatch => simp
  | endOfText => simp

theorem scanInt_endOfText_iff {s : List Char} :
    scanInt s = .endOfText ↔ ∀ c ∈ s, isSpaceChar c = true := by
  rw [← List.dropWhile_eq_nil_iff]
  show _ ↔ skipWhite s = []
  unfold scanInt scanDigits
  cases skipWhite s with
  | nil => simp
  | cons c cs =>
      simp only
      cases (if c = '-' ∨ c = '+' then cs else c :: cs).takeWhile Char.isDigit <;> simp

theorem scanChar_assigned_iff {c : Char} {s rest : List Char} :
    scanChar c s = .assigned () rest ↔ s = c :: rest := by
  cases s with
  | nil => simp [scanChar]
  | cons d ds =>
      by_cases hd : d = c
      · simp [scanChar, hd]
      · simp [scanChar, hd]

/-- The text is white space, a word, and `rest`, which does not go on with the
word. -/
def WordText (s word rest : List Char) : Prop :=
  ∃ white, s = white ++ (word ++ rest) ∧ (∀ c ∈ white, isSpaceChar c = true) ∧
    word ≠ [] ∧ (∀ c ∈ word, isSpaceChar c = false) ∧ ∀ c ∈ rest.head?, isSpaceChar c = true

/-- `%s` assigns a word. -/
theorem scanWord_assigned_iff {s word rest : List Char} :
    scanWord s = .assigned word rest ↔ WordText s word rest := by
  constructor
  · intro h
    have hsplit : s = s.takeWhile isSpaceChar ++ skipWhite s :=
      List.takeWhile_append_dropWhile.symm
    have hstart := dropWhile_head (p := isSpaceChar) s
    unfold scanWord at h
    cases hbody : skipWhite s with
    | nil =>
        rw [hbody] at h
        exact absurd h (by simp)
    | cons c cs =>
        rw [hbody] at h hsplit
        obtain ⟨rfl, rfl⟩ := Scan.assigned.inj h
        -- the word starts behind the white space
        have hc : isSpaceChar c = false := hstart c (by
          show (skipWhite s).head? = some c
          rw [hbody]
          rfl)
        refine ⟨s.takeWhile isSpaceChar, ?_, fun c hc => List.mem_takeWhile_imp hc, ?_, ?_, ?_⟩
        · rw [List.takeWhile_append_dropWhile]
          exact hsplit
        · rw [List.takeWhile_cons_of_pos (by simp [hc])]
          exact List.cons_ne_nil _ _
        · intro d hd
          simpa using List.mem_takeWhile_imp hd
        · intro d hd
          simpa using dropWhile_head (c :: cs) d hd
  · rintro ⟨white, rfl, hwhite, hne, hword, hrest⟩
    obtain ⟨c, cs, rfl⟩ := List.exists_cons_of_ne_nil hne
    have hbody : skipWhite (white ++ (c :: cs ++ rest)) = c :: cs ++ rest := by
      refine (takeWhile_run hwhite ?_).2
      intro d hd
      obtain rfl : c = d := by simpa using hd
      exact hword c List.mem_cons_self
    have hrun : ∀ d ∈ c :: cs, (! isSpaceChar d) = true := fun d hd => by simp [hword d hd]
    have hstop : ∀ d ∈ rest.head?, (! isSpaceChar d) = false := fun d hd => by simp [hrest d hd]
    obtain ⟨htake, hdrop⟩ := takeWhile_run hrun hstop
    unfold scanWord
    rw [hbody, List.cons_append]
    rw [List.cons_append] at htake hdrop
    simp only [htake, hdrop]

/-- `%m[^@]` assigns what is in front of the first `@`, if it is not empty. -/
theorem scanUntilAt_assigned_iff {s w rest : List Char} :
    scanUntilAt s = .assigned w rest ↔
      s = w ++ rest ∧ w ≠ [] ∧ '@' ∉ w ∧ ∀ c ∈ rest.head?, c = '@' := by
  constructor
  · intro h
    unfold scanUntilAt at h
    cases hw : s.takeWhile (· != '@') with
    | nil =>
        rw [hw] at h
        cases hs : s.isEmpty <;> rw [hs] at h <;> simp at h
    | cons c cs =>
        rw [hw] at h
        obtain ⟨rfl, rfl⟩ := Scan.assigned.inj h
        refine ⟨?_, by simp, ?_, ?_⟩
        · rw [← hw, List.takeWhile_append_dropWhile]
        · rw [← hw]
          intro hat
          have hne := List.mem_takeWhile_imp hat
          simp at hne
        · intro c hc
          have hstop := dropWhile_head s c hc
          simpa using hstop
  · rintro ⟨rfl, hne, hat, hrest⟩
    have hall : ∀ c ∈ w, (c != '@') = true := by
      intro c hc
      have : c ≠ '@' := fun h => hat (h ▸ hc)
      simpa using this
    have hstop : ∀ c ∈ rest.head?, (c != '@') = false := by
      intro c hc
      simpa using hrest c hc
    obtain ⟨htake, hdrop⟩ := takeWhile_run hall hstop
    obtain ⟨c, cs, rfl⟩ := List.exists_cons_of_ne_nil hne
    unfold scanUntilAt
    rw [htake, hdrop]

/-! ## §3. The first sscanf, by its parts. -/

/-- What is behind the height: the number sscanf() returns in the end,
`refresh`, `aspect_width` and `aspect_height`. -/
def tailFields (tail : List Char) : Int × Nat × Nat × Nat :=
  match scanChar '@' tail with
  | .assigned () rest =>
      match scanInt rest with
      | .assigned refresh rest =>
          match scanUnsigned rest with
          | .assigned aspectWidth rest =>
              match scanChar ':' rest with
              | .assigned () rest =>
                  match scanUnsigned rest with
                  | .assigned aspectHeight _ => (5, toUInt32 refresh, aspectWidth, aspectHeight)
                  | _ => (4, toUInt32 refresh, aspectWidth, 0)
              | _ => (4, toUInt32 refresh, aspectWidth, 0)
          | _ => (3, toUInt32 refresh, 0, 0)
      | _ => (2, 0, 0, 0)
  | _ => (2, 0, 0, 0)

theorem sscanfMode_tail {s rest heightStr tail : List Char} {width : Int}
    (hwidth : scanInt s = .assigned width ('x' :: rest))
    (hheight : scanUntilAt rest = .assigned heightStr tail) :
    sscanfMode s = ⟨(tailFields tail).1, width, some heightStr, (tailFields tail).2.1,
      (tailFields tail).2.2.1, (tailFields tail).2.2.2⟩ := by
  have hx : scanChar 'x' ('x' :: rest) = .assigned () rest := scanChar_assigned_iff.mpr rfl
  unfold sscanfMode tailFields
  simp only [hwidth, hx, hheight]
  -- directive by directive, both sides stop at the same one
  cases scanChar '@' tail with
  | assigned u r =>
      cases hrefresh : scanInt r with
      | assigned refresh r =>
          cases haspect : scanUnsigned r with
          | assigned aspectWidth r =>
              cases hcolon : scanChar ':' r with
              | assigned u r =>
                  cases hlast : scanUnsigned r <;>
                    simp only [hrefresh, haspect, hcolon, hlast]
              | mismatch => simp only [hrefresh, haspect, hcolon]
              | endOfText => simp only [hrefresh, haspect, hcolon]
          | mismatch => simp only [hrefresh, haspect]
          | endOfText => simp only [hrefresh, haspect]
      | mismatch => simp only [hrefresh]
      | endOfText => simp only [hrefresh]
  | mismatch => rfl
  | endOfText => rfl

/-- `height_str` is assigned behind a width and an `x`. -/
theorem sscanfMode_heightStr {s heightStr : List Char}
    (h : (sscanfMode s).heightStr = some heightStr) :
    ∃ width rest tail, scanInt s = .assigned width ('x' :: rest) ∧
      scanUntilAt rest = .assigned heightStr tail := by
  cases hwidth : scanInt s with
  | mismatch =>
      unfold sscanfMode at h
      simp [hwidth] at h
  | endOfText =>
      unfold sscanfMode at h
      simp [hwidth] at h
  | assigned width rest =>
      cases hx : scanChar 'x' rest with
      | mismatch =>
          unfold sscanfMode at h
          simp [hwidth, hx] at h
      | endOfText =>
          unfold sscanfMode at h
          simp [hwidth, hx] at h
      | assigned u rest' =>
          obtain rfl := scanChar_assigned_iff.mp hx
          cases hheight : scanUntilAt rest' with
          | mismatch =>
              unfold sscanfMode at h
              simp [hwidth, hx, hheight] at h
          | endOfText =>
              unfold sscanfMode at h
              simp [hwidth, hx, hheight] at h
          | assigned w tail =>
              rw [sscanfMode_tail hwidth hheight] at h
              obtain rfl := Option.some.inj h
              exact ⟨width, rest', tail, rfl, hheight⟩

end MesonDisplay.Helper
