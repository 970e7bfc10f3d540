/-
  MesonDisplay.Helper.ModeAccepted — which mode strings are accepted, and as
  what.

  A mode is accepted by the numbers that the two sscanf() calls return.  The
  second one reads the height; it returns EOF if there is only white space, and
  EOF is not among the numbers that are refused.

  Main results:
    * `parseModestring_states_iff` — a mode that is accepted states its width
      and height, unless white space stands in place of the height.
    * `parseModestring_printMode` — what is printed as a mode is read as it.
-/
import MesonDisplay.Helper.ModeScan

namespace MesonDisplay.Helper

/-! ## §1. What is behind the height. -/

/-- A refresh rate and the first number of an aspect ratio, but no second one. -/
def HalfRatio (t : List Char) : Prop :=
  ∃ negative n rest negative' n' rest',
    DecimalText t negative n rest ∧ DecimalText rest negative' n' rest' ∧
      ¬ ∃ q negative'' n'' rest'', rest' = ':' :: q ∧ DecimalText q negative'' n'' rest''

theorem halfRatio_iff {t : List Char} : HalfRatio t ↔
    ∃ refresh rest aspectWidth rest',
      scanInt t = .assigned refresh rest ∧ scanUnsigned rest = .assigned aspectWidth rest' ∧
        ¬ ∃ q aspectHeight rest'', rest' = ':' :: q ∧
          scanUnsigned q = .assigned aspectHeight rest'' := by
  constructor
  · rintro ⟨negative, n, rest, negative', n', rest', h, h', hno⟩
    obtain ⟨v, hv⟩ := scanInt_assigned_iff.mpr ⟨negative, n, h⟩
    obtain ⟨v', hv'⟩ := scanUnsigned_assigned_iff.mpr ⟨negative', n', h'⟩
    refine ⟨v, rest, v', rest', hv, hv', ?_⟩
    rintro ⟨q, v'', rest'', hq, hv''⟩
    obtain ⟨negative'', n'', h''⟩ := scanUnsigned_assigned_iff.mp ⟨v'', hv''⟩
    exact hno ⟨q, negative'', n'', rest'', hq, h''⟩
  · rintro ⟨v, rest, v', rest', hv, hv', hno⟩
    obtain ⟨negative, n, h⟩ := scanInt_assigned_iff.mp ⟨v, hv⟩
    obtain ⟨negative', n', h'⟩ := scanUnsigned_assigned_iff.mp ⟨v', hv'⟩
    refine ⟨negative, n, rest, negative', n', rest', h, h', ?_⟩
    rintro ⟨q, negative'', n'', rest'', hq, h''⟩
    obtain ⟨v'', hv''⟩ := scanUnsigned_assigned_iff.mpr ⟨negative'', n'', h''⟩
    exact hno ⟨q, v'', rest'', hq, hv''⟩

theorem ne_cons_of_scanChar {c : Char} {s : List Char}
    (h : ∀ rest, scanChar c s ≠ .assigned () rest) (t : List Char) : s ≠ c :: t :=
  fun hs => h t (scanChar_assigned_iff.mpr hs)

/-- Four conversions are made if the aspect ratio is not complete. -/
theorem tailFields_four_iff {tail : List Char} :
    (tailFields tail).1 = 4 ↔ ∃ t, tail = '@' :: t ∧ HalfRatio t := by
  cases hat : scanChar '@' tail with
  | assigned u t =>
      obtain rfl := scanChar_assigned_iff.mp hat
      have hcons : (∃ t', '@' :: t = '@' :: t' ∧ HalfRatio t') ↔ HalfRatio t := by simp
      rw [hcons, halfRatio_iff]
      unfold tailFields
      cases hrefresh : scanInt t with
      | assigned refresh r =>
          cases haspect : scanUnsigned r with
          | assigned aspectWidth r' =>
              cases hcolon : scanChar ':' r' with
              | assigned u q =>
                  obtain rfl := scanChar_assigned_iff.mp hcolon
                  cases hlast : scanUnsigned q <;>
                    simp [hat, hrefresh, haspect, hcolon, hlast]
              | mismatch =>
                  have hno : ∀ q, r' ≠ ':' :: q := ne_cons_of_scanChar fun q => by simp [hcolon]
                  simp [hat, hrefresh, haspect, hcolon, hno]
              | endOfText =>
                  have hno : ∀ q, r' ≠ ':' :: q := ne_cons_of_scanChar fun q => by simp [hcolon]
                  simp [hat, hrefresh, haspect, hcolon, hno]
          | mismatch => simp [hat, hrefresh, haspect]
          | endOfText => simp [hat, hrefresh, haspect]
      | mismatch => simp [hat, hrefresh]
      | endOfText => simp [hat, hrefresh]
  | mismatch =>
      have hno : ∀ t, tail ≠ '@' :: t := ne_cons_of_scanChar fun t => by simp [hat]
      simp [tailFields, hat, hno]
  | endOfText =>
      have hno : ∀ t, tail ≠ '@' :: t := ne_cons_of_scanChar fun t => by simp [hat]
      simp [tailFields, hat, hno]

theorem tailFields_count (tail : List Char) :
    (tailFields tail).1 = 2 ∨ (tailFields tail).1 = 3 ∨ (tailFields tail).1 = 4 ∨
      (tailFields tail).1 = 5 := by
  unfold tailFields
  split
  · split
    · split
      · split
        · split
          · exact .inr (.inr (.inr rfl))
          · exact .inr (.inr (.inl rfl))
        · exact .inr (.inr (.inl rfl))
      · exact .inr (.inl rfl)
    · exact .inl rfl
  · exact .inl rfl

/-! ## §2. What is accepted. -/

/-- The mode for a width, `height_str` and what is behind it. -/
def modeOf (width : Int) (heightStr tail : List Char) : DrmHelperMode where
  width := width
  height := (sscanfHeight heightStr).2.1
  refresh := (tailFields tail).2.1
  flags := if (sscanfHeight heightStr).1 = 2 then modeFlags (sscanfHeight heightStr).2.2 else 0
  aspectRatio := aspectRatioAsString.getD
    (if (tailFields tail).1 = 5 then aspectIndex (tailFields tail).2.2.1 (tailFields tail).2.2.2
      else 0) ""

/-- **The accepted strings.**  A string is refused for an incomplete aspect
ratio, and if the second sscanf() finds no match, but not if it finds the end
of `height_str`. -/
theorem parseModestring_some_iff {modestring : String} {mode : DrmHelperMode} :
    parseModestring modestring = some mode ↔
      ∃ width rest heightStr tail,
        scanInt modestring.toList = .assigned width ('x' :: rest) ∧
          scanUntilAt rest = .assigned heightStr tail ∧ (tailFields tail).1 ≠ 4 ∧
          (sscanfHeight heightStr).1 ≠ 0 ∧ mode = modeOf width heightStr tail := by
  have hparse : ∀ {width rest heightStr tail},
      scanInt modestring.toList = .assigned width ('x' :: rest) →
      scanUntilAt rest = .assigned heightStr tail →
      parseModestring modestring =
        if (tailFields tail).1 = 4 ∨ (sscanfHeight heightStr).1 = 0 then none
        else some (modeOf width heightStr tail) := by
    intro width rest heightStr tail hwidth hheight
    have hcount := tailFields_count tail
    unfold parseModestring
    simp only [sscanfMode_tail hwidth hheight]
    by_cases hfour : (tailFields tail).1 = 4
    · rw [if_pos (by omega), if_pos (.inl hfour)]
    · rw [if_neg (by omega)]
      by_cases hzero : (sscanfHeight heightStr).1 = 0
      · rw [if_pos hzero, if_pos (.inr hzero)]
      · rw [if_neg hzero, if_neg (not_or.mpr ⟨hfour, hzero⟩)]
        rfl
  constructor
  · intro h
    cases hstr : (sscanfMode modestring.toList).heightStr with
    | none =>
        unfold parseModestring at h
        simp only [hstr] at h
        exact absurd h (by simp)
    | some heightStr =>
        obtain ⟨width, rest, tail, hwidth, hheight⟩ := sscanfMode_heightStr hstr
        rw [hparse hwidth hheight] at h
        by_cases hrefused : (tailFields tail).1 = 4 ∨ (sscanfHeight heightStr).1 = 0
        · rw [if_pos hrefused] at h
          exact absurd h (by simp)
        · rw [if_neg hrefused] at h
          obtain ⟨hfour, hzero⟩ := not_or.mp hrefused
          exact ⟨width, rest, heightStr, tail, hwidth, hheight, hfour, hzero,
            (Option.some.inj h).symm⟩
  · rintro ⟨width, rest, heightStr, tail, hwidth, hheight, hfour, hzero, rfl⟩
    rw [hparse hwidth hheight, if_neg (not_or.mpr ⟨hfour, hzero⟩)]

/-! ## §3. Modes without a height. -/

/-- The decimal integers of the text are values of an `int`. -/
def DecimalsFit (s : List Char) : Prop :=
  ∀ before digits after, s = before ++ (digits ++ after) →
    (∀ c ∈ before.getLast?, c.isDigit = false) → digits ≠ [] →
    (∀ c ∈ digits, c.isDigit = true) → NoDigitNext after →
    FitsInt (before.getLast? = some '-') (decimal digits)

/-- `parse_modestring` and the caller's `mode`, which is stored to behind every
return of false. -/
def parseModestringInto (modestring : String) (mode : DrmHelperMode) : DrmHelperMode × Bool :=
  match parseModestring modestring with
  | some mode' => (mode', true)
  | none => (mode, false)

/-- The text starts with the width, an `x` and the height. -/
def StatesSize (s : List Char) (width height : Int) : Prop :=
  ∃ negative n rest negative' n' rest',
    DecimalText s negative n ('x' :: rest) ∧ width = signed negative n ∧
      DecimalText rest negative' n' rest' ∧ height = signed negative' n'

/-- A string that is accepted states the size that is stored, and one that is
not leaves the mode alone. -/
def StoresWhatIsStated (modestring : String) : Prop :=
  ∀ mode,
    ((parseModestringInto modestring mode).2 = true →
      StatesSize modestring.toList (parseModestringInto modestring mode).1.width
        (parseModestringInto modestring mode).1.height) ∧
    ((parseModestringInto modestring mode).2 = false →
      (parseModestringInto modestring mode).1 = mode)

/-- White space, and nothing else, between the `x` and the first `@` or the end,
and no incomplete aspect ratio. -/
def HeightBlank (s : List Char) : Prop :=
  ∃ negative n blank tail,
    DecimalText s negative n ('x' :: (blank ++ tail)) ∧ blank ≠ [] ∧
      (∀ c ∈ blank, isSpaceChar c = true) ∧ (∀ c ∈ tail.head?, c = '@') ∧
      ¬ ∃ t, tail = '@' :: t ∧ HalfRatio t

theorem DecimalsFit.decimalText {s rest : List Char} {negative : Bool} {n : Nat}
    (hs : DecimalsFit s) (h : DecimalText s negative n rest) : FitsInt negative n := by
  obtain ⟨white, sign, digits, rfl, hwhite, hsign, hne, hdigits, rfl, hrest⟩ := h
  have hlast : ∀ c ∈ white.getLast?, isSpaceChar c = true :=
    fun c hc => hwhite c (List.mem_of_getLast? hc)
  rcases hsign with ⟨rfl, rfl⟩ | ⟨rfl, rfl⟩ | ⟨rfl, rfl⟩
  -- white space is neither a digit nor a sign
  · have hfit := hs white digits rest (by simp) ?_ hne hdigits hrest
    · have hminus : white.getLast? ≠ some '-' :=
        fun h => absurd (hlast '-' h) (by decide)
      simpa [hminus] using hfit
    · intro c hc
      by_contra hd
      rw [Bool.not_eq_false] at hd
      exact absurd (hlast c hc) (by simp [isSpaceChar_of_isDigit hd])
  · have hfit := hs (white ++ ['+']) digits rest (by simp) ?_ hne hdigits hrest
    · simpa using hfit
    · intro c hc
      obtain rfl : '+' = c := by simpa using hc
      decide
  · have hfit := hs (white ++ ['-']) digits rest (by simp) ?_ hne hdigits hrest
    · simpa using hfit
    · intro c hc
      obtain rfl : '-' = c := by simpa using hc
      decide

theorem DecimalsFit.behind_x {s rest : List Char} (hs : DecimalsFit s) (before : List Char)
    (hx : s = before ++ 'x' :: rest) : DecimalsFit rest := by
  intro b digits after hrest hb hne hdigits hafter
  -- the last character in front of the digits is the same, or the `x`
  have hlast : (before ++ 'x' :: b).getLast? = b.getLast?.or (some 'x') := by
    simp [List.getLast?_cons]
  have hfit := hs (before ++ 'x' :: b) digits after (by rw [hx, hrest]; simp) ?_ hne hdigits hafter
  · rw [hlast] at hfit
    cases hb' : b.getLast? with
    | none =>
        rw [hb'] at hfit
        simpa using hfit
    | some c =>
        rw [hb'] at hfit
        exact hfit
  · intro c hc
    rw [hlast] at hc
    cases hb' : b.getLast? with
    | none =>
        rw [hb'] at hc
        obtain rfl : 'x' = c := by simpa using hc
        decide
    | some d =>
        rw [hb'] at hc
        obtain rfl : d = c := by simpa using hc
        exact hb d hb'

/-- A decimal integer in `height_str` is one in the text. -/
theorem DecimalText.append {h rest : List Char} {negative : Bool} {n : Nat}
    (hd : DecimalText h negative n rest) (tail : List Char)
    (htail : ∀ c ∈ tail.head?, c.isDigit = false) :
    DecimalText (h ++ tail) negative n (rest ++ tail) := by
  obtain ⟨white, sign, digits, rfl, hwhite, hsign, hne, hdigits, hn, hrest⟩ := hd
  refine ⟨white, sign, digits, by simp, hwhite, hsign, hne, hdigits, hn, ?_⟩
  cases rest with
  | nil => exact htail
  | cons c cs => exact hrest

/-- The height that the second sscanf() assigns. -/
theorem sscanfHeight_cases (heightStr : List Char) :
    (∃ height rest, scanInt heightStr = .assigned height rest ∧
        (sscanfHeight heightStr).2.1 = height) ∨
      (scanInt heightStr = .mismatch ∧ (sscanfHeight heightStr).1 = 0) ∨
      (scanInt heightStr = .endOfText ∧ (sscanfHeight heightStr).1 = -1) := by
  unfold sscanfHeight
  cases hscan : scanInt heightStr with
  | assigned height rest =>
      refine .inl ⟨height, rest, rfl, ?_⟩
      cases hword : scanWord rest <;> simp only [hword]
  | mismatch => exact .inr (.inl ⟨rfl, rfl⟩)
  | endOfText => exact .inr (.inr ⟨rfl, rfl⟩)

/-- Where white space stands in place of the height, the text states none. -/
theorem not_statesSize_of_blank {s blank tail : List Char} {negative : Bool} {n : Nat}
    (hd : DecimalText s negative n ('x' :: (blank ++ tail)))
    (hblank : ∀ c ∈ blank, isSpaceChar c = true) (htail : ∀ c ∈ tail.head?, c = '@')
    (width height : Int) : ¬ StatesSize s width height := by
  rintro ⟨negative₁, n₁, rest, negative', n', rest', hd₁, -, hd', -⟩
  obtain ⟨-, -, hrest⟩ := hd.unique hd₁
  obtain rfl := (List.cons.inj hrest).2
  have hscan := scanDigits_assigned_iff.mpr hd'
  -- the white space is skipped, and no digit is behind it
  have hskip : skipWhite (blank ++ tail) = tail := by
    refine (takeWhile_run hblank ?_).2
    intro c hc
    rw [htail c hc]
    decide
  unfold scanDigits at hscan
  rw [hskip] at hscan
  cases tail with
  | nil => exact absurd hscan (by simp)
  | cons c cs =>
      obtain rfl : c = '@' := htail c rfl
      exact absurd hscan (by simp)

/-- **A mode string that is accepted states the size** that is stored, unless
white space stands in place of the height: EOF from the second sscanf() is not
refused, and the height is 0 then. -/
theorem parseModestring_states_iff {modestring : String}
    (hfit : DecimalsFit modestring.toList) :
    StoresWhatIsStated modestring ↔ ¬ HeightBlank modestring.toList := by
  constructor
  · rintro hstores ⟨negative, n, blank, tail, hd, hne, hblank, htail, hfour⟩
    have hwidth := scanInt_of_fits hd (hfit.decimalText hd)
    have hheight : scanUntilAt (blank ++ tail) = .assigned blank tail := by
      refine scanUntilAt_assigned_iff.mpr ⟨rfl, hne, ?_, htail⟩
      intro hat
      exact absurd (hblank _ hat) (by decide)
    have hend : (sscanfHeight blank).1 = -1 := by
      unfold sscanfHeight
      rw [scanInt_endOfText_iff.mpr hblank]
    have hparse := parseModestring_some_iff.mpr ⟨signed negative n, blank ++ tail, blank, tail,
      hwidth, hheight, fun h => hfour (tailFields_four_iff.mp h), by rw [hend]; decide, rfl⟩
    obtain ⟨hstates, -⟩ := hstores (modeOf 0 [] [])
    unfold parseModestringInto at hstates
    rw [hparse] at hstates
    exact not_statesSize_of_blank hd hblank htail _ _ (hstates rfl)
  · intro hnot mode
    unfold parseModestringInto
    cases hparse : parseModestring modestring with
    | none => exact ⟨fun h => absurd h (by simp), fun _ => rfl⟩
    | some mode' =>
        refine ⟨fun _ => ?_, fun h => absurd h (by simp)⟩
        obtain ⟨width, rest, heightStr, tail, hwidth, hheight, hfour, hzero, rfl⟩ :=
          parseModestring_some_iff.mp hparse
        obtain ⟨negative, n, hd⟩ := scanInt_assigned_iff.mp ⟨width, hwidth⟩
        have hsigned := scanInt_of_fits hd (hfit.decimalText hd)
        rw [hwidth] at hsigned
        obtain ⟨rfl, hne, hat, htail⟩ := scanUntilAt_assigned_iff.mp hheight
        rcases sscanfHeight_cases heightStr with ⟨height, rest', hscan, hvalue⟩ |
          ⟨-, hmismatch⟩ | ⟨hend, -⟩
        -- the height is a decimal integer behind the `x`
        · obtain ⟨negative', n', hd'⟩ := scanInt_assigned_iff.mp ⟨height, hscan⟩
          have hd'' := hd'.append tail fun c hc => by rw [htail c hc]; decide
          have hfit' : DecimalsFit (heightStr ++ tail) := by
            obtain ⟨white, sign, digits, hs, -⟩ := hd
            exact hfit.behind_x (white ++ (sign ++ digits)) (by rw [hs]; simp)
          have hsigned' := scanInt_of_fits hd' (hfit'.decimalText hd'')
          rw [hscan] at hsigned'
          refine ⟨negative, n, _, negative', n', _, hd, (Scan.assigned.inj hsigned).1, hd'', ?_⟩
          show (sscanfHeight heightStr).2.1 = _
          rw [hvalue]
          exact (Scan.assigned.inj hsigned').1
        · exact absurd hmismatch hzero
        -- the height is white space
        · exact absurd ⟨negative, n, heightStr, tail, hd, hne, scanInt_endOfText_iff.mp hend,
            htail, fun h => hfour (tailFields_four_iff.mpr h)⟩ hnot

theorem decimal_lt (digits : List Char) (hdigits : ∀ c ∈ digits, c.isDigit = true) :
    decimal digits < 10 ^ digits.length := by
  have hfold : ∀ n, digits.foldl (fun n c => 10 * n + (c.toNat - '0'.toNat)) n + 1
      ≤ (n + 1) * 10 ^ digits.length := by
    induction digits with
    | nil => intro n; simp
    | cons c cs ih =>
        intro n
        obtain ⟨hc, hcs⟩ := List.forall_mem_cons.mp hdigits
        have hle : c.toNat ≤ 57 := (Char.isDigit_iff_toNat.mp hc).2
        have hdigit : 10 * n + (c.toNat - '0'.toNat) + 1 ≤ (n + 1) * 10 := by
          show 10 * n + (c.toNat - 48) + 1 ≤ _
          omega
        calc _ ≤ (10 * n + (c.toNat - '0'.toNat) + 1) * 10 ^ cs.length := ih hcs _
          _ ≤ (n + 1) * 10 * 10 ^ cs.length := Nat.mul_le_mul_right _ hdigit
          _ = (n + 1) * 10 ^ (c :: cs).length := by
              rw [List.length_cons, Nat.pow_succ', Nat.mul_assoc]
  have h := hfold 0
  rw [Nat.zero_add, Nat.one_mul] at h
  exact h

/-- The decimal integers of a short text. -/
theorem decimalsFit_of_length {s : List Char} (hs : s.length ≤ 9) : DecimalsFit s := by
  rintro before digits after rfl - - hdigits -
  have hlt := decimal_lt digits hdigits
  have hlen : digits.length ≤ 9 := by
    simp only [List.length_append] at hs
    omega
  have hpow : 10 ^ digits.length ≤ 10 ^ 9 := Nat.pow_le_pow_right (by omega) hlen
  unfold FitsInt
  split <;> omega

theorem parseModestring_states_iff_800x600 :
    StoresWhatIsStated "800x600" ↔ ¬ HeightBlank "800x600".toList :=
  parseModestring_states_iff (decimalsFit_of_length (by decide))

/-- With a blank in place of the height, a mode of height 0 is stored. -/
theorem storesWhatIsStated_fails_blank :
    DecimalsFit "1920x ".toList ∧
      parseModestringInto "1920x " ⟨1280, 720, 60, 0, ""⟩ = (⟨1920, 0, 0, 0, ""⟩, true) ∧
      ¬ StoresWhatIsStated "1920x " := by
  refine ⟨decimalsFit_of_length (by decide), by decide +kernel, ?_⟩
  intro hstores
  have hd : DecimalText "1920x ".toList false 1920 ('x' :: ([' '] ++ [])) :=
    scanDigits_assigned_iff.mp rfl
  obtain ⟨hstates, -⟩ := hstores ⟨1280, 720, 60, 0, ""⟩
  have hblank : ∀ c ∈ [' '], isSpaceChar c = true := List.forall_mem_singleton.mpr rfl
  exact not_statesSize_of_blank hd hblank (by simp) _ _ (hstates (by decide +kernel))

/-! ## §4. Printed modes. -/

inductive ModeFlag where
  | interlace
  | dblscan
  deriving DecidableEq

/-- The letter behind the height. -/
def ModeFlag.letter : ModeFlag → Char
  | .interlace => 'i'
  | .dblscan => 'd'

/-- The bits of `drm_helper_mode.flags`. -/
def flagBits (flags : List ModeFlag) : Nat :=
  (if .interlace ∈ flags then drmModeFlagInterlace else 0) |||
    (if .dblscan ∈ flags then drmModeFlagDblscan else 0)

inductive AspectRatio where
  | r4x3
  | r16x9
  | r64x27
  | r256x135

def AspectRatio.width : AspectRatio → Nat
  | .r4x3 => 4
  | .r16x9 => 16
  | .r64x27 => 64
  | .r256x135 => 256

def AspectRatio.height : AspectRatio → Nat
  | .r4x3 => 3
  | .r16x9 => 9
  | .r64x27 => 27
  | .r256x135 => 135

/-- " a:b". -/
def AspectRatio.text (ratio : AspectRatio) : List Char :=
  ' ' :: (Nat.toDigits 10 ratio.width ++ ':' :: Nat.toDigits 10 ratio.height)

/-- "@refresh a:b", as far as it is there. -/
def tailText : Option (Nat × Option AspectRatio) → List Char
  | none => []
  | some (refresh, none) => '@' :: Nat.toDigits 10 refresh
  | some (refresh, some ratio) => '@' :: (Nat.toDigits 10 refresh ++ ratio.text)

/-- A mode, in the form that `parse_modestring` takes. -/
def printMode (width height : Nat) (flags : List ModeFlag)
    (tail : Option (Nat × Option AspectRatio)) : String :=
  String.ofList (Nat.toDigits 10 width ++
    'x' :: (Nat.toDigits 10 height ++ flags.map ModeFlag.letter ++ tailText tail))

/-- The mode that was printed. -/
def printedMode (width height : Nat) (flags : List ModeFlag)
    (tail : Option (Nat × Option AspectRatio)) : DrmHelperMode where
  width := width
  height := height
  refresh := tail.elim 0 Prod.fst
  flags := flagBits flags
  aspectRatio := String.ofList ((tail.bind Prod.snd).elim [] AspectRatio.text)

theorem noDigitNext_nil : NoDigitNext [] := by
  simp [NoDigitNext]

theorem decimalText_toDigits (n : Nat) {rest : List Char} (hrest : NoDigitNext rest) :
    DecimalText (Nat.toDigits 10 n ++ rest) false n rest := by
  refine ⟨[], [], Nat.toDigits 10 n, rfl, by simp, .inl ⟨rfl, rfl⟩, Nat.toDigits_ne_nil, ?_, ?_,
    hrest⟩
  · exact fun c hc => Nat.isDigit_of_mem_toDigits (by omega) (by omega) hc
  · exact Nat.ofDigitChars_ten_toDigits

theorem DecimalText.space {s rest : List Char} {negative : Bool} {n : Nat}
    (h : DecimalText s negative n rest) : DecimalText (' ' :: s) negative n rest := by
  obtain ⟨white, sign, digits, rfl, hwhite, hrest⟩ := h
  exact ⟨' ' :: white, sign, digits, rfl,
    List.forall_mem_cons.mpr ⟨by decide, hwhite⟩, hrest⟩

theorem toUInt32_natCast {n : Nat} (hn : n < 2 ^ 32) : toUInt32 n = n := by
  unfold toUInt32
  omega

/-- `%u` on a number without sign. -/
theorem scanUnsigned_of_lt {s rest : List Char} {n : Nat} (h : DecimalText s false n rest)
    (hn : n < 2 ^ 32) : scanUnsigned s = .assigned n rest := by
  have hsmall : ¬ 2 ^ 64 ≤ n := by omega
  unfold scanUnsigned
  rw [scanDigits_assigned_iff.mpr h]
  simp only [if_neg hsmall, Bool.false_eq_true, if_false]
  rw [toUInt32_natCast hn]

theorem letters_not_space (flags : List ModeFlag) :
    ∀ c ∈ flags.map ModeFlag.letter, isSpaceChar c = false ∧ c.isDigit = false ∧ c ≠ '@' := by
  intro c hc
  obtain ⟨flag, -, rfl⟩ := List.mem_map.mp hc
  cases flag <;> decide

theorem flagBits_cons (flag : ModeFlag) (flags : List ModeFlag) :
    flagBits (flag :: flags) = flagBits [flag] ||| flagBits flags := by
  unfold flagBits
  by_cases hi : ModeFlag.interlace ∈ flags <;> by_cases hd : ModeFlag.dblscan ∈ flags <;>
    cases flag <;> simp [hi, hd] <;> decide

/-- The letters set the bits, in any order. -/
theorem modeFlags_letters (flags : List ModeFlag) :
    modeFlags (flags.map ModeFlag.letter) = flagBits flags := by
  have hfold : ∀ bits, (flags.map ModeFlag.letter).foldl (fun flags c =>
      if c = 'i' then flags ||| drmModeFlagInterlace
      else if c = 'd' then flags ||| drmModeFlagDblscan
      else flags) bits = bits ||| flagBits flags := by
    induction flags with
    | nil => intro bits; simp [flagBits]
    | cons flag flags ih =>
        intro bits
        rw [List.map_cons, List.foldl_cons, ih, flagBits_cons, ← Nat.or_assoc]
        congr 1
        cases flag <;> simp [ModeFlag.letter, flagBits]
  have h := hfold 0
  rwa [Nat.zero_or] at h

theorem sscanfHeight_printed {height : Nat} (hheight : height < 2 ^ 31)
    (flags : List ModeFlag) :
    (sscanfHeight (Nat.toDigits 10 height ++ flags.map ModeFlag.letter)).1 ≠ 0 ∧
      (sscanfHeight (Nat.toDigits 10 height ++ flags.map ModeFlag.letter)).2.1 = height ∧
      (if (sscanfHeight (Nat.toDigits 10 height ++ flags.map ModeFlag.letter)).1 = 2
        then modeFlags (sscanfHeight (Nat.toDigits 10 height ++ flags.map ModeFlag.letter)).2.2
        else 0) = flagBits flags := by
  have hd : DecimalText (Nat.toDigits 10 height ++ flags.map ModeFlag.letter) false height
      (flags.map ModeFlag.letter) :=
    decimalText_toDigits height fun c hc => (letters_not_space flags c (List.mem_of_head? hc)).2.1
  have hscan := scanInt_of_fits hd hheight
  unfold sscanfHeight
  rw [hscan]
  cases flags with
  | nil => exact ⟨(by decide : (1 : Int) ≠ 0), rfl, rfl⟩
  | cons flag flags =>
      -- all the letters are one word
      have hword : scanWord ((flag :: flags).map ModeFlag.letter)
          = .assigned ((flag :: flags).map ModeFlag.letter) [] := by
        refine scanWord_assigned_iff.mpr ⟨[], by simp, by simp, by simp, ?_, by simp⟩
        exact fun c hc => (letters_not_space _ c hc).1
      simp only [hword]
      exact ⟨by decide, rfl, modeFlags_letters _⟩

theorem scanUntilAt_printed (height : Nat) (flags : List ModeFlag)
    (tail : Option (Nat × Option AspectRatio)) :
    scanUntilAt (Nat.toDigits 10 height ++ flags.map ModeFlag.letter ++ tailText tail)
      = .assigned (Nat.toDigits 10 height ++ flags.map ModeFlag.letter) (tailText tail) := by
  refine scanUntilAt_assigned_iff.mpr ⟨rfl, ?_, ?_, ?_⟩
  · exact List.append_ne_nil_of_left_ne_nil Nat.toDigits_ne_nil _
  · intro hat
    rcases List.mem_append.mp hat with hat | hat
    · exact Digits.not_mem_toDigits (by decide) height hat
    · exact (letters_not_space flags _ hat).2.2 rfl
  · rcases tail with _ | ⟨refresh, _ | ratio⟩ <;> simp [tailText]

theorem aspectRatioAsString_text (ratio : AspectRatio) :
    aspectRatioAsString.getD (aspectIndex ratio.width ratio.height) ""
      = String.ofList ratio.text := by
  cases ratio <;> decide +kernel

/-- What the first sscanf() makes of the text behind the height. -/
theorem tailFields_printed {tail : Option (Nat × Option AspectRatio)}
    (hrefresh : ∀ t ∈ tail, t.1 < 2 ^ 31) :
    (tailFields (tailText tail)).1 ≠ 4 ∧
      (tailFields (tailText tail)).2.1 = tail.elim 0 Prod.fst ∧
      aspectRatioAsString.getD
        (if (tailFields (tailText tail)).1 = 5
          then aspectIndex (tailFields (tailText tail)).2.2.1 (tailFields (tailText tail)).2.2.2
          else 0) ""
        = String.ofList ((tail.bind Prod.snd).elim [] AspectRatio.text) := by
  have hbits : ∀ n : Nat, n < 2 ^ 31 → toUInt32 (signed false n) = n := by
    intro n hn
    show toUInt32 (n : Int) = n
    exact toUInt32_natCast (by omega)
  rcases tail with _ | ⟨refresh, _ | ratio⟩
  -- nothing behind the size
  · exact ⟨by decide, rfl, by decide⟩
  · have hlt : refresh < 2 ^ 31 := hrefresh _ rfl
    have hd : DecimalText (Nat.toDigits 10 refresh) false refresh [] := by
      simpa using decimalText_toDigits refresh noDigitNext_nil
    -- `sscanf` stops at the end of the text, behind the third field
    have hfields : tailFields (tailText (some (refresh, none))) = (3, refresh, 0, 0) := by
      unfold tailFields tailText
      simp only [scanChar_assigned_iff.mpr rfl, scanInt_of_fits hd hlt]
      rw [hbits refresh hlt]
      rfl
    rw [hfields]
    exact ⟨(by decide : (3 : Int) ≠ 4), rfl, (by decide : "" = String.ofList [])⟩
  · have hlt : refresh < 2 ^ 31 := hrefresh _ rfl
    have hd : DecimalText (Nat.toDigits 10 refresh ++ ratio.text) false refresh ratio.text := by
      refine decimalText_toDigits refresh ?_
      intro c hc
      obtain rfl : ' ' = c := by simpa [AspectRatio.text] using hc
      decide
    -- the conversion skips the white space in front of the ratio
    have hwidth : DecimalText ratio.text false ratio.width
        (':' :: Nat.toDigits 10 ratio.height) := by
      refine (decimalText_toDigits ratio.width ?_).space
      intro c hc
      obtain rfl : ':' = c := by simpa using hc
      decide
    have hheight : DecimalText (Nat.toDigits 10 ratio.height) false ratio.height [] := by
      simpa using decimalText_toDigits ratio.height noDigitNext_nil
    have hfields : tailFields (tailText (some (refresh, some ratio)))
        = (5, refresh, ratio.width, ratio.height) := by
      unfold tailFields tailText
      simp only [scanChar_assigned_iff.mpr rfl, scanInt_of_fits hd hlt,
        scanUnsigned_of_lt hwidth (by cases ratio <;> decide),
        scanUnsigned_of_lt hheight (by cases ratio <;> decide)]
      rw [hbits refresh hlt]
    rw [hfields]
    exact ⟨(by decide : (5 : Int) ≠ 4), rfl, aspectRatioAsString_text ratio⟩

/-- **The round trip.** -/
theorem parseModestring_printMode {width height : Nat} (flags : List ModeFlag)
    {tail : Option (Nat × Option AspectRatio)} (hwidth : width < 2 ^ 31)
    (hheight : height < 2 ^ 31) (hrefresh : ∀ t ∈ tail, t.1 < 2 ^ 31) :
    parseModestring (printMode width height flags tail)
      = some (printedMode width height flags tail) := by
  have hd : DecimalText (printMode width height flags tail).toList false width
      ('x' :: (Nat.toDigits 10 height ++ flags.map ModeFlag.letter ++ tailText tail)) := by
    unfold printMode
    rw [String.toList_ofList]
    refine decimalText_toDigits width ?_
    intro c hc
    obtain rfl : 'x' = c := by simpa using hc
    decide
  obtain ⟨hzero, hvalue, hflags⟩ := sscanfHeight_printed hheight flags
  obtain ⟨hfour, hrate, hratio⟩ := tailFields_printed hrefresh
  refine parseModestring_some_iff.mpr ⟨_, _, _, _, scanInt_of_fits hd hwidth,
    scanUntilAt_printed height flags tail, hfour, hzero, ?_⟩
  unfold modeOf printedMode
  rw [hvalue, hflags, hrate, hratio]
  rfl

theorem parseModestring_printMode_1080i :
    parseModestring (printMode 1920 1080 [.interlace, .dblscan] (some (60, some .r16x9)))
      = some (printedMode 1920 1080 [.interlace, .dblscan] (some (60, some .r16x9))) :=
  parseModestring_printMode _ (by decide) (by decide) (by simp)

end MesonDisplay.Helper
