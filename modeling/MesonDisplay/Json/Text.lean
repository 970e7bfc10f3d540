/-
  MesonDisplay.Json.Text — a JSON text format.

  A printer in json-c's default layout (`{ "cmd": "get modes" }`) and a reader
  for it.  The reader skips white space between tokens, stops right behind the
  value it read and reports nothing for a text that is not complete.

  `jsonText` packs the two as a `JsonC`.  The laws the transport assumes of
  json-c are theorems about it, so a result stated for every lawful `JsonC`
  can be run on real JSON text.

  Main results:
    * `readValue_print` — a printed value is read back.
    * `read_append` — a value that is complete is not changed by what follows.
    * `jsonText_readsObjects`, `jsonText_noNestedCopy`, `jsonText_readsNull`,
      `jsonText_braceOpensObject` — the laws.
-/
import MesonDisplay.Json.Value
import Mathlib.Data.List.Infix
import Mathlib.Data.List.TakeWhile
import Mathlib.Tactic.Common

namespace MesonDisplay.Json

/-! ## §1. The printer. -/

def escapeChar (c : Char) : List Char :=
  if c = '"' ∨ c = '\\' ∨ c = '/' then ['\\', c] else [c]

def printString (s : String) : List Char :=
  '"' :: (s.toList.flatMap escapeChar ++ ['"'])

def printInt : Int → List Char
  | .ofNat n => Nat.toDigits 10 n
  | .negSucc n => '-' :: Nat.toDigits 10 (n + 1)

mutual
def print : Json → List Char
  | .null => "null".toList
  | .bool true => "true".toList
  | .bool false => "false".toList
  | .int n => printInt n
  | .double t => t.toList
  | .string s => printString s
  | .array xs => '[' :: printElems xs
  | .object fs => '{' :: printMembers fs

/-- The elements of an array, with the closing bracket. -/
def printElems : List Json → List Char
  | [] => [' ', ']']
  | x :: xs =>
      ' ' :: (print x
        ++ if xs.isEmpty then [' ', ']'] else ',' :: printElems xs)

/-- The members of an object, with the closing brace. -/
def printMembers : List (String × Json) → List Char
  | [] => [' ', '}']
  | (k, v) :: fs =>
      ' ' :: (printString k ++ ':' :: ' ' :: (print v
        ++ if fs.isEmpty then [' ', '}'] else ',' :: printMembers fs))
end

/-! ## §2. The reader. -/

def isSpace (c : Char) : Bool := c == ' ' || c == '\t' || c == '\n' || c == '\r'

def skipSpace (s : List Char) : List Char := s.dropWhile isSpace

/-- The token `c`, after white space; what follows it is returned. -/
def expect (c : Char) (s : List Char) : Option (List Char) :=
  match skipSpace s with
  | d :: r => if d = c then some r else none
  | [] => none

/-- The rest of a string, behind its opening quote. -/
def readString : List Char → Option (List Char × List Char)
  | [] => none
  | '"' :: r => some ([], r)
  | '\\' :: c :: r =>
      if c = '"' ∨ c = '\\' ∨ c = '/' then
        (readString r).map (fun p => (c :: p.1, p.2))
      else none
  | c :: r => (readString r).map (fun p => (c :: p.1, p.2))

def readInt : List Char → Int
  | '-' :: ds => -(Nat.ofDigitChars 10 ds 0 : Int)
  | ds => (Nat.ofDigitChars 10 ds 0 : Int)

def numberOf (t : List Char) : Json :=
  if t.any (fun c => c == '.' || c == 'e' || c == 'E') then .double (String.ofList t)
  else .int (readInt t)

def readLiteral (s : List Char) : Option (Json × List Char) :=
  if "true".toList.isPrefixOf s then some (.bool true, s.drop 4)
  else if "false".toList.isPrefixOf s then some (.bool false, s.drop 5)
  else if "null".toList.isPrefixOf s then some (.null, s.drop 4)
  else none

mutual
/-- Read a value; `fuel` bounds the nesting. -/
def readValue : (fuel : Nat) → List Char → Option (Json × List Char)
  | 0, _ => none
  | fuel + 1, s =>
      match skipSpace s with
      | [] => none
      | c :: r =>
          if c = '"' then
            (readString r).map (fun p => (.string (String.ofList p.1), p.2))
          else if c = '{' then
            (readMembers fuel r).map (fun p => (.object p.1, p.2))
          else if c = '[' then
            (readElems fuel r).map (fun p => (.array p.1, p.2))
          else if c.isDigit ∨ c = '-' then
            some (numberOf ((c :: r).takeWhile isNumberChar),
              (c :: r).dropWhile isNumberChar)
          else readLiteral (c :: r)

/-- The members of an object, up to its closing brace. -/
def readMembers : (fuel : Nat) → List Char →
    Option (List (String × Json) × List Char)
  | 0, _ => none
  | fuel + 1, s =>
      match expect '}' s with
      | some r => some ([], r)
      | none => do
          let r₀ ← expect '"' s
          let k ← readString r₀
          let r₁ ← expect ':' k.2
          let v ← readValue fuel r₁
          match expect '}' v.2 with
          | some r => some ([(String.ofList k.1, v.1)], r)
          | none => do
              let r₂ ← expect ',' v.2
              let fs ← readMembers fuel r₂
              some ((String.ofList k.1, v.1) :: fs.1, fs.2)

/-- The elements of an array, up to its closing bracket. -/
def readElems : (fuel : Nat) → List Char → Option (List Json × List Char)
  | 0, _ => none
  | fuel + 1, s =>
      match expect ']' s with
      | some r => some ([], r)
      | none => do
          let v ← readValue fuel s
          match expect ']' v.2 with
          | some r => some ([v.1], r)
          | none => do
              let r ← expect ',' v.2
              let vs ← readElems fuel r
              some (v.1 :: vs.1, vs.2)
end

/-- Read a text: the first value in it, NULL if there is none. -/
def tokenerParse (t : List Char) : Json :=
  match readValue (t.length + 1) t with
  | some (v, _) => v
  | none => .null

/-! ## §3. Tokens. -/

theorem skipSpace_space (s : List Char) : skipSpace (' ' :: s) = skipSpace s := rfl

theorem skipSpace_of_not_isSpace {c : Char} (h : isSpace c = false)
    (s : List Char) : skipSpace (c :: s) = c :: s := by
  simp [skipSpace, h]

theorem skipSpace_append {s : List Char} {c : Char} {r : List Char}
    (h : skipSpace s = c :: r) (t : List Char) :
    skipSpace (s ++ t) = c :: (r ++ t) := by
  induction s with
  | nil => simp [skipSpace] at h
  | cons d s ih =>
      by_cases hd : isSpace d = true
      · have hs : ∀ u, skipSpace (d :: u) = skipSpace u := fun u => by
          simp [skipSpace, hd]
        rw [hs] at h
        rw [List.cons_append, hs]
        exact ih h
      · have hd' : isSpace d = false := by simpa using hd
        rw [skipSpace_of_not_isSpace hd'] at h
        rw [List.cons_append, skipSpace_of_not_isSpace hd', ← List.cons_append, h,
            List.cons_append]

theorem expect_space (c : Char) (s : List Char) :
    expect c (' ' :: s) = expect c s := rfl

theorem expect_self {c : Char} (h : isSpace c = false) (r : List Char) :
    expect c (c :: r) = some r := by
  simp [expect, skipSpace_of_not_isSpace h]

theorem expect_other {c d : Char} (h : isSpace d = false) (hne : d ≠ c)
    (r : List Char) : expect c (d :: r) = none := by
  simp [expect, skipSpace_of_not_isSpace h, hne]

theorem expect_eq_some {c : Char} {s r : List Char} :
    expect c s = some r ↔ skipSpace s = c :: r := by
  unfold expect
  cases skipSpace s with
  | nil => simp
  | cons d r' =>
      by_cases hd : d = c
      · simp [hd]
      · simp [hd]

theorem expect_append {c : Char} {s r : List Char} (h : expect c s = some r)
    (t : List Char) : expect c (s ++ t) = some (r ++ t) :=
  expect_eq_some.mpr (skipSpace_append (expect_eq_some.mp h) t)

theorem expect_none_append {c d : Char} {s r : List Char}
    (h : expect c s = none) (hs : skipSpace s = d :: r) (t : List Char) :
    expect c (s ++ t) = none := by
  unfold expect at h ⊢
  rw [hs] at h
  rw [skipSpace_append hs]
  by_cases hd : d = c
  · simp [hd] at h
  · simp [hd]

theorem expect_ne_nil {c : Char} {s r : List Char} (h : expect c s = some r) :
    s ≠ [] := by
  intro heq
  subst heq
  simp [expect, skipSpace] at h

/-- White space holds no quotes. -/
theorem count_skipSpace (s : List Char) :
    (skipSpace s).count '"' = s.count '"' := by
  induction s with
  | nil => rfl
  | cons c s ih =>
      by_cases hc : isSpace c = true
      · have hq : c ≠ '"' := by
          intro heq
          subst heq
          exact absurd hc (by decide)
        have : skipSpace (c :: s) = skipSpace s := by
          simp [skipSpace, hc]
        rw [this, ih, List.count_cons_of_ne hq]
      · rw [skipSpace_of_not_isSpace (by simpa using hc)]

theorem count_of_expect {c : Char} {s r : List Char} (h : expect c s = some r) :
    s.count '"' = r.count '"' + if c = '"' then 1 else 0 := by
  rw [← count_skipSpace s, expect_eq_some.mp h, List.count_cons]
  simp

/-! ### Strings -/

theorem readString_escape (c : Char) (s : List Char) :
    readString (escapeChar c ++ s)
      = (readString s).map (fun p => (c :: p.1, p.2)) := by
  unfold escapeChar
  split
  · rename_i h
    simp [readString, h]
  · rename_i h
    simp only [not_or] at h
    obtain ⟨hq, hb, -⟩ := h
    rw [List.singleton_append, readString]
    · exact fun h => hq h
    · intro d r h
      exact absurd h hb

theorem readString_print (s r : List Char) :
    readString (s.flatMap escapeChar ++ '"' :: r) = some (s, r) := by
  induction s with
  | nil => rfl
  | cons c s ih =>
      rw [List.flatMap_cons, List.append_assoc, readString_escape, ih]
      rfl

theorem readString_append {s : List Char} {p : List Char × List Char}
    (h : readString s = some p) (t : List Char) :
    readString (s ++ t) = some (p.1, p.2 ++ t) := by
  fun_induction readString s generalizing p with
  | case1 => simp at h
  | case2 r =>
      obtain rfl : ([], r) = p := by simpa using h
      rfl
  | case3 c r hc ih =>
      obtain ⟨q, hq, rfl⟩ := Option.map_eq_some_iff.mp h
      simp [readString, hc, ih hq]
  | case4 c r hc => simp at h
  | case5 c r hq hb ih =>
      obtain ⟨q, hq', rfl⟩ := Option.map_eq_some_iff.mp h
      rw [List.cons_append, readString, ih hq']
      · rfl
      · exact hq
      · -- a lone backslash at the end is no string
        intro d u hd hu
        subst hd
        cases r with
        | nil => simp [readString] at hq'
        | cons e r => exact hb e r rfl rfl

theorem count_escape (s : List Char) :
    (s.flatMap escapeChar).count '"' = s.count '"' := by
  induction s with
  | nil => rfl
  | cons c s ih =>
      rw [List.flatMap_cons, List.count_append, ih, List.count_cons]
      unfold escapeChar
      split
      · rename_i h
        rcases h with rfl | rfl | rfl
        · simp
          omega
        · simp
        · simp
      · rename_i h
        simp only [not_or] at h
        simp [h.1]

theorem count_of_readString {s : List Char} {p : List Char × List Char}
    (h : readString s = some p) :
    p.1.count '"' + p.2.count '"' + 1 ≤ s.count '"' := by
  fun_induction readString s generalizing p with
  | case1 => simp at h
  | case2 r =>
      obtain rfl : ([], r) = p := by simpa using h
      simp
  | case3 c r hc ih =>
      obtain ⟨q, hq, rfl⟩ := Option.map_eq_some_iff.mp h
      have := ih hq
      simp only [List.count_cons]
      omega
  | case4 c r hc => simp at h
  | case5 c r hq hb ih =>
      obtain ⟨q, hq', rfl⟩ := Option.map_eq_some_iff.mp h
      have := ih hq'
      simp only [List.count_cons]
      omega

/-! ### Numbers -/

theorem isNumberChar_of_isDigit {c : Char} (h : c.isDigit = true) :
    isNumberChar c = true := by
  simp [isNumberChar, h]

/-- The digits of a number are no quotes and make no double. -/
theorem ne_of_isDigit {c d : Char} (h : c.isDigit = true)
    (hd : d.isDigit = false) : c ≠ d := by
  intro heq
  subst heq
  rw [h] at hd
  exact absurd hd (by simp)

theorem mem_toDigits {n : Nat} {c : Char} (h : c ∈ Nat.toDigits 10 n) :
    c.isDigit = true :=
  Nat.isDigit_of_mem_toDigits (by omega) (by omega) h

theorem mem_printInt {n : Int} {c : Char} (h : c ∈ printInt n) :
    c.isDigit = true ∨ c = '-' := by
  cases n with
  | ofNat n => exact .inl (mem_toDigits h)
  | negSucc n =>
      rcases List.mem_cons.mp h with rfl | h
      · exact .inr rfl
      · exact .inl (mem_toDigits h)

theorem printInt_ne_nil (n : Int) : printInt n ≠ [] := by
  cases n with
  | ofNat n => exact Nat.toDigits_ne_nil
  | negSucc n => simp [printInt]

theorem readInt_print (n : Int) : readInt (printInt n) = n := by
  cases n with
  | ofNat n =>
      obtain ⟨c, ds, hc⟩ := List.exists_cons_of_ne_nil (Nat.toDigits_ne_nil (b := 10) (n := n))
      have hne : c ≠ '-' := ne_of_isDigit (mem_toDigits (hc ▸ List.mem_cons_self)) rfl
      have hread : ∀ ds', readInt (c :: ds') = (Nat.ofDigitChars 10 (c :: ds') 0 : Int) := by
        intro ds'
        unfold readInt
        split
        · rename_i h
          exact absurd (List.cons.inj h).1 hne
        · rfl
      simp only [printInt]
      rw [hc, hread, ← hc, Nat.ofDigitChars_ten_toDigits]
      rfl
  | negSucc n =>
      simp only [printInt, readInt]
      rw [Nat.ofDigitChars_ten_toDigits]
      omega

theorem numberOf_printInt (n : Int) : numberOf (printInt n) = .int n := by
  have hany : (printInt n).any (fun c => c == '.' || c == 'e' || c == 'E') = false := by
    rw [List.any_eq_false]
    intro c hc
    rcases mem_printInt hc with h | rfl
    · simp [ne_of_isDigit h (d := '.') rfl, ne_of_isDigit h (d := 'e') rfl,
        ne_of_isDigit h (d := 'E') rfl]
    · decide
  rw [numberOf, hany]
  simp [readInt_print]

/-- A number ends at the first character that is not one of a number. -/
def NumberEnds (rest : List Char) : Prop :=
  ∀ c ∈ rest.head?, isNumberChar c = false

theorem numberEnds_cons {c : Char} (h : isNumberChar c = false)
    (r : List Char) : NumberEnds (c :: r) := by
  simpa [NumberEnds] using h

theorem takeWhile_number {t rest : List Char} (ht : ∀ c ∈ t, isNumberChar c = true)
    (hr : NumberEnds rest) : (t ++ rest).takeWhile isNumberChar = t := by
  rw [List.takeWhile_append_of_pos ht]
  cases rest with
  | nil => simp
  | cons c r => simp [hr c rfl]

theorem dropWhile_number {t rest : List Char} (ht : ∀ c ∈ t, isNumberChar c = true)
    (hr : NumberEnds rest) : (t ++ rest).dropWhile isNumberChar = rest := by
  rw [List.dropWhile_append_of_pos ht]
  cases rest with
  | nil => simp
  | cons c r => simp [hr c rfl]

/-- The first character of a number, against the characters of other tokens. -/
theorem numberHead_ne {c d : Char} (h : c.isDigit = true ∨ c = '-')
    (hd : d.isDigit = false) (hd' : d ≠ '-') : c ≠ d := by
  rcases h with h | rfl
  · exact ne_of_isDigit h hd
  · exact fun h => hd' h.symm

theorem numberHead_not_isSpace {c : Char} (h : c.isDigit = true ∨ c = '-') :
    isSpace c = false := by
  simp [isSpace, numberHead_ne h (d := ' ') rfl (by decide),
    numberHead_ne h (d := '\t') rfl (by decide),
    numberHead_ne h (d := '\n') rfl (by decide),
    numberHead_ne h (d := '\r') rfl (by decide)]

/-- A number text is read up to its end. -/
theorem readValue_number {t rest : List Char} (fuel : Nat)
    (ht : ∀ c ∈ t, isNumberChar c = true)
    (hhead : ∃ c r, t = c :: r ∧ (c.isDigit = true ∨ c = '-'))
    (hr : NumberEnds rest) :
    readValue (fuel + 1) (t ++ rest) = some (numberOf t, rest) := by
  obtain ⟨c, r, rfl, hc⟩ := hhead
  rw [readValue, List.cons_append,
      skipSpace_of_not_isSpace (numberHead_not_isSpace hc)]
  simp only [if_neg (numberHead_ne hc (d := '"') rfl (by decide)),
    if_neg (numberHead_ne hc (d := '{') rfl (by decide)),
    if_neg (numberHead_ne hc (d := '[') rfl (by decide)), if_pos hc]
  rw [← List.cons_append, takeWhile_number ht hr, dropWhile_number ht hr]

theorem doubleText_head {t : List Char} (h : isDoubleText t = true) :
    ∃ c r, t = c :: r ∧ (c.isDigit = true ∨ c = '-') := by
  cases t with
  | nil => simp [isDoubleText] at h
  | cons c r =>
      simp [isDoubleText] at h
      exact ⟨c, r, rfl, h.1.1⟩

theorem numberOf_doubleText {t : String} (h : isDoubleText t.toList = true) :
    numberOf t.toList = .double t := by
  simp only [isDoubleText, Bool.and_eq_true] at h
  rw [numberOf, if_pos h.2, String.ofList_toList]

/-! ## §4. The round trip. -/

theorem readValue_skipSpace (fuel : Nat) (s : List Char) :
    readValue fuel (' ' :: s) = readValue fuel s := by
  cases fuel with
  | zero => rfl
  | succ fuel => rw [readValue, readValue, skipSpace_space]

/-- A value starts with a character that closes nothing. -/
theorem print_head (v : Json) (hv : v.wf = true) :
    ∃ c r, print v = c :: r ∧ isSpace c = false ∧ c ≠ ']' ∧ c ≠ '}' := by
  cases v with
  | null => exact ⟨'n', "ull".toList, rfl, by decide, by decide, by decide⟩
  | bool b =>
      cases b
      · exact ⟨'f', "alse".toList, rfl, by decide, by decide, by decide⟩
      · exact ⟨'t', "rue".toList, rfl, by decide, by decide, by decide⟩
  | int n =>
      obtain ⟨c, r, hc⟩ := List.exists_cons_of_ne_nil (printInt_ne_nil n)
      have hd := mem_printInt (hc ▸ List.mem_cons_self)
      exact ⟨c, r, hc, numberHead_not_isSpace hd,
        numberHead_ne hd rfl (by decide), numberHead_ne hd rfl (by decide)⟩
  | double t =>
      obtain ⟨c, r, hc, hd⟩ := doubleText_head hv
      exact ⟨c, r, hc, numberHead_not_isSpace hd,
        numberHead_ne hd rfl (by decide), numberHead_ne hd rfl (by decide)⟩
  | string s => exact ⟨'"', _, rfl, by decide, by decide, by decide⟩
  | array xs => exact ⟨'[', _, rfl, by decide, by decide, by decide⟩
  | object fs => exact ⟨'{', _, rfl, by decide, by decide, by decide⟩

mutual
/-- A printed value is read back, and reading stops right behind it. -/
theorem readValue_print (v : Json) (hv : v.wf = true) (fuel : Nat)
    (rest : List Char) (hfuel : (print v).length < fuel)
    (hrest : NumberEnds rest) :
    readValue fuel (print v ++ rest) = some (v, rest) := by
  obtain ⟨fuel, rfl⟩ := Nat.exists_eq_succ_of_ne_zero (Nat.ne_of_gt (Nat.zero_lt_of_lt hfuel))
  match v with
  | .null => rfl
  | .bool b => cases b <;> rfl
  | .int n =>
      have hhead : ∃ c r, printInt n = c :: r ∧ (c.isDigit = true ∨ c = '-') := by
        obtain ⟨c, r, hc⟩ := List.exists_cons_of_ne_nil (printInt_ne_nil n)
        exact ⟨c, r, hc, mem_printInt (hc ▸ List.mem_cons_self)⟩
      have hall : ∀ c ∈ printInt n, isNumberChar c = true := by
        intro c hc
        rcases mem_printInt hc with h | rfl
        · exact isNumberChar_of_isDigit h
        · decide
      -- the characters of a number end where `rest` starts
      simp only [print]
      rw [readValue_number fuel hall hhead hrest, numberOf_printInt]
  | .double t =>
      have hwf : isDoubleText t.toList = true := hv
      have hall : ∀ c ∈ t.toList, isNumberChar c = true := by
        simp only [isDoubleText, Bool.and_eq_true] at hwf
        exact List.all_eq_true.mp hwf.1.2
      simp only [print]
      rw [readValue_number fuel hall (doubleText_head hwf) hrest,
          numberOf_doubleText hwf]
  | .string s =>
      rw [print, printString, readValue, List.cons_append,
          skipSpace_of_not_isSpace (by decide)]
      simp only [List.append_assoc, List.singleton_append, readString_print]
      simp
  | .array xs =>
      -- the brackets pay for the fuel of what is inside
      rw [print] at hfuel ⊢
      rw [readValue, List.cons_append, skipSpace_of_not_isSpace (by decide)]
      have hxs := readElems_print xs (by simpa [Json.wf] using hv) fuel rest
        (by simpa using hfuel)
      simp [hxs]
  | .object fs =>
      rw [print] at hfuel ⊢
      rw [readValue, List.cons_append, skipSpace_of_not_isSpace (by decide)]
      have hfs := readMembers_print fs (by simpa [Json.wf] using hv) fuel rest
        (by simpa using hfuel)
      simp [hfs]

theorem readElems_print (xs : List Json) (hxs : Json.wfElems xs = true)
    (fuel : Nat) (rest : List Char) (hfuel : (printElems xs).length < fuel) :
    readElems fuel (printElems xs ++ rest) = some (xs, rest) := by
  obtain ⟨fuel, rfl⟩ := Nat.exists_eq_succ_of_ne_zero (Nat.ne_of_gt (Nat.zero_lt_of_lt hfuel))
  match xs with
  | [] =>
      rw [readElems]
      rfl
  | x :: xs =>
      obtain ⟨hx, hxs⟩ : x.wf = true ∧ Json.wfElems xs = true := by
        simpa [Json.wfElems] using hxs
      obtain ⟨c, r, hc, hsp, hne, -⟩ := print_head x hx
      simp only [printElems, List.cons_append, List.append_assoc] at hfuel ⊢
      rw [readElems, expect_space]
      -- an element never starts with the closing bracket
      have hno : expect ']' (print x ++ ((if xs.isEmpty then [' ', ']']
          else ',' :: printElems xs) ++ rest)) = none := by
        rw [hc, List.cons_append, expect_other hsp hne]
      rw [hno, readValue_skipSpace]
      -- a comma follows unless it is the last one
      cases xs with
      | nil =>
          have hval := readValue_print x hx fuel (' ' :: ']' :: rest)
            (by simp at hfuel; omega) (numberEnds_cons (by decide) _)
          simp only [List.isEmpty_nil, if_true, List.cons_append, List.nil_append]
          simp [hval, expect_space, expect_self (c := ']') (by decide)]
      | cons y ys =>
          have hval := readValue_print x hx fuel (',' :: (printElems (y :: ys) ++ rest))
            (by simp at hfuel; omega) (numberEnds_cons (by decide) _)
          have hrest := readElems_print (y :: ys) hxs fuel rest
            (by simp at hfuel; omega)
          simp only [List.isEmpty_cons, Bool.false_eq_true, if_false, List.cons_append]
          simp [hval, hrest, expect_other (c := ']') (d := ',') (by decide) (by decide),
            expect_self (c := ',') (by decide)]

theorem readMembers_print (fs : List (String × Json))
    (hfs : Json.wfFields fs = true) (fuel : Nat) (rest : List Char)
    (hfuel : (printMembers fs).length < fuel) :
    readMembers fuel (printMembers fs ++ rest) = some (fs, rest) := by
  obtain ⟨fuel, rfl⟩ := Nat.exists_eq_succ_of_ne_zero (Nat.ne_of_gt (Nat.zero_lt_of_lt hfuel))
  match fs with
  | [] =>
      rw [readMembers]
      rfl
  | (k, v) :: fs =>
      obtain ⟨hv, hfs⟩ : v.wf = true ∧ Json.wfFields fs = true := by
        simp only [Json.wfFields, Bool.and_eq_true] at hfs
        exact ⟨hfs.1.2, hfs.2⟩
      simp only [printMembers, printString, List.cons_append, List.append_assoc,
        List.nil_append] at hfuel ⊢
      -- a member starts with the quote of its key
      rw [readMembers, expect_space, expect_other (by decide) (by decide)]
      simp only [expect_space, expect_self (c := '"') (by decide),
        readString_print, Option.bind_eq_bind, Option.bind_some,
        expect_self (c := ':') (by decide), readValue_skipSpace, String.ofList_toList]
      -- a comma follows unless it is the last one
      cases fs with
      | nil =>
          have hval := readValue_print v hv fuel (' ' :: '}' :: rest)
            (by simp at hfuel; omega) (numberEnds_cons (by decide) _)
          simp only [List.isEmpty_nil, if_true, List.cons_append, List.nil_append]
          simp [hval, expect_space, expect_self (c := '}') (by decide)]
      | cons g gs =>
          have hval := readValue_print v hv fuel (',' :: (printMembers (g :: gs) ++ rest))
            (by simp at hfuel; omega) (numberEnds_cons (by decide) _)
          have hrest := readMembers_print (g :: gs) hfs fuel rest
            (by simp at hfuel; omega)
          simp only [List.isEmpty_cons, Bool.false_eq_true, if_false, List.cons_append]
          simp [hval, hrest, expect_other (c := '}') (d := ',') (by decide) (by decide),
            expect_self (c := ',') (by decide)]
end

/-! ## §5. Reading ahead. -/

theorem takeWhile_append_of_stop {p : Char → Bool} {s : List Char}
    (h : s.dropWhile p ≠ []) (t : List Char) :
    (s ++ t).takeWhile p = s.takeWhile p ∧
      (s ++ t).dropWhile p = s.dropWhile p ++ t := by
  induction s with
  | nil => simp at h
  | cons c s ih =>
      by_cases hc : p c = true
      · simp only [List.dropWhile_cons, hc, if_true] at h
        simp [hc, ih h]
      · simp [hc]

theorem readLiteral_append {s : List Char} {p : Json × List Char}
    (h : readLiteral s = some p) (t : List Char) :
    readLiteral (s ++ t) = some (p.1, p.2 ++ t) := by
  unfold readLiteral at h
  split at h
  · rename_i hs
    obtain ⟨r, rfl⟩ := List.isPrefixOf_iff_prefix.mp hs
    obtain rfl := Option.some.inj h
    rfl
  · split at h
    · rename_i hs
      obtain ⟨r, rfl⟩ := List.isPrefixOf_iff_prefix.mp hs
      obtain rfl := Option.some.inj h
      rfl
    · split at h
      · rename_i hs
        obtain ⟨r, rfl⟩ := List.isPrefixOf_iff_prefix.mp hs
        obtain rfl := Option.some.inj h
        rfl
      · exact absurd h (by simp)

/-- What a successful read of members found. -/
theorem readMembers_cases {fuel : Nat} {s : List Char}
    {p : List (String × Json) × List Char} (h : readMembers (fuel + 1) s = some p) :
    (expect '}' s = some p.2 ∧ p.1 = []) ∨
    ∃ r₀ k r₁ v, expect '}' s = none ∧ expect '"' s = some r₀ ∧
      readString r₀ = some k ∧ expect ':' k.2 = some r₁ ∧
      readValue fuel r₁ = some v ∧
      ((expect '}' v.2 = some p.2 ∧ p.1 = [(String.ofList k.1, v.1)]) ∨
       ∃ r₂ fs, expect '}' v.2 = none ∧ expect ',' v.2 = some r₂ ∧
         readMembers fuel r₂ = some (fs, p.2) ∧
         p.1 = (String.ofList k.1, v.1) :: fs) := by
  rw [readMembers] at h
  cases h0 : expect '}' s with
  | some r =>
      rw [h0] at h
      obtain rfl := Option.some.inj h
      exact .inl ⟨rfl, rfl⟩
  | none =>
      right
      simp only [h0, Option.bind_eq_bind, Option.bind_eq_some_iff] at h
      obtain ⟨r₀, h₀, k, hk, r₁, h₁, v, hv, h⟩ := h
      refine ⟨r₀, k, r₁, v, rfl, h₀, hk, h₁, hv, ?_⟩
      -- behind the value: the closing brace or a comma
      cases h2 : expect '}' v.2 with
      | some r =>
          rw [h2] at h
          obtain rfl := Option.some.inj h
          exact .inl ⟨rfl, rfl⟩
      | none =>
          simp only [h2, Option.bind_eq_some_iff] at h
          obtain ⟨r₂, h₂, fs, hfs, h⟩ := h
          obtain rfl := Option.some.inj h
          exact .inr ⟨r₂, fs.1, rfl, h₂, hfs, rfl⟩

/-- What a successful read of elements found. -/
theorem readElems_cases {fuel : Nat} {s : List Char}
    {p : List Json × List Char} (h : readElems (fuel + 1) s = some p) :
    (expect ']' s = some p.2 ∧ p.1 = []) ∨
    ∃ v, expect ']' s = none ∧ readValue fuel s = some v ∧
      ((expect ']' v.2 = some p.2 ∧ p.1 = [v.1]) ∨
       ∃ r xs, expect ']' v.2 = none ∧ expect ',' v.2 = some r ∧
         readElems fuel r = some (xs, p.2) ∧ p.1 = v.1 :: xs) := by
  rw [readElems] at h
  cases h0 : expect ']' s with
  | some r =>
      rw [h0] at h
      obtain rfl := Option.some.inj h
      exact .inl ⟨rfl, rfl⟩
  | none =>
      right
      simp only [h0, Option.bind_eq_bind, Option.bind_eq_some_iff] at h
      obtain ⟨v, hv, h⟩ := h
      refine ⟨v, rfl, hv, ?_⟩
      -- behind the value: the closing bracket or a comma
      cases h2 : expect ']' v.2 with
      | some r =>
          rw [h2] at h
          obtain rfl := Option.some.inj h
          exact .inl ⟨rfl, rfl⟩
      | none =>
          simp only [h2, Option.bind_eq_some_iff] at h
          obtain ⟨r₂, h₂, xs, hxs, h⟩ := h
          obtain rfl := Option.some.inj h
          exact .inr ⟨r₂, xs.1, rfl, h₂, hxs, rfl⟩

/-- What a successful read of a value found. -/
theorem readValue_cases {fuel : Nat} {s : List Char} {p : Json × List Char}
    (h : readValue (fuel + 1) s = some p) :
    ∃ c r, skipSpace s = c :: r ∧
      ((c = '"' ∧ ∃ q, readString r = some q ∧ p = (.string (String.ofList q.1), q.2)) ∨
       (c = '{' ∧ ∃ q, readMembers fuel r = some q ∧ p = (.object q.1, q.2)) ∨
       (c = '[' ∧ ∃ q, readElems fuel r = some q ∧ p = (.array q.1, q.2)) ∨
       ((c.isDigit = true ∨ c = '-') ∧
         p = (numberOf ((c :: r).takeWhile isNumberChar),
           (c :: r).dropWhile isNumberChar)) ∨
       ((¬ (c.isDigit = true ∨ c = '-') ∧ c ≠ '"' ∧ c ≠ '{' ∧ c ≠ '[') ∧
         readLiteral (c :: r) = some p)) := by
  rw [readValue] at h
  cases hs : skipSpace s with
  | nil => simp [hs] at h
  | cons c r =>
      refine ⟨c, r, rfl, ?_⟩
      simp only [hs] at h
      -- the branches of `readValue`, by the first character
      split at h
      · rename_i hc
        obtain ⟨q, hq, rfl⟩ := Option.map_eq_some_iff.mp h
        exact .inl ⟨hc, q, hq, rfl⟩
      · rename_i hq
        split at h
        · rename_i hc
          obtain ⟨q, hq, rfl⟩ := Option.map_eq_some_iff.mp h
          exact .inr (.inl ⟨hc, q, hq, rfl⟩)
        · rename_i hb
          split at h
          · rename_i hc
            obtain ⟨q, hq, rfl⟩ := Option.map_eq_some_iff.mp h
            exact .inr (.inr (.inl ⟨hc, q, hq, rfl⟩))
          · rename_i ha
            split at h
            · rename_i hc
              exact .inr (.inr (.inr (.inl ⟨hc, (Option.some.inj h).symm⟩)))
            · rename_i hc
              exact .inr (.inr (.inr (.inr ⟨⟨hc, hq, hb, ha⟩, h⟩)))

theorem skipSpace_of_readValue {fuel : Nat} {s : List Char} {p : Json × List Char}
    (h : readValue fuel s = some p) : ∃ c r, skipSpace s = c :: r := by
  cases fuel with
  | zero => simp [readValue] at h
  | succ fuel =>
      obtain ⟨c, r, hs, -⟩ := readValue_cases h
      exact ⟨c, r, hs⟩

/-- More fuel and more text change nothing about a value that is followed by
something already, nor about what closes itself. -/
theorem read_append (fuel : Nat) :
    (∀ s p, readValue fuel s = some p → p.2 ≠ [] → ∀ fuel' t, fuel ≤ fuel' →
      readValue fuel' (s ++ t) = some (p.1, p.2 ++ t)) ∧
    (∀ s p, readElems fuel s = some p → ∀ fuel' t, fuel ≤ fuel' →
      readElems fuel' (s ++ t) = some (p.1, p.2 ++ t)) ∧
    (∀ s p, readMembers fuel s = some p → ∀ fuel' t, fuel ≤ fuel' →
      readMembers fuel' (s ++ t) = some (p.1, p.2 ++ t)) := by
  induction fuel with
  | zero =>
      refine ⟨fun s p h => ?_, fun s p h => ?_, fun s p h => ?_⟩
      · simp [readValue] at h
      · simp [readElems] at h
      · simp [readMembers] at h
  | succ fuel ih =>
      obtain ⟨ihv, ihe, ihm⟩ := ih
      refine ⟨fun s p h hne fuel' t hle => ?_, fun s p h fuel' t hle => ?_,
        fun s p h fuel' t hle => ?_⟩
      all_goals
        obtain ⟨fuel', rfl⟩ := Nat.exists_eq_succ_of_ne_zero (n := fuel') (by omega)
        have hle' : fuel ≤ fuel' := by omega
      -- a number or a literal ends at the character that follows it, which `hne` gives
      · obtain ⟨c, r, hs, h⟩ := readValue_cases h
        rw [readValue, skipSpace_append hs]
        rcases h with ⟨rfl, q, hq, rfl⟩ | ⟨rfl, q, hq, rfl⟩ | ⟨rfl, q, hq, rfl⟩ |
          ⟨hc, rfl⟩ | ⟨⟨hc, hq, hb, ha⟩, h⟩
        · simp [readString_append hq]
        · simp [ihm r q hq fuel' t hle']
        · simp [ihe r q hq fuel' t hle']
        · obtain ⟨ht, hd⟩ := takeWhile_append_of_stop hne t
          rw [List.cons_append] at ht hd
          simp [numberHead_ne hc (d := '"') rfl (by decide),
            numberHead_ne hc (d := '{') rfl (by decide),
            numberHead_ne hc (d := '[') rfl (by decide), hc, ht, hd]
        · have hl := readLiteral_append h t
          rw [List.cons_append] at hl
          simp [hc, hq, hb, ha, hl]
      -- the elements close themselves, so nothing is asked of what follows
      · rw [readElems]
        rcases readElems_cases h with ⟨h0, hp⟩ | ⟨v, h0, hv, h⟩
        · simp [expect_append h0, hp]
        · obtain ⟨c, r, hs⟩ := skipSpace_of_readValue hv
          rcases h with ⟨h2, hp⟩ | ⟨r₂, xs, h2, h₂, hxs, hp⟩
          · have hv' := ihv s v hv (expect_ne_nil h2) fuel' t hle'
            simp [expect_none_append h0 hs, hv', expect_append h2, hp]
          · have hv' := ihv s v hv (expect_ne_nil h₂) fuel' t hle'
            have hxs' := ihe r₂ (xs, p.2) hxs fuel' t hle'
            simp [expect_none_append h0 hs, hv',
              expect_none_append h2 (expect_eq_some.mp h₂), expect_append h₂,
              hxs', hp]
      · rw [readMembers]
        rcases readMembers_cases h with ⟨h0, hp⟩ | ⟨r₀, k, r₁, v, h0, h₀, hk, h₁, hv, h⟩
        · simp [expect_append h0, hp]
        · rcases h with ⟨h2, hp⟩ | ⟨r₂, fs, h2, h₂, hfs, hp⟩
          · have hv' := ihv r₁ v hv (expect_ne_nil h2) fuel' t hle'
            simp [expect_none_append h0 (expect_eq_some.mp h₀), expect_append h₀,
              readString_append hk, expect_append h₁, hv', expect_append h2, hp]
          · have hv' := ihv r₁ v hv (expect_ne_nil h₂) fuel' t hle'
            have hfs' := ihm r₂ (fs, p.2) hfs fuel' t hle'
            simp [expect_none_append h0 (expect_eq_some.mp h₀), expect_append h₀,
              readString_append hk, expect_append h₁, hv',
              expect_none_append h2 (expect_eq_some.mp h₂), expect_append h₂, hfs', hp]

/-! ## §6. Quotes. -/

theorem count_quote_number {t : List Char} (h : ∀ c ∈ t, c ≠ '"') :
    t.count '"' = 0 :=
  List.count_eq_zero.mpr fun hmem => h _ hmem rfl

theorem count_print_numberOf (t : List Char) (h : ∀ c ∈ t, isNumberChar c = true) :
    (print (numberOf t)).count '"' = 0 := by
  unfold numberOf
  split
  · rw [print, String.toList_ofList]
    refine count_quote_number fun c hc => ?_
    intro heq
    subst heq
    exact absurd (h _ hc) (by decide)
  · rw [print]
    refine count_quote_number fun c hc => ?_
    exact numberHead_ne (mem_printInt hc) rfl (by decide)

theorem count_print_of_readLiteral {s : List Char} {p : Json × List Char}
    (h : readLiteral s = some p) :
    (print p.1).count '"' + p.2.count '"' ≤ s.count '"' := by
  have hsub : ∀ n, (s.drop n).count '"' ≤ s.count '"' := fun n =>
    (List.drop_sublist n s).count_le _
  unfold readLiteral at h
  split at h
  · obtain rfl := Option.some.inj h
    simpa [print] using hsub 4
  · split at h
    · obtain rfl := Option.some.inj h
      simpa [print] using hsub 5
    · split at h
      · obtain rfl := Option.some.inj h
        simpa [print] using hsub 4
      · exact absurd h (by simp)

theorem count_printString (s : List Char) :
    (printString (String.ofList s)).count '"' = s.count '"' + 2 := by
  simp [printString, count_escape]

theorem count_printElems_cons (x : Json) (xs : List Json) :
    (printElems (x :: xs)).count '"' = (print x).count '"' + (printElems xs).count '"' := by
  cases xs with
  | nil => simp [printElems]
  | cons y ys => simp [printElems]

theorem count_printMembers_cons (k : String) (v : Json) (fs : List (String × Json)) :
    (printMembers ((k, v) :: fs)).count '"'
      = (printString k).count '"' + (print v).count '"' + (printMembers fs).count '"' := by
  cases fs with
  | nil => simp [printMembers]
  | cons g gs => simp [printMembers, Nat.add_assoc]

/-- A value holds no more quotes than the text it was read from. -/
theorem count_read (fuel : Nat) :
    (∀ s p, readValue fuel s = some p →
      (print p.1).count '"' + p.2.count '"' ≤ s.count '"') ∧
    (∀ s p, readElems fuel s = some p →
      (printElems p.1).count '"' + p.2.count '"' ≤ s.count '"') ∧
    (∀ s p, readMembers fuel s = some p →
      (printMembers p.1).count '"' + p.2.count '"' ≤ s.count '"') := by
  induction fuel with
  | zero =>
      refine ⟨fun s p h => ?_, fun s p h => ?_, fun s p h => ?_⟩
      · simp [readValue] at h
      · simp [readElems] at h
      · simp [readMembers] at h
  | succ fuel ih =>
      obtain ⟨ihv, ihe, ihm⟩ := ih
      refine ⟨fun s p h => ?_, fun s p h => ?_, fun s p h => ?_⟩
      -- only a string has quotes of its own
      · obtain ⟨c, r, hs, h⟩ := readValue_cases h
        rw [← count_skipSpace s, hs]
        rcases h with ⟨rfl, q, hq, rfl⟩ | ⟨rfl, q, hq, rfl⟩ | ⟨rfl, q, hq, rfl⟩ |
          ⟨hc, rfl⟩ | ⟨-, h⟩
        · have := count_of_readString hq
          simp only [print, count_printString, List.count_cons_self]
          omega
        · have := ihm r q hq
          simpa [print] using this
        · have := ihe r q hq
          simpa [print] using this
        · rw [count_print_numberOf _ fun c hc => List.mem_takeWhile_imp hc, Nat.zero_add]
          exact (List.dropWhile_sublist _).count_le _
        · exact count_print_of_readLiteral h
      -- brackets and commas are not quotes
      · rcases readElems_cases h with ⟨h0, hp⟩ | ⟨v, -, hv, h⟩
        · have := count_of_expect h0
          simp [hp, printElems, this]
        · have hcv := ihv s v hv
          rcases h with ⟨h2, hp⟩ | ⟨r₂, xs, -, h₂, hxs, hp⟩
          · have := count_of_expect h2
            simp [hp, printElems] at this ⊢
            omega
          · have hc := count_of_expect h₂
            have hcx := ihe r₂ (xs, p.2) hxs
            rw [hp, count_printElems_cons]
            simp at hc hcx hcv
            omega
      -- the key is written with the quotes it was read with
      · rcases readMembers_cases h with ⟨h0, hp⟩ | ⟨r₀, k, r₁, v, -, h₀, hk, h₁, hv, h⟩
        · have := count_of_expect h0
          simp [hp, printMembers, this]
        · have hc₀ := count_of_expect h₀
          have hck := count_of_readString hk
          have hc₁ := count_of_expect h₁
          have hcv := ihv r₁ v hv
          rcases h with ⟨h2, hp⟩ | ⟨r₂, fs, -, h₂, hfs, hp⟩
          · have := count_of_expect h2
            simp [hp, printMembers, count_printString] at *
            omega
          · have hc := count_of_expect h₂
            have hcx := ihm r₂ (fs, p.2) hfs
            rw [hp, count_printMembers_cons, count_printString]
            simp at hc₀ hck hc₁ hcv hc hcx
            omega

/-! ## §7. The format as a JsonC. -/

theorem tokenerParse_eq {t : List Char} {v : Json} (h : tokenerParse t = v)
    (hv : v ≠ .null) : ∃ r, readValue (t.length + 1) t = some (v, r) := by
  unfold tokenerParse at h
  cases hr : readValue (t.length + 1) t with
  | none =>
      rw [hr] at h
      exact absurd h.symm hv
  | some p =>
      rw [hr] at h
      obtain ⟨w, r⟩ := p
      exact ⟨r, by rw [← h]⟩

theorem print_object (fs : List (String × Json)) :
    print (.object fs) = '{' :: printMembers fs := by
  rw [print]

theorem readValue_brace (fuel : Nat) (s : List Char) :
    readValue (fuel + 1) ('{' :: s)
      = (readMembers fuel s).map (fun p => (.object p.1, p.2)) := by
  rw [readValue, skipSpace_of_not_isSpace (by decide)]
  simp

/-- The text of an object is read as that object, whatever follows it. -/
theorem tokenerParse_print {j : Json} (hj : j.IsRequest) (rest : List Char) :
    tokenerParse (print j ++ rest) = j := by
  obtain ⟨hwf, hobj⟩ := hj
  obtain ⟨fs, rfl⟩ := Json.isObject_iff.mp hobj
  have hlen : (printMembers fs).length
      < (print (.object fs) ++ rest).length := by
    rw [print_object, List.length_append, List.length_cons]
    omega
  have hread := readMembers_print fs (by simpa [Json.wf] using hwf) _ rest hlen
  unfold tokenerParse
  rw [print_object, List.cons_append] at hread ⊢
  rw [readValue_brace, hread]
  rfl

/-- An incomplete text of an object is not read as anything. -/
theorem tokenerParse_prefix {j : Json} (hj : j.IsRequest) {p : List Char}
    (hp : p <+: print j) (hne : p ≠ print j) : tokenerParse p = .null := by
  obtain ⟨hwf, hobj⟩ := hj
  obtain ⟨fs, rfl⟩ := Json.isObject_iff.mp hobj
  obtain ⟨t, ht⟩ := hp
  by_contra hv
  obtain ⟨r, hr⟩ := tokenerParse_eq rfl hv
  rw [print_object] at ht
  cases p with
  | nil => simp [readValue, skipSpace] at hr
  | cons c p =>
      obtain ⟨rfl, hpt⟩ : c = '{' ∧ p ++ t = printMembers fs := by simpa using ht
      rw [readValue_brace] at hr
      obtain ⟨q, hq, -⟩ := Option.map_eq_some_iff.mp hr
      -- what was read from the prefix is read from the whole text as well
      have hlong := (read_append _).2.2 p q hq
        ((printMembers fs).length + 1 + ('{' :: p).length) t (by omega)
      have hfull := readMembers_print fs (by simpa [Json.wf] using hwf)
        ((printMembers fs).length + 1 + ('{' :: p).length) [] (by omega)
      rw [List.append_nil] at hfull
      rw [hpt, hfull] at hlong
      have htnil : t = [] := by
        have := congrArg Prod.snd (Option.some.inj hlong)
        exact (List.append_eq_nil_iff.mp this.symm).2
      apply hne
      rw [print_object, ← hpt, htnil, List.append_nil]

theorem isObject_numberOf (t : List Char) : (numberOf t).isObject = false := by
  unfold numberOf
  split <;> rfl

theorem isObject_of_readLiteral {s : List Char} {p : Json × List Char}
    (h : readLiteral s = some p) :
    p.1.isObject = false ∧ s.head? ≠ some '/' ∧ s.head? ≠ some '{' := by
  unfold readLiteral at h
  split at h
  · rename_i hs
    obtain ⟨r, rfl⟩ := List.isPrefixOf_iff_prefix.mp hs
    obtain rfl := Option.some.inj h
    exact ⟨rfl, by simp, by simp⟩
  · split at h
    · rename_i hs
      obtain ⟨r, rfl⟩ := List.isPrefixOf_iff_prefix.mp hs
      obtain rfl := Option.some.inj h
      exact ⟨rfl, by simp, by simp⟩
    · split at h
      · rename_i hs
        obtain ⟨r, rfl⟩ := List.isPrefixOf_iff_prefix.mp hs
        obtain rfl := Option.some.inj h
        exact ⟨rfl, by simp, by simp⟩
      · exact absurd h (by simp)

/-- The first character of a text decides whether its value is an object. -/
theorem isObject_readValue {fuel : Nat} {s : List Char} {p : Json × List Char}
    (h : readValue fuel s = some p) :
    ∃ c r, skipSpace s = c :: r ∧ c ≠ '/' ∧ (p.1.isObject = true ↔ c = '{') := by
  cases fuel with
  | zero => simp [readValue] at h
  | succ fuel =>
      obtain ⟨c, r, hs, hcases⟩ := readValue_cases h
      refine ⟨c, r, hs, ?_⟩
      rcases hcases with ⟨rfl, q, -, rfl⟩ | ⟨rfl, q, -, rfl⟩ | ⟨rfl, q, -, rfl⟩ |
        ⟨hc, rfl⟩ | ⟨-, hl⟩
      · exact ⟨by decide, by simp [Json.isObject]⟩
      · exact ⟨by decide, by simp [Json.isObject]⟩
      · exact ⟨by decide, by simp [Json.isObject]⟩
      · exact ⟨numberHead_ne hc rfl (by decide),
          by simp [isObject_numberOf, numberHead_ne hc (d := '{') rfl (by decide)]⟩
      · obtain ⟨hobj, hslash, hbrace⟩ := isObject_of_readLiteral hl
        simp only [List.head?_cons, ne_eq, Option.some.injEq] at hslash hbrace
        exact ⟨hslash, by simp [hobj, hbrace]⟩

/-- A text that is read as an object opens with its brace. -/
theorem skipSpace_of_object {t : List Char} {fs : List (String × Json)}
    (h : tokenerParse t = .object fs) : ∃ r, skipSpace t = '{' :: r := by
  obtain ⟨r, hr⟩ := tokenerParse_eq h (by simp)
  obtain ⟨c, r', hs, -, hobj⟩ := isObject_readValue hr
  obtain rfl := hobj.mp rfl
  exact ⟨r', hs⟩

/-- The members start with a quote or close at once. -/
theorem printMembers_head (fs : List (String × Json)) :
    ∃ x r, printMembers fs = ' ' :: x :: r ∧ (x = '"' ∨ x = '}' ∧ r = []) := by
  match fs with
  | [] => exact ⟨'}', [], by rw [printMembers], .inr ⟨rfl, rfl⟩⟩
  | (k, v) :: fs =>
      rw [printMembers, printString, List.cons_append]
      exact ⟨'"', _, rfl, .inl rfl⟩

theorem not_nested (j : Json) (hj : j.IsRequest) (a w b : List Char)
    (ha : a ≠ []) (hp : print j = a ++ w ++ b) : tokenerParse w ≠ j := by
  obtain ⟨-, hobj⟩ := hj
  obtain ⟨fs, rfl⟩ := Json.isObject_iff.mp hobj
  intro h
  -- all the quotes of the object are in `w`, so `a` is the brace at most
  obtain ⟨r, hr⟩ := tokenerParse_eq h (by simp)
  have hcount : (print (.object fs)).count '"' + r.count '"' ≤ w.count '"' :=
    (count_read _).1 w _ hr
  have hquotes := congrArg (List.count '"') hp
  simp only [List.count_append] at hquotes
  have haq : '"' ∉ a := List.count_eq_zero.mp (by omega)
  obtain ⟨r', hs⟩ := skipSpace_of_object h
  have hs' := skipSpace_append hs b
  obtain ⟨x, y, hx, hxy⟩ := printMembers_head fs
  rw [print_object, hx, List.append_assoc] at hp
  have hopen : ∀ s : List Char, skipSpace (x :: s) ≠ '{' :: (r' ++ b) := by
    intro s hsk
    rcases hxy with rfl | ⟨rfl, -⟩
    · rw [skipSpace_of_not_isSpace (by decide)] at hsk
      exact absurd (List.cons.inj hsk).1 (by decide)
    · rw [skipSpace_of_not_isSpace (by decide)] at hsk
      exact absurd (List.cons.inj hsk).1 (by decide)
  match a, ha, hp, haq with
  | [c], _, hp, _ =>
      obtain ⟨-, hw⟩ := List.cons.inj hp
      rw [← show ' ' :: x :: y = w ++ b from hw, skipSpace_space] at hs'
      exact hopen y hs'
  | [c, d], _, hp, _ =>
      obtain ⟨-, hw⟩ := List.cons.inj (List.cons.inj hp).2
      rw [← show x :: y = w ++ b from hw] at hs'
      exact hopen y hs'
  | c :: d :: e :: a, _, hp, haq =>
      obtain ⟨rfl, hw⟩ := List.cons.inj (List.cons.inj (List.cons.inj hp).2).2
      rcases hxy with rfl | ⟨-, rfl⟩
      · simp at haq
      · have hnil : w ++ b = [] := (List.append_eq_nil_iff.mp hw.symm).2
        rw [hnil] at hs'
        exact absurd hs' (by simp [skipSpace])

/-- `null` is read as NULL, and so is what may become a `null`. -/
theorem tokenerParse_null (rest : List Char) :
    tokenerParse ("null".toList ++ rest) = .null := by
  unfold tokenerParse
  rw [readValue]
  rfl

theorem tokenerParse_null_prefix {p : List Char} (h : p <+: "null".toList) :
    tokenerParse p = .null := by
  have hmem : p ∈ "null".toList.inits := (List.mem_inits _ _).mpr h
  have hall : ∀ q ∈ "null".toList.inits, tokenerParse q = .null := by
    decide +kernel
  exact hall p hmem

/-- `json_object_get_int` and its 64-bit sibling: numbers are clamped, a
string counts by the integer it starts with, anything else is no integer. -/
def getInteger (lo hi : Int) (j : Json) : Int × Int :=
  let clamp (n : Int) : Int × Int :=
    if n < lo then (lo, 34) else if hi < n then (hi, 34) else (n, 0)
  let prefixInt (t : List Char) : Int × Int :=
    match t with
    | '-' :: ds =>
        if (ds.takeWhile Char.isDigit).isEmpty then (0, 22)
        else clamp (readInt ('-' :: ds.takeWhile Char.isDigit))
    | ds =>
        if (ds.takeWhile Char.isDigit).isEmpty then (0, 22)
        else clamp (readInt (ds.takeWhile Char.isDigit))
  match j with
  | .null => (0, 0)
  | .bool b => (b.toNat, 0)
  | .int n => clamp n
  | .double t => prefixInt t.toList
  | .string s => prefixInt (skipSpace s.toList)
  | _ => (0, 22)

/-- The format, as the functions the source takes from json-c. -/
def jsonText : JsonC where
  toJsonString := print
  tokenerParse := tokenerParse
  tokenerParse_nil := by decide +kernel
  getInt := getInteger (-2 ^ 31) (2 ^ 31 - 1)
  getInt64 := getInteger (-2 ^ 63) (2 ^ 63 - 1)

theorem jsonText_readsObjects : jsonText.ReadsObjects where
  complete := fun _ hj rest => tokenerParse_print hj rest
  incomplete := fun _ hj _ hp hne => tokenerParse_prefix hj hp hne

theorem jsonText_noNestedCopy : jsonText.NoNestedCopy :=
  fun j hj a w b ha hp => not_nested j hj a w b ha hp

theorem jsonText_readsNull : jsonText.ReadsNull where
  text := rfl
  complete := tokenerParse_null
  incomplete := fun _ h => tokenerParse_null_prefix h

theorem getInteger_int {lo hi n : Int} (hlo : lo ≤ n) (hhi : n ≤ hi) :
    getInteger lo hi (.int n) = (n, 0) := by
  unfold getInteger
  simp only
  rw [if_neg (by omega), if_neg (by omega)]

theorem jsonText_getsInts : jsonText.GetsInts where
  int32 := fun _ hlo hhi => getInteger_int hlo (by omega)
  int64 := fun _ hlo hhi => getInteger_int hlo (by omega)

theorem isSpace_iff {c : Char} :
    isSpace c = true ↔ c = ' ' ∨ c = '\t' ∨ c = '\n' ∨ c = '\r' := by
  simp [isSpace, or_assoc]

/-- Where no comment starts, skipping blanks is skipping white space. -/
theorem skipBlank_eq {t : List Char} {c : Char} {r : List Char}
    (h : skipSpace t = c :: r) (hc : c ≠ '/') :
    JsonC.skipBlank .space t = c :: r := by
  induction t with
  | nil => simp [skipSpace] at h
  | cons d t ih =>
      by_cases hd : isSpace d = true
      · have hs : skipSpace (d :: t) = skipSpace t := by simp [skipSpace, hd]
        have hslash : d ≠ '/' := by
          intro heq
          subst heq
          exact absurd hd (by decide)
        rw [hs] at h
        rw [JsonC.skipBlank, if_pos (isSpace_iff.mp hd)]
        · exact ih h
        · exact fun _ h => absurd h hslash
        · exact fun _ h => absurd h hslash
      · rw [skipSpace_of_not_isSpace (by simpa using hd)] at h
        obtain ⟨rfl, rfl⟩ := List.cons.inj h
        rw [JsonC.skipBlank, if_neg (fun h => hd (isSpace_iff.mpr h))]
        · exact fun _ h => absurd h hc
        · exact fun _ h => absurd h hc

theorem jsonText_braceOpensObject : jsonText.BraceOpensObject := by
  intro t ht
  obtain ⟨r, hr⟩ := tokenerParse_eq (t := t) rfl ht
  obtain ⟨c, r', hs, hslash, hobj⟩ := isObject_readValue hr
  show (tokenerParse t).isObject = true ↔ _
  rw [JsonC.opensObject, skipBlank_eq hs hslash, hobj]
  simp

end MesonDisplay.Json
