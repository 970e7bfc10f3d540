/-
  MesonDisplay.Json.Value — the json-c values that travel over the IPC socket.

  A `json_object*` of the source is a `Json`, with `Json.null` for the NULL
  pointer: json-c represents the JSON value `null` by NULL, so a present key
  with a null value and a NULL result are one value here as they are there.
  A C string is the list of its characters; a `char` is a `Char`.

  The accessors below are those of json-c that the source calls.  The two
  functions that turn a value into text and back, and the two that coerce a
  value to an integer, are json-c's own business: they are the parameter
  `JsonC`, with the behaviour the code relies on as named laws.
-/
import Mathlib.Algebra.Group.Int.Defs
import Mathlib.Algebra.Group.Nat.Defs
import Mathlib.Data.List.Basic
import Mathlib.Data.List.TakeWhile

namespace MesonDisplay

/-! ## §1. Values. -/

/-- A json-c value. -/
inductive Json where
  | null
  | bool (b : Bool)
  | int (n : Int)
  /-- A floating-point number, by the text json-c prints for it. -/
  | double (text : String)
  | string (s : String)
  | array (xs : List Json)
  /-- The members of an object, in insertion order. -/
  | object (fields : List (String × Json))
  deriving Repr, Inhabited

namespace Json

/-- The NULL test of the source. -/
def isNull : Json → Bool
  | .null => true
  | _ => false

def isObject : Json → Bool
  | .object _ => true
  | _ => false

@[simp] theorem isNull_eq_true {j : Json} : j.isNull = true ↔ j = .null := by
  cases j <;> simp [isNull]

@[simp] theorem isNull_eq_false {j : Json} : j.isNull = false ↔ j ≠ .null := by
  cases j <;> simp [isNull]

theorem isObject_iff {j : Json} : j.isObject = true ↔ ∃ fs, j = .object fs := by
  cases j <;> simp [isObject]

theorem ne_null_of_isObject {j : Json} (h : j.isObject = true) : j ≠ .null := by
  obtain ⟨fs, rfl⟩ := isObject_iff.mp h
  simp

mutual
/-- Equality of values, decided. -/
def beq : Json → Json → Bool
  | .null, .null => true
  | .bool a, .bool b => a == b
  | .int a, .int b => a == b
  | .double a, .double b => a == b
  | .string a, .string b => a == b
  | .array xs, .array ys => beqElems xs ys
  | .object fs, .object gs => beqFields fs gs
  | _, _ => false

def beqElems : List Json → List Json → Bool
  | [], [] => true
  | x :: xs, y :: ys => beq x y && beqElems xs ys
  | _, _ => false

def beqFields : List (String × Json) → List (String × Json) → Bool
  | [], [] => true
  | (k, v) :: fs, (l, w) :: gs => k == l && beq v w && beqFields fs gs
  | _, _ => false
end

mutual
theorem beq_iff : ∀ a b : Json, beq a b = true ↔ a = b
  | .null, b => by cases b <;> simp [beq]
  | .bool _, b => by cases b <;> simp [beq]
  | .int _, b => by cases b <;> simp [beq]
  | .double _, b => by cases b <;> simp [beq]
  | .string _, b => by cases b <;> simp [beq]
  | .array xs, b => by
      cases b <;> simp [beq, beqElems_iff xs]
  | .object fs, b => by
      cases b <;> simp [beq, beqFields_iff fs]

theorem beqElems_iff : ∀ xs ys : List Json, beqElems xs ys = true ↔ xs = ys
  | [], ys => by cases ys <;> simp [beqElems]
  | x :: xs, ys => by
      cases ys <;> simp [beqElems, beq_iff x, beqElems_iff xs]

theorem beqFields_iff :
    ∀ fs gs : List (String × Json), beqFields fs gs = true ↔ fs = gs
  | [], gs => by cases gs <;> simp [beqFields]
  | (k, v) :: fs, gs => by
      cases gs <;> simp [beqFields, beq_iff v, beqFields_iff fs, Prod.ext_iff]
end

instance : DecidableEq Json := fun a b => decidable_of_iff _ (beq_iff a b)

/-! ## §2. Accessors. -/

/-- The value of a key, if the key is present. -/
def lookup (key : String) : List (String × Json) → Option Json
  | [] => none
  | (k, v) :: fs => if k = key then some v else lookup key fs

/-- `json_object_object_get_ex`: a present key is found, also with a null
value; nothing is found in a value that is no object. -/
def objectGetEx (j : Json) (key : String) : Option Json :=
  match j with
  | .object fs => lookup key fs
  | _ => none

/-- `json_object_object_get`: NULL for a missing key. -/
def objectGet (j : Json) (key : String) : Json :=
  (j.objectGetEx key).getD .null

/-- Add a member, or replace the value of a key that is there. -/
def insertField (key : String) (v : Json) :
    List (String × Json) → List (String × Json)
  | [] => [(key, v)]
  | (k, w) :: fs =>
      if k = key then (k, v) :: fs else (k, w) :: insertField key v fs

/-- `json_object_object_add` on an object. -/
def objectAdd (j : Json) (key : String) (v : Json) : Json :=
  match j with
  | .object fs => .object (insertField key v fs)
  | j => j

/-- `json_object_new_object`. -/
def newObject : Json := .object []

/-- `json_object_object_length`: `none` where json-c fails its assertion that
the value is an object. -/
def objectLength : Json → Option Nat
  | .object fs => some fs.length
  | _ => none

/-- A new key goes behind the others. -/
theorem insertField_fresh {key : String} {v : Json} {fs : List (String × Json)}
    (hfresh : key ∉ fs.map Prod.fst) : insertField key v fs = fs ++ [(key, v)] := by
  induction fs with
  | nil => rfl
  | cons f fs ih =>
      obtain ⟨k, w⟩ := f
      rw [List.map_cons, List.mem_cons, not_or] at hfresh
      unfold insertField
      rw [if_neg (fun h => hfresh.1 h.symm), ih hfresh.2, List.cons_append]

/-- A key that is there keeps its place. -/
theorem insertField_present {key : String} {v : Json} {fs : List (String × Json)}
    (hmem : key ∈ fs.map Prod.fst) :
    (insertField key v fs).map Prod.fst = fs.map Prod.fst := by
  induction fs with
  | nil => exact absurd hmem List.not_mem_nil
  | cons f fs ih =>
      obtain ⟨k, w⟩ := f
      rw [List.map_cons, List.mem_cons] at hmem
      unfold insertField
      by_cases hk : k = key
      · rw [if_pos hk]
        rfl
      · rw [if_neg hk, List.map_cons, List.map_cons]
        rw [ih (hmem.resolve_left (fun h => hk h.symm))]

theorem objectLength_eq_none {j : Json} :
    j.objectLength = none ↔ j.isObject = false := by
  cases j <;> simp [objectLength, isObject]

end Json

/-! ## §3. Well-formed values. -/

/-- The characters of a JSON number. -/
def isNumberChar (c : Char) : Bool :=
  c.isDigit || c == '-' || c == '+' || c == '.' || c == 'e' || c == 'E'

/-- A number text that json-c reads as a double. -/
def isDoubleText (t : List Char) : Bool :=
  (match t with
   | c :: _ => c.isDigit || c == '-'
   | [] => false)
    && t.all isNumberChar
    && t.any (fun c => c == '.' || c == 'e' || c == 'E')

/-- A C string holds no NUL. -/
def isCString (s : String) : Bool := s.toList.all (· != Char.ofNat 0)

mutual
/-- The values json-c can hold: an integer fits 64 bits, and the keys of an
object are distinct C strings. -/
def Json.wf : Json → Bool
  | .int n => decide (-(2 : Int) ^ 63 ≤ n ∧ n < 2 ^ 64)
  | .double t => isDoubleText t.toList
  | .array xs => Json.wfElems xs
  | .object fs => Json.wfFields fs
  | _ => true

def Json.wfElems : List Json → Bool
  | [] => true
  | x :: xs => x.wf && Json.wfElems xs

def Json.wfFields : List (String × Json) → Bool
  | [] => true
  | (k, v) :: fs =>
      isCString k && !(fs.any (fun f => f.1 == k)) && v.wf && Json.wfFields fs
end

theorem Json.any_insertField (key k : String) (v : Json) (fs : List (String × Json)) :
    (Json.insertField key v fs).any (fun f => f.1 == k)
      = (fs.any (fun f => f.1 == k) || key == k) := by
  induction fs with
  | nil => simp [Json.insertField]
  | cons f fs ih =>
      obtain ⟨l, w⟩ := f
      unfold Json.insertField
      by_cases hl : l = key
      · rw [if_pos hl, List.any_cons, List.any_cons, hl]
        cases (key == k) <;> simp
      · rw [if_neg hl, List.any_cons, List.any_cons, ih, Bool.or_assoc]

theorem Json.wfFields_insertField {key : String} {v : Json} (hkey : isCString key = true)
    (hv : v.wf = true) {fs : List (String × Json)} (hfs : Json.wfFields fs = true) :
    Json.wfFields (Json.insertField key v fs) = true := by
  induction fs with
  | nil => simp [Json.insertField, Json.wfFields, hkey, hv]
  | cons f fs ih =>
      obtain ⟨l, w⟩ := f
      simp only [Json.wfFields, Bool.and_eq_true] at hfs
      obtain ⟨⟨⟨hl, hfresh⟩, hw⟩, hrest⟩ := hfs
      unfold Json.insertField
      by_cases hlk : l = key
      · rw [if_pos hlk]
        simp only [Json.wfFields, hl, hfresh, hv, hrest, Bool.and_self]
      · rw [if_neg hlk]
        have hnot : (Json.insertField key v fs).any (fun f => f.1 == l) = false := by
          have hne : (key == l) = false := by
            rw [beq_eq_false_iff_ne]
            exact fun h => hlk h.symm
          rw [Json.any_insertField, hne, Bool.or_false]
          simpa using hfresh
        simp only [Json.wfFields, hl, hnot, hw, ih hrest, Bool.not_false, Bool.and_self]

/-- What json-c builds by adding members is a value it can hold. -/
theorem Json.wf_objectAdd {key : String} {v j : Json} (hkey : isCString key = true)
    (hv : v.wf = true) (hj : j.wf = true) : (j.objectAdd key v).wf = true := by
  cases j with
  | object fs =>
      simp only [Json.wf] at hj
      simp only [Json.objectAdd, Json.wf, Json.wfFields_insertField hkey hv hj]
  | _ => exact hj

/-- The objects a program can build with json-c and send as a request. -/
def Json.IsRequest (j : Json) : Prop := j.wf = true ∧ j.isObject = true

instance (j : Json) : Decidable j.IsRequest :=
  inferInstanceAs (Decidable (_ ∧ _))

/-! ## §4. The text functions of json-c. -/

/-- What the source takes from json-c beyond the accessors. -/
structure JsonC where
  /-- `json_object_to_json_string`. -/
  toJsonString : Json → List Char
  /-- `json_tokener_parse`, of the bytes in the buffer it is given; NULL is
  `Json.null`. -/
  tokenerParse : List Char → Json
  /-- The empty text is incomplete. -/
  tokenerParse_nil : tokenerParse [] = .null
  /-- `json_object_get_int`, with the `errno` it leaves when that was 0. -/
  getInt : Json → Int × Int
  /-- `json_object_get_int64`, with the `errno` it leaves when that was 0. -/
  getInt64 : Json → Int × Int

namespace JsonC

/-- `json_tokener_parse`, with NULL as `none`. -/
def parse (jc : JsonC) (t : List Char) : Option Json :=
  match jc.tokenerParse t with
  | .null => none
  | j => some j

theorem parse_eq_none {jc : JsonC} {t : List Char} :
    jc.parse t = none ↔ jc.tokenerParse t = .null := by
  unfold parse
  cases jc.tokenerParse t <;> simp

theorem parse_eq_some {jc : JsonC} {t : List Char} {j : Json} :
    jc.parse t = some j ↔ jc.tokenerParse t = j ∧ j ≠ .null := by
  unfold parse
  cases h : jc.tokenerParse t <;> simp
  all_goals
    intro heq
    subst heq
    simp

@[simp] theorem parse_nil (jc : JsonC) : jc.parse [] = none :=
  parse_eq_none.mpr jc.tokenerParse_nil

/-- The texts of objects: `json_tokener_parse` returns the first complete
value at the start of the string and ignores the bytes after it, and it
returns NULL for a text that is not complete. -/
structure ReadsObjects (jc : JsonC) : Prop where
  complete : ∀ j, j.IsRequest → ∀ rest,
    jc.tokenerParse (jc.toJsonString j ++ rest) = j
  incomplete : ∀ j, j.IsRequest → ∀ p, p <+: jc.toJsonString j →
    p ≠ jc.toJsonString j → jc.tokenerParse p = .null

/-- An object is not nested in its own text: what starts after the first byte
of the text of an object, and ends within it, is not read as that object. -/
def NoNestedCopy (jc : JsonC) : Prop :=
  ∀ j, j.IsRequest → ∀ a w b, a ≠ [] → jc.toJsonString j = a ++ w ++ b →
    jc.tokenerParse w ≠ j

/-- The text of NULL is `null`, and a text that starts with `null` or with an
incomplete `null` is read as NULL. -/
structure ReadsNull (jc : JsonC) : Prop where
  text : jc.toJsonString .null = "null".toList
  complete : ∀ rest, jc.tokenerParse ("null".toList ++ rest) = .null
  incomplete : ∀ p, p <+: "null".toList → jc.tokenerParse p = .null

/-- Where json-c is while it skips what may stand before a value. -/
inductive Blank where
  | space
  | lineComment
  | blockComment

/-- What follows the white space and the comments at the start of a text. -/
def skipBlank : Blank → List Char → List Char
  | _, [] => []
  | .lineComment, c :: cs =>
      skipBlank (if c = '\n' then .space else .lineComment) cs
  | .blockComment, '*' :: '/' :: cs => skipBlank .space cs
  | .blockComment, _ :: cs => skipBlank .blockComment cs
  | .space, '/' :: '*' :: cs => skipBlank .blockComment cs
  | .space, '/' :: '/' :: cs => skipBlank .lineComment cs
  | .space, c :: cs =>
      if c = ' ' ∨ c = '\t' ∨ c = '\n' ∨ c = '\r' then skipBlank .space cs
      else c :: cs

/-- The first byte of the text that matters is the brace that opens an
object. -/
def opensObject (t : List Char) : Bool := (skipBlank .space t).head? == some '{'

/-- A text that is a value is an object if and only if it opens with the brace
of an object; any other JSON value is accepted at top level as well. -/
def BraceOpensObject (jc : JsonC) : Prop :=
  ∀ t, jc.tokenerParse t ≠ .null →
    ((jc.tokenerParse t).isObject = true ↔ opensObject t = true)

/-- An integer that fits is got as it is, and `errno` stays 0. -/
structure GetsInts (jc : JsonC) : Prop where
  int32 : ∀ n, -2 ^ 31 ≤ n → n < 2 ^ 31 → jc.getInt (.int n) = (n, 0)
  int64 : ∀ n, -2 ^ 63 ≤ n → n < 2 ^ 63 → jc.getInt64 (.int n) = (n, 0)

/-- `json_object_get_string`: the C string of a string, NULL for NULL, the
JSON text of anything else. -/
def getString (jc : JsonC) : Json → Option String
  | .null => none
  | .string s => some (String.ofList (s.toList.takeWhile (· != Char.ofNat 0)))
  | j => some (String.ofList (jc.toJsonString j))

/-- What the server reads when a client sends a value. -/
def received (jc : JsonC) (data : Json) : Json := jc.tokenerParse (jc.toJsonString data)

theorem ReadsObjects.received_eq {jc : JsonC} (hr : jc.ReadsObjects) {data : Json}
    (hdata : data.IsRequest) : jc.received data = data := by
  have h := hr.complete data hdata []
  rwa [List.append_nil] at h

theorem getString_eq_none {jc : JsonC} {j : Json} :
    jc.getString j = none ↔ j = .null := by
  cases j <;> simp [getString]

theorem getString_string {jc : JsonC} {s : String} (hs : isCString s = true) :
    jc.getString (.string s) = some s := by
  have hall : ∀ c ∈ s.toList, (c != Char.ofNat 0) = true := List.all_eq_true.mp hs
  show some (String.ofList (s.toList.takeWhile (· != Char.ofNat 0))) = some s
  rw [List.takeWhile_eq_self_iff.mpr hall, String.ofList_toList]

end JsonC

end MesonDisplay
