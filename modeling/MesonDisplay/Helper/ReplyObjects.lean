/-
  MesonDisplay.Helper.ReplyObjects — the objects that replies are built of.

  A reply is an object to which members are added one after the other, often
  under a number as the key.  The number is printed into a buffer of a fixed
  size, so two numbers may have one key, and then the second member replaces
  the first.

  Main results:
    * `addAll_length_iff` — no member is replaced if and only if the keys are
      distinct.
    * `snprintfInt_five_iff` — when two numbers have the same key in a buffer
      of five bytes.
    * `numbered_eq` — up to 10^7 values have a key each.
-/
import MesonDisplay.Helper.ConnectorInfo
import MesonDisplay.Lib.Digits
import Mathlib.Data.List.Nodup
import Mathlib.Data.List.Perm.Subperm

namespace MesonDisplay.Helper

open MesonDisplay.Digits

/-! ## §1. Members. -/

theorem addAll_cons (object : Json) (m : String × Json) (members : List (String × Json)) :
    addAll object (m :: members) = addAll (object.objectAdd m.1 m.2) members := rfl

/-- Members with distinct keys are all there, in order. -/
theorem addAll_distinct (members : List (String × Json)) : ∀ fs : List (String × Json),
    ((fs ++ members).map Prod.fst).Nodup →
      addAll (.object fs) members = .object (fs ++ members) := by
  induction members with
  | nil =>
      intro fs _
      rw [List.append_nil]
      rfl
  | cons m members ih =>
      intro fs hnd
      have hfresh : m.1 ∉ fs.map Prod.fst := by
        rw [List.map_append, List.map_cons] at hnd
        intro hmem
        exact (List.nodup_append.mp hnd).2.2 _ hmem _ List.mem_cons_self rfl
      rw [addAll_cons]
      show addAll (.object (Json.insertField m.1 m.2 fs)) members = _
      rw [Json.insertField_fresh hfresh, ih _ (by simpa using hnd)]
      simp

/-- An object has each of its keys once. -/
theorem addAll_keys (members : List (String × Json)) : ∀ fs : List (String × Json),
    (fs.map Prod.fst).Nodup → ∃ fs', addAll (.object fs) members = .object fs' ∧
      (fs'.map Prod.fst).Nodup ∧
      ∀ k, k ∈ fs'.map Prod.fst ↔ k ∈ fs.map Prod.fst ∨ k ∈ members.map Prod.fst := by
  induction members with
  | nil => exact fun fs hnd => ⟨fs, rfl, hnd, fun k => by simp⟩
  | cons m members ih =>
      intro fs hnd
      rw [addAll_cons]
      show ∃ fs', addAll (.object (Json.insertField m.1 m.2 fs)) members = _ ∧ _
      by_cases hmem : m.1 ∈ fs.map Prod.fst
      · have hkeys := Json.insertField_present (v := m.2) hmem
        obtain ⟨fs', hadd, hnd', hmem'⟩ := ih _ (hkeys ▸ hnd)
        refine ⟨fs', hadd, hnd', ?_⟩
        intro k
        rw [hmem', hkeys, List.map_cons, List.mem_cons]
        constructor
        · intro h
          rcases h with h | h
          · exact .inl h
          · exact .inr (.inr h)
        · intro h
          rcases h with h | rfl | h
          · exact .inl h
          · exact .inl hmem
          · exact .inr h
      · have hkeys := Json.insertField_fresh (v := m.2) hmem
        obtain ⟨fs', hadd, hnd', hmem'⟩ := ih (Json.insertField m.1 m.2 fs) (by
          rw [hkeys, List.map_append, List.map_singleton, ← List.concat_eq_append]
          exact hnd.concat hmem)
        refine ⟨fs', hadd, hnd', ?_⟩
        intro k
        rw [hmem', hkeys]
        simp [or_assoc]

/-- The values of an object with one more member. -/
theorem insertField_values (key : String) (v : Json) (fs : List (String × Json)) :
    ∀ f ∈ Json.insertField key v fs, f.2 = v ∨ f.2 ∈ fs.map Prod.snd := by
  induction fs with
  | nil =>
      intro f hf
      obtain rfl := List.mem_singleton.mp hf
      exact .inl rfl
  | cons g fs ih =>
      obtain ⟨k, w⟩ := g
      intro f hf
      unfold Json.insertField at hf
      by_cases hk : k = key
      -- the value that was there is replaced
      · rw [if_pos hk] at hf
        rcases List.mem_cons.mp hf with rfl | hf
        · exact .inl rfl
        · exact .inr (List.mem_cons_of_mem _ (List.mem_map_of_mem hf))
      · rw [if_neg hk] at hf
        rcases List.mem_cons.mp hf with rfl | hf
        · exact .inr List.mem_cons_self
        · rcases ih f hf with hv | hmem
          · exact .inl hv
          · exact .inr (List.mem_cons_of_mem _ hmem)

/-- The values of an object are values that were added. -/
theorem addAll_values (members : List (String × Json)) : ∀ fs fs' : List (String × Json),
    addAll (.object fs) members = .object fs' →
      ∀ f ∈ fs', f.2 ∈ (fs ++ members).map Prod.snd := by
  induction members with
  | nil =>
      intro fs fs' hadd f hf
      obtain rfl := Json.object.inj hadd
      rw [List.append_nil]
      exact List.mem_map_of_mem hf
  | cons m members ih =>
      intro fs fs' hadd f hf
      rw [List.map_append, List.map_cons, List.mem_append, List.mem_cons]
      have hmem := ih (Json.insertField m.1 m.2 fs) fs' hadd f hf
      rw [List.map_append] at hmem
      rcases List.mem_append.mp hmem with hmem | hmem
      · obtain ⟨g, hg, hgf⟩ := List.mem_map.mp hmem
        rcases insertField_values m.1 m.2 fs g hg with hv | hold
        · exact .inr (.inl (hgf.symm.trans hv))
        · exact .inl (hgf ▸ hold)
      · exact .inr (.inr hmem)

/-- **No member is lost** if and only if the keys are distinct. -/
theorem addAll_length_iff {members fs : List (String × Json)}
    (hadd : addAll .newObject members = .object fs) :
    fs.length = members.length ↔ (members.map Prod.fst).Nodup := by
  obtain ⟨fs', hadd', hnd, hmem⟩ := addAll_keys members [] List.nodup_nil
  obtain rfl : fs' = fs := Json.object.inj (hadd'.symm.trans hadd)
  constructor
  · intro hlen
    -- the keys of the object are keys of members, and as many
    have hsub : List.Subperm (fs'.map Prod.fst) (members.map Prod.fst) :=
      List.subperm_of_subset hnd (fun k hk => by simpa using (hmem k).mp hk)
    exact (hsub.perm_of_length_le (by simp [hlen])).nodup_iff.mp hnd
  · intro hdistinct
    have hall := addAll_distinct members [] (by simpa using hdistinct)
    rw [List.nil_append] at hall
    rw [Json.object.inj (hadd'.symm.trans hall)]

/-! ## §2. Keys. -/

theorem toInt32_bounds (n : Int) : -2 ^ 31 ≤ toInt32 n ∧ toInt32 n < 2 ^ 31 := by
  unfold toInt32
  have hlo := Int.le_bmod (x := n) (m := 2 ^ 32) (by decide)
  have hhi := Int.bmod_lt (x := n) (m := 2 ^ 32) (by decide)
  omega

theorem toInt32_natCast {n : Nat} (h : n < 2 ^ 31) : toInt32 n = n := by
  unfold toInt32
  rw [Int.bmod_def]
  omega

theorem toList_toString_nat (n : Nat) : (toString (n : Int)).toList = Nat.toDigits 10 n :=
  Nat.toList_repr

theorem toList_toString_neg (n : Nat) :
    (toString (Int.negSucc n)).toList = '-' :: Nat.toDigits 10 (n + 1) := by
  show ("-" ++ Nat.repr (n + 1)).toList = _
  rw [String.toList_append, Nat.toList_repr]
  rfl

theorem isCString_snprintfInt (size : Nat) (n : Int) : isCString (snprintfInt size n) = true := by
  have hnul : ∀ c ∈ (toString (toInt32 n)).toList, c ≠ Char.ofNat 0 := by
    intro c hc heq
    subst heq
    have hdigit : (Char.ofNat 0).isDigit = false := by decide
    cases hn : toInt32 n with
    | ofNat m =>
        rw [hn] at hc
        change _ ∈ (toString (m : Int)).toList at hc
        rw [toList_toString_nat] at hc
        exact not_mem_toDigits hdigit m hc
    | negSucc m =>
        rw [hn, toList_toString_neg] at hc
        rcases List.mem_cons.mp hc with h | h
        · exact absurd h (by decide)
        · exact not_mem_toDigits hdigit (m + 1) h
  unfold isCString snprintfInt
  rw [String.toList_ofList, List.all_eq_true]
  intro c hc
  simpa using hnul c (List.mem_of_mem_take hc)

/-- Two numbers, as an `int`, have the same sign and the same first digits:
four of them, or three behind the sign. -/
def SameKey (a b : Int) : Prop :=
  (0 ≤ toInt32 a ∧ 0 ≤ toInt32 b ∧
      leading 4 (toInt32 a).natAbs = leading 4 (toInt32 b).natAbs) ∨
    (toInt32 a < 0 ∧ toInt32 b < 0 ∧
      leading 3 (toInt32 a).natAbs = leading 3 (toInt32 b).natAbs)

instance (a b : Int) : Decidable (SameKey a b) := inferInstanceAs (Decidable (_ ∨ _))

/-- **Five bytes** hold four characters. -/
theorem snprintfInt_five_iff (a b : Int) :
    snprintfInt 5 a = snprintfInt 5 b ↔ SameKey a b := by
  have hsign : ∀ n, '-' ∉ Nat.toDigits 10 n := fun n => not_mem_toDigits (by decide) n
  have hne : ∀ m n, (Nat.toDigits 10 m).take 4 ≠ '-' :: (Nat.toDigits 10 n).take 3 := by
    intro m n h
    exact hsign m (List.mem_of_mem_take (h ▸ List.mem_cons_self))
  unfold snprintfInt SameKey
  rw [String.ofList_inj]
  show List.take 4 _ = List.take 4 _ ↔ _
  cases ha : toInt32 a with
  | ofNat m =>
      cases hb : toInt32 b with
      | ofNat n =>
          change (toString (m : Int)).toList.take 4 = (toString (n : Int)).toList.take 4 ↔ _
          rw [toList_toString_nat, toList_toString_nat, take_toDigits_inj (by omega)]
          simp
      | negSucc n =>
          change (toString (m : Int)).toList.take 4 = _ ↔ _
          rw [toList_toString_nat, toList_toString_neg, List.take_succ_cons]
          exact iff_of_false (hne m (n + 1)) (by simp)
  | negSucc m =>
      cases hb : toInt32 b with
      | ofNat n =>
          change _ = (toString (n : Int)).toList.take 4 ↔ _
          rw [toList_toString_nat, toList_toString_neg, List.take_succ_cons]
          exact iff_of_false (fun h => hne n (m + 1) h.symm) (by simp)
      | negSucc n =>
          rw [toList_toString_neg, toList_toString_neg, List.take_succ_cons,
            List.take_succ_cons, List.cons_inj_right, take_toDigits_inj (by omega)]
          simp

/-! ## §3. Numbered values. -/

/-- The values with their keys. -/
def numberedMembers (i : Nat) : List Json → List (String × Json)
  | [] => []
  | x :: xs => (snprintfInt 8 i, x) :: numberedMembers (i + 1) xs

theorem numberedFrom_eq (xs : List Json) : ∀ i object,
    numberedFrom i xs object = addAll object (numberedMembers i xs) := by
  induction xs with
  | nil => exact fun i object => rfl
  | cons x xs ih =>
      intro i object
      rw [numberedFrom, ih, numberedMembers, addAll_cons]

theorem snprintfInt_eight_inj {i j : Nat} (hi : i < 10 ^ 7) (hj : j < 10 ^ 7)
    (h : snprintfInt 8 i = snprintfInt 8 j) : i = j := by
  have htext : ∀ n : Nat, n < 10 ^ 7 →
      snprintfInt 8 n = String.ofList (Nat.toDigits 10 n) := by
    intro n hn
    unfold snprintfInt
    rw [toInt32_natCast (by omega), toList_toString_nat, List.take_of_length_le]
    exact (Nat.length_toDigits_le_iff (by omega) (by omega)).mpr hn
  rw [htext i hi, htext j hj, String.ofList_inj, toDigits_inj] at h
  exact h

theorem mem_numberedMembers {xs : List Json} : ∀ {i : Nat} {m : String × Json},
    m ∈ numberedMembers i xs →
      m.2 ∈ xs ∧ ∃ j, i ≤ j ∧ j < i + xs.length ∧ m.1 = snprintfInt 8 j := by
  induction xs with
  | nil => exact fun h => absurd h List.not_mem_nil
  | cons x xs ih =>
      intro i m hm
      rw [List.length_cons]
      rcases List.mem_cons.mp hm with rfl | hm
      · exact ⟨List.mem_cons_self, i, Nat.le_refl i, by omega, rfl⟩
      · obtain ⟨hx, j, hlo, hhi, hkey⟩ := ih hm
        exact ⟨List.mem_cons_of_mem _ hx, j, by omega, by omega, hkey⟩

theorem numberedMembers_nodup {xs : List Json} : ∀ {i : Nat}, i + xs.length ≤ 10 ^ 7 →
    ((numberedMembers i xs).map Prod.fst).Nodup := by
  induction xs with
  | nil => exact fun _ => List.nodup_nil
  | cons x xs ih =>
      intro i hlen
      rw [List.length_cons] at hlen
      rw [numberedMembers, List.map_cons, List.nodup_cons]
      refine ⟨?_, ih (by omega)⟩
      intro hmem
      obtain ⟨m, hm, hkey⟩ := List.mem_map.mp hmem
      obtain ⟨-, j, hlo, hhi, hj⟩ := mem_numberedMembers hm
      have hij := snprintfInt_eight_inj (by omega) (by omega) (hj.symm.trans hkey)
      omega

/-- **Up to 10^7 values** have a key each. -/
theorem numbered_eq {xs : List Json} (hlen : xs.length ≤ 10 ^ 7) :
    numbered xs = .object (numberedMembers 0 xs) := by
  unfold numbered
  rw [numberedFrom_eq]
  have hall := addAll_distinct (numberedMembers 0 xs) []
    (by simpa using numberedMembers_nodup (i := 0) (by omega))
  exact hall

/-! ## §4. Values that json-c can hold. -/

theorem wf_addAll {members : List (String × Json)}
    (hm : ∀ m ∈ members, isCString m.1 = true ∧ m.2.wf = true) : ∀ {object : Json},
    object.wf = true → (addAll object members).wf = true := by
  induction members with
  | nil => exact fun h => h
  | cons m members ih =>
      intro object hobject
      rw [List.forall_mem_cons] at hm
      rw [addAll_cons]
      exact ih hm.2 (Json.wf_objectAdd hm.1.1 hm.1.2 hobject)

theorem isObject_addAll (members : List (String × Json)) : ∀ {object : Json},
    object.isObject = true → (addAll object members).isObject = true := by
  induction members with
  | nil => exact fun h => h
  | cons m members ih =>
      intro object hobject
      obtain ⟨fs, rfl⟩ := Json.isObject_iff.mp hobject
      exact ih rfl

theorem wf_newInt (n : Int) : (newInt n).wf = true := by
  have hb := toInt32_bounds n
  simp only [newInt, Json.wf]
  simp
  omega

theorem wf_numbered {xs : List Json} (hxs : ∀ x ∈ xs, x.wf = true) :
    (numbered xs).wf = true := by
  unfold numbered
  rw [numberedFrom_eq]
  refine wf_addAll ?_ rfl
  intro m hm
  obtain ⟨hx, j, -, -, hkey⟩ := mem_numberedMembers hm
  exact ⟨hkey ▸ isCString_snprintfInt 8 j, hxs _ hx⟩

end MesonDisplay.Helper
