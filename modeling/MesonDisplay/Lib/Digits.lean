/-
  MesonDisplay.Lib.Digits — decimal digits, and what is left of them.

  A number that is printed into a buffer that is too small keeps its first
  digits.  They are the digits of a smaller number.

  Main results:
    * `toDigits_inj` — different numbers have different digits.
    * `take_toDigits` — the first digits of a number are the digits of
      `leading`.
-/
import Mathlib.Algebra.Group.Nat.Defs
import Mathlib.Data.Nat.Log
import Mathlib.Tactic.Common

namespace MesonDisplay.Digits

theorem toDigits_inj {m n : Nat} : Nat.toDigits 10 m = Nat.toDigits 10 n ↔ m = n := by
  refine ⟨fun h => ?_, fun h => congrArg _ h⟩
  have hread := congrArg (fun ds => Nat.ofDigitChars 10 ds 0) h
  simpa only [Nat.ofDigitChars_ten_toDigits] using hread

theorem not_mem_toDigits {c : Char} (hc : c.isDigit = false) (n : Nat) :
    c ∉ Nat.toDigits 10 n := by
  intro hmem
  rw [Nat.isDigit_of_mem_toDigits (by omega) (by omega) hmem] at hc
  exact absurd hc (by simp)

/-- The number without its last digits, of which the first `k` are left. -/
def leading (k n : Nat) : Nat := n / 10 ^ (Nat.log 10 n + 1 - k)

theorem leading_of_lt {k n : Nat} (hk : 0 < k) (h : n < 10 ^ k) : leading k n = n := by
  have hlog : Nat.log 10 n < k := Nat.log_lt_of_lt_pow' (by omega) h
  unfold leading
  rw [show Nat.log 10 n + 1 - k = 0 by omega, Nat.pow_zero, Nat.div_one]

theorem leading_div {k n : Nat} (hk : 0 < k) (h : 10 ^ k ≤ n) :
    leading k n = leading k (n / 10) := by
  have hn : n ≠ 0 := by
    have hpos : 0 < 10 ^ k := Nat.pow_pos (by omega)
    omega
  have hlog : k ≤ Nat.log 10 n := (Nat.le_log_iff_pow_le (by omega) hn).mpr h
  unfold leading
  rw [Nat.log_div_base, Nat.div_div_eq_div_mul, ← Nat.pow_succ']
  congr 2
  omega

/-- **The first digits.** -/
theorem take_toDigits {k : Nat} (hk : 0 < k) (n : Nat) :
    (Nat.toDigits 10 n).take k = Nat.toDigits 10 (leading k n) := by
  induction n using Nat.strong_induction_on with
  | _ n ih =>
      by_cases h : n < 10 ^ k
      · rw [leading_of_lt hk h, List.take_of_length_le]
        exact (Nat.length_toDigits_le_iff (by omega) hk).mpr h
      -- the last digit is not among the first ones
      · have hle : 10 ^ k ≤ n := Nat.not_lt.mp h
        have hten : 10 ≤ n := by
          have hpow : 10 ^ 1 ≤ 10 ^ k := Nat.pow_le_pow_right (by omega) hk
          omega
        rw [leading_div hk hle, ← ih (n / 10) (by omega),
          Nat.toDigits_of_base_le (by omega) hten, List.take_append_of_le_length]
        by_contra hshort
        have hlen : (Nat.toDigits 10 (n / 10)).length ≤ k - 1 := by omega
        by_cases hk1 : k = 1
        · have hpos := Nat.length_toDigits_pos (b := 10) (n := n / 10)
          omega
        · have hlt := (Nat.length_toDigits_le_iff (by omega) (by omega)).mp hlen
          have hpow : 10 ^ k = 10 * 10 ^ (k - 1) := by
            rw [← Nat.pow_succ']
            congr 1
            omega
          omega

theorem take_toDigits_inj {k : Nat} (hk : 0 < k) {m n : Nat} :
    (Nat.toDigits 10 m).take k = (Nat.toDigits 10 n).take k ↔ leading k m = leading k n := by
  rw [take_toDigits hk, take_toDigits hk, toDigits_inj]

end MesonDisplay.Digits
