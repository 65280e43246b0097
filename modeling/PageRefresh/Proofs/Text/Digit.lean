import Mathlib.Data.List.Basic
import PageRefresh.Text.Digit

/-!
The decimal digits that a number is printed with.

They are read back as that number, and none of them but that of zero itself begins with a zero.
-/

namespace PageRefresh.Text

theorem digitValue?_of_isDigit {c : Char} (hc : c.isDigit = true) :
    digitValue? c = some (c.toNat - '0'.toNat) := by
  simp only [Char.isDigit, Bool.and_eq_true, decide_eq_true_eq] at hc
  exact if_pos hc

theorem numeral_eq_ofDigitChars {digits : List Char} (hdigits : ∀ c ∈ digits, c.isDigit = true) :
    numeral 10 digits = Nat.ofDigitChars 10 digits 0 := by
  rw [Nat.ofDigitChars_eq_foldl, numeral]
  apply List.foldl_ext
  intro n c hc
  rw [digitValue?_of_isDigit (hdigits c hc), Nat.mul_comm]
  rfl

section Digits

variable {n : Nat}

theorem toList_repr (n : Nat) : (Nat.repr n).toList = Nat.toDigits 10 n :=
  String.toList_ofList

theorem isDigit_of_mem_digits {c : Char} (hc : c ∈ Nat.toDigits 10 n) : c.isDigit = true :=
  Nat.isDigit_of_mem_toDigits (by decide) (by decide) hc

theorem exists_cons_toDigits (n : Nat) :
    ∃ d more, Nat.toDigits 10 n = d :: more ∧ d.isDigit = true := by
  obtain ⟨d, more, hlist⟩ := List.exists_cons_of_ne_nil (Nat.toDigits_ne_nil (n := n) (b := 10))
  exact ⟨d, more, hlist, isDigit_of_mem_digits (hlist ▸ List.mem_cons_self)⟩

/-- What is printed is read back. -/
theorem numeral_digits (n : Nat) : numeral 10 (Nat.toDigits 10 n) = n := by
  rw [numeral_eq_ofDigitChars fun c hc => isDigit_of_mem_digits hc, Nat.ofDigitChars_ten_toDigits]

/-- Only zero begins with a zero. -/
theorem digits_zero {rest : List Char} (hdigits : Nat.toDigits 10 n = '0' :: rest) : rest = [] := by
  induction n using Nat.strongRecOn generalizing rest with
  | ind n ih =>
      by_cases hn : n < 10
      · rw [Nat.toDigits_of_lt_base hn] at hdigits
        exact (List.cons.inj hdigits).2.symm
      · have hsplit := Nat.toDigits_of_base_le (b := 10) (by decide) (Nat.le_of_not_lt hn)
        obtain ⟨c, more, hmore⟩ := List.exists_cons_of_ne_nil
          (Nat.toDigits_ne_nil (n := n / 10) (b := 10))
        rw [hsplit, hmore] at hdigits
        obtain ⟨rfl, -⟩ := List.cons.inj hdigits
        obtain rfl := ih (n / 10) (by omega) hmore
        have hzero := numeral_digits (n / 10)
        rw [hmore] at hzero
        have hdivided : 0 = n / 10 := hzero
        omega

end Digits

end PageRefresh.Text
