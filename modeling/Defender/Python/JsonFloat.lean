import Defender.Library.Binary64
import Defender.Python.JsonInteger

/-!
# Floats in JSON

A number spelled with a fraction or an exponent is read as the nearest double. A decoded
value can then equal an integer that it is not: a boolean, or a float that is whole.
-/

namespace Defender.Python.Json

open Defender.Library.Binary64 (nearest)

def exponentValue (exponent : Str) : Int :=
  match exponent.drop 1 with
  | '-' :: digits => -(Nat.ofDigitChars 10 digits 0 : Int)
  | '+' :: digits => Nat.ofDigitChars 10 digits 0
  | digits => Nat.ofDigitChars 10 digits 0

/-- The exact value of a number spelled as a float. -/
def decimalValue (literal : Str) : Option ℚ :=
  let sign := numberSign literal
  let body := literal.drop sign.length
  let whole := body.takeWhile isDigit
  let fraction := fractionOf (body.drop whole.length)
  let exponent := exponentOf fraction.2
  if whole = [] ∨ exponent.2 ≠ [] ∨ fraction.1 = [] ∧ exponent.1 = [] then none
  else
    let digits := Nat.ofDigitChars 10 (whole ++ fraction.1.drop 1) 0
    let power := exponentValue exponent.1 - (fraction.1.drop 1).length
    some ((if sign = [] then 1 else -1) * digits * 10 ^ power)

/-- What a number is read as when it is a finite float. -/
def floatOf (literal : Str) : Option ℚ :=
  ((decimalValue literal).map nearest).filter fun value => |value| < 2 ^ 1024

/-- The integer that a decoded value compares equal to. -/
def equalInteger : Json → Option Int
  | .bool value => some (if value then 1 else 0)
  | .number literal =>
    (integerOf literal).or ((floatOf literal).bind fun value =>
      if value.den = 1 then some value.num else none)
  | _ => none

section Naturals

variable {number : Nat}

theorem equal_of_nat (short : (decimalText number).length ≤ digitsLimit) :
    equalInteger (ofNat number) = some (number : Int) := by
  have read := as_int_of_nat short
  unfold equalInteger ofNat
  unfold asInt ofNat at read
  dsimp only at read ⊢
  rw [read]
  rfl

theorem digits_no_float {digits : Str} (all : digits.all isDigit = true) :
    floatOf digits = none := by
  have unsigned : numberSign digits = [] := by
    rw [numberSign, if_neg]
    intro head
    cases digits with
    | nil => cases head
    | cons first rest =>
        rw [List.head?_cons, Option.some.injEq] at head
        exact absurd (digit_head all rfl) (by rw [head]; decide)
  have whole : digits.takeWhile isDigit = digits := by
    rw [List.takeWhile_eq_self_iff]
    exact fun char inside => List.all_eq_true.mp all char inside
  unfold floatOf decimalValue
  dsimp only
  rw [unsigned, List.length_nil, List.drop_zero, whole, List.drop_length,
    if_pos (Or.inr (Or.inr ⟨rfl, rfl⟩))]
  rfl

theorem equal_of_nat_eq {read : Int} (found : equalInteger (ofNat number) = some read) :
    read = number := by
  unfold equalInteger ofNat at found
  dsimp only at found
  rw [digits_no_float (decimal_digits number), Option.bind_none, Option.or_none] at found
  exact as_int_of_nat_eq found

theorem float_short {literal : Str} {value : ℚ} (read : floatOf literal = some value)
    (is : value = number) : (decimalText number).length ≤ digitsLimit := by
  have bounded : |value| < 2 ^ 1024 := by
    unfold floatOf at read
    exact of_decide_eq_true (Option.filter_eq_some_iff.mp read).2
  have below : number ≤ 2 ^ 1024 := by
    rw [is, Nat.abs_cast] at bounded
    exact_mod_cast bounded.le
  exact (decimal_length_mono below).trans (by decide +kernel)

/-- A number equal to a value that was read is short enough to be written. -/
theorem equal_short {value : Json} (equal : equalInteger value = some (number : Int)) :
    (decimalText number).length ≤ digitsLimit := by
  cases value with
  | bool truth =>
      have small : number ≤ 1 := by
        have same := Option.some.inj equal
        split at same <;> omega
      exact (decimal_length_mono small).trans (by decide)
  | number literal =>
      unfold equalInteger at equal
      dsimp only at equal
      cases read : integerOf literal with
      | some found =>
          rw [read, Option.some_or] at equal
          have same : asInt (.number literal) = some (number : Int) := read.trans equal
          exact as_int_short same
      | none =>
          rw [read, Option.none_or] at equal
          obtain ⟨float, found, whole⟩ := Option.bind_eq_some_iff.mp equal
          split at whole
          · rename_i den
            apply float_short found
            rw [← Rat.num_div_den float, den, Option.some.inj whole]
            simp
          · cases whole
  | _ => cases equal

end Naturals

end Defender.Python.Json
