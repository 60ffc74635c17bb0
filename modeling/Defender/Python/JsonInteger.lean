import Defender.Python.Json
import Mathlib.Tactic.Ring

/-!
# Integers in JSON

An integer of more than 4300 digits is neither written nor read by the interpreter.
-/

namespace Defender.Python.Json

def digitsLimit : Nat := 4300

def naturalOf (digits : Str) : Option Nat :=
  if digits ≠ [] ∧ digits.all isDigit = true ∧ digits.length ≤ digitsLimit then
    some (Nat.ofDigitChars 10 digits 0)
  else none

def integerOf : Str → Option Int
  | '-' :: digits => (naturalOf digits).map fun number : Nat => -(number : Int)
  | literal => (naturalOf literal).map Int.ofNat

/-- `as_int`: an integer that is no boolean. -/
def asInt : Json → Option Int
  | .number literal => integerOf literal
  | _ => none

def ofNat (number : Nat) : Json := .number (decimalText number)

/-- `as_str`: a string, and the empty one for anything else. -/
def asStr : Option Json → Str
  | some (.string text) => text
  | _ => []

section Naturals

theorem decimal_digits (number : Nat) : (decimalText number).all isDigit = true := by
  rw [List.all_eq_true]
  intro char inside
  have digit := Nat.isDigit_of_mem_toDigits (by decide) (by decide) inside
  simp only [Char.isDigit, Bool.and_eq_true, decide_eq_true_eq] at digit
  simp only [isDigit, Bool.and_eq_true, decide_eq_true_eq]
  exact digit

theorem decimal_filled (number : Nat) : decimalText number ≠ [] := Nat.toDigits_ne_nil

theorem natural_of_decimal {number : Nat} (short : (decimalText number).length ≤ digitsLimit) :
    naturalOf (decimalText number) = some number := by
  rw [naturalOf, if_pos ⟨decimal_filled number, decimal_digits number, short⟩, decimalText,
    Nat.ofDigitChars_toDigits (by decide) (by decide)]

theorem digit_head {first : Char} {digits rest : Str} (digitsAll : digits.all isDigit = true)
    (head : digits = first :: rest) : isDigit first = true := by
  subst head
  rw [List.all_cons, Bool.and_eq_true] at digitsAll
  exact digitsAll.1

theorem integer_of_natural {digits : Str} {number : Nat} (read : naturalOf digits = some number) :
    integerOf digits = some (number : Int) := by
  unfold integerOf
  split
  · rename_i rest
    have unread : naturalOf ('-' :: rest) = none := by
      rw [naturalOf, if_neg]
      rintro ⟨_, all, _⟩
      exact absurd (digit_head all rfl) (by decide)
    rw [unread] at read
    contradiction
  · rw [read]
    rfl

theorem as_int_of_nat {number : Nat} (short : (decimalText number).length ≤ digitsLimit) :
    asInt (ofNat number) = some (number : Int) :=
  integer_of_natural (natural_of_decimal short)

theorem as_int_of_nat_eq {number : Nat} {read : Int} (found : asInt (ofNat number) = some read) :
    read = number := by
  by_cases short : (decimalText number).length ≤ digitsLimit
  · rw [as_int_of_nat short] at found
    exact (Option.some.inj found).symm
  · have long : naturalOf (decimalText number) = none := if_neg fun held => short held.2.2
    unfold asInt ofNat integerOf at found
    dsimp only at found
    split at found
    · rename_i digits same
      exact absurd (digit_head (decimal_digits number) same) (by decide)
    · rw [long] at found
      contradiction

theorem decimal_length_mono {less more : Nat} (within : less ≤ more) :
    (decimalText less).length ≤ (decimalText more).length := by
  have wide : 0 < (decimalText more).length := Nat.length_toDigits_pos
  have below : more < 10 ^ (decimalText more).length :=
    (Nat.length_toDigits_le_iff (by decide) wide).mp le_rfl
  exact (Nat.length_toDigits_le_iff (by decide) wide).mpr (lt_of_le_of_lt within below)

theorem digits_below {digits : Str} (digitsAll : digits.all isDigit = true) :
    Nat.ofDigitChars 10 digits 0 < 10 ^ digits.length := by
  induction digits with
  | nil => simp
  | cons first rest ih =>
      rw [List.all_cons, Bool.and_eq_true] at digitsAll
      have within : first.toNat ≤ 57 := by
        have digit := digitsAll.1
        simp only [isDigit, Bool.and_eq_true, decide_eq_true_eq] at digit
        exact digit.2
      have small : first.toNat - '0'.toNat ≤ 9 := by
        have zero : '0'.toNat = 48 := rfl
        omega
      have further := ih digitsAll.2
      rw [Nat.ofDigitChars_cons, Nat.ofDigitChars_eq_ofDigitChars_zero, List.length_cons,
        Nat.pow_succ]
      calc 10 ^ rest.length * (10 * 0 + (first.toNat - '0'.toNat)) + Nat.ofDigitChars 10 rest 0
          < 10 ^ rest.length * (10 * 0 + (first.toNat - '0'.toNat)) + 10 ^ rest.length :=
            Nat.add_lt_add_left further _
        _ = 10 ^ rest.length * ((first.toNat - '0'.toNat) + 1) := by ring
        _ ≤ 10 ^ rest.length * 10 := Nat.mul_le_mul_left _ (by omega)

theorem natural_of_short {digits : Str} {number : Nat} (read : naturalOf digits = some number) :
    (decimalText number).length ≤ digitsLimit := by
  unfold naturalOf at read
  split at read
  · rename_i held
    obtain ⟨filled, all, short⟩ := held
    have positive : 0 < digits.length := List.length_pos_iff.mpr filled
    have below := digits_below all
    rw [Option.some.inj read] at below
    exact le_trans ((Nat.length_toDigits_le_iff (by decide) positive).mpr below) short
  · contradiction

theorem as_int_short {value : Json} {number : Nat} (read : asInt value = some (number : Int)) :
    (decimalText number).length ≤ digitsLimit := by
  have zero : (decimalText 0).length ≤ digitsLimit := by decide
  cases value with
  | number literal =>
      unfold asInt integerOf at read
      dsimp only at read
      split at read
      · obtain ⟨size, parsed, same⟩ := Option.map_eq_some_iff.mp read
        have none : number = 0 := by omega
        rw [none]
        exact zero
      · obtain ⟨size, parsed, same⟩ := Option.map_eq_some_iff.mp read
        rw [← Int.ofNat.inj same]
        exact natural_of_short parsed
  | _ => contradiction

theorem decimal_zero_head {number : Nat} (head : (decimalText number).head? = some '0') :
    decimalText number = ['0'] := by
  induction number using Nat.strong_induction_on with
  | _ number ih =>
      unfold decimalText at *
      by_cases small : number < 10
      · rw [Nat.toDigits_of_lt_base small] at head ⊢
        rw [List.head?_cons, Option.some.injEq] at head
        rw [head]
      · rw [Nat.toDigits_of_base_le (by decide) (by omega)] at head ⊢
        rw [List.head?_append_of_ne_nil _ Nat.toDigits_ne_nil] at head
        have shorter := ih (number / 10) (by omega) head
        have back : Nat.ofDigitChars 10 (Nat.toDigits 10 (number / 10)) 0 = number / 10 :=
          Nat.ofDigitChars_ten_toDigits
        rw [shorter] at back
        have zero : Nat.ofDigitChars 10 ['0'] 0 = 0 := by decide
        omega

theorem decimal_unsigned (number : Nat) : (decimalText number).head? ≠ some '-' := by
  obtain ⟨first, rest, same⟩ := List.exists_cons_of_ne_nil (decimal_filled number)
  have digit := digit_head (decimal_digits number) same
  intro sign
  rw [same, List.head?_cons, Option.some.injEq] at sign
  exact absurd digit (by rw [sign]; decide)

theorem decimal_unnamed (number : Nat) : namedNumbers.contains (decimalText number) = false := by
  rw [Bool.eq_false_iff]
  intro named
  have all : ∀ name ∈ namedNumbers, name.all isDigit = false := by decide
  have letters := all _ (List.contains_iff_mem.mp named)
  rw [decimal_digits number] at letters
  contradiction

theorem decimal_spelled {number : Nat} (short : (decimalText number).length ≤ digitsLimit) :
    spelledNumber (decimalText number) = true := by
  have filled := decimal_filled number
  have noSign := decimal_unsigned number
  have whole : (decimalText number).takeWhile isDigit = decimalText number :=
    List.takeWhile_eq_self_iff.mpr (List.all_eq_true.mp (decimal_digits number))
  have scanned : scanNumber (decimalText number) = some (.number (decimalText number), []) := by
    by_cases zero : (decimalText number).head? = some '0'
    · rw [decimal_zero_head zero]
      rfl
    · have bounded : ¬ 4300 < (decimalText number).length := Nat.not_lt.mpr short
      simp [scanNumber, noSign, zero, whole, filled, fractionOf, exponentOf, bounded]
  rw [spelledNumber, scanned]
  simp

theorem decimal_long_unread {number : Nat} (long : digitsLimit < (decimalText number).length) :
    scanNumber (decimalText number) = none := by
  have filled := decimal_filled number
  have bounded : 4300 < (decimalText number).length := long
  have noZero : (decimalText number).head? ≠ some '0' := by
    intro zero
    rw [decimal_zero_head zero] at bounded
    exact absurd bounded (by decide)
  have noSign := decimal_unsigned number
  have whole : (decimalText number).takeWhile isDigit = decimalText number :=
    List.takeWhile_eq_self_iff.mpr (List.all_eq_true.mp (decimal_digits number))
  simp [scanNumber, noSign, noZero, whole, filled, fractionOf, exponentOf, bounded]

theorem spelled_decimal_short {number : Nat}
    (spelled : spelledNumber (decimalText number) = true) :
    (decimalText number).length ≤ digitsLimit := by
  by_contra long
  rw [spelledNumber, decimal_unnamed, decimal_long_unread (Nat.not_le.mp long)] at spelled
  contradiction

theorem integer_of_show {number : Int}
    (short : (decimalText number.natAbs).length ≤ digitsLimit) :
    integerOf (showInt number) = some number := by
  unfold showInt
  split
  · rename_i negative
    change (naturalOf (decimalText number.natAbs)).map _ = _
    rw [natural_of_decimal short, Option.map_some, Option.some.injEq]
    omega
  · rename_i positive
    rw [integer_of_natural (natural_of_decimal short), Option.some.injEq]
    omega

theorem scan_negative {digits : Str} (unsigned : digits.head? ≠ some '-') :
    scanNumber ('-' :: digits) = (scanNumber digits).bind fun read =>
      match read with
      | (.number literal, after) => some (.number ('-' :: literal), after)
      | _ => none := by
  have none : digits.head? = some '-' ↔ False := iff_of_false unsigned id
  simp only [scanNumber, List.head?_cons, if_true, none, if_false, List.length_singleton,
    List.drop_one, List.tail_cons, List.length_nil, List.drop_zero]
  generalize (if digits.head? = some '0' then ['0'] else digits.takeWhile isDigit) = whole
  by_cases empty : whole = []
  · rw [if_pos empty, if_pos empty]
    rfl
  · rw [if_neg empty, if_neg empty]
    split
    · rfl
    · rfl

theorem show_spelled {number : Int}
    (short : (decimalText number.natAbs).length ≤ digitsLimit) :
    spelledNumber (showInt number) = true := by
  have spelled := decimal_spelled short
  unfold showInt
  split
  · rw [spelledNumber, decimal_unnamed, Bool.false_or] at spelled
    rw [spelledNumber, scan_negative (decimal_unsigned _)]
    split at spelled
    · rename_i read scanned
      rw [scanned]
      simpa using Or.inr spelled
    · contradiction
  · exact spelled

theorem spelled_show_short {number : Int} (spelled : spelledNumber (showInt number) = true) :
    (decimalText number.natAbs).length ≤ digitsLimit := by
  unfold showInt at spelled
  split at spelled
  · by_contra long
    have digits := decimal_digits number.natAbs
    have unread := decimal_long_unread (Nat.not_le.mp long)
    have unnamed : namedNumbers.contains ('-' :: decimalText number.natAbs) = false := by
      rw [Bool.eq_false_iff]
      intro named
      have all : ∀ name ∈ namedNumbers, name.tail.all isDigit = false := by decide
      have letters := all _ (List.contains_iff_mem.mp named)
      rw [List.tail_cons, digits] at letters
      contradiction
    rw [spelledNumber, unnamed, scan_negative (decimal_unsigned _), unread] at spelled
    contradiction
  · exact spelled_decimal_short spelled

end Naturals

end Defender.Python.Json
