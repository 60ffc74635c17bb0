import Mathlib.Data.List.Basic

/-!
# Base64 of the URL alphabet

Bytes as digits of six bits, three bytes to four digits, without the padding of the last group.
-/

namespace Defender.Library.Base64

def digit (sextet : Nat) : Char :=
  if sextet < 26 then Char.ofNat (65 + sextet)
  else if sextet < 52 then Char.ofNat (71 + sextet)
  else if sextet < 62 then Char.ofNat (sextet - 4)
  else if sextet = 62 then '-'
  else '_'

def value (char : Char) : Option Nat :=
  if char.isUpper then some (char.toNat - 65)
  else if char.isLower then some (char.toNat - 71)
  else if char.isDigit then some (char.toNat + 4)
  else if char = '-' then some 62
  else if char = '_' then some 63
  else none

def sextets : List UInt8 → List Nat
  | [] => []
  | [first] => [first.toNat / 4, first.toNat % 4 * 16]
  | [first, second] =>
      [first.toNat / 4, first.toNat % 4 * 16 + second.toNat / 16, second.toNat % 16 * 4]
  | first :: second :: third :: rest =>
      first.toNat / 4 :: (first.toNat % 4 * 16 + second.toNat / 16) ::
        (second.toNat % 16 * 4 + third.toNat / 64) :: third.toNat % 64 :: sextets rest

/-- The bytes of a row of sextets; the bits left over in the last group are dropped, and a last
sextet by itself is refused. -/
def joinSextets : List Nat → Option (List UInt8)
  | [] => some []
  | [_] => none
  | [first, second] => some [UInt8.ofNat (first * 4 + second / 16)]
  | [first, second, third] =>
      some [UInt8.ofNat (first * 4 + second / 16), UInt8.ofNat (second % 16 * 16 + third / 4)]
  | first :: second :: third :: fourth :: rest =>
      (joinSextets rest).map fun bytes =>
        UInt8.ofNat (first * 4 + second / 16) :: UInt8.ofNat (second % 16 * 16 + third / 4) ::
          UInt8.ofNat (third % 4 * 64 + fourth) :: bytes

def encode (data : List UInt8) : List Char := (sextets data).map digit

def decode (text : List Char) : Option (List UInt8) := (text.mapM value).bind joinSextets

theorem value_digit {sextet : Nat} (small : sextet < 64) : value (digit sextet) = some sextet := by
  have all : ∀ sextet < 64, value (digit sextet) = some sextet := by decide
  exact all sextet small

theorem sextets_small (data : List UInt8) : ∀ sextet ∈ sextets data, sextet < 64 := by
  fun_induction sextets data with
  | case1 => nofun
  | case2 first =>
      have byte := first.toNat_lt
      simp only [List.forall_mem_cons, List.not_mem_nil, false_implies, implies_true, and_true]
      omega
  | case3 first second =>
      have bytes := And.intro first.toNat_lt second.toNat_lt
      simp only [List.forall_mem_cons, List.not_mem_nil, false_implies, implies_true, and_true]
      omega
  | case4 first second third rest ih =>
      have bytes := And.intro first.toNat_lt (And.intro second.toNat_lt third.toNat_lt)
      simp only [List.forall_mem_cons]
      refine ⟨?_, ?_, ?_, ?_, ih⟩
      all_goals omega

theorem join_sextets (data : List UInt8) : joinSextets (sextets data) = some data := by
  have whole : ∀ {byte : UInt8} {number : Nat}, number = byte.toNat →
      UInt8.ofNat number = byte := by
    intro byte number same
    rw [same, UInt8.ofNat_toNat]
  fun_induction sextets data with
  | case1 => rfl
  | case2 first => rw [joinSextets, @whole first _ (by omega)]
  | case3 first second =>
      have bytes := second.toNat_lt
      rw [joinSextets, @whole first _ (by omega), @whole second _ (by omega)]
  | case4 first second third rest ih =>
      have bytes := And.intro second.toNat_lt third.toNat_lt
      rw [joinSextets, ih, Option.map_some, @whole first _ (by omega), @whole second _ (by omega),
        @whole third _ (by omega)]

theorem values_digits {numbers : List Nat} (small : ∀ number ∈ numbers, number < 64) :
    (numbers.map digit).mapM value = some numbers := by
  induction numbers with
  | nil => rfl
  | cons number numbers ih =>
      have rest := ih fun other inside => small other (List.mem_cons_of_mem _ inside)
      rw [List.map_cons, List.mapM_cons, value_digit (small number List.mem_cons_self), rest]
      rfl

theorem decode_encode (data : List UInt8) : decode (encode data) = some data := by
  rw [decode, encode, values_digits (sextets_small data)]
  exact join_sextets data

theorem encode_digits (data : List UInt8) {char : Char} (inside : char ∈ encode data) :
    ∃ sextet < 64, digit sextet = char := by
  obtain ⟨sextet, held, same⟩ := List.mem_map.mp inside
  exact ⟨sextet, sextets_small data sextet held, same⟩

theorem encode_length (data : List UInt8) : (encode data).length = (4 * data.length + 2) / 3 := by
  rw [encode, List.length_map]
  fun_induction sextets data with
  | case1 => rfl
  | case2 => simp
  | case3 => simp
  | case4 first second third rest ih =>
      simp only [List.length_cons, ih]
      omega

end Defender.Library.Base64
