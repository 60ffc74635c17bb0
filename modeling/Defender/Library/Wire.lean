import Mathlib.Algebra.Ring.Nat
import Mathlib.Data.List.Induction

/-!
# Binary frames

A reader takes values off the front of a list of bytes. It reads a layout when
it accepts exactly the inputs that start with the layout of a value that fits,
gives that value and leaves the bytes behind it; a writer writes a layout when
it accepts exactly the values that fit and gives their layout. Both compose over
numbers of a fixed width and over counted lists.

A frame is a tag, the length of its payload in a fixed number of bytes, and the payload. It is
taken off the front of a list of bytes by its length alone, so no payload can be taken for a
frame, and what is behind it does not matter.
-/

namespace Defender.Library.Wire

abbrev Bytes := List UInt8

/-! Numbers, the most significant byte first. -/

def bigEndian : Nat → Nat → Bytes
  | 0, _ => []
  | width + 1, number => bigEndian width (number / 256) ++ [UInt8.ofNat number]

def numberOf (bytes : Bytes) : Nat :=
  bytes.foldl (fun number byte => number * 256 + byte.toNat) 0

@[simp]
theorem big_endian_length (width number : Nat) : (bigEndian width number).length = width := by
  induction width generalizing number with
  | zero => rfl
  | succ width induction => simp [bigEndian, induction]

theorem number_snoc (bytes : Bytes) (byte : UInt8) :
    numberOf (bytes ++ [byte]) = numberOf bytes * 256 + byte.toNat := by
  simp [numberOf]

theorem number_big_endian {width number : Nat} (fits : number < 256 ^ width) :
    numberOf (bigEndian width number) = number := by
  induction width generalizing number with
  | zero =>
    have zero : number = 0 := by simpa using fits
    rw [zero]
    rfl
  | succ width induction =>
    have quotient : number / 256 < 256 ^ width := by
      apply Nat.div_lt_of_lt_mul
      rw [Nat.pow_succ] at fits
      omega
    rw [bigEndian, number_snoc, induction quotient]
    have low : (UInt8.ofNat number).toNat = number % 256 := by simp
    rw [low]
    omega

theorem number_lt (bytes : Bytes) : numberOf bytes < 256 ^ bytes.length := by
  induction bytes using List.reverseRecOn with
  | nil => simp [numberOf]
  | append_singleton bytes byte induction =>
    rw [number_snoc, List.length_append, List.length_singleton, Nat.pow_succ]
    have bound := byte.toNat_lt
    omega

theorem big_endian_number (bytes : Bytes) : bigEndian bytes.length (numberOf bytes) = bytes := by
  induction bytes using List.reverseRecOn with
  | nil => rfl
  | append_singleton bytes byte induction =>
    have bound := byte.toNat_lt
    have high : (numberOf bytes * 256 + byte.toNat) / 256 = numberOf bytes := by omega
    have low : UInt8.ofNat (numberOf bytes * 256 + byte.toNat) = byte := by
      apply UInt8.toNat_inj.mp
      rw [UInt8.toNat_ofNat']
      omega
    rw [List.length_append, List.length_singleton, bigEndian, number_snoc, high, induction, low]

/-! Readers. -/

section

variable {Fault Value Next : Type}

abbrev Reader (Fault Value : Type) := StateT Bytes (Except Fault) Value

theorem run_bind_ok {reader : Reader Fault Value} {next : Value → Reader Fault Next}
    {input rest : Bytes} {result : Next} :
    (reader >>= next).run input = .ok (result, rest) ↔
      ∃ value middle, reader.run input = .ok (value, middle) ∧
        (next value).run middle = .ok (result, rest) := by
  rw [StateT.run_bind]
  cases reader.run input with
  | error fault => simp [bind, Except.bind]
  | ok read =>
    constructor
    · intro goesOn
      exact ⟨read.1, read.2, rfl, goesOn⟩
    · rintro ⟨value, middle, same, goesOn⟩
      cases same
      exact goesOn

theorem run_pure_ok {value result : Value} {input rest : Bytes} :
    (pure value : Reader Fault Value).run input = .ok (result, rest) ↔
      value = result ∧ input = rest := by
  rw [StateT.run_pure]
  simp [pure, Except.pure]

def Reads (reader : Reader Fault Value) (layout : Value → Bytes) (fits : Value → Prop) : Prop :=
  ∀ input value rest, reader.run input = .ok (value, rest) ↔
    fits value ∧ input = layout value ++ rest

theorem layout_injective {reader : Reader Fault Value} {layout : Value → Bytes}
    {fits : Value → Prop} (reads : Reads reader layout fits) {first second : Value}
    {behindFirst behindSecond : Bytes} (firstFits : fits first) (secondFits : fits second)
    (same : layout first ++ behindFirst = layout second ++ behindSecond) :
    first = second ∧ behindFirst = behindSecond := by
  have one := (reads _ first behindFirst).mpr ⟨firstFits, rfl⟩
  have two := (reads _ second behindSecond).mpr ⟨secondFits, rfl⟩
  rw [same, two] at one
  simpa [eq_comm] using one

def repeated (reader : Reader Fault Value) : Nat → Reader Fault (List Value)
  | 0 => pure []
  | count + 1 => do
    let value ← reader
    let values ← repeated reader count
    pure (value :: values)

theorem repeated_ok {reader : Reader Fault Value} {layout : Value → Bytes} {fits : Value → Prop}
    (reads : Reads reader layout fits) (count : Nat) (input rest : Bytes) (values : List Value) :
    (repeated reader count).run input = .ok (values, rest) ↔
      values.length = count ∧ (∀ value ∈ values, fits value) ∧
        input = values.flatMap layout ++ rest := by
  induction count generalizing input values with
  | zero =>
    rw [repeated, run_pure_ok, List.length_eq_zero_iff]
    constructor
    · rintro ⟨rfl, rfl⟩
      simp
    · rintro ⟨rfl, -, rfl⟩
      simp
  | succ count induction =>
    simp only [repeated, run_bind_ok, run_pure_ok]
    constructor
    · rintro ⟨value, middle, read, others, behind, readOthers, rfl, rfl⟩
      obtain ⟨valueFits, rfl⟩ := (reads _ _ _).mp read
      obtain ⟨size, othersFit, rfl⟩ := (induction _ _).mp readOthers
      refine ⟨by simp [size], ?_, by simp⟩
      intro item member
      rcases List.mem_cons.mp member with rfl | later
      · exact valueFits
      · exact othersFit item later
    · rintro ⟨size, fit, rfl⟩
      cases values with
      | nil => simp at size
      | cons value others =>
        have valueFits : fits value := fit value List.mem_cons_self
        have othersFit : ∀ item ∈ others, fits item :=
          fun item member => fit item (List.mem_cons_of_mem value member)
        refine ⟨value, others.flatMap layout ++ rest, ?_, others, rest, ?_, rfl, rfl⟩
        · rw [reads]
          exact ⟨valueFits, by simp⟩
        · rw [induction]
          exact ⟨by simpa using size, othersFit, rfl⟩

/-- A number in front that says how many values follow. -/
def countedLayout (width : Nat) (layout : Value → Bytes) (values : List Value) : Bytes :=
  bigEndian width values.length ++ values.flatMap layout

def countedFits (width : Nat) (fits : Value → Prop) (values : List Value) : Prop :=
  values.length < 256 ^ width ∧ ∀ value ∈ values, fits value

theorem reads_counted {width : Nat} {number : Reader Fault Nat} {reader : Reader Fault Value}
    {layout : Value → Bytes} {fits : Value → Prop}
    (readsNumber : Reads number (bigEndian width) (· < 256 ^ width))
    (reads : Reads reader layout fits) :
    Reads (number >>= repeated reader) (countedLayout width layout) (countedFits width fits) := by
  intro input values rest
  rw [run_bind_ok]
  constructor
  · rintro ⟨count, middle, readCount, readValues⟩
    obtain ⟨small, rfl⟩ := (readsNumber _ _ _).mp readCount
    obtain ⟨rfl, allFit, rfl⟩ := (repeated_ok reads _ _ _ _).mp readValues
    exact ⟨⟨small, allFit⟩, by simp [countedLayout]⟩
  · rintro ⟨⟨small, allFit⟩, rfl⟩
    refine ⟨values.length, values.flatMap layout ++ rest, ?_, ?_⟩
    · rw [readsNumber]
      exact ⟨small, by simp [countedLayout]⟩
    · rw [repeated_ok reads]
      exact ⟨rfl, allFit, rfl⟩

/-! Writers. -/

def Writes (writer : Value → Except Fault Bytes) (layout : Value → Bytes)
    (fits : Value → Prop) : Prop :=
  ∀ value bytes, writer value = .ok bytes ↔ fits value ∧ bytes = layout value

theorem except_bind_ok {writer : Except Fault Value} {next : Value → Except Fault Next}
    {result : Next} :
    (writer >>= next) = .ok result ↔ ∃ value, writer = .ok value ∧ next value = .ok result := by
  cases writer with
  | error fault => simp [bind, Except.bind]
  | ok value => simp [bind, Except.bind]

theorem except_ok_bind (value : Value) (next : Value → Except Fault Next) :
    ((Except.ok value : Except Fault Value) >>= next) = next value := rfl

theorem map_error_ok {Other : Type*} {writer : Except Fault Value} {wrap : Fault → Other}
    {value : Value} (ok : writer.mapError wrap = .ok value) : writer = .ok value := by
  cases writer with
  | error fault => cases ok
  | ok answer =>
    cases ok
    rfl

def writeEach (writer : Value → Except Fault Bytes) : List Value → Except Fault Bytes
  | [] => pure []
  | value :: values => do
    let bytes ← writer value
    let others ← writeEach writer values
    pure (bytes ++ others)

theorem write_each_ok {writer : Value → Except Fault Bytes} {layout : Value → Bytes}
    {fits : Value → Prop} (writes : Writes writer layout fits) (values : List Value)
    (bytes : Bytes) :
    writeEach writer values = .ok bytes ↔
      (∀ value ∈ values, fits value) ∧ bytes = values.flatMap layout := by
  induction values generalizing bytes with
  | nil => simp [writeEach, pure, Except.pure, eq_comm]
  | cons value values induction =>
    simp only [writeEach, except_bind_ok, writes _ _, induction, pure, Except.pure,
      Except.ok.injEq, List.forall_mem_cons, List.flatMap_cons]
    constructor
    · rintro ⟨front, ⟨valueFits, rfl⟩, others, ⟨othersFit, rfl⟩, rfl⟩
      exact ⟨⟨valueFits, othersFit⟩, rfl⟩
    · rintro ⟨⟨valueFits, othersFit⟩, rfl⟩
      exact ⟨_, ⟨valueFits, rfl⟩, _, ⟨othersFit, rfl⟩, rfl⟩

def writeCounted (number : Nat → Except Fault Bytes) (writer : Value → Except Fault Bytes)
    (values : List Value) : Except Fault Bytes := do
  let count ← number values.length
  let body ← writeEach writer values
  pure (count ++ body)

theorem writes_counted {width : Nat} {number : Nat → Except Fault Bytes}
    {writer : Value → Except Fault Bytes} {layout : Value → Bytes} {fits : Value → Prop}
    (writesNumber : Writes number (bigEndian width) (· < 256 ^ width))
    (writes : Writes writer layout fits) :
    Writes (writeCounted number writer) (countedLayout width layout) (countedFits width fits) := by
  intro values bytes
  simp only [writeCounted, except_bind_ok, writesNumber _ _, write_each_ok writes, pure,
    Except.pure, Except.ok.injEq]
  constructor
  · rintro ⟨count, ⟨small, rfl⟩, body, ⟨allFit, rfl⟩, rfl⟩
    exact ⟨⟨small, allFit⟩, rfl⟩
  · rintro ⟨⟨small, allFit⟩, rfl⟩
    exact ⟨_, ⟨small, rfl⟩, _, ⟨allFit, rfl⟩, rfl⟩

end

end Defender.Library.Wire

namespace Defender.Library.Frames

open Defender.Library.Wire

def frame (width : Nat) (tag : UInt8) (payload : Bytes) : Bytes :=
  tag :: (bigEndian width payload.length ++ payload)

/-- Where the bytes stop short. -/
inductive Cut where
  | header
  | payload
deriving DecidableEq, Repr

def takeFrame (width : Nat) : Bytes → Except Cut (UInt8 × Bytes × Bytes)
  | [] => .error .header
  | tag :: rest =>
      if rest.length < width then .error .header
      else
        let size := numberOf (rest.take width)
        let body := rest.drop width
        if body.length < size then .error .payload
        else .ok (tag, body.take size, body.drop size)

variable {width : Nat} {tag : UInt8} {payload rest raw : Bytes}

theorem frame_length : (frame width tag payload).length = width + payload.length + 1 := by
  simp [frame]

theorem take_frame_front (fits : payload.length < 256 ^ width) :
    takeFrame width (frame width tag payload ++ rest) = .ok (tag, payload, rest) := by
  have size : (bigEndian width payload.length).length = width := big_endian_length _ _
  have laid : frame width tag payload ++ rest =
      tag :: (bigEndian width payload.length ++ (payload ++ rest)) := by
    simp [frame]
  have number : (bigEndian width payload.length ++ (payload ++ rest)).take width =
      bigEndian width payload.length := by
    rw [List.take_append_of_le_length (Nat.le_of_eq size.symm), List.take_of_length_le (Nat.le_of_eq size)]
  have body : (bigEndian width payload.length ++ (payload ++ rest)).drop width =
      payload ++ rest := by
    rw [List.drop_append_of_le_length (Nat.le_of_eq size.symm), List.drop_of_length_le (Nat.le_of_eq size),
      List.nil_append]
  rw [laid, takeFrame, if_neg (by rw [List.length_append, size]; omega)]
  simp only [number, body, number_big_endian fits]
  rw [if_neg (by rw [List.length_append]; omega), List.take_left, List.drop_left]

/-- A frame is taken exactly from the bytes that start with it. -/
theorem take_frame_ok : takeFrame width raw = .ok (tag, payload, rest) ↔
    payload.length < 256 ^ width ∧ raw = frame width tag payload ++ rest := by
  constructor
  · intro taken
    cases raw with
    | nil => cases taken
    | cons first more =>
        rw [takeFrame] at taken
        split at taken
        · cases taken
        · rename_i long
          dsimp only at taken
          split at taken
          · cases taken
          · rename_i whole
            simp only [Except.ok.injEq, Prod.mk.injEq] at taken
            obtain ⟨rfl, rfl, rfl⟩ := taken
            have number : (more.take width).length = width := by
              rw [List.length_take]
              omega
            have size : ((more.drop width).take (numberOf (more.take width))).length =
                numberOf (more.take width) := by
              rw [List.length_take]
              omega
            have header : bigEndian width (numberOf (more.take width)) = more.take width := by
              have same := big_endian_number (more.take width)
              rwa [number] at same
            refine ⟨?_, ?_⟩
            · have below := number_lt (more.take width)
              rwa [number, ← size] at below
            · rw [frame, size, header, List.cons_append, List.append_assoc, List.take_append_drop,
                List.take_append_drop]
  · rintro ⟨fits, rfl⟩
    exact take_frame_front fits

end Defender.Library.Frames
