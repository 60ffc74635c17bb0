import Defender.Python.Text

/-!
# Moments as ISO-8601 text

A moment is a number of microseconds since 1970 in UTC. `isoformat` writes the moments of
the years 1 to 9999; `parseIsoUtc` reads a calendar date, an optional time and an optional
offset, each in the spelling with dashes and colons. Other spellings are not read here.
-/

namespace Defender.Python

def microsPerDay : Int := 86400000000

/-- The year of a day within the 146097 days of four hundred years, which begin in March: the
centuries, then the leap cycles, then the years. -/
def yearOfEra (dayOfEra : Int) : Int :=
  let century := min (dayOfEra / 36524) 3
  let dayOfCentury := dayOfEra - century * 36524
  let cycle := dayOfCentury / 1461
  century * 100 + cycle * 4 + min ((dayOfCentury - cycle * 1461) / 365) 3

def daysBeforeYear (year : Int) : Int := 365 * year + year / 4 - year / 100

def monthOfYear (dayOfYear : Int) : Int := (5 * dayOfYear + 2) / 153

def daysBeforeMonth (month : Int) : Int := (153 * month + 2) / 5

/-- A month counted from March, as it is counted from January. -/
def fromMarch (month : Int) : Int := if month < 10 then month + 3 else month - 9

def toMarch (month : Int) : Int := if 2 < month then month - 3 else month + 9

/-- January and February end the year that began the March before. -/
def yearsLate (month : Int) : Int := if month ≤ 2 then 1 else 0

def civilOfDays (days : Int) : Int × Int × Int :=
  let era := (days + 719468) / 146097
  let dayOfEra := (days + 719468) % 146097
  let year := yearOfEra dayOfEra
  let dayOfYear := dayOfEra - daysBeforeYear year
  let month := monthOfYear dayOfYear
  (year + era * 400 + yearsLate (fromMarch month), fromMarch month,
    dayOfYear - daysBeforeMonth month + 1)

def daysOfCivil (year month day : Int) : Int :=
  let shifted := year - yearsLate month
  let dayOfYear := daysBeforeMonth (toMarch month) + day - 1
  shifted / 400 * 146097 + (daysBeforeYear (shifted % 400) + dayOfYear) - 719468

section Civil

variable {dayOfEra dayOfYear month : Int}

theorem year_of_era_bounds (least : 0 ≤ dayOfEra) (most : dayOfEra < 146097) :
    0 ≤ yearOfEra dayOfEra ∧ yearOfEra dayOfEra < 400 := by
  simp only [yearOfEra]
  omega

theorem day_of_year_bounds (least : 0 ≤ dayOfEra) (most : dayOfEra < 146097) :
    0 ≤ dayOfEra - daysBeforeYear (yearOfEra dayOfEra) ∧
      dayOfEra - daysBeforeYear (yearOfEra dayOfEra) < 366 := by
  simp only [yearOfEra]
  generalize split : min (dayOfEra / 36524) 3 = century
  generalize cycles : (dayOfEra - century * 36524) / 1461 = cycle
  generalize years : min ((dayOfEra - century * 36524 - cycle * 1461) / 365) 3 = year
  have centuries : 0 ≤ century ∧ century ≤ 3 := by omega
  have leaps : 0 ≤ cycle ∧ cycle ≤ 24 := by omega
  have single : 0 ≤ year ∧ year ≤ 3 := by omega
  have fourth : (century * 100 + cycle * 4 + year) / 4 = century * 25 + cycle := by omega
  have hundredth : (century * 100 + cycle * 4 + year) / 100 = century := by omega
  simp only [daysBeforeYear, fourth, hundredth]
  omega

theorem month_of_year_bounds (least : 0 ≤ dayOfYear) (most : dayOfYear < 366) :
    0 ≤ monthOfYear dayOfYear ∧ monthOfYear dayOfYear < 12 := by
  unfold monthOfYear
  omega

theorem to_march_from (least : 0 ≤ month) (most : month < 12) :
    toMarch (fromMarch month) = month := by
  unfold toMarch fromMarch
  split <;> split <;> omega

theorem day_of_era_bounds (days : Int) :
    0 ≤ (days + 719468) % 146097 ∧ (days + 719468) % 146097 < 146097 := by omega

theorem days_of_civil_of_days (days : Int) :
    daysOfCivil (civilOfDays days).1 (civilOfDays days).2.1 (civilOfDays days).2.2 = days := by
  obtain ⟨least, most⟩ := day_of_era_bounds days
  obtain ⟨yearLeast, yearMost⟩ := year_of_era_bounds least most
  obtain ⟨dayLeast, dayMost⟩ := day_of_year_bounds least most
  obtain ⟨monthLeast, monthMost⟩ := month_of_year_bounds dayLeast dayMost
  simp only [civilOfDays, daysOfCivil, to_march_from monthLeast monthMost, Int.add_sub_cancel]
  generalize yearOfEra ((days + 719468) % 146097) = year at *
  have era : (year + (days + 719468) / 146097 * 400) / 400 = (days + 719468) / 146097 := by omega
  have within : (year + (days + 719468) / 146097 * 400) % 400 = year := by omega
  rw [era, within]
  omega

theorem civil_month (days : Int) :
    1 ≤ (civilOfDays days).2.1 ∧ (civilOfDays days).2.1 ≤ 12 := by
  obtain ⟨least, most⟩ := day_of_era_bounds days
  obtain ⟨dayLeast, dayMost⟩ := day_of_year_bounds least most
  obtain ⟨monthLeast, monthMost⟩ := month_of_year_bounds dayLeast dayMost
  simp only [civilOfDays, fromMarch]
  split <;> omega

theorem civil_day (days : Int) :
    1 ≤ (civilOfDays days).2.2 ∧ (civilOfDays days).2.2 ≤ 31 := by
  obtain ⟨least, most⟩ := day_of_era_bounds days
  obtain ⟨dayLeast, dayMost⟩ := day_of_year_bounds least most
  simp only [civilOfDays, daysBeforeMonth, monthOfYear]
  omega

end Civil

/-- A number in exactly so many digits, with zeros before it. -/
def fixedDigits : Nat → Nat → Str
  | 0, _ => []
  | width + 1, number => fixedDigits width (number / 10) ++ [Char.ofNat (48 + number % 10)]

def isAsciiDigit (char : Char) : Bool := '0' ≤ char && char ≤ '9'

def readDigits (text : Str) : Option Nat :=
  if text ≠ [] ∧ text.all isAsciiDigit then
    some (text.foldl (fun number digit => number * 10 + (digit.toNat - 48)) 0)
  else none

/-- `datetime.isoformat`; with `timespec="seconds"` the fraction is dropped. A moment outside
the years 1 to 9999 is no `datetime`. -/
def isoformat (secondsOnly : Bool) (moment : Int) : Option Str :=
  let (year, month, day) := civilOfDays (moment / microsPerDay)
  let time := (moment % microsPerDay).toNat
  let fraction := time % 1000000
  if year < 1 ∨ 9999 < year then none
  else some (message [fixedDigits 4 year.toNat, ['-'], fixedDigits 2 month.toNat, ['-'],
    fixedDigits 2 day.toNat, ['T'], fixedDigits 2 (time / 3600000000), [':'],
    fixedDigits 2 (time / 60000000 % 60), [':'], fixedDigits 2 (time / 1000000 % 60),
    if secondsOnly ∨ fraction = 0 then [] else '.' :: fixedDigits 6 fraction, "+00:00"])

def readDate : Str → Option Int
  | [a, b, c, d, '-', e, f, '-', g, h] => do
      let year ← readDigits [a, b, c, d]
      let month ← readDigits [e, f]
      let day ← readDigits [g, h]
      let days := daysOfCivil year month day
      if 1 ≤ year ∧ civilOfDays days = (↑year, ↑month, ↑day) then pure days else none
  | _ => none

def readPart (limit : Nat) (text : Str) : Option Nat := do
  let number ← readDigits text
  if text.length = 2 ∧ number < limit then pure number else none

def readSeconds (text : Str) : Option Nat := do
  let seconds ← readPart 60 (text.take 2)
  match text.drop 2 with
  | [] => pure (seconds * 1000000)
  | '.' :: digits =>
      let _ ← readDigits digits
      let fraction ← readDigits (digits.take 6)
      pure (seconds * 1000000 + fraction * 10 ^ (6 - (digits.take 6).length))
  | _ => none

/-- A time of day, or the size of an offset, in microseconds. -/
def readClock (text : Str) : Option Nat :=
  match splitOn ':' text with
  | [hours] => (readPart 24 hours).map (· * 3600000000)
  | [hours, minutes] => do
      let hour ← readPart 24 hours
      let minute ← readPart 60 minutes
      pure ((hour * 60 + minute) * 60000000)
  | [hours, minutes, seconds] => do
      let hour ← readPart 24 hours
      let minute ← readPart 60 minutes
      let micros ← readSeconds seconds
      pure ((hour * 60 + minute) * 60000000 + micros)
  | _ => none

def isSign (char : Char) : Bool := char == '+' || char == '-'

/-- What an offset takes from the time before it; a time with none is in UTC. -/
def readOffset : Str → Option Int
  | [] => some 0
  | '+' :: clock => (readClock clock).map fun micros => ↑micros
  | '-' :: clock => (readClock clock).map fun micros => -↑micros
  | _ => none

def fromisoformat (text : Str) : Option Int := do
  let days ← readDate (text.take 10)
  match text.drop 10 with
  | [] => pure (days * microsPerDay)
  | _ :: rest =>
      let clock ← readClock (rest.takeWhile fun char => !isSign char)
      let offset ← readOffset (rest.dropWhile fun char => !isSign char)
      pure (days * microsPerDay + clock - offset)

def parseIsoUtc (raw : Str) : Option Int := fromisoformat (replace "Z" "+00:00" raw)

section Digits

variable (width number : Nat)

theorem digit_char {digit : Nat} (small : digit < 10) :
    isAsciiDigit (Char.ofNat (48 + digit)) = true ∧ (Char.ofNat (48 + digit)).toNat - 48 = digit := by
  have all : ∀ digit < 10, isAsciiDigit (Char.ofNat (48 + digit)) = true ∧
      (Char.ofNat (48 + digit)).toNat - 48 = digit := by decide
  exact all digit small

@[simp] theorem fixed_digits_length : (fixedDigits width number).length = width := by
  induction width generalizing number with
  | zero => rfl
  | succ width ih => simp [fixedDigits, ih]

theorem fixed_digits_ascii : ∀ char ∈ fixedDigits width number, isAsciiDigit char = true := by
  induction width generalizing number with
  | zero => simp [fixedDigits]
  | succ width ih =>
      intro char member
      rw [fixedDigits, List.mem_append, List.mem_singleton] at member
      rcases member with early | rfl
      · exact ih (number / 10) char early
      · exact (digit_char (Nat.mod_lt _ (by decide))).1

theorem fold_fixed_digits :
    (fixedDigits width number).foldl (fun number digit => number * 10 + (digit.toNat - 48)) 0 =
      number % 10 ^ width := by
  induction width generalizing number with
  | zero => simp [fixedDigits, Nat.mod_one]
  | succ width ih =>
      have last := (digit_char (Nat.mod_lt number (by decide : 0 < 10))).2
      rw [fixedDigits, List.foldl_append, ih, List.foldl_cons, List.foldl_nil, last, Nat.pow_succ',
        Nat.mod_mul]
      omega

theorem read_fixed_digits {width number : Nat} (wide : 0 < width) (fits : number < 10 ^ width) :
    readDigits (fixedDigits width number) = some number := by
  have filled : fixedDigits width number ≠ [] := by
    intro none
    have length := fixed_digits_length width number
    rw [none, List.length_nil] at length
    omega
  have digits := List.all_eq_true.mpr (fixed_digits_ascii width number)
  rw [readDigits, if_pos ⟨filled, digits⟩, fold_fixed_digits, Nat.mod_eq_of_lt fits]

theorem read_part_fixed {limit number : Nat} (below : number < limit) (short : limit ≤ 100) :
    readPart limit (fixedDigits 2 number) = some number := by
  have fits : number < 10 ^ 2 := by omega
  rw [readPart, read_fixed_digits (by decide) fits]
  simp [below]

theorem ascii_digit_no_mark {char mark : Char} (digit : isAsciiDigit char = true)
    (noDigit : isAsciiDigit mark = false) : char ≠ mark := by
  rintro rfl
  rw [digit] at noDigit
  contradiction

theorem mark_not_digit {mark : Char} (noDigit : isAsciiDigit mark = false) :
    mark ∉ fixedDigits width number := by
  intro member
  exact ascii_digit_no_mark (fixed_digits_ascii width number mark member) noDigit rfl

end Digits

theorem read_date_written {days : Int} (first : 1 ≤ (civilOfDays days).1)
    (last : (civilOfDays days).1 ≤ 9999) :
    readDate (fixedDigits 4 (civilOfDays days).1.toNat ++
        '-' :: (fixedDigits 2 (civilOfDays days).2.1.toNat ++
          '-' :: fixedDigits 2 (civilOfDays days).2.2.toNat)) = some days := by
  have month := civil_month days
  have day := civil_day days
  have back := days_of_civil_of_days days
  rcases civil : civilOfDays days with ⟨yearOf, monthOf, dayOf⟩
  simp only [civil] at first last month day back ⊢
  have yearFits : yearOf.toNat < 10 ^ 4 := by omega
  have monthFits : monthOf.toNat < 10 ^ 2 := by omega
  have dayFits : dayOf.toNat < 10 ^ 2 := by omega
  have readYear := read_fixed_digits (by decide) yearFits
  have readMonth := read_fixed_digits (by decide) monthFits
  have readDay := read_fixed_digits (by decide) dayFits
  have yearSame : ((yearOf.toNat : Nat) : Int) = yearOf := by omega
  have monthSame : ((monthOf.toNat : Nat) : Int) = monthOf := by omega
  have daySame : ((dayOf.toNat : Nat) : Int) = dayOf := by omega
  have positive : 1 ≤ yearOf.toNat := by omega
  simp only [fixedDigits, List.nil_append, List.cons_append] at readYear readMonth readDay ⊢
  simp only [readDate, readYear, readMonth, readDay, yearSame, monthSame, daySame, back, civil,
    positive, and_self, if_true, Option.bind_eq_bind, Option.bind_some]
  rfl

def secondsText (second fraction : Nat) : Str :=
  fixedDigits 2 second ++ if fraction = 0 then [] else '.' :: fixedDigits 6 fraction

theorem read_seconds_written {second fraction : Nat} (below : second < 60)
    (within : fraction < 1000000) :
    readSeconds (secondsText second fraction) = some (second * 1000000 + fraction) := by
  have whole := read_part_fixed below (by decide)
  have start : (secondsText second fraction).take 2 = fixedDigits 2 second :=
    List.take_left' (fixed_digits_length 2 second)
  have rest : (secondsText second fraction).drop 2 =
      if fraction = 0 then [] else '.' :: fixedDigits 6 fraction :=
    List.drop_left' (fixed_digits_length 2 second)
  rw [readSeconds, start, rest, whole]
  by_cases none : fraction = 0
  · simp [none]
  · have digits := read_fixed_digits (by decide : 0 < 6) within
    have six : (fixedDigits 6 fraction).take 6 = fixedDigits 6 fraction :=
      List.take_of_length_le (le_of_eq (fixed_digits_length 6 fraction))
    simp [none, digits, six]

theorem read_clock_written {hour minute second fraction : Nat} (hours : hour < 24)
    (minutes : minute < 60) (seconds : second < 60) (within : fraction < 1000000) :
    readClock (fixedDigits 2 hour ++
        ':' :: (fixedDigits 2 minute ++ ':' :: secondsText second fraction)) =
      some ((hour * 60 + minute) * 60000000 + (second * 1000000 + fraction)) := by
  have noColon : ∀ width number, ':' ∉ fixedDigits width number := fun width number =>
    mark_not_digit width number rfl
  have lastFresh : ':' ∉ secondsText second fraction := by
    rw [secondsText, List.mem_append, not_or]
    refine ⟨noColon _ _, ?_⟩
    split
    · simp
    · rw [List.mem_cons, not_or]
      exact ⟨by decide, noColon _ _⟩
  have pieces : splitOn ':' (fixedDigits 2 hour ++
      ':' :: (fixedDigits 2 minute ++ ':' :: secondsText second fraction)) =
        [fixedDigits 2 hour, fixedDigits 2 minute, secondsText second fraction] := by
    rw [split_on_append, split_on_append, split_on_word (noColon _ _), split_on_word (noColon _ _),
      split_on_word lastFresh]
    rfl
  simp [readClock, pieces, read_part_fixed hours, read_part_fixed minutes,
    read_seconds_written seconds within]

theorem signless_clock {hour minute second fraction : Nat} :
    ∀ char ∈ fixedDigits 2 hour ++
      ':' :: (fixedDigits 2 minute ++ ':' :: secondsText second fraction), isSign char = false := by
  have signless : ∀ width number, ∀ char ∈ fixedDigits width number, isSign char = false := by
    intro width number char member
    have digit := fixed_digits_ascii width number char member
    have noPlus := ascii_digit_no_mark digit (by decide : isAsciiDigit '+' = false)
    have noMinus := ascii_digit_no_mark digit (by decide : isAsciiDigit '-' = false)
    simp [isSign, noPlus, noMinus]
  intro char member
  simp only [secondsText, List.mem_append, List.mem_cons] at member
  rcases member with digit | rfl | digit | rfl | digit | fractional
  · exact signless _ _ _ digit
  · rfl
  · exact signless _ _ _ digit
  · rfl
  · exact signless _ _ _ digit
  · split at fractional
    · simp at fractional
    · rcases List.mem_cons.mp fractional with rfl | digit
      · rfl
      · exact signless _ _ _ digit

theorem fromisoformat_utc {dateText clockText : Str} {days : Int} {time : Nat}
    (tenth : dateText.length = 10) (signless : ∀ char ∈ clockText, isSign char = false)
    (date : readDate dateText = some days) (clock : readClock clockText = some time) :
    fromisoformat (dateText ++ 'T' :: (clockText ++ "+00:00".toList)) =
      some (days * microsPerDay + time) := by
  have unsigned : ∀ char ∈ clockText, (!isSign char) = true := by
    intro char member
    rw [signless char member]
    rfl
  have plus : (!isSign '+') = false := rfl
  have offset : readOffset ['+', '0', '0', ':', '0', '0'] = some 0 := by decide
  have zone : "+00:00".toList = ['+', '0', '0', ':', '0', '0'] := rfl
  rw [fromisoformat, List.take_left' tenth, List.drop_left' tenth, date, zone]
  simp only [List.takeWhile_append_of_pos unsigned, List.dropWhile_append_of_pos unsigned,
    List.takeWhile_cons, List.dropWhile_cons, plus, Bool.false_eq_true, if_false, List.append_nil,
    clock, offset, Option.bind_eq_bind, Option.bind_some, Int.sub_zero]
  rfl

/-- A moment written whole reads back as itself. -/
theorem parse_isoformat {moment : Int} {text : Str} (written : isoformat false moment = some text) :
    parseIsoUtc text = some moment := by
  simp only [isoformat, Bool.false_eq_true, false_or] at written
  split at written
  · contradiction
  rename_i inRange
  rw [not_or, not_lt, not_lt] at inRange
  generalize days : moment / microsPerDay = day at written inRange
  generalize clock : (moment % microsPerDay).toNat = time at written
  have split : (time : Int) = moment - day * microsPerDay := by
    unfold microsPerDay at *
    omega
  have whole : time < 86400000000 := by
    unfold microsPerDay at *
    omega
  have shape : text = (fixedDigits 4 (civilOfDays day).1.toNat ++
      '-' :: (fixedDigits 2 (civilOfDays day).2.1.toNat ++
        '-' :: fixedDigits 2 (civilOfDays day).2.2.toNat)) ++
      'T' :: ((fixedDigits 2 (time / 3600000000) ++
        ':' :: (fixedDigits 2 (time / 60000000 % 60) ++
          ':' :: secondsText (time / 1000000 % 60) (time % 1000000))) ++ "+00:00".toList) := by
    rw [← Option.some.inj written]
    simp [message, secondsText]
  have date := read_date_written inRange.1 inRange.2
  have hours : time / 3600000000 < 24 := by omega
  have minutes : time / 60000000 % 60 < 60 := by omega
  have seconds : time / 1000000 % 60 < 60 := by omega
  have within : time % 1000000 < 1000000 := by omega
  have clockRead := read_clock_written hours minutes seconds within
  have sum : (time / 3600000000 * 60 + time / 60000000 % 60) * 60000000 +
      (time / 1000000 % 60 * 1000000 + time % 1000000) = time := by omega
  rw [sum] at clockRead
  have noZ : ∀ width number, 'Z' ∉ fixedDigits width number := fun width number =>
    mark_not_digit width number rfl
  have fresh : 'Z' ∉ text := by
    rw [shape]
    by_cases none : time % 1000000 = 0 <;>
      simp [secondsText, none, noZ]
  have written : replace "Z" "+00:00" text = text := replace_absent fresh
  have dateLength : (fixedDigits 4 (civilOfDays day).1.toNat ++
      '-' :: (fixedDigits 2 (civilOfDays day).2.1.toNat ++
        '-' :: fixedDigits 2 (civilOfDays day).2.2.toNat)).length = 10 := by simp
  rw [parseIsoUtc, written, shape, fromisoformat_utc dateLength signless_clock date clockRead, split]
  exact congrArg some (by omega)

end Defender.Python
