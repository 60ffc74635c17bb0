import Defender.Filesystem.JsonLines
import Defender.Python.JsonScan

/-!
# The bound on nesting and the decoder

The scan for brackets goes through a text in step with the decoder: past every value the decoder
takes, it stands outside any string at the depth it had, having met the value's containers. What
the decoder opens before it fails has therefore been counted.
-/

namespace Defender.Filesystem

open Defender.Python Json

mutual

/-- The deepest container the decoder opens when it reads a value inside `depth` of them, whether
it takes the value or fails. -/
def reachedValue : Nat → Nat → Str → Nat
  | 0, depth, _ => depth
  | _ + 1, depth, [] => depth
  | rounds + 1, depth, char :: rest =>
      if char = Char.ofNat 0x7b then
        match skipSpace rest with
        | [] => depth + 1
        | next :: after =>
            if next = Char.ofNat 0x7d then depth + 1
            else reachedEntries rounds (depth + 1) (next :: after)
      else if char = '[' then
        match skipSpace rest with
        | [] => depth + 1
        | next :: after =>
            if next = ']' then depth + 1 else reachedItems rounds (depth + 1) (next :: after)
      else depth

def reachedItems : Nat → Nat → Str → Nat
  | 0, depth, _ => depth
  | rounds + 1, depth, text =>
      max (reachedValue rounds depth text)
        (match scanValue rounds text with
        | none => depth
        | some (_, after) =>
            match skipSpace after with
            | ',' :: rest => reachedItems rounds depth (skipSpace rest)
            | _ => depth)

def reachedEntries : Nat → Nat → Str → Nat
  | 0, depth, _ => depth
  | rounds + 1, depth, text =>
      match text with
      | '"' :: rest =>
          match scanString rest with
          | none => depth
          | some (_, after) =>
              match skipSpace after with
              | ':' :: more =>
                  max (reachedValue rounds depth (skipSpace more))
                    (match scanValue rounds (skipSpace more) with
                    | none => depth
                    | some (_, after) =>
                        match skipSpace after with
                        | [] => depth
                        | next :: rest =>
                            if next = ',' then reachedEntries rounds depth (skipSpace rest)
                            else depth)
              | _ => depth
      | _ => depth

end

section Scan

variable (depth deepest : Nat)

theorem nesting_deepest (scan : NestingScan) (text : Str) :
    deepest ≤ nestingFrom scan depth deepest text := by
  induction text generalizing scan depth deepest with
  | nil => cases scan <;> exact le_rfl
  | cons char rest ih =>
      cases scan with
      | outside =>
          rw [nestingFrom]
          split
          · exact ih depth deepest .inString
          · split
            · exact (le_max_left _ _).trans (ih _ _ .outside)
            · split
              · exact ih _ _ .outside
              · exact ih _ _ .outside
      | inString =>
          rw [nestingFrom]
          split
          · exact ih _ _ .outside
          · split
            · exact ih _ _ .escaped
            · exact ih _ _ .inString
      | escaped =>
          rw [nestingFrom]
          split
          · exact ih _ _ .outside
          · exact ih _ _ .inString

theorem nesting_skip (text : Str) :
    nestingFrom .outside depth deepest (skipSpace text) =
      nestingFrom .outside depth deepest text := by
  induction text with
  | nil => rfl
  | cons char rest ih =>
      by_cases blank : Json.isSpace char = true
      · have spaces : ∀ space ∈ [' ', '\t', '\n', '\r'], space ≠ '"' ∧
            ¬ (space = '[' ∨ space = Char.ofNat 0x7b) ∧
            ¬ (space = ']' ∨ space = Char.ofNat 0x7d) := by decide
        obtain ⟨noQuote, noOpen, noClose⟩ := spaces char (List.contains_iff_mem.mp blank)
        rw [nesting_mark depth deepest rest noQuote noOpen noClose, ← ih, skipSpace, skipSpace,
          List.dropWhile_cons_of_pos blank]
      · rw [skipSpace, List.dropWhile_cons_of_neg blank]

theorem nesting_plain_run {text : Str} (rest : Str)
    (plain : ∀ char ∈ text, char ≠ '"' ∧ ¬ (char = '[' ∨ char = Char.ofNat 0x7b) ∧
      ¬ (char = ']' ∨ char = Char.ofNat 0x7d)) :
    nestingFrom .outside depth deepest (text ++ rest) =
      nestingFrom .outside depth deepest rest := by
  induction text with
  | nil => rfl
  | cons char text ih =>
      obtain ⟨noQuote, noOpen, noClose⟩ := plain char (List.mem_cons_self ..)
      rw [List.cons_append, nesting_mark depth deepest _ noQuote noOpen noClose,
        ih fun other member => plain other (List.mem_cons_of_mem _ member)]

theorem hex_value_plain {char : Char} {value : Nat} (hex : hexValue char = some value) :
    char ≠ '"' ∧ char ≠ '\\' := by
  constructor
  · rintro rfl
    revert hex
    simp [hexValue]
  · rintro rfl
    revert hex
    simp [hexValue]

theorem simple_escape_feed {char plain : Char} (known : simpleEscape char = some plain) :
    char ≠ '\n' := by
  rintro rfl
  revert known
  simp [simpleEscape]

/-- The scan leaves a string where the decoder does. -/
theorem nesting_units {text after : Str} {units : List Nat}
    (scanned : scanUnits text = some (units, after)) :
    nestingFrom .inString depth deepest text = nestingFrom .outside depth deepest after := by
  fun_induction scanUnits text generalizing units with
  | case1 => cases scanned
  | case2 rest =>
      cases scanned
      rw [nestingFrom, if_pos rfl]
  | case3 first second third fourth rest a b c d hexD hexC hexB hexA ih =>
      obtain ⟨read, further, same⟩ := Option.map_eq_some_iff.mp scanned
      cases same
      rw [nesting_escaped _ _ _ (by decide)]
      rw [nesting_plain _ _ _ (hex_value_plain hexA).1 (hex_value_plain hexA).2]
      rw [nesting_plain _ _ _ (hex_value_plain hexB).1 (hex_value_plain hexB).2]
      rw [nesting_plain _ _ _ (hex_value_plain hexC).1 (hex_value_plain hexC).2]
      rw [nesting_plain _ _ _ (hex_value_plain hexD).1 (hex_value_plain hexD).2]
      exact ih further
  | case4 => cases scanned
  | case5 char rest _ plain known ih =>
      obtain ⟨read, further, same⟩ := Option.map_eq_some_iff.mp scanned
      cases same
      rw [nesting_escaped _ _ _ (simple_escape_feed known)]
      exact ih further
  | case6 => cases scanned
  | case7 => cases scanned
  | case8 char rest noQuote _ _ printable ih =>
      obtain ⟨read, further, same⟩ := Option.map_eq_some_iff.mp scanned
      cases same
      rw [not_or] at printable
      rw [nesting_plain _ _ _ noQuote printable.2]
      exact ih further

theorem nesting_scanned_string {text after value : Str}
    (scanned : scanString text = some (value, after)) :
    nestingFrom .outside depth deepest ('"' :: text) =
      nestingFrom .outside depth deepest after := by
  obtain ⟨read, units, same⟩ := Option.map_eq_some_iff.mp scanned
  cases same
  rw [nestingFrom, if_pos rfl]
  exact nesting_units depth deepest units

theorem nesting_scanned_plain {text after : Str} {value : Json}
    (scanned : (scanNamed text).or (scanNumber text) = some (value, after)) :
    height value = 0 ∧ nestingFrom .outside depth deepest text =
      nestingFrom .outside depth deepest after := by
  rcases Option.or_eq_some_iff.mp scanned with named | ⟨-, number⟩
  · obtain ⟨read, known, rfl⟩ := scan_named_split named
    have plain : ∀ entry ∈ namedValues, height entry.2 = 0 ∧ ∀ char ∈ entry.1, char ≠ '"' ∧
        ¬ (char = '[' ∨ char = Char.ofNat 0x7b) ∧ ¬ (char = ']' ∨ char = Char.ofNat 0x7d) := by
      decide
    exact ⟨(plain _ known).1, nesting_plain_run depth deepest after (plain _ known).2⟩
  · obtain ⟨read, rfl, rfl⟩ := scan_number_split number
    have spelling := (scanned_number number).1
    refine ⟨rfl, nesting_plain_run depth deepest after ?_⟩
    intro char member
    have inside := spelling char member
    refine ⟨?_, ?_, ?_⟩
    · rintro rfl
      exact absurd inside (by decide)
    · rintro (rfl | rfl)
      · exact absurd inside (by decide)
      · exact absurd inside (by decide)
    · rintro (rfl | rfl)
      · exact absurd inside (by decide)
      · exact absurd inside (by decide)

theorem nesting_open {char : Char} (opens : char = '[' ∨ char = Char.ofNat 0x7b) (rest : Str) :
    nestingFrom .outside depth deepest (char :: rest) =
      nestingFrom .outside (depth + 1) (max deepest (depth + 1)) rest := by
  have noQuote : char ≠ '"' := by
    rintro rfl
    revert opens
    decide
  rw [nestingFrom, if_neg noQuote, if_pos opens]

theorem nesting_close {char : Char} (closes : char = ']' ∨ char = Char.ofNat 0x7d) (rest : Str) :
    nestingFrom .outside depth deepest (char :: rest) =
      nestingFrom .outside (depth - 1) deepest rest := by
  have apart : char ≠ '"' ∧ ¬ (char = '[' ∨ char = Char.ofNat 0x7b) := by
    rcases closes with rfl | rfl <;> decide
  rw [nestingFrom, if_neg apart.1, if_neg apart.2, if_pos closes]

end Scan

/-- What a number of rounds of the decoder leaves of the scan, a value's containers met. -/
structure Nests (rounds : Nat) : Prop where
  value : ∀ depth deepest text value after, depth ≤ deepest →
    scanValue rounds text = some (value, after) →
    nestingFrom .outside depth deepest text =
      nestingFrom .outside depth (max deepest (depth + height value)) after
  items : ∀ depth deepest text items after, depth + 1 ≤ deepest →
    scanItems rounds text = some (items, after) →
    nestingFrom .outside (depth + 1) deepest text =
      nestingFrom .outside depth (max deepest (depth + 1 + heightItems items)) after
  entries : ∀ depth deepest text entries after, depth + 1 ≤ deepest →
    scanEntries rounds text = some (entries, after) →
    nestingFrom .outside (depth + 1) deepest text =
      nestingFrom .outside depth (max deepest (depth + 1 + heightEntries entries)) after

theorem value_nests {rounds : Nat} (nests : Nests rounds) (depth deepest : Nat)
    (text : Str) (value : Json) (after : Str) (counted : depth ≤ deepest)
    (scanned : scanValue (rounds + 1) text = some (value, after)) :
    nestingFrom .outside depth deepest text =
      nestingFrom .outside depth (max deepest (depth + height value)) after := by
  cases text with
  | nil => cases scanned
  | cons char rest =>
      rw [scanValue] at scanned
      split at scanned
      · rename_i quote
        obtain ⟨read, string, same⟩ := Option.map_eq_some_iff.mp scanned
        cases same
        rw [quote, nesting_scanned_string depth deepest string]
        simp only [height, Nat.add_zero, max_eq_left counted]
      · split at scanned
        · rename_i brace
          rw [nesting_open depth deepest (Or.inr brace), ← nesting_skip]
          split at scanned
          · cases scanned
          · rename_i next more skipped
            rw [skipped]
            split at scanned
            · rename_i closed
              cases scanned
              rw [nesting_close _ _ (Or.inr closed)]
              simp [height, heightEntries]
            · obtain ⟨read, further, same⟩ := Option.map_eq_some_iff.mp scanned
              cases same
              rw [nests.entries depth _ _ _ _ (le_max_right _ _) further, height]
              congr 1
              omega
        · split at scanned
          · rename_i bracket
            rw [nesting_open depth deepest (Or.inl bracket), ← nesting_skip]
            split at scanned
            · cases scanned
            · rename_i next more skipped
              rw [skipped]
              split at scanned
              · rename_i closed
                cases scanned
                rw [nesting_close _ _ (Or.inl closed)]
                simp [height, heightItems]
              · obtain ⟨read, further, same⟩ := Option.map_eq_some_iff.mp scanned
                cases same
                rw [nests.items depth _ _ _ _ (le_max_right _ _) further, height]
                congr 1
                omega
          · obtain ⟨flat, passed⟩ := nesting_scanned_plain depth deepest scanned
            rw [passed, flat, Nat.add_zero, max_eq_left counted]

theorem items_nest {rounds : Nat} (nests : Nests rounds) (depth deepest : Nat)
    (text : Str) (items : List Json) (after : Str) (counted : depth + 1 ≤ deepest)
    (scanned : scanItems (rounds + 1) text = some (items, after)) :
    nestingFrom .outside (depth + 1) deepest text =
      nestingFrom .outside depth (max deepest (depth + 1 + heightItems items)) after := by
  rw [scanItems] at scanned
  split at scanned
  · cases scanned
  · rename_i item behind first
    rw [nests.value _ _ _ _ _ counted first, ← nesting_skip]
    split at scanned
    · rename_i rest closed
      cases scanned
      rw [closed, nesting_close _ _ (Or.inl rfl)]
      simp [heightItems]
    · rename_i rest comma
      obtain ⟨read, further, same⟩ := Option.map_eq_some_iff.mp scanned
      cases same
      rw [comma, nesting_mark _ _ _ (by decide) (by decide) (by decide), ← nesting_skip,
        nests.items depth _ _ _ _ (counted.trans (le_max_left _ _)) further, heightItems]
      congr 1
      omega
    · cases scanned

theorem entries_nest {rounds : Nat} (nests : Nests rounds) (depth deepest : Nat)
    (text : Str) (entries : List (Str × Json)) (after : Str) (counted : depth + 1 ≤ deepest)
    (scanned : scanEntries (rounds + 1) text = some (entries, after)) :
    nestingFrom .outside (depth + 1) deepest text =
      nestingFrom .outside depth (max deepest (depth + 1 + heightEntries entries)) after := by
  unfold scanEntries at scanned
  split at scanned
  · rename_i rest
    split at scanned
    · cases scanned
    · rename_i key behind named
      rw [nesting_scanned_string _ _ named, ← nesting_skip]
      split at scanned
      · rename_i more colon
        rw [colon, nesting_mark _ _ _ (by decide) (by decide) (by decide), ← nesting_skip]
        split at scanned
        · cases scanned
        · rename_i value left first
          rw [nests.value _ _ _ _ _ counted first, ← nesting_skip]
          split at scanned
          · cases scanned
          · rename_i next rest skipped
            rw [skipped]
            split at scanned
            · rename_i closed
              cases scanned
              rw [nesting_close _ _ (Or.inr closed)]
              simp [heightEntries]
            · split at scanned
              · rename_i comma
                obtain ⟨read, further, same⟩ := Option.map_eq_some_iff.mp scanned
                cases same
                rw [comma, nesting_mark _ _ _ (by decide) (by decide) (by decide), ← nesting_skip,
                  nests.entries depth _ _ _ _ (counted.trans (le_max_left _ _)) further,
                  heightEntries]
                congr 1
                omega
              · cases scanned
      · cases scanned
  · cases scanned

theorem decoder_nests (rounds : Nat) : Nests rounds := by
  induction rounds with
  | zero => exact ⟨nofun, nofun, nofun⟩
  | succ rounds nests =>
      exact ⟨value_nests nests, items_nest nests, entries_nest nests⟩

/-- What a number of rounds of the decoder opens has been counted by the scan. -/
structure Reaches (rounds : Nat) : Prop where
  value : ∀ depth deepest text, depth ≤ deepest →
    reachedValue rounds depth text ≤ nestingFrom .outside depth deepest text
  items : ∀ depth deepest text, depth ≤ deepest →
    reachedItems rounds depth text ≤ nestingFrom .outside depth deepest text
  entries : ∀ depth deepest text, depth ≤ deepest →
    reachedEntries rounds depth text ≤ nestingFrom .outside depth deepest text

theorem value_reaches {rounds : Nat} (reaches : Reaches rounds) (depth deepest : Nat)
    (text : Str) (counted : depth ≤ deepest) :
    reachedValue (rounds + 1) depth text ≤ nestingFrom .outside depth deepest text := by
  cases text with
  | nil => exact counted.trans (nesting_deepest depth deepest .outside [])
  | cons char rest =>
      have opened : depth + 1 ≤ max deepest (depth + 1) := le_max_right _ _
      rw [reachedValue]
      split
      · rename_i brace
        rw [nesting_open depth deepest (Or.inr brace), ← nesting_skip]
        split
        · exact opened.trans (nesting_deepest _ _ .outside _)
        · rename_i next after skipped
          rw [skipped]
          split
          · exact opened.trans (nesting_deepest _ _ .outside _)
          · exact reaches.entries _ _ _ opened
      · split
        · rename_i bracket
          rw [nesting_open depth deepest (Or.inl bracket), ← nesting_skip]
          split
          · exact opened.trans (nesting_deepest _ _ .outside _)
          · rename_i next after skipped
            rw [skipped]
            split
            · exact opened.trans (nesting_deepest _ _ .outside _)
            · exact reaches.items _ _ _ opened
        · exact counted.trans (nesting_deepest _ _ .outside _)

theorem items_reach {rounds : Nat} (reaches : Reaches rounds) (depth deepest : Nat)
    (text : Str) (counted : depth ≤ deepest) :
    reachedItems (rounds + 1) depth text ≤ nestingFrom .outside depth deepest text := by
  have outer : depth ≤ nestingFrom .outside depth deepest text :=
    counted.trans (nesting_deepest depth deepest .outside text)
  rw [reachedItems]
  apply max_le (reaches.value depth deepest text counted)
  split
  · exact outer
  · rename_i item after first
    split
    · rename_i rest comma
      rw [(decoder_nests rounds).value depth deepest text item after counted first, ← nesting_skip,
        comma, nesting_mark _ _ _ (by decide) (by decide) (by decide), ← nesting_skip]
      exact reaches.items _ _ _ (counted.trans (le_max_left _ _))
    · exact outer

theorem entries_reach {rounds : Nat} (reaches : Reaches rounds) (depth deepest : Nat)
    (text : Str) (counted : depth ≤ deepest) :
    reachedEntries (rounds + 1) depth text ≤ nestingFrom .outside depth deepest text := by
  have outer : depth ≤ nestingFrom .outside depth deepest text :=
    counted.trans (nesting_deepest depth deepest .outside text)
  unfold reachedEntries
  split
  · rename_i rest
    split
    · exact outer
    · rename_i key behind named
      split
      · rename_i more colon
        have passed : nestingFrom .outside depth deepest ('"' :: rest) =
            nestingFrom .outside depth deepest (skipSpace more) := by
          rw [nesting_scanned_string _ _ named, ← nesting_skip, colon,
            nesting_mark _ _ _ (by decide) (by decide) (by decide), nesting_skip]
        apply max_le
        · rw [passed]
          exact reaches.value _ _ _ counted
        · split
          · exact outer
          · rename_i value left first
            split
            · exact outer
            · rename_i next further skipped
              split
              · rename_i comma
                rw [passed, (decoder_nests rounds).value _ _ _ _ _ counted first, ← nesting_skip,
                  skipped, comma, nesting_mark _ _ _ (by decide) (by decide) (by decide),
                  ← nesting_skip]
                exact reaches.entries _ _ _ (counted.trans (le_max_left _ _))
              · exact outer
      · exact outer
  · exact outer

theorem decoder_reaches (rounds : Nat) : Reaches rounds := by
  induction rounds with
  | zero =>
      have outer : ∀ depth deepest text, depth ≤ deepest →
          depth ≤ nestingFrom .outside depth deepest text := fun depth deepest text counted =>
        counted.trans (nesting_deepest depth deepest .outside text)
      exact ⟨outer, outer, outer⟩
  | succ rounds reaches =>
      exact ⟨value_reaches reaches, items_reach reaches, entries_reach reaches⟩

mutual

/-- The nesting of the value a decoder returns: of the members of an object under one key it
keeps the last. -/
def decodedNesting : Json → Nat
  | .array items => decodedItems items + 1
  | .object entries => decodedEntries entries + 1
  | .null | .bool _ | .number _ | .string _ => 0

def decodedItems : List Json → Nat
  | [] => 0
  | item :: rest => max (decodedNesting item) (decodedItems rest)

def decodedEntries : List (Str × Json) → Nat
  | [] => 0
  | (key, value) :: rest =>
      if rest.any (fun entry => entry.1 == key) then decodedEntries rest
      else max (decodedNesting value) (decodedEntries rest)

end

/-- The decoder on a whole text, in any number of rounds. -/
def loadsWithin (rounds : Nat) (text : Str) : Option Json :=
  (scanValue rounds (skipSpace text)).bind fun (value, after) =>
    if skipSpace after = [] then some value else none

/-- The bound is exact for what the decoder takes, counting the containers it builds, those a later
member of the same key replaces included; and it bounds what the decoder opens on any text. -/
theorem nesting_bound_exact :
    (∀ rounds text value, loadsWithin rounds text = some value →
      jsonNestingDepth text = height value) ∧
    (∀ rounds text, reachedValue rounds 0 (skipSpace text) ≤ jsonNestingDepth text) ∧
    ∀ text, ¬ jsonNestingDepth text > jsonNestingLimit → loadJsonArtifact text = Json.loads text ∧
      ∀ rounds, reachedValue rounds 0 (skipSpace text) ≤ jsonNestingLimit := by
  have bounded : ∀ rounds text,
      reachedValue rounds 0 (skipSpace text) ≤ jsonNestingDepth text := by
    intro rounds text
    unfold jsonNestingDepth
    rw [← nesting_skip]
    exact (decoder_reaches rounds).value 0 0 (skipSpace text) le_rfl
  refine ⟨?_, bounded, ?_⟩
  · intro rounds text value loaded
    obtain ⟨⟨read, after⟩, scanned, ended⟩ := Option.bind_eq_some_iff.mp loaded
    dsimp only at ended
    split at ended
    · rename_i nothing
      cases ended
      unfold jsonNestingDepth
      rw [← nesting_skip, (decoder_nests rounds).value 0 0 _ _ _ le_rfl scanned, ← nesting_skip,
        nothing, nestingFrom]
      simp
    · cases ended
  · intro text shallow
    exact ⟨if_neg shallow, fun rounds => (bounded rounds text).trans (not_lt.mp shallow)⟩

/-- `nesting_bound_exact` at a text that is taken. -/
theorem nested_pair_counted : jsonNestingDepth "[[1], []]" = 2 := by
  have taken : (loadsWithin 20 "[[1], []]").isSome = true := by decide +kernel
  obtain ⟨value, loaded⟩ := Option.isSome_iff_exists.mp taken
  have counted := nesting_bound_exact.1 20 "[[1], []]" value loaded
  have deep : ((loadsWithin 20 "[[1], []]").map height).getD 0 = 2 := by decide +kernel
  rw [loaded] at deep
  exact counted.trans deep

/-- A member that a later one of its key replaces is counted. -/
theorem replaced_member_counted :
    (Json.loads "\x7b\"a\": [], \"a\": 1\x7d").map decodedNesting = some 1 ∧
      jsonNestingDepth "\x7b\"a\": [], \"a\": 1\x7d" = 2 := by
  constructor
  · decide +kernel
  · decide +kernel

end Defender.Filesystem
