import Defender.Python.Text

/-!
# Open slots

A cell is open while it reads `??` or a candidate set; a class cell is open when
one of its slots is. Slots are split at slashes outside braces.
-/

namespace Defender.Invlang

open Defender.Python

def openMarker : Str := ['?', '?']

def isUnresolved (value : Str) : Bool :=
  let bare := strip value
  bare == openMarker ||
    (startsWith ['{'] bare && (endsWith ['}'] bare || bare.count '}' < bare.count '{'))

def isIdentOpen (value : Str) : Bool := isUnresolved value || contains openMarker value

/-- The slot scan: `cur` is the slot read so far, `depth` the open braces. -/
def classSlotsFrom : Nat → Str → Str → List Str
  | _, cur, [] => [cur]
  | depth, cur, char :: rest =>
      if char == '{' then classSlotsFrom (depth + 1) (cur ++ [char]) rest
      else if char == '}' then classSlotsFrom (depth - 1) (cur ++ [char]) rest
      else if char == '/' && depth == 0 then cur :: classSlotsFrom depth [] rest
      else classSlotsFrom depth (cur ++ [char]) rest

/-- A class cell without an optional leading `<type>:`. -/
def withoutTypePrefix (classification : Str) : Str :=
  let bare := strip classification
  let (head, found, rest) := partition [':'] bare
  if found && !head.contains '{' && !head.contains '/' then strip rest else bare

def classSlots (classification : Str) : List Str :=
  (classSlotsFrom 0 [] (withoutTypePrefix classification)).map strip

def isOpenSlot (slot : Str) : Bool := isUnresolved slot || slot.count '}' < slot.count '{'

def hasOpenSlot (classification : Str) : Bool := (classSlots classification).any isOpenSlot

end Defender.Invlang
