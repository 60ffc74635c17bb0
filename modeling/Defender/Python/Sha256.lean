import Defender.Library.Wire
import Defender.Python.Text

/-!
# SHA-256

`hashlib.sha256(data).hexdigest()`. No proof here looks into it: two digests are compared,
and equal bytes have equal ones.
-/

namespace Defender.Python

open Defender.Library.Wire

namespace Sha256

def roundConstants : List UInt32 :=
  [0x428a2f98, 0x71374491, 0xb5c0fbcf, 0xe9b5dba5, 0x3956c25b, 0x59f111f1, 0x923f82a4, 0xab1c5ed5,
    0xd807aa98, 0x12835b01, 0x243185be, 0x550c7dc3, 0x72be5d74, 0x80deb1fe, 0x9bdc06a7, 0xc19bf174,
    0xe49b69c1, 0xefbe4786, 0x0fc19dc6, 0x240ca1cc, 0x2de92c6f, 0x4a7484aa, 0x5cb0a9dc, 0x76f988da,
    0x983e5152, 0xa831c66d, 0xb00327c8, 0xbf597fc7, 0xc6e00bf3, 0xd5a79147, 0x06ca6351, 0x14292967,
    0x27b70a85, 0x2e1b2138, 0x4d2c6dfc, 0x53380d13, 0x650a7354, 0x766a0abb, 0x81c2c92e, 0x92722c85,
    0xa2bfe8a1, 0xa81a664b, 0xc24b8b70, 0xc76c51a3, 0xd192e819, 0xd6990624, 0xf40e3585, 0x106aa070,
    0x19a4c116, 0x1e376c08, 0x2748774c, 0x34b0bcb5, 0x391c0cb3, 0x4ed8aa4a, 0x5b9cca4f, 0x682e6ff3,
    0x748f82ee, 0x78a5636f, 0x84c87814, 0x8cc70208, 0x90befffa, 0xa4506ceb, 0xbef9a3f7, 0xc67178f2]

/-- The eight words a digest is made of. -/
structure Words where
  a : UInt32
  b : UInt32
  c : UInt32
  d : UInt32
  e : UInt32
  f : UInt32
  g : UInt32
  h : UInt32

def initial : Words :=
  { a := 0x6a09e667, b := 0xbb67ae85, c := 0x3c6ef372, d := 0xa54ff53a, e := 0x510e527f,
    f := 0x9b05688c, g := 0x1f83d9ab, h := 0x5be0cd19 }

def rotateRight (word : UInt32) (places : UInt32) : UInt32 :=
  (word >>> places) ||| (word <<< (32 - places))

/-- The message with its mark, its zeros and its length in bits. -/
def pad (data : Bytes) : Bytes :=
  data ++ 0x80 :: (List.replicate ((119 - data.length % 64) % 64) 0 ++
    bigEndian 8 (data.length * 8))

def wordsOf : Bytes → List UInt32
  | first :: second :: third :: fourth :: rest =>
      UInt32.ofNat (numberOf [first, second, third, fourth]) :: wordsOf rest
  | _ => []

/-- The words of a block's schedule from the last sixteen, the latest first. -/
def schedule : Nat → List UInt32 → List UInt32
  | 0, words => words
  | rounds + 1, words =>
      let early := words.getD 14 0
      let late := words.getD 1 0
      let mixEarly := rotateRight early 7 ^^^ rotateRight early 18 ^^^ (early >>> 3)
      let mixLate := rotateRight late 17 ^^^ rotateRight late 19 ^^^ (late >>> 10)
      schedule rounds ((words.getD 15 0 + mixEarly + words.getD 6 0 + mixLate) :: words)

def round (words : Words) (constant word : UInt32) : Words :=
  let mixE := rotateRight words.e 6 ^^^ rotateRight words.e 11 ^^^ rotateRight words.e 25
  let choice := (words.e &&& words.f) ^^^ ((~~~words.e) &&& words.g)
  let first := words.h + mixE + choice + constant + word
  let mixA := rotateRight words.a 2 ^^^ rotateRight words.a 13 ^^^ rotateRight words.a 22
  let majority := (words.a &&& words.b) ^^^ (words.a &&& words.c) ^^^ (words.b &&& words.c)
  { a := first + mixA + majority, b := words.a, c := words.b, d := words.c, e := words.d + first,
    f := words.e, g := words.f, h := words.g }

def compress (words : Words) (block : Bytes) : Words :=
  let scheduled := (schedule 48 (wordsOf block).reverse).reverse
  let after := (roundConstants.zip scheduled).foldl
    (fun held step => round held step.1 step.2) words
  { a := words.a + after.a, b := words.b + after.b, c := words.c + after.c, d := words.d + after.d,
    e := words.e + after.e, f := words.f + after.f, g := words.g + after.g, h := words.h + after.h }

end Sha256

open Sha256 in
@[irreducible] def sha256Hex (data : Bytes) : Str :=
  let digest := ((pad data).toChunks 64).foldl compress initial
  [digest.a, digest.b, digest.c, digest.d, digest.e, digest.f, digest.g, digest.h].flatMap
    fun word => hexDigits 8 word.toNat

end Defender.Python
