/-!
# SipHash

A keyed hash of bytes with 64 bits, here with one round for each word, three at the end, and a key of zeros. A text is hashed
as its bytes in UTF-8 and one byte behind them that occurs in no text.
-/

namespace TileDepot.Text.SipHash

/-- The four words of state. -/
structure State where
  (v0 v1 v2 v3 : UInt64)
deriving Repr, DecidableEq

namespace State

/-- The state before the first word, for a key of zeros. -/
def initial : State := ⟨0x736f6d6570736575, 0x646f72616e646f6d, 0x6c7967656e657261, 0x7465646279746573⟩

/-- A word rotated to the left. -/
def rotate (x : UInt64) (n : UInt64) : UInt64 := (x <<< n) ||| (x >>> (64 - n))

/-- One round. -/
def round (s : State) : State :=
  let v0 := s.v0 + s.v1
  let v1 := rotate s.v1 13 ^^^ v0
  let v0 := rotate v0 32
  let v2 := s.v2 + s.v3
  let v3 := rotate s.v3 16 ^^^ v2
  let v0 := v0 + v3
  let v3 := rotate v3 21 ^^^ v0
  let v2 := v2 + v1
  let v1 := rotate v1 17 ^^^ v2
  let v2 := rotate v2 32
  ⟨v0, v1, v2, v3⟩

/-- One word taken in. -/
def absorb (s : State) (word : UInt64) : State :=
  let s := { s with v3 := s.v3 ^^^ word }.round
  { s with v0 := s.v0 ^^^ word }

/-- The hash once all words are taken in. -/
def finish (s : State) : UInt64 :=
  let s := { s with v2 := s.v2 ^^^ 0xff }.round.round.round
  s.v0 ^^^ s.v1 ^^^ s.v2 ^^^ s.v3

end State

/-- The number that bytes make up, the lowest first. -/
def littleEndian (bytes : List UInt8) : Nat := bytes.foldr (fun b n => 256 * n + b.toNat) 0

/-- The last word: the bytes left over, and the length of all in the highest byte. -/
def lastWord (length : Nat) (bytes : List UInt8) : UInt64 :=
  UInt64.ofNat (littleEndian bytes + (length % 256) * Nat.pow 2 56)

/-- Bytes taken in word by word, then the last word. -/
def absorbAll (fuel length : Nat) (s : State) (bytes : List UInt8) : State :=
  match fuel with
  | 0 => s
  | fuel + 1 =>
    if bytes.length < 8 then s.absorb (lastWord length bytes)
    else absorbAll fuel length (s.absorb (UInt64.ofNat (littleEndian (bytes.take 8)))) (bytes.drop 8)

/-- The hash of some bytes. -/
def hashBytes (bytes : List UInt8) : UInt64 :=
  (absorbAll (bytes.length / 8 + 1) bytes.length .initial bytes).finish

/-- The hash of a text. -/
def hashText (text : String) : Nat := (hashBytes (text.toUTF8.toList ++ [0xff])).toNat

end TileDepot.Text.SipHash
