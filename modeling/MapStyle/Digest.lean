import MapStyle.Text.Hex

/-!
# Digests

A digest is taken of a sequence of words. What a value contributes to a digest is
stated as such a sequence, apart from the arithmetic that folds the sequence into 64
bits; two values with the same sequence have the same digest.
-/

namespace MapStyle

/-- One step of a digest: a number of at most 64 bits, or a run of bytes. -/
inductive Word where
  | number (value : Nat)
  | bytes (content : List UInt8)
deriving DecidableEq, Repr

namespace Word

/-- A truth value as a word. -/
def ofBool (b : Bool) : Word := number b.toNat

/-- A text: its bytes, and a number that is no byte of a text. -/
def ofString (s : String) : List Word := [bytes s.toUTF8.data.toList, number 0xff]

end Word

namespace Digest

def multiplier : UInt64 := 0xf1357aea2e62a9c5

def firstSeed : UInt64 := 0x243f6a8885a308d3

def secondSeed : UInt64 := 0x13198a2e03707344

def chunkSeed : UInt64 := 0xa4093822299f31d0

/-- Fold the two halves of the product of two numbers together. -/
def mix (x y : UInt64) : UInt64 :=
  let product := x.toNat * y.toNat
  UInt64.ofNat product ^^^ UInt64.ofNat (product / UInt64.size)

/-- The number written by bytes, least significant first. -/
def little (bytes : List UInt8) : UInt64 :=
  bytes.foldr (fun byte number => number * 256 + byte.toUInt64) 0

/-- Fold the whole chunks of 16 bytes, as many as there are steps of fuel. -/
def foldChunks : (chunks : Nat) → UInt64 → UInt64 → List UInt8 → UInt64 × UInt64
  | 0, first, second, _ => (first, second)
  | chunks + 1, first, second, bytes =>
    let low := little (bytes.take 8)
    let high := little ((bytes.drop 8).take 8)
    foldChunks chunks second (mix (first ^^^ low) (chunkSeed ^^^ high)) (bytes.drop 16)

/-- The number a run of bytes stands for. Up to 16 bytes are read from both ends; of longer
runs the chunks that end before the last byte are folded first. -/
def ofBytes (bytes : List UInt8) : UInt64 :=
  let length := bytes.length
  let ends (size : Nat) : UInt64 × UInt64 :=
    (little (bytes.take size), little (bytes.drop (length - size)))
  let (first, second) :=
    if length ≤ 16 then
      if 8 ≤ length then
        let (head, tail) := ends 8
        (firstSeed ^^^ head, secondSeed ^^^ tail)
      else if 4 ≤ length then
        let (head, tail) := ends 4
        (firstSeed ^^^ head, secondSeed ^^^ tail)
      else if 0 < length then
        let byte (index : Nat) : UInt64 := (bytes.getD index 0).toUInt64
        (firstSeed ^^^ byte 0, secondSeed ^^^ (byte (length - 1) <<< 8 ||| byte (length / 2)))
      else (firstSeed, secondSeed)
    else
      let (first, second) := foldChunks ((length - 1) / 16) firstSeed secondSeed bytes
      let tail := bytes.drop (length - 16)
      (first ^^^ little (tail.take 8), second ^^^ little (tail.drop 8))
  mix first second ^^^ UInt64.ofNat length

/-- Add a word to a running digest. -/
def add (state : UInt64) (word : Word) : UInt64 :=
  let value := match word with
    | .number value => UInt64.ofNat value
    | .bytes content => ofBytes content
  (state + value) * multiplier

/-- The digest of a sequence of words. -/
def ofWords (words : List Word) : UInt64 :=
  let state := words.foldl add 0
  state <<< 26 ||| state >>> 38

/-- A digest as hexadecimal digits. -/
def text (hash : UInt64) : String := String.ofList (Text.hexDigits 16 hash.toNat)

end Digest

end MapStyle
