import MapStyle.Number.Scalar
import MapStyle.Text.Hex

/-!
# Colors

A color has four channels, nominally between zero and one and not clamped. Clamping
happens where a color is rounded to bytes: for display, for digests and for the two
words in which a color travels to a shader.
-/

namespace MapStyle

/-- A color with red, green, blue and alpha channels. -/
structure Color (N : Type) where
  red : N
  green : N
  blue : N
  alpha : N
deriving DecidableEq, Repr

namespace Color

variable {W N : Type} [Scalar W] [Scalar N]

/-- Colors are equal when their channels are. -/
instance : BEq (Color N) :=
  ⟨fun a b => a.red == b.red && a.green == b.green && a.blue == b.blue && a.alpha == b.alpha⟩

def transparent : Color N := ⟨Scalar.zero, Scalar.zero, Scalar.zero, Scalar.zero⟩

def black : Color N := ⟨Scalar.zero, Scalar.zero, Scalar.zero, Scalar.one⟩

/-- A color from channels between 0 and 255. -/
def ofBytes (red green blue alpha : Nat) : Color N :=
  let channel (byte : Nat) : N := Scalar.ofNat byte / Scalar.ofNat 255
  ⟨channel red, channel green, channel blue, channel alpha⟩

/-- A color from style channels: red, green and blue up to 255, alpha up to one. -/
def ofChannels [Precision W N] (red green blue alpha : W) : Color N :=
  let channel (x : W) : N := narrow (x / Scalar.ofNat 255)
  ⟨channel red, channel green, channel blue, narrow alpha⟩

/-- A color from three style channels or, with alpha, from four. -/
def ofComponents? [Precision W N] : List W → Option (Color N)
  | [red, green, blue] => some (ofChannels red green blue Scalar.one)
  | [red, green, blue, alpha] => some (ofChannels red green blue alpha)
  | _ => none

def channels (c : Color N) : List N := [c.red, c.green, c.blue, c.alpha]

def withAlpha (c : Color N) (alpha : N) : Color N := { c with alpha }

/-- A channel as the nearest of the 256 steps between zero and one. -/
def toByte (channel : N) : Nat :=
  Scalar.nearest (Scalar.clamp channel Scalar.zero Scalar.one * Scalar.ofNat 255)

/-- The four channels as bytes. -/
def bytes (c : Color N) : List Nat := c.channels.map toByte

/-- The channels as hexadecimal bytes after `#`. -/
def text (c : Color N) : String := String.ofList ('#' :: c.bytes.flatMap (Text.hexDigits 2))

/-- Blend two colors channel by channel; the factor is not clamped. -/
def mix (a b : Color N) (t : N) : Color N :=
  let blend (x y : N) : N := x + (y - x) * t
  ⟨blend a.red b.red, blend a.green b.green, blend a.blue b.blue, blend a.alpha b.alpha⟩

/-- Two words of 16 bits, two bytes in each: red and green, then blue and alpha. -/
def pack (c : Color N) : N × N :=
  (Scalar.ofNat (toByte c.red * 256 + toByte c.green),
    Scalar.ofNat (toByte c.blue * 256 + toByte c.alpha))

/-- The color in two words. -/
def unpack (first second : N) : Color N :=
  let step : N := Scalar.ofNat 256
  let full : N := Scalar.ofNat 255
  let high := Scalar.floor (first / step)
  let middle := Scalar.floor (second / step)
  ⟨high / full, (first - high * step) / full, middle / full, (second - middle * step) / full⟩

end Color

end MapStyle
