import Mathlib
import MapStyle.Packing.Attribute
import MapStyle.Proofs.Shader.Image

/-!
# Packing and decoding

Packing loses what a narrow word cannot hold. `Attribute.Fits` lists what that comes to over
exact numbers: a number of a declared range has to lie in it, any other number in the range
of the narrow machine type, and the channels of a color have to be bytes. A value that fits
is decoded to its image.
-/

namespace MapStyle

variable {K : Type} [Field K] [LinearOrder K] [IsStrictOrderedRing K] [FloorRing K] [Elementary K]

namespace Color

/-- Rounding to a natural number, by the whole part. -/
theorem nearest_eq {x : K} (least : 0 ≤ x) :
    Scalar.nearest x = if x - ⌊x⌋₊ < 1 / 2 then ⌊x⌋₊ else ⌊x⌋₊ + 1 := by
  have whole : (Scalar.floor x : K) = (⌊x⌋₊ : Nat) := by
    show ((⌊x⌋ : Int) : K) = (⌊x⌋₊ : Nat)
    rw [natCast_floor_eq_intCast_floor least]
  have toNat (n : Nat) : Scalar.toNat (n : K) = n := by
    show ⌊(n : K)⌋.toNat = n
    rw [Int.floor_natCast, Int.toNat_natCast]
  rw [Scalar.nearest]
  simp only [whole, Exact.lt_iff, Exact.half_eq, Exact.one_eq]
  split
  · exact toNat _
  · exact_mod_cast toNat (⌊x⌋₊ + 1)

/-- A byte survives as a channel. -/
theorem toByte_channel {byte : Nat} (small : byte < 256) :
    toByte ((byte : K) / (255 : Nat)) = byte := by
  have most : (byte : K) ≤ 255 := by exact_mod_cast Nat.le_of_lt_succ small
  have inside : Scalar.clamp ((byte : K) / (255 : Nat)) 0 1 = (byte : K) / (255 : Nat) := by
    refine Exact.clamp_of_mem (by positivity) ?_
    rw [div_le_one (by norm_num)]
    exact_mod_cast most
  have scaled : (byte : K) / (255 : Nat) * (255 : Nat) = byte :=
    div_mul_cancel₀ _ (by norm_num)
  rw [toByte, Exact.zero_eq, Exact.one_eq, inside, Exact.ofNat_eq, scaled,
    nearest_eq (Nat.cast_nonneg _), Nat.floor_natCast, if_pos]
  rw [sub_self]
  norm_num

/-- The two bytes of a word. -/
theorem floor_word {high low : Nat} (small : low < 256) :
    Scalar.floor (((high * 256 + low : Nat) : K) / (256 : Nat)) = (high : K) := by
  show ((⌊((high * 256 + low : Nat) : K) / (256 : Nat)⌋ : Int) : K) = high
  have strict : (low : K) < 256 := by exact_mod_cast small
  have least : (0 : K) ≤ low := Nat.cast_nonneg low
  have floor : ⌊((high * 256 + low : Nat) : K) / (256 : Nat)⌋ = (high : Int) := by
    rw [Int.floor_eq_iff]
    push_cast
    constructor
    · rw [le_div_iff₀ (by norm_num)]
      linarith
    · rw [div_lt_iff₀ (by norm_num)]
      linarith
  rw [floor, Int.cast_natCast]

/-- Rounding moves a number by a half at most. -/
theorem abs_nearest_sub {x : K} (least : 0 ≤ x) : |(Scalar.nearest x : K) - x| ≤ 1 / 2 := by
  have below : (⌊x⌋₊ : K) ≤ x := Nat.floor_le least
  have above : x < ⌊x⌋₊ + 1 := Nat.lt_floor_add_one x
  rw [nearest_eq least, abs_le]
  split
  · constructor <;> linarith
  · push_cast
    constructor <;> linarith

/-- A number is not rounded beyond a natural number. -/
theorem nearest_le {x : K} {n : Nat} (least : 0 ≤ x) (most : x ≤ n) : Scalar.nearest x ≤ n := by
  have near := (abs_le.1 (abs_nearest_sub least)).2
  have close : (Scalar.nearest x : K) < (n + 1 : Nat) := by
    push_cast
    linarith
  exact Nat.lt_succ_iff.1 (by exact_mod_cast close)

theorem scaled_mem (channel : K) :
    0 ≤ Scalar.clamp channel 0 1 * (255 : Nat) ∧
      Scalar.clamp channel 0 1 * (255 : Nat) ≤ (255 : Nat) := by
  rw [Exact.clamp_eq zero_le_one]
  have least : 0 ≤ max 0 (min channel 1) := le_max_left _ _
  have most : max 0 (min channel 1) ≤ 1 := max_le zero_le_one (min_le_right _ _)
  push_cast
  constructor <;> linarith

/-- Every channel, whatever its value, is rounded to a byte. -/
theorem toByte_lt (channel : K) : toByte channel < 256 := by
  obtain ⟨least, most⟩ := scaled_mem channel
  rw [toByte, Exact.zero_eq, Exact.one_eq, Exact.ofNat_eq]
  exact Nat.lt_succ_iff.2 (nearest_le least most)

/-- The byte of a channel is off by half a step of 255 at most. -/
theorem abs_toByte_sub (channel : K) :
    |(toByte channel : K) / (255 : Nat) - max 0 (min channel 1)| ≤ 1 / 510 := by
  obtain ⟨least, -⟩ := scaled_mem channel
  have near := abs_le.1 (abs_nearest_sub least)
  rw [Exact.clamp_eq zero_le_one] at near
  rw [toByte, Exact.zero_eq, Exact.one_eq, Exact.ofNat_eq, Exact.clamp_eq zero_le_one, abs_le,
    Nat.cast_ofNat, div_sub' (by norm_num), le_div_iff₀ (by norm_num), div_le_iff₀ (by norm_num)]
  push_cast at near ⊢
  constructor <;> linarith

/-- What is decoded of a color's two words has its bytes for channels. -/
theorem unpack_pack_eq_ofBytes (c : Color K) :
    unpack c.pack.1 c.pack.2 =
      ofBytes (toByte c.red) (toByte c.green) (toByte c.blue) (toByte c.alpha) := by
  have low (high low : Nat) : ((high * 256 + low : Nat) : K) - high * (256 : Nat) = low := by
    push_cast
    ring
  simp only [ofBytes, pack, unpack, toByte_lt, floor_word, Exact.ofNat_eq, low]

/-- A color of bytes has those bytes. -/
theorem toByte_ofBytes {red green blue alpha : Nat} (ofRed : red < 256) (ofGreen : green < 256)
    (ofBlue : blue < 256) (ofAlpha : alpha < 256) :
    let c : Color K := ofBytes red green blue alpha
    toByte c.red = red ∧ toByte c.green = green ∧ toByte c.blue = blue ∧
      toByte c.alpha = alpha :=
  ⟨toByte_channel ofRed, toByte_channel ofGreen, toByte_channel ofBlue, toByte_channel ofAlpha⟩

/-- A color of bytes is decoded from its two words. -/
theorem unpack_pack {red green blue alpha : Nat} (ofRed : red < 256) (ofGreen : green < 256)
    (ofBlue : blue < 256) (ofAlpha : alpha < 256) :
    let c : Color K := ofBytes red green blue alpha
    unpack c.pack.1 c.pack.2 = c := by
  obtain ⟨red, green, blue, alpha⟩ := toByte_ofBytes (K := K) ofRed ofGreen ofBlue ofAlpha
  simp only [unpack_pack_eq_ofBytes, red, green, blue, alpha]

end Color

namespace Attribute

/-- An attribute can hold a value. -/
def Fits (a : Attribute K K) (value : Value K K) : Prop :=
  match a.quantization, value with
  | .raw, .number n => -Scalar.narrowLimit ≤ n ∧ n ≤ Scalar.narrowLimit
  | .normalized minimum maximum, .number n => minimum ≤ n ∧ n ≤ maximum
  | .packedColor, .color c => ∃ red green blue alpha, red < 256 ∧ green < 256 ∧ blue < 256 ∧
      alpha < 256 ∧ c = Color.ofBytes red green blue alpha
  | _, _ => True

/-- A number of a range is decoded from its place in the range. -/
theorem blend_place {x low high : K} (apart : low < high) :
    Builtin.blend ((x - low) / (high - low)) low high = x := by
  have positive : 0 < high - low := by linarith
  rw [Builtin.blend, Exact.one_eq]
  field_simp
  ring

/-- A value that fits is decoded to its image. -/
theorem image?_decode {a : Attribute K K} {value : Value K K} {bounds : Option (K × K)}
    (ofType : value.type = a.type) (shown : a.type ≠ .numberArray)
    (packed : a.quantization = Quantization.of a.type bounds)
    (inOrder : ∀ low high, bounds = some (low, high) → low < high) (fits : a.Fits value) :
    value.image? = some (a.decode (a.pack value).1) := by
  cases value with
  | numberArray items => exact absurd ofType.symm shown
  | boolean b =>
    have flag : a.quantization = .flag := by rw [packed, ← ofType]; rfl
    simp only [decode, pack, flag]
    exact congrArg some (congrArg ShaderValue.bool (ShaderValue.half_lt_ofBool b).symm)
  | string s =>
    have number : a.quantization = .stringId := by rw [packed, ← ofType]; rfl
    simp only [decode, pack, number]
    rfl
  | color c =>
    have words : a.quantization = .packedColor := by rw [packed, ← ofType]; rfl
    simp only [Fits, words] at fits
    obtain ⟨red, green, blue, alpha, ofRed, ofGreen, ofBlue, ofAlpha, rfl⟩ := fits
    simp only [decode, pack, words]
    exact congrArg some (congrArg (ShaderValue.vec4 ∘ Vec4.ofColor)
      (Color.unpack_pack ofRed ofGreen ofBlue ofAlpha).symm)
  | number n =>
    have range : a.quantization = Quantization.of .number bounds := by rw [packed, ← ofType]; rfl
    cases bounds with
    | none =>
      have raw : a.quantization = .raw := range
      simp only [Fits, raw] at fits
      simp only [decode, pack, raw, Value.asNumber?, Option.getD_some, Exact.isNaN_eq,
        Bool.false_eq_true, if_false, Exact.clamp_of_mem fits.1 fits.2]
      rfl
    | some ends =>
      obtain ⟨low, high⟩ := ends
      have normalized : a.quantization = .normalized low high := range
      simp only [Fits, normalized] at fits
      simp only [decode, pack, normalized, Value.asNumber?, Option.getD_some,
        Exact.clamp_of_mem fits.1 fits.2]
      exact congrArg some (congrArg ShaderValue.float (blend_place (inOrder low high rfl)).symm)

end Attribute

end MapStyle
