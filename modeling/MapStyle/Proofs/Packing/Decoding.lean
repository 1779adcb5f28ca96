import Mathlib
import MapStyle.Proofs.Packing.Plan
import MapStyle.Proofs.Packing.RoundTrip
import MapStyle.Proofs.Style.Parity

/-!
# What comes back out of the words

`Attribute.Fits` says which values survive packing unchanged. Here no value is left out:
`Attribute.Restores` says what the words of any value are decoded to, over exact numbers. A
number comes back as the nearest one its attribute can hold, and its packing reports an issue
exactly where that is another number. The channels of a color come back off by half a step at
most, and a color that came back is packed into the words it came from.
-/

namespace MapStyle

variable {K : Type} [Field K] [LinearOrder K] [IsStrictOrderedRing K] [FloorRing K] [Elementary K]

/-- A vector holds the channels of one color only. -/
theorem Vec4.ofColor_inj {N : Type} {c d : Color N} (same : ofColor c = ofColor d) : c = d := by
  cases c
  cases d
  cases same
  rfl

namespace Color

/-- The channels of a color are those of another one between zero and one, to half a step of
the 255 a byte has. -/
def Near (decoded given : Color K) : Prop :=
  List.Forall₂ (fun channel original => |channel - max 0 (min original 1)| ≤ 1 / 510)
    decoded.channels given.channels

theorem unpack_pack_near (c : Color K) : (unpack c.pack.1 c.pack.2).Near c := by
  rw [unpack_pack_eq_ofBytes]
  exact .cons (abs_toByte_sub _) (.cons (abs_toByte_sub _)
    (.cons (abs_toByte_sub _) (.cons (abs_toByte_sub _) .nil)))

/-- A color that was decoded is packed into the words it was decoded from. -/
theorem pack_unpack_pack (c : Color K) : (unpack c.pack.1 c.pack.2).pack = c.pack := by
  obtain ⟨red, green, blue, alpha⟩ := toByte_ofBytes (K := K) (toByte_lt c.red)
    (toByte_lt c.green) (toByte_lt c.blue) (toByte_lt c.alpha)
  rw [unpack_pack_eq_ofBytes, pack, red, green, blue, alpha, pack]

end Color

namespace Attribute

/-- What a value is decoded to: itself, or what is left of it in the words. A list of numbers has
no words of its own and is packed as the least number an attribute of its type starts from. -/
def Restores (a : Attribute K K) : Value K K → ShaderValue K → Prop
  | .boolean b, decoded => decoded = .bool b
  | .string s, decoded => decoded = .float (stringId s : Nat)
  | .color c, decoded => ∃ d : Color K, decoded = .vec4 (Vec4.ofColor d) ∧ d.Near c
  | .number n, decoded =>
    match a.quantization with
    | .normalized low high => decoded = .float (max low (min n high))
    | _ => decoded = .float (max (-Scalar.narrowLimit) (min n Scalar.narrowLimit))
  | .numberArray _, decoded =>
    match a.quantization with
    | .normalized low _ => decoded = .float low
    | _ => decoded = .float 0

/-- A value that is packed and decoded. -/
structure RoundTrips (a : Attribute K K) (value : Value K K) : Prop where
  words : (a.pack value).1.length = a.components
  restores : a.Restores value (a.decode (a.pack value).1)
  again : ∀ c d, value = .color c → a.decode (a.pack value).1 = .vec4 (Vec4.ofColor d) →
    (a.pack (.color d)).1 = (a.pack value).1
  reported : ∀ n, value = .number n →
    ((a.pack value).2.isSome = true ↔ a.decode (a.pack value).1 ≠ .float n)

omit [IsStrictOrderedRing K] in
/-- An issue is reported exactly where another number was packed. -/
theorem isSome_issue {raw packed low high : K} :
    (if packed != raw then some (⟨raw, low, high⟩ : PackIssue K) else none).isSome = true ↔
      (.float packed : ShaderValue K) ≠ .float raw := by
  rw [Ne, ShaderValue.float.injEq]
  by_cases same : packed = raw
  · simp [same]
  · simp [same]

variable {a : Attribute K K}

/-! ## Numbers -/

theorem narrowLimit_nonneg : (0 : K) ≤ Scalar.narrowLimit := Nat.cast_nonneg _

theorem neg_narrowLimit_le : -(Scalar.narrowLimit : K) ≤ Scalar.narrowLimit :=
  (neg_nonpos.2 narrowLimit_nonneg).trans narrowLimit_nonneg

omit [IsStrictOrderedRing K] in
theorem decode_pack_raw (raw : a.quantization = .raw) (value : Value K K) :
    a.decode (a.pack value).1 = .float
      (Scalar.clamp (value.asNumber?.getD 0) (-Scalar.narrowLimit) Scalar.narrowLimit) := by
  simp only [decode, pack, raw, Exact.isNaN_eq, Exact.zero_eq, Bool.false_eq_true, if_false]
  rfl

theorem decode_pack_normalized {low high : K} (normalized : a.quantization = .normalized low high)
    (apart : low < high) (value : Value K K) :
    a.decode (a.pack value).1 = .float (Scalar.clamp (value.asNumber?.getD low) low high) := by
  simp only [decode, pack, normalized]
  exact congrArg ShaderValue.float (blend_place apart)

theorem roundTrips_raw (raw : a.quantization = .raw) (n : K) : a.RoundTrips (.number n) where
  words := a.length_pack _
  restores := by
    simp only [Restores, raw, ← Exact.clamp_eq neg_narrowLimit_le]
    exact decode_pack_raw raw _
  again := nofun
  reported := by
    rintro _ ⟨rfl⟩
    rw [decode_pack_raw raw]
    simp only [pack, raw, Exact.isNaN_eq, Bool.false_eq_true, if_false]
    exact isSome_issue

theorem roundTrips_normalized {low high : K} (normalized : a.quantization = .normalized low high)
    (apart : low < high) (n : K) : a.RoundTrips (.number n) where
  words := a.length_pack _
  restores := by
    simp only [Restores, normalized, ← Exact.clamp_eq apart.le]
    exact decode_pack_normalized normalized apart _
  again := nofun
  reported := by
    rintro _ ⟨rfl⟩
    rw [decode_pack_normalized normalized apart]
    simp only [pack, normalized]
    exact isSome_issue

/-! ## Lists of numbers -/

theorem roundTrips_numberArray {bounds : Option (K × K)} (items : List K)
    (packed : a.quantization = Quantization.of .numberArray bounds)
    (apart : ∀ low high, a.quantization = .normalized low high → low < high) :
    a.RoundTrips (.numberArray items) where
  words := a.length_pack _
  restores := by
    cases bounds with
    | none =>
      have raw : a.quantization = .raw := packed
      have least : -(Scalar.narrowLimit : K) ≤ 0 := neg_nonpos.2 narrowLimit_nonneg
      simp only [Restores, raw]
      rw [decode_pack_raw raw]
      exact congrArg ShaderValue.float (Exact.clamp_of_mem least narrowLimit_nonneg)
    | some ends =>
      have normalized : a.quantization = .normalized ends.1 ends.2 := packed
      have below := apart _ _ normalized
      simp only [Restores, normalized]
      rw [decode_pack_normalized normalized below]
      exact congrArg ShaderValue.float (Exact.clamp_of_mem le_rfl below.le)
  again := nofun
  reported := nofun

/-! ## Other values -/

theorem roundTrips_boolean (flag : a.quantization = .flag) (b : Bool) :
    a.RoundTrips (.boolean b) where
  words := a.length_pack _
  restores := by
    simp only [Restores, decode, pack, flag]
    exact congrArg ShaderValue.bool (ShaderValue.half_lt_ofBool b)
  again := nofun
  reported := nofun

omit [IsStrictOrderedRing K] in
theorem roundTrips_string (number : a.quantization = .stringId) (s : String) :
    a.RoundTrips (.string s) where
  words := a.length_pack _
  restores := by
    simp only [Restores, decode, pack, number]
    rfl
  again := nofun
  reported := nofun

theorem roundTrips_color (packed : a.quantization = .packedColor) (c : Color K) :
    a.RoundTrips (.color c) where
  words := a.length_pack _
  restores := by
    simp only [Restores, decode, pack, packed]
    exact ⟨_, rfl, c.unpack_pack_near⟩
  again := by
    rintro _ d ⟨rfl⟩ decoded
    simp only [decode, pack, packed] at decoded
    have same : Color.unpack c.pack.1 c.pack.2 = d :=
      Vec4.ofColor_inj (ShaderValue.vec4.inj decoded)
    simp only [pack, packed]
    show [d.pack.1, d.pack.2] = [c.pack.1, c.pack.2]
    rw [← same, c.pack_unpack_pack]
  reported := nofun

/-- Whatever value of its type is packed for an attribute, its words are decoded to what the
attribute can hold of it. -/
theorem roundTrips_of_type {bounds : Option (K × K)}
    (packed : a.quantization = Quantization.of a.type bounds)
    (apart : ∀ low high, a.quantization = .normalized low high → low < high) {value : Value K K}
    (ofType : value.type = a.type) : a.RoundTrips value := by
  rw [← ofType] at packed
  cases value with
  | boolean b => exact roundTrips_boolean packed b
  | string s => exact roundTrips_string packed s
  | color c => exact roundTrips_color packed c
  | numberArray items => exact roundTrips_numberArray items packed apart
  | number n =>
    cases bounds with
    | none => exact roundTrips_raw packed n
    | some ends => exact roundTrips_normalized packed (apart _ _ packed) n

end Attribute

/-- Every value of an attribute's type makes the round trip, in every plan whose ranges have an
extent. -/
theorem Plan.roundTrips {requests : List (AttributeRequest K K)} {a : Attribute K K}
    (member : a ∈ (Plan.ofRequests requests).attributes)
    (apart : ∀ low high, a.quantization = .normalized low high → low < high) {value : Value K K}
    (ofType : value.type = a.type) : a.RoundTrips value := by
  obtain ⟨request, -, carries⟩ := Plan.carries_of_mem member
  exact Attribute.roundTrips_of_type (carries.type ▸ carries.quantization) apart ofType

/-- The lanes of a road, eight at most. -/
def laneRequests : List (AttributeRequest ℚ ℚ) := [.ofProperty "lanes" .number (some (0, 8))]

/-- Eleven lanes come back as eight, and that is reported. -/
theorem Plan.roundTrips_lanes :
    ∃ a ∈ (Plan.ofRequests laneRequests).attributes, a.RoundTrips (.number 11) ∧
      a.decode (a.pack (.number 11)).1 = .float 8 ∧ (a.pack (.number 11)).2.isSome = true := by
  obtain ⟨a, member, normalized, ofType⟩ : ∃ a ∈ (Plan.ofRequests laneRequests).attributes,
      a.quantization = .normalized 0 8 ∧ a.type = .number := ⟨_, List.mem_cons_self, rfl, rfl⟩
  have trips : a.RoundTrips (.number 11) := by
    refine Plan.roundTrips member (fun low high same => ?_) ofType.symm
    rw [normalized] at same
    cases same
    norm_num
  have decoded := trips.restores
  have nearest : max (0 : ℚ) (min 11 8) = 8 := by norm_num
  simp only [Attribute.Restores, normalized, nearest] at decoded
  refine ⟨a, member, trips, decoded, ?_⟩
  rw [trips.reported _ rfl, decoded, Ne, ShaderValue.float.injEq]
  norm_num

end MapStyle
