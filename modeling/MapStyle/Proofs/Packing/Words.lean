import Mathlib
import MapStyle.Proofs.Number.Interval
import MapStyle.Proofs.Style.Compiled

/-!
# Words the device can use

On the machine's numbers, the words of every value are finite, and those of a quantization are
what its decoding expects, with one exception: a number that is packed as its place in a range
is not checked. What is no number stays so, and where the distance of the number from the low
end of the range is beyond the wide format, the quotient of two infinities is no number either.
`Attribute.Measures` is what it takes, and nothing else can go wrong.
-/

namespace MapStyle

namespace Binary

/-! ## Bytes -/

/-- Bytes but the last have a successor. -/
theorem toNat_byte {whole : Nat} (below : whole < 255) :
    toNat (ofNat whole : Single) ≤ 255 ∧
      toNat (add (ofNat whole) (ofNat 1) : Single) ≤ 255 := by
  have small : 255 < 2 * Format.single.fractionCodes := by decide
  have next := Nat.lt_of_le_of_lt below small
  rw [toNat_ofNat (below.trans small), add_ofNat_one next, toNat_ofNat next]
  exact ⟨below.le, below⟩

theorem nearest_ofNat_255 : Scalar.nearest (ofNat 255 : Single) = 255 := by decide

/-- A number that is not beyond 255 is not rounded beyond it. -/
theorem nearest_le {x : Single} (sign : x.isNegative = false)
    (le : x.magnitude ≤ (ofNat 255 : Single).magnitude) : Scalar.nearest x ≤ 255 := by
  have small : 255 < 2 * Format.single.fractionCodes := by decide
  have finite : x.isFinite = true := by
    refine decide_eq_true (le.trans_lt ?_)
    exact of_decide_eq_true (value_ofNat small).1
  have most : x.size ≤ (255 : Nat) := (size_le le).trans_eq (size_ofNat small)
  obtain ⟨whole, floored, least⟩ := floor_eq_ofNat finite sign small most
  have byte : whole ≤ 255 := by exact_mod_cast least.trans most
  rcases byte.lt_or_eq with below | rfl
  · obtain ⟨stays, next⟩ := toNat_byte below
    show toNat (if lt (sub x (floor x)) Scalar.half then floor x else add (floor x) (ofNat 1)) ≤ 255
    rw [floored]
    split
    · exact stays
    · exact next
  -- A whole part of 255 leaves no fraction, so that nothing is added to it.
  · rw [eq_ofNat sign small (most.antisymm least), nearest_ofNat_255]

/-- What is no number is rounded to zero. -/
theorem toByte_nan {channel : Single} (none : channel.isNaN = true) :
    Color.toByte channel = 0 := by
  have parts : channel.unpack = .nan channel.isNegative := by
    rw [unpack, if_pos none]
  have moved : Scalar.clamp channel Scalar.zero Scalar.one = channel := moved_nan none
  have scaled : mul channel (ofNat 255) = channel := by simp only [mul, parts]
  have whole : floor channel = channel := by simp only [floor, toWhole, parts]
  have next : add channel (ofNat 1) = channel := by simp only [add, parts]
  rw [Color.toByte, moved]
  show Scalar.nearest (mul channel (ofNat 255)) = 0
  rw [scaled]
  show toNat (if lt (sub channel (floor channel)) Scalar.half then floor channel
    else add (floor channel) (ofNat 1)) = 0
  rw [whole, next, ite_self, toNat, parts]

/-- Every channel is rounded to a byte. -/
theorem toByte_le (channel : Single) : Color.toByte channel ≤ 255 := by
  cases number : channel.isNaN with
  | true =>
    rw [toByte_nan number]
    exact Nat.zero_le _
  | false =>
    have inside : (moved channel (ofNat 0) (ofNat 1)).isNaN = false ∧
        (ofNat 0 : Single).key ≤ (moved channel (ofNat 0) (ofNat 1)).key ∧
        (moved channel (ofNat 0) (ofNat 1)).key ≤ (ofNat 1 : Single).key :=
      key_moved number (by decide) (by decide) (by decide)
    show Scalar.nearest (mul (moved channel (ofNat 0) (ofNat 1)) (ofNat 255)) ≤ 255
    generalize moved channel (ofNat 0) (ofNat 1) = unit at inside ⊢
    obtain ⟨-, low, high⟩ := inside
    have least : (ofNat 0 : Single).key = 0 := by decide
    obtain ⟨sign, key⟩ := key_nonneg (least ▸ low)
    have most : unit.magnitude ≤ (ofNat 1 : Single).magnitude := by
      have one : (ofNat 1 : Single).key = (ofNat 1 : Single).magnitude := by decide
      omega
    cases negative : unit.isNegative with
    | true =>
      have zero : unit = zero true := negative ▸ eq_zero_of_magnitude (sign negative)
      rw [zero]
      decide
    | false =>
      have small : 1 < 2 * Format.single.fractionCodes := by decide
      have finite : unit.isFinite = true := by
        refine decide_eq_true (most.trans_lt ?_)
        exact of_decide_eq_true (value_ofNat small).1
      have fits : 255 < 2 * Format.single.fractionCodes := by decide
      obtain ⟨isFinite, -⟩ := value_ofNat fits
      have product := rounded_mul finite isFinite
      rw [negative, (rounded_ofNat 255).sign, size_ofNat fits] at product
      refine nearest_le product.sign (product.rounds.mono (rounded_ofNat 255).rounds ?_)
      have bound : unit.size ≤ (1 : Nat) := (size_le most).trans_eq (size_ofNat small)
      push_cast at bound ⊢
      linarith

/-! ## The range of the narrow format -/

theorem key_narrowLimit :
    (neg (Scalar.narrowLimit : Double)).isNaN = false ∧
      (Scalar.narrowLimit : Double).isNaN = false ∧
      (neg (Scalar.narrowLimit : Double)).key = -(Scalar.narrowLimit : Double).magnitude ∧
      (Scalar.narrowLimit : Double).key = (Scalar.narrowLimit : Double).magnitude := by
  decide

theorem isFinite_convert_narrowLimit :
    (Scalar.narrowLimit : Double).isFinite = true ∧
      (convert (Scalar.narrowLimit : Double) : Single).isFinite = true := by
  decide

/-- A number of the narrow range is finite in the narrow format. -/
theorem isFinite_convert {x : Double} (above : (neg (Scalar.narrowLimit : Double)).key ≤ x.key)
    (below : x.key ≤ (Scalar.narrowLimit : Double).key) : (convert x : Single).isFinite = true := by
  obtain ⟨-, -, least, most⟩ := key_narrowLimit
  obtain ⟨finite, narrowed⟩ := isFinite_convert_narrowLimit
  have le : x.magnitude ≤ (Scalar.narrowLimit : Double).magnitude := by
    rw [least] at above
    rw [most] at below
    rw [← natAbs_key x]
    omega
  have isFinite : x.isFinite = true := decide_eq_true (le.trans_lt (of_decide_eq_true finite))
  have rounded := (rounded_convert (g := .single) isFinite).rounds.mono
    (rounded_convert (g := .single) finite).rounds (size_le le)
  exact decide_eq_true (rounded.trans_lt (of_decide_eq_true narrowed))

end Binary

namespace Attribute

open Binary

/-- The numbers that an attribute can hold, from the least to the greatest. -/
def range? (a : Attribute Double Single) : Option (Double × Double) :=
  match a.quantization with
  | .raw => some (-Scalar.narrowLimit, Scalar.narrowLimit)
  | .normalized minimum maximum => some (minimum, maximum)
  | _ => none

/-- A word is what the decoding of an attribute expects. -/
def Usable (a : Attribute Double Single) (word : Single) : Prop :=
  word.isFinite = true ∧
    match a.quantization with
    | .raw => True
    | .normalized _ _ => 0 ≤ word.value ∧ word.value ≤ 1
    | .packedColor => ∃ n < 65536, word.value = (n : Nat)
    | .stringId => ∃ n < 2 ^ 24, word.value = (n : Nat)
    | .flag => word.value = 0 ∨ word.value = 1

/-- The distance of a number from the low end of its range is finite. -/
def Measures (a : Attribute Double Single) (value : Value Double Single) : Prop :=
  match a.quantization with
  | .normalized minimum maximum =>
    Scalar.isFinite (Scalar.clamp (value.asNumber?.getD minimum) minimum maximum - minimum) = true
  | _ => True

/-- A number that is none or out of the range of its attribute is reported, and no other one. -/
def Reports (a : Attribute Double Single) (n : Double) (issue : Option (PackIssue Double)) : Prop :=
  issue = a.range?.bind fun (low, high) =>
    if n.isNaN || lt n low || lt high n then some ⟨n, low, high⟩ else none

variable {a : Attribute Double Single}

theorem usable_natural {n bound : Nat} (small : n < bound) (fits : bound ≤ 2 ^ 24) :
    (ofNat n : Single).isFinite = true ∧ ∃ m < bound, (ofNat n : Single).value = (m : Nat) := by
  have places : 2 * Format.single.fractionCodes = 2 ^ 24 := by decide
  obtain ⟨finite, exact⟩ := value_ofNat (f := .single) (small.trans_le (fits.trans_eq places.symm))
  exact ⟨finite, n, small, exact⟩

theorem usable_raw (raw : a.quantization = .raw) (value : Value Double Single) :
    ∀ word ∈ (a.pack value).1, a.Usable word := by
  simp only [pack, raw, List.forall_mem_singleton, Usable, and_true]
  obtain ⟨least, most, -⟩ := key_narrowLimit
  split
  · decide
  next number =>
    obtain ⟨-, above, below⟩ := key_moved (Bool.eq_false_of_not_eq_true number) least most
      (by decide)
    exact isFinite_convert above below

theorem usable_normalized {low high : Double} (normalized : a.quantization = .normalized low high)
    (apart : lt low high = true) (value : Value Double Single) :
    a.Measures value ↔ ∀ word ∈ (a.pack value).1, a.Usable word := by
  simp only [pack, normalized, List.forall_mem_singleton, Usable, Measures]
  constructor
  · intro finite
    have within := (within_place apart finite).convert (g := .single)
    exact ⟨within.isFinite, within.value_mem⟩
  · rintro ⟨finite, -⟩
    exact isFinite_of_div (isFinite_of_convert finite)

theorem usable_color (packed : a.quantization = .packedColor) (value : Value Double Single) :
    ∀ word ∈ (a.pack value).1, a.Usable word := by
  simp only [pack, packed, Usable]
  generalize value.asColor?.getD Color.transparent = c
  have word (high low : Single) : Color.toByte high * 256 + Color.toByte low < 65536 := by
    have := toByte_le high
    have := toByte_le low
    omega
  refine List.forall_mem_cons.2 ⟨usable_natural (word _ _) (by norm_num),
    List.forall_mem_singleton.2 (usable_natural (word _ _) (by norm_num))⟩

theorem usable_string (number : a.quantization = .stringId) (value : Value Double Single) :
    ∀ word ∈ (a.pack value).1, a.Usable word := by
  simp only [pack, number, List.forall_mem_singleton, Usable]
  exact usable_natural (Nat.mod_lt _ (Nat.two_pow_pos 24)) le_rfl

theorem usable_flag (flag : a.quantization = .flag) (value : Value Double Single) :
    ∀ word ∈ (a.pack value).1, a.Usable word := by
  simp only [pack, flag, List.forall_mem_singleton, Usable]
  cases value.asBoolean?.getD false with
  | true =>
    obtain ⟨finite, one⟩ := value_ofNat (Format.one_lt .single)
    exact ⟨finite, .inr (one.trans Nat.cast_one)⟩
  | false =>
    have small := Nat.zero_lt_one.trans (Format.one_lt .single)
    obtain ⟨finite, zero⟩ := value_ofNat (f := .single) small
    exact ⟨finite, .inl (zero.trans Nat.cast_zero)⟩

/-- Whatever an attribute has to measure, its words are usable exactly where it can. -/
theorem measures_iff (apart : ∀ low high, a.quantization = .normalized low high →
    lt low high = true) (value : Value Double Single) :
    a.Measures value ↔ ∀ word ∈ (a.pack value).1, a.Usable word := by
  cases quantization : a.quantization with
  | normalized low high => exact usable_normalized quantization (apart low high quantization) value
  | raw =>
    exact iff_of_true (by rw [Measures, quantization]; trivial) (usable_raw quantization value)
  | packedColor =>
    exact iff_of_true (by rw [Measures, quantization]; trivial) (usable_color quantization value)
  | stringId =>
    exact iff_of_true (by rw [Measures, quantization]; trivial) (usable_string quantization value)
  | flag =>
    exact iff_of_true (by rw [Measures, quantization]; trivial) (usable_flag quantization value)

/-- A range of finite extent measures every number. -/
theorem measures_of_finite (apart : ∀ low high, a.quantization = .normalized low high →
      lt low high = true)
    (finite : ∀ low high, a.quantization = .normalized low high →
      Scalar.isFinite (high - low) = true) {value : Value Double Single}
    (number : ∀ n, value = .number n → n.isNaN = false) : a.Measures value := by
  unfold Measures
  split
  next low high normalized =>
    have extent := finite low high normalized
    refine isFinite_place (apart low high normalized) extent ?_
    cases value with
    | number n => exact number n rfl
    | _ => exact isNaN_of_isFinite (isFinite_of_sub extent).2
  · trivial

theorem reports (apart : ∀ low high, a.quantization = .normalized low high → lt low high = true)
    (n : Double) : a.Reports n (a.pack (.number n)).2 := by
  cases quantization : a.quantization with
  | normalized low high =>
    simp only [Reports, range?, pack, quantization, Value.asNumber?, Option.getD_some,
      Option.bind_some, ← not_equal_moved (apart low high quantization)]
    rfl
  | raw =>
    have apart : lt (neg (Scalar.narrowLimit : Double)) Scalar.narrowLimit = true := by
      decide
    simp only [Reports, range?, pack, quantization, Value.asNumber?, Option.getD_some,
      Option.bind_some]
    cases number : n.isNaN with
    | true =>
      have differs : (Scalar.zero != n) = true := by
        show (!equal (ofNat 0) n) = true
        rw [equal, number, Bool.not_true, Bool.and_false, Bool.false_and, Bool.not_false]
      simp only [show Scalar.isNaN n = true from number, if_true, differs, Bool.true_or]
    | false =>
      have same := not_equal_moved (x := n) apart
      rw [number] at same
      simp only [show Scalar.isNaN n = false from number, Bool.false_eq_true, if_false]
      exact congrArg (fun differs : Bool => if differs then some _ else none) same
  | _ => simp only [Reports, range?, pack, quantization, Option.bind_none]

end Attribute

namespace CompiledStyle

/-- What can be said of the words of a value in a style: there are as many as the attribute has;
they are usable exactly where the value can be measured; in ranges of finite extent every value but
what is no number can be; and what is no number or out of range is reported. -/
theorem usable_words {spec : StyleSpec Double Single} {style : CompiledStyle Double Single}
    (compiled : ofSpec spec = .ok style) {a : Attribute Double Single}
    (member : a ∈ style.plan.attributes) (value : Value Double Single) :
    (a.pack value).1.length = a.components ∧
      (a.Measures value ↔ ∀ word ∈ (a.pack value).1, a.Usable word) ∧
      ((∀ low high, a.quantization = .normalized low high →
          Scalar.isFinite (high - low) = true) →
        (∀ n, value = .number n → n.isNaN = false) →
          ∀ word ∈ (a.pack value).1, a.Usable word) ∧
      ∀ n, value = .number n → a.Reports n (a.pack value).2 := by
  obtain ⟨parsed, ofStyle, ran⟩ := bind_eq_ok.1 compiled
  obtain ⟨requests, made, planned, -⟩ :=
    ParsedStyle.lower_eq_ok (ParsedStyle.sound_ofSpec ofStyle) ran
  have apart (low high : Double) (normalized : a.quantization = .normalized low high) :
      Binary.lt low high = true :=
    ParsedStyle.lt_of_normalized made (planned ▸ member) normalized
  have usable := Attribute.measures_iff apart value
  refine ⟨a.length_pack value, usable,
    fun finite number => usable.1 (Attribute.measures_of_finite apart finite number), ?_⟩
  rintro n rfl
  exact Attribute.reports apart n

/-- Strokes are as wide as a number of a range. -/
def widthIn (low high : Double) : StyleSpec Double Single :=
  { StyleSpec.empty with
    properties := Dictionary.empty.insert "stroke-width" (.array [.string "get", .string "x"])
    schema := some (Dictionary.empty.insert "x" ⟨.number, some low, some high⟩) }

theorem exists_width (low high : Double) (apart : Binary.lt low high = true) :
    ∃ style, ofSpec (widthIn low high) = .ok style ∧
      ∃ a ∈ style.plan.attributes, a.quantization = .normalized low high := by
  refine ⟨_, rfl, _, List.mem_cons_self, ?_⟩
  show Quantization.of .number (if Scalar.lt low high = true then some (low, high) else none) = _
  rw [if_pos (show Scalar.lt low high = true from apart)]
  rfl

/-- Eleven is packed into the range from zero to ten, and that is reported. -/
theorem usable_words_eleven :
    ∃ style, ofSpec (widthIn (.ofNat 0) (.ofNat 10)) = .ok style ∧
      ∃ a ∈ style.plan.attributes,
        (∀ word ∈ (a.pack (.number (.ofNat 11))).1, a.Usable word) ∧
          (a.pack (.number (.ofNat 11))).2.isSome = true := by
  obtain ⟨style, compiled, a, member, normalized⟩ :=
    exists_width (.ofNat 0) (.ofNat 10) (by decide +kernel)
  obtain ⟨-, -, usable, reports⟩ := usable_words compiled member (.number (.ofNat 11))
  refine ⟨style, compiled, a, member, usable (fun low high same => ?_) (fun n same => ?_), ?_⟩
  · rw [normalized] at same
    cases same
    decide +kernel
  · cases same
    decide +kernel
  · rw [reports _ rfl]
    simp only [Attribute.range?, normalized]
    decide +kernel

/-- What is no number is packed as such, and so is a number of a range so wide that the distance
from its low end overflows, which is not even reported. -/
theorem unusable_words :
    (∃ style, ofSpec (widthIn (.ofNat 0) (.ofNat 10)) = .ok style ∧
      ∃ a ∈ style.plan.attributes,
        ¬∀ word ∈ (a.pack (.number .nan)).1, word.isFinite = true) ∧
    ∃ style, ofSpec (widthIn (.neg (.ofNat (10 ^ 308))) (.ofNat (10 ^ 308))) = .ok style ∧
      ∃ a ∈ style.plan.attributes,
        (¬∀ word ∈ (a.pack (.number (.ofNat (10 ^ 308)))).1, word.isFinite = true) ∧
          (a.pack (.number (.ofNat (10 ^ 308)))).2.isSome = false := by
  constructor
  · obtain ⟨style, compiled, a, member, normalized⟩ :=
      exists_width (.ofNat 0) (.ofNat 10) (by decide +kernel)
    refine ⟨style, compiled, a, member, ?_⟩
    simp only [Attribute.pack, normalized, List.forall_mem_singleton]
    decide +kernel
  · obtain ⟨style, compiled, a, member, normalized⟩ :=
      exists_width (.neg (.ofNat (10 ^ 308))) (.ofNat (10 ^ 308)) (by decide +kernel)
    refine ⟨style, compiled, a, member, ?_⟩
    simp only [Attribute.pack, normalized, List.forall_mem_singleton]
    decide +kernel

end CompiledStyle

end MapStyle
