import MapStyle.Proofs.Expr.Equality
import MapStyle.Proofs.Style.Interchangeable

/-!
# Equal styles

Two styles are equal when their properties, their variables and their schemas are, and when they
share their callbacks. Their digests then agree but for the zeros among the numbers that a digest
takes by their bit patterns: stops, bases and the ends of declared ranges.
-/

namespace MapStyle

variable {W N : Type}

/-- The ends of the ranges that a schema declares. -/
def Schema.optionWritten : Option (Schema W) → List W
  | none => []
  | some schema => schema.entries.flatMap fun entry => entry.2.written

namespace ParsedStyle

/-- The numbers that a digest takes by their bit patterns. -/
def written (style : ParsedStyle W N) : List W :=
  (style.properties.flatMap fun entry => entry.2.written) ++ Schema.optionWritten style.schema

variable [Scalar W] [Scalar N]

/-- Equal properties, variables and schemas, and the callbacks of one registry. -/
structure Equal (style other : ParsedStyle W N) : Prop where
  properties : (style.properties == other.properties) = true
  bindings : (style.bindings == other.bindings) = true
  schema : (style.schema == other.schema) = true
  externals : style.externals = other.externals

end ParsedStyle

variable [Scalar W] [Scalar N]

variable [Scalar.Coded W]

omit [Scalar N] in
/-- Equal schemas are told by the ends of the ranges they declare. -/
theorem toldBy_schema {schema other : Option (Schema W)} (equal : (schema == other) = true) :
    ToldBy (Schema.optionWritten schema) (Schema.optionWritten other) (Schema.optionWords schema)
      (Schema.optionWords other) := by
  cases schema with
  | none =>
    cases other with
    | none => exact .of_eq rfl
    | some => cases equal
  | some schema =>
    cases other with
    | none => cases equal
    | some other =>
      have entries : (schema.entries == other.entries) = true := equal
      exact (ToldBy.named Word.ofString (fun _ _ => toldBy_declaration) entries).after [.number 1]

variable [Scalar.ZeroSigned W] [Color.Rounded N]

namespace ParsedStyle

/-- Equal styles are told by their stops and bases and by the ends of the ranges they declare. -/
theorem Equal.toldBy {style other : ParsedStyle W N} (equal : style.Equal other) :
    ToldBy style.written other.written style.words other.words := by
  have properties := ToldBy.named (fun property => Word.ofString property.name)
    (fun e f => Expr.toldBy e f) equal.properties
  have entries : (style.bindings.entries == other.bindings.entries) = true := equal.bindings
  have bindings := ToldBy.named Word.ofString
    (fun _ _ same => ToldBy.of_eq (W := W) (Value.words_eq same)) entries
  have none (entries : List (String × Value W N)) :
      entries.flatMap (fun _ => ([] : List W)) = [] := List.flatMap_eq_nil_iff.2 fun _ _ => rfl
  rw [none, none] at bindings
  have schema := (toldBy_schema equal.schema).append
    (.of_eq (congrArg Registry.words equal.externals))
  rw [words_eq, words_eq, (forall₂_of_beq equal.properties).length_eq,
    (forall₂_of_beq entries).length_eq]
  have rest := (bindings.append schema).after [.number other.bindings.entries.length]
  have all := (properties.append rest).after [.number other.properties.length]
  simpa [written] using all

/-- Equal styles have one digest when the stops, the bases and the ends of the declared ranges are
the same, which they are where none of them is zero. Their words differ exactly when a zero among
these numbers has another sign. -/
theorem hash_of_equal {style other : ParsedStyle Double Single} (equal : style.Equal other) :
    List.Forall₂ (fun a b => (a == b) = true) style.written other.written ∧
      (style.words = other.words ↔ style.written = other.written) ∧
      (style.written = other.written → style.hash = other.hash) ∧
      ((∀ n ∈ style.written, (n == Scalar.zero) = false) → style.hash = other.hash) := by
  have told := equal.toldBy
  have hash_eq (same : style.written = other.written) : style.hash = other.hash :=
    congrArg Digest.ofWords (told.same.2 same)
  exact ⟨told.equal, told.same, hash_eq, fun nonzero =>
    hash_eq (eq_of_nonzero told.equal nonzero)⟩

/-- A width that follows a curve up to zoom level eight. -/
def growing (curve : List Json) (stop width : Decimal) : StyleSpec Double Single :=
  CompiledStyle.strokeWidth (.array [.string "interpolate", .array curve, .array [.string "zoom"],
    .number (.real stop), .number (.real width), .number (.integer 8), .number (.integer 4)])

/-- The style that `growing` is parsed to. -/
def growingStyle (curve : Curve Double) (stop width : Double) : ParsedStyle Double Single :=
  let number (n : Int) : Double := Scalar.ofDecimal (.ofInt n)
  let stops : List (Double × Expr Double Single) :=
    [(stop, .literal (.number width)), (number 8, .literal (.number (number 4)))]
  ⟨[(.strokeWidth, .interpolate curve (.input .zoom .number) stops .number)], .empty, none, .empty⟩

/-- A zero width at a stop has one word with either sign. -/
theorem zeroWidth_hash :
    ∃ style other, ofSpec (growing [.string "linear"] ⟨false, 1, 0⟩ ⟨false, 0, 0⟩) = .ok style ∧
      ofSpec (growing [.string "linear"] ⟨false, 1, 0⟩ ⟨true, 0, 0⟩) = .ok other ∧
      style ≠ other ∧ style.Equal other ∧ style.hash = other.hash := by
  have equal : (growingStyle .linear Scalar.one Scalar.zero).Equal
      (growingStyle .linear Scalar.one (-Scalar.zero)) :=
    ⟨by decide +kernel, rfl, rfl, rfl⟩
  refine ⟨_, _, by rfl, by rfl, fun same => ?_, equal, (hash_of_equal equal).2.2.1 rfl⟩
  exact absurd (congrArg values same) (by decide +kernel)

/-- A width by the number of lanes, of which there are at least some. -/
def byLanes (least : Decimal) : StyleSpec Double Single :=
  { CompiledStyle.strokeWidth (.array [.string "get", .string "lanes"]) with
    schema := some (.insert .empty "lanes" ⟨.number, some (Scalar.ofDecimal least), none⟩) }

/-- The style that `byLanes` is parsed to. -/
def byLanesStyle (least : Double) : ParsedStyle Double Single :=
  ⟨[(.strokeWidth, .property "lanes" .number)], .empty,
    some (.insert .empty "lanes" ⟨.number, some least, none⟩), .empty⟩

/-- A number of a specification makes styles of different digests of the two zeros, although the
styles are equal. -/
def TellsZeros (spec : Decimal → StyleSpec Double Single) : Prop :=
  ∃ style other, ofSpec (spec ⟨false, 0, 0⟩) = .ok style ∧ ofSpec (spec ⟨true, 0, 0⟩) = .ok other ∧
    style.Equal other ∧ style.hash ≠ other.hash

/-- The zeros are told apart as stops, as bases and as ends of ranges. -/
theorem zeros_told_apart :
    TellsZeros (fun zero => growing [.string "linear"] zero ⟨false, 1, 0⟩) ∧
      TellsZeros (fun zero => growing [.string "exponential", .number (.real zero)] ⟨false, 1, 0⟩
        ⟨false, 1, 0⟩) ∧
      TellsZeros byLanes := by
  refine ⟨?_, ?_, ?_⟩
  · exact ⟨growingStyle .linear Scalar.zero Scalar.one,
      growingStyle .linear (-Scalar.zero) Scalar.one, by rfl, by rfl,
      ⟨by decide +kernel, rfl, rfl, rfl⟩, by decide +kernel⟩
  · exact ⟨growingStyle (.exponential Scalar.zero) Scalar.one Scalar.one,
      growingStyle (.exponential (-Scalar.zero)) Scalar.one Scalar.one, by rfl, by rfl,
      ⟨by decide +kernel, rfl, rfl, rfl⟩, by decide +kernel⟩
  · exact ⟨byLanesStyle Scalar.zero, byLanesStyle (-Scalar.zero), by rfl, by rfl,
      ⟨by decide +kernel, rfl, by decide +kernel, rfl⟩, by decide +kernel⟩

end ParsedStyle

end MapStyle
