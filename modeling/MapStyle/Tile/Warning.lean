import MapStyle.Expr.Eval
import MapStyle.Packing.Attribute

/-!
# Warnings

What went wrong with a feature while its tile was built. A build always succeeds: a
feature that cannot be drawn is left out, and a value that cannot be had is replaced.
-/

namespace MapStyle

/-- A warning about the feature at a position of the tile. -/
inductive TileWarning (W : Type) where
  /-- Nothing can be drawn of the geometry. -/
  | degenerateGeometry (feature : Nat) (kind : String)
  /-- A property is no value of the type it is read as. -/
  | propertyType (feature : Nat) (name : String) (expected found : ValueType)
  /-- A number was packed as another one. -/
  | outOfRange (feature : Nat) (attributeName : String) (issue : PackIssue W)
  /-- A property of the style has no value for the feature. -/
  | evaluation (feature : Nat) (target : String) (error : EvalError)

namespace TileWarning

variable {W : Type}

/-- The warning for an evaluation that failed. -/
def ofError (feature : Nat) (target : String) : EvalError → TileWarning W
  | .propertyType name expected found => propertyType feature name expected found
  | error => evaluation feature target error

/-- The position of the feature. -/
def feature : TileWarning W → Nat
  | degenerateGeometry feature _ | propertyType feature _ _ _ | outOfRange feature _ _
  | evaluation feature _ _ => feature

def message [Scalar W] : TileWarning W → String
  | degenerateGeometry feature kind => s!"feature {feature}: degenerate {kind} geometry skipped"
  | propertyType feature name expected found =>
    s!"feature {feature}: property `{name}` expected {expected.name}, found {found.name}; " ++
      "using default"
  | outOfRange feature attributeName issue =>
    s!"feature {feature}: `{attributeName}` value {Scalar.text issue.value} clamped to " ++
      s!"[{Scalar.text issue.minimum}, {Scalar.text issue.maximum}]"
  | evaluation feature target error =>
    s!"feature {feature}: evaluating `{target}` failed: {error.message}"

end TileWarning

end MapStyle
