import MapStyle.Expr.Dependencies
import MapStyle.Style.Property

/-!
# Tiers

Where the value of a style property is computed. What does not depend on the feature
is computed once per draw; what does is computed in the vertex shader where that is
simple, and ahead of it where it is not.
-/

namespace MapStyle

/-- Where the value of a style property is computed. -/
inductive Tier where
  /-- Once per draw, and read from the uniform block. -/
  | uniform
  /-- In the vertex shader, from packed feature properties. -/
  | inline
  /-- Ahead of the shader for every feature, and packed as a finished value. -/
  | preEvaluated
  /-- While tessellating: features that fail the filter are left out. -/
  | cull
  /-- While tessellating, for tessellation itself. -/
  | cpuOnly
deriving DecidableEq, Repr

/-- The greatest number of branches a shader decides between. -/
def inlineBranchLimit : Nat := 2

/-- Whether an expression over features is left to the interpreter: colors, host callbacks,
interpolation over features, long decisions and lists. -/
def Expr.needsInterpreter {W N : Type} (e : Expr W N) : Bool :=
  let reads := e.dependencies
  e.type = .color || reads.external || reads.featureInterpolation ||
    inlineBranchLimit < reads.maxCaseBranches || reads.properties.any (·.2 = .numberArray)

/-- The name of a tier. -/
def Tier.name : Tier → String
  | uniform => "Uniform"
  | inline => "Inline"
  | preEvaluated => "PreEvaluated"
  | cull => "Cull"
  | cpuOnly => "CpuOnly"

/-- The tier of a style property. -/
def Tier.of {W N : Type} (property : StyleProperty) (e : Expr W N) : Tier :=
  if property.isCpuOnly then .cpuOnly
  else if !e.isFeatureDependent then .uniform
  else if property = .filter ∧ !e.isFrameDependent then .cull
  else if e.needsInterpreter then .preEvaluated
  else .inline

end MapStyle
