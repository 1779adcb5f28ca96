import MapStyle.Expr.Basic

/-!
# What expressions read

Everything that is decided about an expression from what it reads is decided on the
list of its nodes.
-/

namespace MapStyle

/-- What an expression reads. -/
structure Dependencies where
  /-- Feature properties and the types they are read as, each once, in order of first use. -/
  properties : List (String × ValueType)
  frame : Bool
  external : Bool
  /-- The greatest number of branches in one `case`. -/
  maxCaseBranches : Nat
  /-- Some interpolation has an input that depends on the feature. -/
  featureInterpolation : Bool
deriving DecidableEq, Repr

namespace Expr

variable {W N : Type}

mutual

/-- The node and all nodes below, parents first. -/
def nodes : Expr W N → List (Expr W N)
  | literal value => [literal value]
  | property name type => [property name type]
  | input source type => [input source type]
  | operator op args type => operator op args type :: nodesOfAll args
  | interpolate curve x stops type =>
    interpolate curve x stops type :: nodes x ++ nodesOfStops stops
  | case branches fallback type =>
    case branches fallback type :: nodesOfBranches branches ++ nodes fallback
  | external id type => [external id type]

/-- The nodes of some trees one after another. -/
def nodesOfAll : List (Expr W N) → List (Expr W N)
  | [] => []
  | e :: rest => nodes e ++ nodesOfAll rest

/-- The nodes of the outputs of some stops. -/
def nodesOfStops : List (W × Expr W N) → List (Expr W N)
  | [] => []
  | (_, output) :: rest => nodes output ++ nodesOfStops rest

/-- The nodes of some branches, a condition before its result. -/
def nodesOfBranches : List (Expr W N × Expr W N) → List (Expr W N)
  | [] => []
  | (condition, result) :: rest => nodes condition ++ nodes result ++ nodesOfBranches rest

end

/-- The property a node reads, with its type. -/
def propertyRead? : Expr W N → Option (String × ValueType)
  | property name type => some (name, type)
  | _ => none

def isInput : Expr W N → Bool
  | input _ _ => true
  | _ => false

def isExternal : Expr W N → Bool
  | external _ _ => true
  | _ => false

/-- The number of branches of a `case`. -/
def branchCount : Expr W N → Nat
  | case branches _ _ => branches.length
  | _ => 0

/-- Whether the value can differ between the features of one draw call. -/
def isFeatureDependent (e : Expr W N) : Bool :=
  e.nodes.any fun node => node.propertyRead?.isSome || node.isExternal

/-- Whether the value can differ between frames. -/
def isFrameDependent (e : Expr W N) : Bool := e.nodes.any isInput

/-- Whether a node is an interpolation over something that depends on the feature. -/
def isFeatureInterpolation : Expr W N → Bool
  | interpolate _ x _ _ => x.isFeatureDependent
  | _ => false

/-- What an expression reads. -/
def dependencies (e : Expr W N) : Dependencies where
  properties := (e.nodes.filterMap propertyRead?).eraseDups
  frame := e.isFrameDependent
  external := e.nodes.any isExternal
  maxCaseBranches := (e.nodes.map branchCount).foldl max 0
  featureInterpolation := e.nodes.any isFeatureInterpolation

end Expr

end MapStyle
