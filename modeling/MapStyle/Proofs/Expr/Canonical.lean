import Mathlib.Data.List.Basic
import MapStyle.Proofs.Expr.Induction
import MapStyle.Style.Tier

/-!
# Canonical forms

A digest takes values in a canonical form: both zeros as one, and every channel of a color as
the nearest byte. `Expr.canonical` is the tree with its literals in that form. It has the shape
of the tree, so everything that is decided on what a tree reads is decided on it alike.
-/

namespace MapStyle

variable {W N : Type} [Scalar W] [Scalar N]

/-- A number, and one zero for both zeros. -/
def Scalar.canonical (n : W) : W := if n == Scalar.zero then Scalar.zero else n

/-- A color of the bytes nearest to the channels. -/
def Color.canonical (c : Color N) : Color N :=
  let byte (channel : N) : Nat := (UInt8.ofNat (toByte channel)).toNat
  ofBytes (byte c.red) (byte c.green) (byte c.blue) (byte c.alpha)

/-- A value as a digest takes it. -/
def Value.canonical : Value W N → Value W N
  | number n => number (Scalar.canonical n)
  | numberArray items => numberArray (items.map Scalar.canonical)
  | color c => color c.canonical
  | value => value

@[simp] theorem Value.type_canonical (value : Value W N) : value.canonical.type = value.type := by
  cases value <;> rfl

namespace Expr

mutual

/-- The tree with every literal in its canonical form. -/
def canonical : Expr W N → Expr W N
  | literal value => literal value.canonical
  | property name type => property name type
  | input source type => input source type
  | operator op args type => operator op (canonicalAll args) type
  | interpolate curve x stops type => interpolate curve (canonical x) (canonicalStops stops) type
  | case branches fallback type => case (canonicalBranches branches) (canonical fallback) type
  | external id type => external id type

/-- Some trees in their canonical form. -/
def canonicalAll : List (Expr W N) → List (Expr W N)
  | [] => []
  | e :: rest => canonical e :: canonicalAll rest

/-- Some stops with their outputs in canonical form. -/
def canonicalStops : List (W × Expr W N) → List (W × Expr W N)
  | [] => []
  | (stop, output) :: rest => (stop, canonical output) :: canonicalStops rest

/-- Some branches with both parts in canonical form. -/
def canonicalBranches : List (Expr W N × Expr W N) → List (Expr W N × Expr W N)
  | [] => []
  | (condition, result) :: rest =>
    (canonical condition, canonical result) :: canonicalBranches rest

end

attribute [local simp] canonical canonicalAll canonicalStops canonicalBranches

@[simp] theorem canonicalAll_eq (args : List (Expr W N)) :
    canonicalAll args = args.map canonical := by
  induction args with
  | nil => rfl
  | cons arg rest ih => rw [canonicalAll, ih, List.map_cons]

@[simp] theorem canonicalStops_eq (stops : List (W × Expr W N)) :
    canonicalStops stops = stops.map fun stop => (stop.1, canonical stop.2) := by
  induction stops with
  | nil => rfl
  | cons stop rest ih => rw [canonicalStops, ih, List.map_cons]

@[simp] theorem canonicalBranches_eq (branches : List (Expr W N × Expr W N)) :
    canonicalBranches branches =
      branches.map fun branch => (canonical branch.1, canonical branch.2) := by
  induction branches with
  | nil => rfl
  | cons branch rest ih => rw [canonicalBranches, ih, List.map_cons]

/-! ## What the canonical form keeps -/

@[simp] theorem type_canonical (e : Expr W N) : e.canonical.type = e.type := by
  cases e with
  | literal value => exact value.type_canonical
  | _ => simp [canonical, type]

/-- The nodes of the canonical form are the canonical forms of the nodes. -/
theorem nodes_canonical (e : Expr W N) : e.canonical.nodes = e.nodes.map canonical := by
  induction e using structural with
  | literal | property | input | external => simp [canonical, nodes]
  | operator op args type ih =>
    have below : (args.flatMap fun arg => arg.canonical.nodes) =
        args.flatMap fun arg => arg.nodes.map canonical :=
      List.flatMap_congr fun arg member => ih arg member
    simp [canonical, nodes, nodesOfAll_eq, List.flatMap_map, List.map_flatMap, below]
  | interpolate curve x stops type ihInput ihStops =>
    have below : (stops.flatMap fun stop => stop.2.canonical.nodes) =
        stops.flatMap fun stop => stop.2.nodes.map canonical :=
      List.flatMap_congr fun stop member => ihStops stop member
    simp [canonical, nodes, nodesOfStops_eq, List.flatMap_map, List.map_flatMap, ihInput, below]
  | case branches fallback type ihBranches ihFallback =>
    have below : (branches.flatMap fun branch =>
        branch.1.canonical.nodes ++ branch.2.canonical.nodes) =
          branches.flatMap fun branch =>
            branch.1.nodes.map canonical ++ branch.2.nodes.map canonical := by
      refine List.flatMap_congr fun branch member => ?_
      rw [(ihBranches branch member).1, (ihBranches branch member).2]
    simp [canonical, nodes, nodesOfBranches_eq, List.flatMap_map, List.map_flatMap, ihFallback,
      below]

@[simp] theorem propertyRead?_canonical (e : Expr W N) :
    e.canonical.propertyRead? = e.propertyRead? := by
  cases e <;> simp [canonical, propertyRead?]

@[simp] theorem isInput_canonical (e : Expr W N) : e.canonical.isInput = e.isInput := by
  cases e <;> simp [canonical, isInput]

@[simp] theorem isExternal_canonical (e : Expr W N) : e.canonical.isExternal = e.isExternal := by
  cases e <;> simp [canonical, isExternal]

@[simp] theorem branchCount_canonical (e : Expr W N) : e.canonical.branchCount = e.branchCount := by
  cases e <;> simp [canonical, branchCount]

@[simp] theorem isFeatureDependent_canonical (e : Expr W N) :
    e.canonical.isFeatureDependent = e.isFeatureDependent := by
  simp [isFeatureDependent, nodes_canonical, List.any_map, Function.comp_def]

@[simp] theorem isFrameDependent_canonical (e : Expr W N) :
    e.canonical.isFrameDependent = e.isFrameDependent := by
  simp [isFrameDependent, nodes_canonical, List.any_map, Function.comp_def]

@[simp] theorem isFeatureInterpolation_canonical (e : Expr W N) :
    e.canonical.isFeatureInterpolation = e.isFeatureInterpolation := by
  cases e <;> simp [canonical, isFeatureInterpolation]

@[simp] theorem dependencies_canonical (e : Expr W N) :
    e.canonical.dependencies = e.dependencies := by
  simp [dependencies, nodes_canonical, List.any_map, List.filterMap_map, Function.comp_def]

theorem needsInterpreter_canonical (e : Expr W N) :
    e.canonical.needsInterpreter = e.needsInterpreter := by
  unfold needsInterpreter
  rw [dependencies_canonical, type_canonical]

end Expr

/-- A tier is chosen by what an expression reads and by its type. -/
@[simp] theorem Tier.of_canonical (property : StyleProperty) (e : Expr W N) :
    Tier.of property e.canonical = Tier.of property e := by
  rw [Tier.of, Tier.of, Expr.isFeatureDependent_canonical, Expr.isFrameDependent_canonical,
    Expr.needsInterpreter_canonical]

end MapStyle
