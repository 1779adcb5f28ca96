import MapStyle.Proofs.Expr.ParserTyping

/-!
# Type soundness

The two halves put together over the machine's numbers: what the parser accepts is
well-typed, and what is well-typed evaluates to its type. The interpreter of a parsed tree
can thus blame the feature or a host callback, and nothing else; in particular no operator
lacks an operand and no callback is missing.
-/

namespace MapStyle

/-- A parsed style property has the type it was asked for, every node keeps the rules of typing,
and under every feature, frame and choice of variables the property and each node below it
evaluates to a value of its type, or to an error that blames a feature property or a host
callback. -/
theorem Parse.property_sound {env : Environment Double Single} {name : String}
    {expected : ValueType} {json : Json} {e : Expr Double Single}
    (parsed : Parse.property env name expected json = .ok e) :
    e.type = expected ∧ (∀ node ∈ e.nodes, node.Respects env) ∧
      ∀ c : Context Double Single, c.externals = env.externals →
        Outcome.HasType EvalError.Foreign expected (e.evaluate c) ∧
          ∀ node ∈ e.nodes, Outcome.HasType EvalError.Foreign node.type (node.evaluate c) := by
  obtain ⟨rfl, typed⟩ := Parse.value_wellTyped parsed
  refine ⟨rfl, typed, fun c registered => ⟨?_, fun node member => ?_⟩⟩
  · exact Expr.hasType_evaluate_foreign registered e typed
  · exact Expr.hasType_evaluate_foreign registered node (typed.node member)

/-- A width that grows with the zoom towards what the feature says. -/
def growingWidth : Json :=
  .array [.string "interpolate", .array [.string "linear"], .array [.string "zoom"],
    .number (.integer 0), .number (.integer 1),
    .number (.integer 10), .array [.string "get", .string "width"]]

/-- The tree that `growingWidth` is parsed to. -/
def growingWidthTree : Expr Double Single :=
  let number (n : Int) : Double := Scalar.ofDecimal (.ofInt n)
  .interpolate .linear (.input .zoom .number)
    [(number 0, .literal (.number (number 1))), (number 10, .property "width" .number)] .number

theorem Parse.growingWidth_sound :
    Parse.property .empty "stroke-width" .number growingWidth = .ok growingWidthTree ∧
      ∀ c : Context Double Single, c.externals = .empty →
        Outcome.HasType EvalError.Foreign .number (growingWidthTree.evaluate c) := by
  have parsed : Parse.property .empty "stroke-width" .number growingWidth =
      .ok growingWidthTree := by rfl
  exact ⟨parsed, fun c registered => ((Parse.property_sound parsed).2.2 c registered).1⟩

end MapStyle
