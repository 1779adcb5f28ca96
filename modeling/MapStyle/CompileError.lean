import MapStyle.Value

/-!
# Compile errors

Why a style cannot be used. A fault is what is wrong with an expression, and the error
says for which style property it was raised.
-/

namespace MapStyle

/-- What is wrong with an expression. -/
inductive Fault where
  | unknownOperator (operator : String)
  | typeMismatch (operator expected : String) (got : ValueType)
  | arityMismatch (operator expected : String) (got : Nat)
  /-- A feature property that the schema does not declare. -/
  | unresolvedProperty (name : String)
  /-- A style variable that is not declared. -/
  | unresolvedVariable (name : String)
  /-- A host callback that is not registered. -/
  | unknownExternal (name : String)
  | invalidLiteral (reason : String)
  | invalidStops
deriving DecidableEq, Repr

namespace Fault

def message : Fault → String
  | unknownOperator operator => s!"unknown operator `{operator}`"
  | typeMismatch operator expected got => s!"`{operator}` expected {expected}, got {got.name}"
  | arityMismatch operator expected got =>
    s!"`{operator}` expects {expected} arguments, got {got}"
  | unresolvedProperty name => s!"feature property `{name}` is not declared in the schema"
  | unresolvedVariable name => s!"style variable `{name}` is not declared"
  | unknownExternal name => s!"no external function named `{name}` is registered"
  | invalidLiteral reason => s!"invalid literal: {reason}"
  | invalidStops => "interpolation stops must be ascending number literals"

end Fault

/-- What is wrong with a style as a whole. -/
inductive SpecFault where
  /-- The text of a style is no JSON text. -/
  | notJson
  | notAnObject
  | variablesNotAnObject
  | schemaUnreadable
  | unusableDefault (variableName : String)
  /-- A host callback in an expression that a shader would have to compute. -/
  | externalInShader (property : String)
  /-- A property computed ahead of the shader that no vertex attribute carries. -/
  | noAttribute (property : String)
deriving DecidableEq, Repr

namespace SpecFault

def message : SpecFault → String
  | notJson => "not a JSON text"
  | notAnObject => "a style must be a JSON object"
  | variablesNotAnObject => "`variables` must be an object"
  | schemaUnreadable => "`schema`: not a schema"
  | unusableDefault name => s!"variable `{name}` has an unusable default"
  | externalInShader property => s!"`{property}`: external functions cannot run in a shader"
  | noAttribute property => s!"`{property}` has no attribute slot"

end SpecFault

/-- Why a style cannot be compiled. -/
inductive CompileError where
  | expression (property : String) (fault : Fault)
  | unknownStyleProperty (name : String)
  | invalidSpec (fault : SpecFault)
deriving DecidableEq, Repr

namespace CompileError

def message : CompileError → String
  | expression property fault => s!"`{property}`: {fault.message}"
  | unknownStyleProperty name => s!"unknown style property `{name}`"
  | invalidSpec fault => s!"invalid style specification: {fault.message}"

/-- The style property an error was raised for. -/
def property? : CompileError → Option String
  | expression property _ => some property
  | unknownStyleProperty name => some name
  | invalidSpec _ => none

end CompileError

end MapStyle
