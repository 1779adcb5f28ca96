import MapStyle.Packing.Attribute

/-!
# Packing plans

A vertex is four words of position and extrusion and then the words of the
attributes of its style. A plan gives every requested source one attribute, with a
name of its own and its offset among the words. The layout of a vertex buffer and
the vertex formats of the device are read off the plan.
-/

namespace MapStyle

/-- The words of a vertex ahead of its attributes: position and extrusion. -/
def baseWords : Nat := 4

/-- The bytes of a word. -/
def wordBytes : Nat := 4

/-- A field of a vertex buffer. -/
structure VertexSlot where
  name : String
  location : Nat
  components : Nat
  offsetBytes : Nat
deriving DecidableEq, Repr

/-- A format in which a device reads a field of a vertex. -/
inductive VertexFormat where
  | float32
  | float32x2
  | float32x3
  | float32x4
deriving DecidableEq, Repr

namespace VertexFormat

/-- The format of so many words. -/
def ofComponents : Nat → VertexFormat
  | 1 => float32
  | 2 => float32x2
  | 3 => float32x3
  | _ => float32x4

def name : VertexFormat → String
  | float32 => "Float32"
  | float32x2 => "Float32x2"
  | float32x3 => "Float32x3"
  | float32x4 => "Float32x4"

end VertexFormat

namespace VertexSlot

/-- The name of the device format of a field. -/
def format (slot : VertexSlot) : String := (VertexFormat.ofComponents slot.components).name

end VertexSlot

/-- The fields of a vertex buffer and the distance between vertices. -/
structure VertexLayout where
  strideBytes : Nat
  slots : List VertexSlot
deriving DecidableEq, Repr

/-- What a device is told about a field of a vertex. -/
structure VertexAttribute where
  format : VertexFormat
  offset : Nat
  location : Nat
deriving DecidableEq, Repr

/-- The fields of a layout as a device is told about them, in the order of their locations. -/
def VertexLayout.vertexAttributes (layout : VertexLayout) : List VertexAttribute :=
  layout.slots.map fun slot =>
    ⟨VertexFormat.ofComponents slot.components, slot.offsetBytes, slot.location⟩

namespace AttributeSource

variable {W N : Type} [Scalar W] [Scalar N]

instance : BEq (AttributeSource W N) where
  beq
    | .property a, .property b => a == b
    | .evaluated p a, .evaluated q b => p == q && a == b
    | _, _ => false

end AttributeSource

/-- The attributes of a style. -/
structure Plan (W N : Type) where
  attributes : List (Attribute W N)

namespace Plan

variable {W N : Type}

/-- Give requests their places, after so many words and names. -/
def place (offset : Nat) (taken : List String) : List (AttributeRequest W N) →
    List (Attribute W N)
  | [] => []
  | request :: rest =>
    let name := Identifier.firstFree taken (Identifier.sanitize request.name)
    let quantization := Quantization.of request.type request.bounds
    { name := "a_" ++ name
      unpackedName := name
      type := request.type
      source := request.source
      quantization
      offset } :: place (offset + quantization.components) (name :: taken) rest

/-- Of several requests for one source, keep the first. -/
def distinct [Scalar W] [Scalar N] (requests : List (AttributeRequest W N)) :
    List (AttributeRequest W N) :=
  requests.foldl (fun kept request =>
    if kept.any (·.source == request.source) then kept else kept ++ [request]) []

/-- The plan for some requests, in the order of the requests. -/
def ofRequests [Scalar W] [Scalar N] (requests : List (AttributeRequest W N)) : Plan W N :=
  ⟨place 0 [] (distinct requests)⟩

/-- The number of attribute words in a vertex. -/
def stride (plan : Plan W N) : Nat := plan.attributes.foldr (fun a words => a.components + words) 0

/-- The number of words in a vertex. -/
def vertexWords (plan : Plan W N) : Nat := baseWords + plan.stride

def needsColorUnpack (plan : Plan W N) : Bool :=
  plan.attributes.any fun a => match a.quantization with
    | .packedColor => true
    | _ => false

/-- The name of the unpacked value of a feature property. -/
def unpackedProperty? (plan : Plan W N) (name : String) : Option String :=
  plan.attributes.findSome? fun a => match a.source with
    | .property other => if other = name then some a.unpackedName else none
    | .evaluated .. => none

/-- The attribute that carries a style property. -/
def evaluated? (plan : Plan W N) (property : StyleProperty) : Option (Attribute W N) :=
  plan.attributes.find? fun a => match a.source with
    | .property _ => false
    | .evaluated other _ => other = property

/-- The layout of a vertex buffer. -/
def vertexLayout (plan : Plan W N) : VertexLayout where
  strideBytes := plan.vertexWords * wordBytes
  slots := ⟨"position", 0, 2, 0⟩ :: ⟨"extrude", 1, 2, 2 * wordBytes⟩ ::
    plan.attributes.zipIdx.map fun (a, index) =>
      ⟨a.name, index + 2, a.components, (baseWords + a.offset) * wordBytes⟩

end Plan

end MapStyle
