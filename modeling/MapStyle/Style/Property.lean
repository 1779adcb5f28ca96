import MapStyle.Value

/-!
# Style properties

The properties a style may set, the geometry programs that read them and what a
property is when the style leaves it out.
-/

namespace MapStyle

/-- The kinds of geometry a style draws, in drawing order. -/
inductive ProgramKind where
  /-- The interior of polygons. -/
  | fill
  /-- Lines and the outlines of polygons. -/
  | stroke
  /-- Points, as circles. -/
  | symbol
deriving DecidableEq, Repr

/-- The properties of a style, in the order in which they are compiled. -/
inductive StyleProperty where
  | filter
  | fillColor
  | strokeColor
  | strokeWidth
  | circleRadius
  | circleFillColor
  | circleStrokeColor
  | circleStrokeWidth
  | circleOpacity
  | zIndex
  | iconSource
  | textField
deriving DecidableEq, Repr

namespace ProgramKind

def all : List ProgramKind := [fill, stroke, symbol]

def name : ProgramKind → String
  | fill => "fill"
  | stroke => "stroke"
  | symbol => "symbol"

/-- The properties whose values the vertex stage of a program reads. -/
def properties : ProgramKind → List StyleProperty
  | fill => [.filter, .fillColor]
  | stroke => [.filter, .strokeColor, .strokeWidth]
  | symbol => [.filter, .circleRadius, .circleFillColor, .circleStrokeColor, .circleStrokeWidth,
      .circleOpacity]

end ProgramKind

namespace StyleProperty

def all : List StyleProperty := [filter, fillColor, strokeColor, strokeWidth, circleRadius,
  circleFillColor, circleStrokeColor, circleStrokeWidth, circleOpacity, zIndex, iconSource,
  textField]

/-- The place of a property among all properties. -/
def index (p : StyleProperty) : Nat := all.idxOf p

def name : StyleProperty → String
  | filter => "filter"
  | fillColor => "fill-color"
  | strokeColor => "stroke-color"
  | strokeWidth => "stroke-width"
  | circleRadius => "circle-radius"
  | circleFillColor => "circle-fill-color"
  | circleStrokeColor => "circle-stroke-color"
  | circleStrokeWidth => "circle-stroke-width"
  | circleOpacity => "circle-opacity"
  | zIndex => "z-index"
  | iconSource => "icon-src"
  | textField => "text-field"

def ofName? (name : String) : Option StyleProperty := all.find? (·.name == name)

/-- The part of shader names that stands for a property. -/
def identifier : StyleProperty → String
  | filter => "filter"
  | fillColor => "fill_color"
  | strokeColor => "stroke_color"
  | strokeWidth => "stroke_width"
  | circleRadius => "circle_radius"
  | circleFillColor => "circle_fill_color"
  | circleStrokeColor => "circle_stroke_color"
  | circleStrokeWidth => "circle_stroke_width"
  | circleOpacity => "circle_opacity"
  | zIndex => "z_index"
  | iconSource => "icon_src"
  | textField => "text_field"

def type : StyleProperty → ValueType
  | filter => .boolean
  | fillColor | strokeColor | circleFillColor | circleStrokeColor => .color
  | strokeWidth | circleRadius | circleStrokeWidth | circleOpacity | zIndex => .number
  | iconSource | textField => .string

/-- The value of a property that a style leaves out. -/
def default {W N : Type} [Scalar W] [Scalar N] : StyleProperty → Value W N
  | filter => .boolean true
  | fillColor | circleFillColor | circleStrokeColor => .color Color.transparent
  | strokeColor => .color Color.black
  | strokeWidth | circleOpacity => .number Scalar.one
  | circleRadius => .number (Scalar.ofNat 5)
  | circleStrokeWidth | zIndex => .number Scalar.zero
  | iconSource | textField => .string ""

/-- Whether only tessellation reads a property, and never a shader. -/
def isCpuOnly : StyleProperty → Bool
  | zIndex | iconSource | textField => true
  | _ => false

/-- The program that a style draws with when it sets a property. -/
def program? : StyleProperty → Option ProgramKind
  | fillColor => some .fill
  | strokeColor | strokeWidth => some .stroke
  | circleRadius | circleFillColor | circleStrokeColor | circleStrokeWidth | circleOpacity =>
    some .symbol
  | filter | zIndex | iconSource | textField => none

end StyleProperty

end MapStyle
