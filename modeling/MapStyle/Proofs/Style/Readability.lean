import MapStyle.Proofs.Shader.Source
import MapStyle.Proofs.Style.Sources
import MapStyle.Proofs.Style.Typing

/-!
# Sources of compiled styles

The names in the sources of a compiled style are identifiers, whatever names the style uses for
its properties, variables and externals. So the source of a shader value can be read in one way
only, and has one value.
-/

namespace MapStyle

variable {W N : Type} [Scalar W] [Scalar N] [Precision W N]

namespace ParsedStyle

variable {style : ParsedStyle W N}

theorem words_lower {compiled : CompiledStyle W N} (ran : style.lower = .ok compiled) :
    compiled.uniforms.Words := by
  refine holds_uniforms UniformLayout.words_initial (fun plan entry _ =>
    keeps_shaderValue plan entry (fun _ layout words => ?_) ?_) ran
  · exact UniformLayout.words_property words entry.1
  · exact fun _ _ source type _ layout words => UniformLayout.words_frameInput words source _

/-- The names that a style is compiled with are legible. -/
theorem names_of_lower {compiled : CompiledStyle W N} (ran : style.lower = .ok compiled) :
    ShaderExpr.Names compiled.plan compiled.uniforms where
  unpacked a member := by
    obtain ⟨requests, made, planned, -⟩ := run_of_lower ran
    rw [planned] at member
    exact .unpacked (Plan.run_unpackedName member) (head?_unpackedName made member)
  uniforms slot member := (words_lower ran slot member).word

end ParsedStyle

namespace CompiledStyle

variable [Scalar.Ordered W] [Scalar.Written N]

/-- Shader values of styles with one plan and one layout lose no structure when they are written,
and neither do other well-typed expressions over these: where the numbers in two of them are finite
and no negative zeros, and their sources are the same, they have the same value in every scope that
binds the unpacked attributes, to values of whatever types, and every slot to a vector. The
expressions need not be the same, because some are written alike. -/
theorem eval_eq_of_wgsl_eq {spec spec' : StyleSpec W N} {style style' : CompiledStyle W N}
    (compiled : ofSpec spec = .ok style) (compiled' : ofSpec spec' = .ok style')
    (plan : style'.plan = style.plan) (uniforms : style'.uniforms = style.uniforms) :
    (∀ p ∈ style.properties, ∀ q ∈ style'.properties, ∀ s t, p.shader = some s →
      q.shader = some t → ShaderExpr.ReadAlike style.plan style.uniforms s t) ∧
    ∀ (s t : ShaderExpr N) (type type' : ShaderType), s.HasType style.plan style.uniforms type →
      t.HasType style.plan style.uniforms type' →
      ShaderExpr.ReadAlike style.plan style.uniforms s t := by
  obtain ⟨parsed, ofStyle, ran⟩ := bind_eq_ok.1 compiled
  obtain ⟨parsed', ofStyle', ran'⟩ := bind_eq_ok.1 compiled'
  have names := ParsedStyle.names_of_lower ran
  have typed := ParsedStyle.hasType_lower (ParsedStyle.sound_ofSpec ofStyle) ran
  have typed' := ParsedStyle.hasType_lower (ParsedStyle.sound_ofSpec ofStyle') ran'
  rw [plan, uniforms] at typed'
  refine ⟨fun p member q member' s t value value' => ?_, fun s t type type' ofS ofT => ?_⟩
  · exact ShaderExpr.readAlike names (typed p member s value) (typed' q member' t value')
  · exact ShaderExpr.readAlike names ofS ofT

/-- The roads of `lanesByZoom`, drawn above other layers. -/
def lanesAbove : StyleSpec Double Single :=
  { lanesByZoom with properties := lanesByZoom.properties.insert "z-index" (.number (.integer 3)) }

/-- Whatever is read is two: unpacked attributes, and the first components of all slots. -/
def twos : ShaderScope Single :=
  ⟨fun _ => some (.float (Scalar.ofNat 2)), fun _ => some (.vec4 (Vec4.ofScalar (Scalar.ofNat 2)))⟩

omit [Scalar W] [Precision W N] in
theorem binds_twos (plan : Plan W Single) (layout : UniformLayout) : twos.Binds plan layout :=
  ⟨fun _ _ => ⟨_, rfl⟩, fun _ _ => ⟨_, rfl⟩⟩

/-- The zoom as a truth value. -/
def zoomFlag : ShaderExpr Single := .uniform "u_zoom" .bool

/-- The zoom, compared with one half. -/
def zoomComparison : ShaderExpr Single :=
  .binary .greater (.uniform "u_zoom" .float) (.float Scalar.half)

/-- The width is written alike in both styles, and so are the two expressions about the zoom. -/
theorem lanesByZoom_eval_eq :
    ∃ style style' p q s t, ofSpec lanesByZoom = .ok style ∧ ofSpec lanesAbove = .ok style' ∧
      p ∈ style.properties ∧ q ∈ style'.properties ∧ p.shader = some s ∧ q.shader = some t ∧
      s.wgsl = t.wgsl ∧ s.eval twos = t.eval twos ∧ zoomFlag ≠ zoomComparison ∧
      zoomFlag.wgsl = zoomComparison.wgsl ∧ zoomFlag.eval twos = zoomComparison.eval twos := by
  obtain ⟨style, style', p, q, s, t, slot, compiled, compiled', plan, uniforms, member, member',
      value, value', printable, printable', same, inLayout, zoom⟩ :
      ∃ style style' p q s t slot, ofSpec lanesByZoom = .ok style ∧
        ofSpec lanesAbove = .ok style' ∧ style'.plan = style.plan ∧
        style'.uniforms = style.uniforms ∧ p ∈ style.properties ∧ q ∈ style'.properties ∧
        p.shader = some s ∧ q.shader = some t ∧ s.Printable ∧ t.Printable ∧ s.wgsl = t.wgsl ∧
        slot ∈ style.uniforms.slots ∧ slot.name = "u_zoom" := by
    exact ⟨_, _, _, _, _, _, _, rfl, rfl, rfl, rfl, List.mem_cons_self, List.mem_cons_self, rfl,
      rfl, by decide, by decide, rfl, List.mem_cons_self, rfl⟩
  obtain ⟨values, expressions⟩ := eval_eq_of_wgsl_eq compiled compiled' plan uniforms
  have alike : zoomFlag.wgsl = zoomComparison.wgsl := by decide
  have declared (type : ShaderType) : (ShaderExpr.uniform "u_zoom" type).HasType style.plan
      style.uniforms type := zoom ▸ .uniform inLayout type
  have comparison : zoomComparison.HasType style.plan style.uniforms .bool :=
    .binary (.ordering (by decide)) (declared .float) (.float _)
  exact ⟨style, style', p, q, s, t, compiled, compiled', member, member', value, value', same,
    values p member q member' s t value value' printable printable' same twos (binds_twos _ _),
    nofun, alike, expressions _ _ _ _ (declared .bool) comparison (by decide) (by decide)
      alike twos (binds_twos _ _)⟩

end CompiledStyle

end MapStyle
