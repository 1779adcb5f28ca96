import MapStyle.Proofs.Packing.Names
import MapStyle.Uniform.Layout

/-!
# Layouts only grow

Declaring a uniform leaves the declared slots where they are, gives the source a slot if it
has none and keeps the names apart. `UniformLayout.Extends` is how a layout relates to those
it came from, so that what was lowered against an early layout can be read in the last one.
Whatever the variables of a style are called, the names of the slots open like names of uniforms
and have the characters of identifiers.
-/

namespace MapStyle.UniformLayout

open Text

/-- The slots of a layout are the first ones of another, and no two of that one share a name. -/
structure Extends (before after : UniformLayout) : Prop where
  slots : before.slots <+: after.slots
  distinct : (before.slots.map UniformSlot.name).Nodup → (after.slots.map UniformSlot.name).Nodup

namespace Extends

theorem refl (layout : UniformLayout) : Extends layout layout :=
  ⟨List.prefix_refl _, id⟩

theorem trans {first second third : UniformLayout} (one : Extends first second)
    (two : Extends second third) : Extends first third :=
  ⟨one.slots.trans two.slots, fun distinct => two.distinct (one.distinct distinct)⟩

theorem mem {before after : UniformLayout} (extends' : Extends before after) {slot : UniformSlot}
    (member : slot ∈ before.slots) : slot ∈ after.slots :=
  extends'.slots.subset member

end Extends

theorem extends_declare (layout : UniformLayout) (slot : UniformSlot) :
    Extends layout (layout.declare slot).1 := by
  unfold declare
  split
  next => exact .refl layout
  next =>
    refine ⟨List.prefix_append _ _, fun distinct => ?_⟩
    rw [List.map_append, List.nodup_append]
    refine ⟨distinct, List.nodup_singleton _, ?_⟩
    intro taken member name added equal
    rw [List.map_singleton, List.mem_singleton] at added
    subst equal
    rw [added] at member
    exact Identifier.firstFree_not_mem _ _ member

/-- What holds of the declared slots and of the one that is added holds of all. -/
theorem forall_declare {holds : UniformSlot → Prop} {layout : UniformLayout}
    (before : ∀ declared ∈ layout.slots, holds declared) {slot : UniformSlot}
    (added : holds { slot with
      name := Identifier.firstFree (layout.slots.map UniformSlot.name) slot.name }) :
    ∀ declared ∈ (layout.declare slot).1.slots, holds declared := by
  unfold declare
  split
  next => exact before
  next => exact List.forall_mem_append.2 ⟨before, List.forall_mem_singleton.2 added⟩

/-- The source that was declared has a slot, under the name that declaring it tells. -/
theorem exists_declared (layout : UniformLayout) (slot : UniformSlot) :
    ∃ declared ∈ (layout.declare slot).1.slots,
      declared.source = slot.source ∧ declared.name = (layout.declare slot).2 := by
  unfold declare
  split
  next declared found =>
    exact ⟨declared, List.mem_of_find?_eq_some found, by simpa using List.find?_some found, rfl⟩
  next => exact ⟨_, List.mem_append_right _ List.mem_cons_self, rfl, rfl⟩

/-- Declaring keeps the sources apart. -/
theorem nodup_sources_declare {layout : UniformLayout}
    (distinct : (layout.slots.map UniformSlot.source).Nodup) (slot : UniformSlot) :
    ((layout.declare slot).1.slots.map UniformSlot.source).Nodup := by
  unfold declare
  split
  next => exact distinct
  next unknown =>
    rw [List.map_append, List.map_singleton, List.nodup_append]
    refine ⟨distinct, List.nodup_singleton _, ?_⟩
    intro source member other added equal
    obtain ⟨declared, inLayout, rfl⟩ := List.mem_map.1 member
    have same : declared.source = slot.source := equal.trans (List.mem_singleton.1 added)
    exact absurd (decide_eq_true same) (List.find?_eq_none.1 unknown declared inLayout)

/-- Declaring a source that has a slot tells the name of that slot and changes nothing. -/
theorem declare_of_mem {layout : UniformLayout}
    (distinct : (layout.slots.map UniformSlot.source).Nodup) {declared slot : UniformSlot}
    (member : declared ∈ layout.slots) (same : declared.source = slot.source) :
    layout.declare slot = (layout, declared.name) := by
  unfold declare
  split
  next found inLayout =>
    have asked : found.source = slot.source := by simpa using List.find?_some inLayout
    rw [List.inj_on_of_nodup_map distinct (List.mem_of_find?_eq_some inLayout) member
      (asked.trans same.symm)]
  next unknown =>
    exact absurd (decide_eq_true same) (List.find?_eq_none.1 unknown declared member)

theorem distinct_initial : (initial.slots.map UniformSlot.name).Nodup := by
  have grown : Extends ⟨[]⟩ initial :=
    ((extends_declare _ _).trans (extends_declare _ _)).trans (extends_declare _ _)
  exact grown.distinct List.nodup_nil

/-! ## Names -/

/-- A name opens like the name of a uniform and has the characters of an identifier. -/
structure Named (name : String) : Prop where
  starts : "u_".toList <+: name.toList
  word : Run Identifier.isWord name.toList

theorem Named.valid {name : String} (named : Named name) : Identifier.Valid name :=
  have opening : Identifier.Opening "u_" := by decide
  opening.valid named.starts named.word

/-- The names of all slots are names of uniforms. -/
def Words (layout : UniformLayout) : Prop := ∀ slot ∈ layout.slots, Named slot.name

variable {layout : UniformLayout}

theorem words_declare (words : layout.Words) {slot : UniformSlot} (named : Named slot.name) :
    (layout.declare slot).1.Words :=
  forall_declare words
    ⟨Identifier.prefix_firstFree _ named.starts, Identifier.run_firstFree _ named.word⟩

theorem named_inputName (input : FrameInput) : Named (inputName input) := by
  cases input with
  | zoom | resolution | time => exact ⟨by decide, List.all_eq_true.1 (by decide)⟩
  | styleVariable name =>
    rw [inputName]
    constructor
    · rw [String.toList_append]
      exact .trans (by decide) (List.prefix_append _ _)
    · rw [String.toList_append]
      exact List.forall_mem_append.2
        ⟨List.all_eq_true.1 (by decide), Identifier.run_sanitize name⟩

theorem named_property (property : StyleProperty) : Named ("u_" ++ property.identifier) := by
  cases property <;> exact ⟨by decide, List.all_eq_true.1 (by decide)⟩

theorem words_frameInput (words : layout.Words) (input : FrameInput) (type : ShaderType) :
    (layout.frameInput input type).1.Words :=
  words_declare words (named_inputName input)

theorem words_property (words : layout.Words) (property : StyleProperty) :
    (layout.property property).1.Words :=
  words_declare words (named_property property)

theorem words_initial : initial.Words := by
  have none : Words ⟨[]⟩ := fun _ member => nomatch member
  exact words_frameInput (words_frameInput (words_frameInput none _ _) _ _) _ _

end MapStyle.UniformLayout
