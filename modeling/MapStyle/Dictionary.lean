/-!
# Dictionaries

Finite maps from names, held as the list of their entries in ascending order of the
names. The order is that of code points, which is also the byte order of UTF-8.
-/

namespace MapStyle

/-- Put an entry into an ascending list, in place of one under the same name. -/
def insertEntry {α : Type} (name : String) (value : α) :
    List (String × α) → List (String × α)
  | [] => [(name, value)]
  | (other, kept) :: rest =>
    if name < other then (name, value) :: (other, kept) :: rest
    else if name = other then (name, value) :: rest
    else (other, kept) :: insertEntry name value rest

/-- The names of a list of entries ascend strictly. -/
def Ascending {α : Type} (entries : List (String × α)) : Prop :=
  entries.Pairwise fun a b => a.1 < b.1

theorem mem_insertEntry {α : Type} {name : String} {value : α} {entries : List (String × α)}
    {entry : String × α} (member : entry ∈ insertEntry name value entries) :
    entry = (name, value) ∨ entry ∈ entries := by
  induction entries with
  | nil => simpa [insertEntry] using member
  | cons head rest ih =>
    obtain ⟨other, kept⟩ := head
    simp only [insertEntry] at member
    split at member
    · simpa using member
    · split at member
      · rcases List.mem_cons.1 member with same | later
        · exact .inl same
        · exact .inr (List.mem_cons_of_mem _ later)
      · rcases List.mem_cons.1 member with same | later
        · exact .inr (same ▸ List.mem_cons_self)
        · rcases ih later with same | kept
          · exact .inl same
          · exact .inr (List.mem_cons_of_mem _ kept)

theorem ascending_insertEntry {α : Type} (name : String) (value : α)
    {entries : List (String × α)} (ascending : Ascending entries) :
    Ascending (insertEntry name value entries) := by
  induction entries with
  | nil => simp [insertEntry, Ascending]
  | cons head rest ih =>
    obtain ⟨other, kept⟩ := head
    obtain ⟨least, tail⟩ := List.pairwise_cons.1 ascending
    simp only [insertEntry]
    split
    next before =>
      refine List.pairwise_cons.2 ⟨?_, ascending⟩
      intro entry member
      rcases List.mem_cons.1 member with same | later
      · exact same ▸ before
      · exact String.lt_trans before (least entry later)
    next notBefore =>
      split
      next same => exact List.pairwise_cons.2 ⟨same ▸ least, tail⟩
      next different =>
        refine List.pairwise_cons.2 ⟨?_, ih tail⟩
        intro entry member
        rcases mem_insertEntry member with same | kept
        · rw [same]
          refine Decidable.byContradiction fun notAfter => different ?_
          exact String.le_antisymm (String.not_lt.1 notAfter) (String.not_lt.1 notBefore)
        · exact least entry kept

/-- A finite map from names. -/
structure Dictionary (α : Type) where
  entries : List (String × α)
  ascending : Ascending entries

namespace Dictionary

variable {α β : Type}

def empty : Dictionary α := ⟨[], List.Pairwise.nil⟩

instance : Inhabited (Dictionary α) := ⟨empty⟩

/-- Dictionaries are equal when they bind the same names to equal values. -/
instance [BEq α] : BEq (Dictionary α) := ⟨fun d e => d.entries == e.entries⟩

/-- Bind a name, in place of an earlier binding. -/
def insert (d : Dictionary α) (name : String) (value : α) : Dictionary α :=
  ⟨insertEntry name value d.entries, ascending_insertEntry name value d.ascending⟩

/-- The value bound to a name. -/
def get? (d : Dictionary α) (name : String) : Option α := d.entries.lookup name

def contains (d : Dictionary α) (name : String) : Bool := (d.get? name).isSome

/-- Bind a list of names one after another, so that later bindings win. -/
def ofList (bindings : List (String × α)) : Dictionary α :=
  bindings.foldl (fun d binding => d.insert binding.1 binding.2) empty

/-- Apply a function to every value. -/
def map (f : String → α → β) (d : Dictionary α) : Dictionary β :=
  ⟨d.entries.map fun entry => (entry.1, f entry.1 entry.2),
    by simpa [Ascending, List.pairwise_map] using d.ascending⟩

def size (d : Dictionary α) : Nat := d.entries.length

end Dictionary

end MapStyle
