import MapStyle.Dictionary

/-!
# Looking up entries

What an association list says under a key, and what a dictionary says of its entries.
-/

namespace MapStyle

/-- What is found under a key is an entry of the list. -/
theorem mem_of_lookup {α β : Type} [BEq α] [LawfulBEq α] {entries : List (α × β)} {key : α}
    {value : β} (found : entries.lookup key = some value) : (key, value) ∈ entries := by
  obtain ⟨before, after, rfl, -⟩ := List.lookup_eq_some_iff.1 found
  simp

/-- When no two entries share a key, every entry is found under its key. -/
theorem lookup_of_mem {α β : Type} [BEq α] [LawfulBEq α] {entries : List (α × β)}
    (distinct : (entries.map Prod.fst).Nodup) {key : α} {value : β}
    (member : (key, value) ∈ entries) : entries.lookup key = some value := by
  obtain ⟨before, after, rfl⟩ := List.append_of_mem member
  refine List.lookup_eq_some_iff.2 ⟨before, after, rfl, fun entry earlier => ?_⟩
  rw [List.map_append, List.nodup_append] at distinct
  have apart := distinct.2.2 entry.1 (List.mem_map_of_mem earlier) key (by simp)
  simpa using Ne.symm apart

/-- Entries under other keys are not looked at. -/
theorem lookup_filter_ne {α β : Type} [DecidableEq α] {key removed : α} (kept : key ≠ removed)
    (entries : List (α × β)) :
    (entries.filter (·.1 ≠ removed)).lookup key = entries.lookup key := by
  induction entries with
  | nil => rfl
  | cons entry rest ih =>
    obtain ⟨known, value⟩ := entry
    rw [List.filter_cons]
    split
    next => rw [List.lookup_cons, List.lookup_cons, ih]
    next same =>
      have known_eq : known = removed := by simpa using same
      rw [ih, List.lookup_cons, beq_false_of_ne (known_eq ▸ kept)]

theorem lookup_cons_if {α : Type} (key known : String) (value : α) (rest : List (String × α)) :
    ((known, value) :: rest).lookup key = if key = known then some value else rest.lookup key := by
  by_cases same : key = known
  · rw [List.lookup_cons, beq_iff_eq.2 same, if_pos same]
  · rw [List.lookup_cons, beq_eq_false_iff_ne.2 same, if_neg same]

theorem lookup_insertEntry {α : Type} (name other : String) (value : α)
    (entries : List (String × α)) :
    (insertEntry name value entries).lookup other =
      if other = name then some value else entries.lookup other := by
  induction entries with
  | nil => rw [insertEntry, lookup_cons_if]
  | cons head rest ih =>
    obtain ⟨known, kept⟩ := head
    rw [insertEntry]
    split
    next => rw [lookup_cons_if]
    next =>
      split
      next same =>
        rw [lookup_cons_if, lookup_cons_if, same]
        split
        next => rfl
        next => rfl
      next different =>
        rw [lookup_cons_if, lookup_cons_if, ih]
        by_cases found : other = known
        · have outside : other ≠ name := fun same => different (same ▸ found)
          rw [if_pos found, if_neg outside, if_pos found]
        · rw [if_neg found, if_neg found]

/-- A dictionary is its entries. -/
theorem Dictionary.eq_of_entries {α : Type} {d e : Dictionary α} (same : d.entries = e.entries) :
    d = e := by
  cases d
  cases e
  cases same
  rfl

/-- No name is bound twice. -/
theorem Dictionary.nodup_names {α : Type} (d : Dictionary α) : (d.entries.map Prod.fst).Nodup := by
  refine List.pairwise_map.2 (d.ascending.imp fun {first second} before same => ?_)
  rw [same] at before
  exact String.lt_irrefl _ before

/-- What is found under a name is what is bound to it. -/
theorem Dictionary.get?_eq_some_iff {α : Type} {d : Dictionary α} {name : String} {value : α} :
    d.get? name = some value ↔ (name, value) ∈ d.entries :=
  ⟨mem_of_lookup, lookup_of_mem d.nodup_names⟩

theorem Dictionary.get?_map {α β : Type} (f : String → α → β) (d : Dictionary α) (name : String) :
    (d.map f).get? name = (d.get? name).map (f name) := by
  ext value
  simp only [get?_eq_some_iff, map, List.mem_map, Option.map_eq_some_iff, Prod.exists,
    Prod.mk.injEq]
  constructor
  · rintro ⟨_, kept, member, rfl, rfl⟩
    exact ⟨kept, member, rfl⟩
  · rintro ⟨kept, member, rfl⟩
    exact ⟨name, kept, member, rfl, rfl⟩

/-- The bindings that a test lets pass. -/
def Dictionary.filter {α : Type} (passes : String → α → Bool) (d : Dictionary α) : Dictionary α :=
  ⟨d.entries.filter fun entry => passes entry.1 entry.2, d.ascending.filter _⟩

theorem Dictionary.get?_filter {α : Type} (passes : String → α → Bool) (d : Dictionary α)
    (name : String) : (d.filter passes).get? name = (d.get? name).filter (passes name) := by
  ext value
  simp only [get?_eq_some_iff, filter, List.mem_filter, Option.filter_eq_some_iff]

/-- What is found after a name was bound. -/
theorem Dictionary.get?_insert {α : Type} (d : Dictionary α) (name other : String) (value : α) :
    (d.insert name value).get? other = if other = name then some value else d.get? other :=
  lookup_insertEntry name other value d.entries

end MapStyle
