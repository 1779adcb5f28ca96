import MapStyle.Proofs.Cache.Removal

/-!
# Accesses for one key

Whoever asks for a tile, builds it, attaches to it or uploads it names one key, or works for
somebody who named it. `TileCache.Spares` says that such an access leaves the entries under all
other keys alone: the same entries, in the same order of their last use, with the same results
in their slots. `CacheSystem.Accounted.spares_step` shows it for every action that is for a key.

The action to look at is a build that finishes late. It knows its key and its slot, and under
its key there may be an entry of another slot by now: that one is spared as well.
-/

namespace MapStyle

variable {W N H : Type}

namespace TileCache

variable {cache : TileCache W N H} {key : CacheKey}

/-- The entries under all other keys, the one used last first. -/
def others (cache : TileCache W N H) (key : CacheKey) : List (CacheKey × CacheEntry H) :=
  cache.entries.filter fun item => item.1 ≠ key

/-- An access leaves alone what is under all keys but one. -/
structure Spares (before after : TileCache W N H) (key : CacheKey) : Prop where
  /-- The entries, their slots, renderers, bytes and handles, and their order. -/
  entries : after.others key = before.others key
  /-- What is under each of the other keys. -/
  found : ∀ other, other ≠ key → after.find? other = before.find? other
  /-- What their builds have published. -/
  results : ∀ item ∈ before.others key, after.result? item.2.slot = before.result? item.2.slot

/-- Exactly the entries whose key passes a test are taken out, and so many are counted. -/
structure Disposes (before after : TileCache W N H) (count : Nat) (test : CacheKey → Bool) :
    Prop where
  kept : ∀ item, item ∈ after.entries ↔ item ∈ before.entries ∧ test item.1 = false
  order : after.entries.Sublist before.entries
  gone : after.entries.length + count = before.entries.length
  /-- Nothing else is touched. -/
  rest : after = { before with entries := after.entries }

theorem disposes_dispose (cache : TileCache W N H) (test : CacheKey → Bool) :
    cache.Disposes (cache.dispose test).1 (cache.dispose test).2 test where
  kept := by simp [dispose, removeWhere]
  order := List.filter_sublist
  gone := by
    have parts := List.length_eq_countP_add_countP (fun item : CacheKey × CacheEntry H =>
      test item.1) (l := cache.entries)
    simp only [dispose, removeWhere, ← List.countP_eq_length_filter]
    simp only [decide_not, Bool.decide_eq_true] at parts
    omega
  rest := rfl

/-! ## Entries under other keys -/

@[simp] theorem mem_others {item : CacheKey × CacheEntry H} :
    item ∈ cache.others key ↔ item ∈ cache.entries ∧ item.1 ≠ key := by
  simp [others]

/-- What is under another key is read off the other entries. -/
theorem find?_eq_lookup_others {other : CacheKey} (elsewhere : other ≠ key) :
    cache.find? other = (cache.others key).lookup other :=
  (lookup_filter_ne elsewhere cache.entries).symm

/-- An access that leaves the other entries alone, and whose slots go on from those there were,
spares the other keys. -/
theorem Spares.of_others {before after : TileCache W N H}
    (entries : after.others key = before.others key)
    (results : ∀ item ∈ before.others key,
      after.result? item.2.slot = before.result? item.2.slot) : Spares before after key where
  entries := entries
  found := fun other elsewhere => by
    rw [find?_eq_lookup_others elsewhere, find?_eq_lookup_others elsewhere, entries]
  results := results

/-- In particular one that touches no slots. -/
theorem Spares.of_slots {before after : TileCache W N H}
    (entries : after.others key = before.others key) (slots : after.slots = before.slots) :
    Spares before after key :=
  .of_others entries fun item _ => by rw [result?, result?, slots]

theorem Spares.refl (cache : TileCache W N H) (key : CacheKey) : Spares cache cache key :=
  .of_slots rfl rfl

@[simp] theorem others_putFirst (cache : TileCache W N H) (key : CacheKey)
    (entry : CacheEntry H) : (cache.putFirst key entry).others key = cache.others key := by
  simp [others, putFirst]

@[simp] theorem others_dropFailed (cache : TileCache W N H) (key : CacheKey) :
    (cache.dropFailed key).others key = cache.others key := by
  unfold dropFailed
  split
  · split
    · simp [others, removeWhere]
    · rfl
  · rfl

theorem others_request (cache : TileCache W N H) (key : CacheKey) :
    (cache.request key).1.others key = cache.others key := by
  cases found : (cache.dropFailed key).find? key with
  | some entry =>
    rw [request_found found]
    exact (others_putFirst ..).trans (others_dropFailed ..)
  | none =>
    rw [request_absent found]
    exact (others_putFirst ..).trans (others_dropFailed ..)

theorem others_modifyEntry (cache : TileCache W N H) (key : CacheKey)
    (change : CacheEntry H → CacheEntry H) :
    (cache.modifyEntry key change).others key = cache.others key := by
  simp only [others, modifyEntry, List.filter_map]
  refine (List.map_congr_left fun item member => ?_).trans (List.map_id _)
  have elsewhere : item.1 ≠ key := by simpa using (List.mem_filter.1 member).2
  simp [elsewhere]

theorem others_record {slot : Nat} {published : Option (BuildResult W N)}
    (inSlots : cache.slots[slot]? = some ⟨key, published⟩) (result : BuildResult W N) :
    (cache.record slot result).others key = cache.others key := by
  cases resident : cache.entryOfSlot? key slot with
  | none => rw [record_abandoned inSlots resident]; rfl
  | some entry =>
    cases result with
    | failed => rw [record_failed inSlots resident]
    | ready buffers =>
      rw [record_ready inSlots resident]
      exact others_modifyEntry cache key ({ · with bytes := buffers.byteSize })

theorem others_finishUpload (cache : TileCache W N H) (key : CacheKey) (slot : Nat) (handle : H) :
    (cache.finishUpload key slot handle).1.others key = cache.others key := by
  unfold finishUpload
  split
  · rfl
  · split <;> exact others_putFirst ..

/-! ## Accesses for one key -/

theorem spares_attach (cache : TileCache W N H) (key : CacheKey) :
    Spares cache (cache.attach key).1 key := by
  refine .of_slots ?_ (retains_attach cache key).slots
  unfold attach
  split
  · exact others_putFirst ..
  · rfl

theorem spares_detach (cache : TileCache W N H) (key : CacheKey) :
    Spares cache (cache.detach key) key := by
  refine .of_slots ?_ (retains_detach cache key).slots
  unfold detach
  split
  · exact others_putFirst ..
  · rfl

theorem spares_finishUpload (cache : TileCache W N H) (key : CacheKey) (slot : Nat) (handle : H) :
    Spares cache (cache.finishUpload key slot handle).1 key :=
  .of_slots (others_finishUpload cache key slot handle)
    (retains_finishUpload cache key slot handle).slots

theorem spares_request (cache : TileCache W N H) (key : CacheKey)
    (numbered : ∀ item ∈ cache.entries, item.2.slot < cache.slots.length) :
    Spares cache (cache.request key).1 key := by
  have slots := (retains_dropFailed cache key).slots
  refine .of_others (others_request cache key) fun item member => ?_
  have inside := numbered item (mem_others.1 member).1
  cases found : (cache.dropFailed key).find? key with
  | some entry =>
    rw [request_found found]
    simp only [result?, putFirst, slots]
  | none =>
    rw [request_absent found]
    simp only [result?, insertNew, slots]
    rw [List.getElem?_append_left inside]

theorem spares_record {slot : Nat} {published : Option (BuildResult W N)}
    (inSlots : cache.slots[slot]? = some ⟨key, published⟩) (result : BuildResult W N) :
    Spares cache (cache.record slot result) key := by
  refine .of_slots (others_record inSlots result) ?_
  unfold record
  split
  · rfl
  · split <;> rfl

/-- Publishing a result changes what one slot shows. -/
theorem result?_publish (cache : TileCache W N H) {slot other : Nat} (elsewhere : other ≠ slot)
    (result : BuildResult W N) :
    (cache.publish slot result).result? other = cache.result? other := by
  simp only [result?, publish, List.getElem?_modify, if_neg elsewhere.symm, Option.map_eq_map,
    Option.map_id']

theorem spares_publish {slot : Nat} (apart : ∀ item ∈ cache.entries, item.1 ≠ key →
      item.2.slot ≠ slot) (result : BuildResult W N) :
    Spares cache (cache.publish slot result) key := by
  refine .of_others rfl fun item member => ?_
  obtain ⟨there, elsewhere⟩ := mem_others.1 member
  exact result?_publish cache (apart item there elsewhere) result

end TileCache

namespace CacheSystem

variable {s t : CacheSystem W N H} {action : CacheAction W N H}

/-- The key that an action is for. Room is made, and a tile or a style disposed of, for no key in
particular. -/
def keyOf? (s : CacheSystem W N H) : CacheAction W N H → Option CacheKey
  | .request key | .attach key | .detach key | .beginUpload key => some key
  | .record index _ | .publish index => s.builds[index]?.map CacheBuild.key
  | .answer index | .giveUp index => s.calls[index]?.map CacheCall.key
  | .finishUpload index _ | .failUpload index => s.uploads[index]?.map CacheUpload.key
  | .trim | .evict _ | .invalidateStyle _ => none

/-- The slots of the entries that are there are slots of builds. -/
theorem Accounted.slot_lt_slots (good : s.Accounted) {item : CacheKey × CacheEntry H}
    (member : item ∈ s.cache.entries) : item.2.slot < s.cache.slots.length := by
  rw [good.slots, List.length_map]
  exact good.slot_lt (good.resident _ (List.mem_map_of_mem member))

theorem spares_finishUpload {index : Nat} {handle : H} {key : CacheKey}
    (stepped : s.step? (.finishUpload index handle) = some t)
    (own : s.keyOf? (.finishUpload index handle) = some key) : s.cache.Spares t.cache key := by
  obtain ⟨upload, found, rfl⟩ := Option.map_eq_some_iff.1 stepped
  obtain ⟨other, same, rfl⟩ := Option.map_eq_some_iff.1 own
  rw [found] at same
  cases same
  exact TileCache.spares_finishUpload s.cache upload.key upload.slot handle

/-- An action that is for a key spares all others. -/
theorem Accounted.spares_step (good : s.Accounted) (stepped : s.step? action = some t)
    {key : CacheKey} (own : s.keyOf? action = some key) : s.cache.Spares t.cache key := by
  cases turn_of_step stepped with
  | request =>
    cases own
    exact TileCache.spares_request s.cache key fun item member => good.slot_lt_slots member
  | record result found =>
    simp only [keyOf?, found, Option.map_some, Option.some.injEq] at own
    subst own
    have number := good.slot_eq found
    dsimp only at number
    subst number
    exact TileCache.spares_record (good.slots_getElem? found) result
  | publish found =>
    simp only [keyOf?, found, Option.map_some, Option.some.injEq] at own
    subst own
    refine TileCache.spares_publish (fun item member elsewhere same => elsewhere ?_) _
    have number := good.slot_eq found
    exact good.key_eq found member (same.trans number)
  | answer | giveUp => exact .refl s.cache key
  | access access =>
    cases access with
    | attach =>
      cases own
      exact TileCache.spares_attach s.cache key
    | detach =>
      cases own
      exact TileCache.spares_detach s.cache key
    | trim | evict | invalidateStyle => cases own
    | beginUpload | failUpload => exact .refl s.cache key
    | finishUpload => exact spares_finishUpload stepped own

/-! ## Builds that finish late -/

/-- A build whose entry is gone is counted when it is recorded, and that is all. -/
theorem Accounted.record_late (good : s.Accounted) {index : Nat} {build : CacheBuild W N}
    (found : s.builds[index]? = some build) (gone : build.identity ∉ s.cache.identities)
    {result : BuildResult W N} (stepped : s.step? (.record index result) = some t) :
    t.cache = { s.cache with
      counts := { s.cache.counts with abandoned := s.cache.counts.abandoned + 1 } } := by
  cases turn_of_step stepped with
  | @record _ key slot _ running =>
    rw [found] at running
    cases running
    have inSlots := good.slots_getElem? found
    have number := good.slot_eq found
    dsimp only at number
    subst number
    refine TileCache.record_abandoned inSlots ?_ result
    rwa [← TileCache.isSome_entryOfSlot? good.distinct, Option.not_isSome_iff_eq_none] at gone
  | access access => cases access

/-- When it is published, no entry shows it. -/
theorem Accounted.publish_late (good : s.Accounted) {index : Nat} {build : CacheBuild W N}
    (found : s.builds[index]? = some build) (gone : build.identity ∉ s.cache.identities)
    (stepped : s.step? (.publish index) = some t) :
    t.cache.entries = s.cache.entries ∧ t.cache.counts = s.cache.counts ∧
      ∀ item ∈ s.cache.entries, t.cache.result? item.2.slot = s.cache.result? item.2.slot := by
  cases turn_of_step stepped with
  | @publish _ key slot result wasResident recorded =>
    rw [found] at recorded
    cases recorded
    have number := good.slot_eq found
    refine ⟨rfl, rfl, fun item member => TileCache.result?_publish s.cache (fun same => gone ?_) _⟩
    have ownKey : item.1 = key := good.key_eq found member (same.trans number)
    exact TileCache.mem_identities.2 ⟨item.2, ownKey ▸ member, same⟩
  | access access => cases access

/-- In every state that any interleaving reaches: a tile or a style that is disposed of loses
exactly its own entries, and as many are counted; whoever asks for a key, builds it, attaches to
it, detaches from it or uploads it leaves the entries of all other keys as they are and in their
order; and a build whose entry was taken out adds one to a count when it finishes and changes
nothing else, even where there is a new entry under its key. -/
theorem accesses_isolated {budget : Nat} {actions : List (CacheAction W N H)}
    {s : CacheSystem W N H} (ran : (start budget).run? actions = some s) :
    (∀ tile, s.cache.Disposes (s.cache.evict tile).1 (s.cache.evict tile).2 (·.tile = tile)) ∧
    (∀ style, s.cache.Disposes (s.cache.invalidateStyle style).1
      (s.cache.invalidateStyle style).2 (·.style = style)) ∧
    (∀ action t key, s.step? action = some t → s.keyOf? action = some key →
      s.cache.Spares t.cache key) ∧
    ∀ index build, s.builds[index]? = some build → build.identity ∉ s.cache.identities →
      (∀ result t, s.step? (.record index result) = some t →
        t.cache = { s.cache with
          counts := { s.cache.counts with abandoned := s.cache.counts.abandoned + 1 } }) ∧
      ∀ t, s.step? (.publish index) = some t →
        t.cache.entries = s.cache.entries ∧ t.cache.counts = s.cache.counts ∧
          ∀ item ∈ s.cache.entries, t.cache.result? item.2.slot = s.cache.result? item.2.slot := by
  have good := accounted_run ran
  refine ⟨fun tile => TileCache.disposes_dispose s.cache _,
    fun style => TileCache.disposes_dispose s.cache _,
    fun action t key stepped own => good.spares_step stepped own,
    fun index build found gone => ⟨?record, ?publish⟩⟩
  case record =>
    intro result t stepped
    exact good.record_late found gone stepped
  case publish =>
    intro t stepped
    exact good.publish_late found gone stepped

/-- Another tile under the same style. -/
def otherKey : CacheKey := ⟨⟨1, 0, 0⟩, 0⟩

/-- A tile is evicted while it is built and asked for again, and a renderer attaches to another
tile. The first build has not finished. -/
def overtaking : List (CacheAction Unit Unit Unit) := [
  .request someKey, .evict someKey.tile, .request otherKey, .request someKey, .attach otherKey]

theorem overtaking_isolated :
    ∃ s t, (start 0).run? overtaking = some s ∧ s.cache.identities = [(otherKey, 1), (someKey, 2)] ∧
      s.step? (.record 0 (.ready someBuffers)) = some t ∧ t.cache.counts.abandoned = 1 ∧
      t.cache.entries = s.cache.entries ∧ s.cache.Spares t.cache someKey := by
  refine ⟨_, _, rfl, rfl, rfl, rfl, ?_⟩
  have ran : (start 0).run? overtaking = some _ := rfl
  obtain ⟨-, -, spares, late⟩ := accesses_isolated ran
  refine ⟨?_, spares (.record 0 (.ready someBuffers)) _ someKey rfl rfl⟩
  rw [(late 0 _ rfl (by decide)).1 (.ready someBuffers) _ rfl]

end CacheSystem

end MapStyle
