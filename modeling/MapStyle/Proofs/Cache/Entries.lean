import MapStyle.Proofs.Cache.System
import MapStyle.Proofs.Dictionary

/-!
# What accesses do to the entries

Most accesses only drop entries, move them or change what does not matter for the books:
`TileCache.Retains` says so once for all of them. The two that are left, a request that
makes an entry and a build that is recorded, are described apart.
-/

namespace MapStyle

namespace TileCache

variable {W N H : Type}

def keys (cache : TileCache W N H) : List CacheKey := cache.entries.map Prod.fst

theorem find?_eq_some {cache : TileCache W N H} {key : CacheKey} {entry : CacheEntry H}
    (found : cache.find? key = some entry) : (key, entry) ∈ cache.entries :=
  mem_of_lookup found

theorem find?_of_mem {cache : TileCache W N H} (distinct : cache.keys.Nodup) {key : CacheKey}
    {entry : CacheEntry H} (member : (key, entry) ∈ cache.entries) :
    cache.find? key = some entry :=
  lookup_of_mem distinct member

theorem mem_identities {cache : TileCache W N H} {identity : CacheKey × Nat} :
    identity ∈ cache.identities ↔
      ∃ entry, (identity.1, entry) ∈ cache.entries ∧ entry.slot = identity.2 := by
  obtain ⟨key, slot⟩ := identity
  simp only [identities, List.mem_map, Prod.mk.injEq, Prod.exists]
  constructor
  · rintro ⟨_, entry, member, rfl, rfl⟩
    exact ⟨entry, member, rfl⟩
  · rintro ⟨entry, member, rfl⟩
    exact ⟨key, entry, member, rfl, rfl⟩

/-- The entry of a slot is there exactly when its identity is. -/
theorem isSome_entryOfSlot? {cache : TileCache W N H} (distinct : cache.keys.Nodup)
    {key : CacheKey} {slot : Nat} :
    (cache.entryOfSlot? key slot).isSome = true ↔ (key, slot) ∈ cache.identities := by
  rw [mem_identities, Option.isSome_iff_exists]
  simp only [entryOfSlot?, Option.filter_eq_some_iff, decide_eq_true_eq]
  constructor
  · rintro ⟨entry, found, same⟩
    exact ⟨entry, find?_eq_some found, same⟩
  · rintro ⟨entry, member, same⟩
    exact ⟨entry, find?_of_mem distinct member, same⟩

theorem buffers?_eq_some {cache : TileCache W N H} {slot : Nat} {buffers : TileBuffers W N} :
    cache.buffers? slot = some buffers ↔ cache.result? slot = some (.ready buffers) := by
  unfold buffers?
  cases cache.result? slot with
  | none => simp
  | some result => cases result <;> simp

theorem hasFailed_iff {cache : TileCache W N H} {slot : Nat} :
    cache.hasFailed slot = true ↔ cache.result? slot = some .failed := by
  unfold hasFailed
  cases cache.result? slot with
  | none => simp
  | some result => cases result <;> simp

theorem keys_eq_identities (cache : TileCache W N H) :
    cache.keys = cache.identities.map Prod.fst := by
  simp [keys, identities]

/-! ## Accesses that keep the books -/

/-- Every entry after an access was there before it, with the same slot and bytes. -/
structure Retains (before after : TileCache W N H) : Prop where
  slots : after.slots = before.slots
  entries : ∀ item ∈ after.entries, ∃ old, (item.1, old) ∈ before.entries ∧
    old.slot = item.2.slot ∧ old.bytes = item.2.bytes
  distinct : before.keys.Nodup → after.keys.Nodup

namespace Retains

theorem refl (cache : TileCache W N H) : Retains cache cache :=
  ⟨rfl, fun item member => ⟨item.2, member, rfl, rfl⟩, id⟩

theorem trans {first second third : TileCache W N H} (one : Retains first second)
    (two : Retains second third) : Retains first third where
  slots := two.slots.trans one.slots
  entries := by
    intro item member
    obtain ⟨middle, inMiddle, slot, bytes⟩ := two.entries item member
    obtain ⟨old, inOld, oldSlot, oldBytes⟩ := one.entries _ inMiddle
    exact ⟨old, inOld, oldSlot.trans slot, oldBytes.trans bytes⟩
  distinct := fun distinct => two.distinct (one.distinct distinct)

/-- What is counted is no matter of the entries. -/
theorem recount {before after : TileCache W N H} (retains : Retains before after)
    (counts : CacheCounts) : Retains before { after with counts } :=
  ⟨retains.slots, retains.entries, retains.distinct⟩

/-- No entry comes up. -/
theorem identities {before after : TileCache W N H} (retains : Retains before after)
    {identity : CacheKey × Nat} (member : identity ∈ after.identities) :
    identity ∈ before.identities := by
  obtain ⟨entry, inAfter, same⟩ := mem_identities.1 member
  obtain ⟨old, inBefore, slot, -⟩ := retains.entries _ inAfter
  exact mem_identities.2 ⟨old, inBefore, slot.trans same⟩

end Retains

theorem retains_removeWhere (cache : TileCache W N H) (test : CacheKey → Bool) :
    Retains cache (cache.removeWhere test) where
  slots := rfl
  entries := fun item member => ⟨item.2, (List.mem_filter.1 member).1, rfl, rfl⟩
  distinct := fun distinct => distinct.sublist (List.filter_sublist.map _)

theorem retains_dispose (cache : TileCache W N H) (test : CacheKey → Bool) :
    Retains cache (cache.dispose test).1 :=
  retains_removeWhere cache test

theorem distinct_putFirst {cache : TileCache W N H} (distinct : cache.keys.Nodup)
    (key : CacheKey) (entry : CacheEntry H) : (cache.putFirst key entry).keys.Nodup := by
  refine List.nodup_cons.2 ⟨?_, distinct.sublist (List.filter_sublist.map _)⟩
  simp

/-- Moving an entry to the front puts it there and leaves the entries under other keys. -/
theorem mem_putFirst {cache : TileCache W N H} {key : CacheKey} {entry : CacheEntry H}
    {item : CacheKey × CacheEntry H} (member : item ∈ (cache.putFirst key entry).entries) :
    item = (key, entry) ∨ item ∈ cache.entries ∧ item.1 ≠ key := by
  rcases List.mem_cons.1 member with own | rest
  · exact .inl own
  · obtain ⟨inEntries, elsewhere⟩ := List.mem_filter.1 rest
    exact .inr ⟨inEntries, by simpa using elsewhere⟩

/-- An entry that is moved to the front may change in everything but its slot and bytes. -/
theorem retains_putFirst {cache : TileCache W N H} {key : CacheKey} {old entry : CacheEntry H}
    (found : cache.find? key = some old) (slot : old.slot = entry.slot)
    (bytes : old.bytes = entry.bytes) : Retains cache (cache.putFirst key entry) where
  slots := rfl
  entries := by
    refine List.forall_mem_cons.2 ⟨⟨old, find?_eq_some found, slot, bytes⟩, ?_⟩
    exact fun item member => ⟨item.2, (List.mem_filter.1 member).1, rfl, rfl⟩
  distinct := fun distinct => distinct_putFirst distinct key entry

theorem retains_attach (cache : TileCache W N H) (key : CacheKey) :
    Retains cache (cache.attach key).1 := by
  unfold attach
  split
  next entry found => exact retains_putFirst found rfl rfl
  next => exact .refl cache

theorem retains_detach (cache : TileCache W N H) (key : CacheKey) :
    Retains cache (cache.detach key) := by
  unfold detach
  split
  next entry found => exact retains_putFirst found rfl rfl
  next => exact .refl cache

theorem retains_finishUpload (cache : TileCache W N H) (key : CacheKey) (slot : Nat)
    (handle : H) : Retains cache (cache.finishUpload key slot handle).1 := by
  unfold finishUpload
  split
  next => exact .refl cache
  next entry found =>
    split
    · exact retains_putFirst found rfl rfl
    · exact retains_putFirst found rfl rfl

theorem retains_dropFailed (cache : TileCache W N H) (key : CacheKey) :
    Retains cache (cache.dropFailed key) := by
  unfold dropFailed
  split
  · split
    · exact retains_removeWhere cache _
    · exact .refl cache
  · exact .refl cache

/-- What is left after a failed entry is taken out was there before. -/
theorem mem_dropFailed {cache : TileCache W N H} {key : CacheKey}
    {item : CacheKey × CacheEntry H} (member : item ∈ (cache.dropFailed key).entries) :
    item ∈ cache.entries := by
  unfold dropFailed at member
  split at member
  · split at member
    · exact (List.mem_filter.1 member).1
    · exact member
  · exact member

@[simp] theorem counts_dropFailed (cache : TileCache W N H) (key : CacheKey) :
    (cache.dropFailed key).counts = cache.counts := by
  unfold dropFailed
  split
  · split <;> rfl
  · rfl

/-! ## Requests -/

/-- A request that finds an entry, and has not dropped it as failed, joins its build. -/
theorem request_found {cache : TileCache W N H} {key : CacheKey} {entry : CacheEntry H}
    (found : (cache.dropFailed key).find? key = some entry) :
    cache.request key = ({ (cache.dropFailed key).putFirst key entry with
      counts := (cache.dropFailed key).countFound entry.slot }, ⟨entry.slot, false⟩) := by
  simp [request, found]

/-- Any other request makes an entry. -/
theorem request_absent {cache : TileCache W N H} {key : CacheKey}
    (absent : (cache.dropFailed key).find? key = none) :
    cache.request key =
      ((cache.dropFailed key).insertNew key, ⟨(cache.dropFailed key).slots.length, true⟩) := by
  simp [request, absent]

/-- The new entry comes before all others, with a number that no slot had. -/
theorem identities_insertNew (cache : TileCache W N H) (key : CacheKey) :
    (cache.insertNew key).identities =
      (key, cache.slots.length) :: cache.identities.filter fun identity => identity.1 ≠ key := by
  simp [identities, insertNew, putFirst, List.filter_map, Function.comp_def]

/-! ## Recording and publishing -/

theorem identities_modifyEntry (cache : TileCache W N H) (key : CacheKey)
    (change : CacheEntry H → CacheEntry H) (kept : ∀ entry, (change entry).slot = entry.slot) :
    (cache.modifyEntry key change).identities = cache.identities := by
  simp only [identities, modifyEntry, List.map_map]
  refine List.map_congr_left fun item member => ?_
  simp only [Function.comp_apply]
  split <;> simp [kept]

section

variable {cache : TileCache W N H} {slot : Nat} {key : CacheKey}
  {published : Option (BuildResult W N)} {entry : CacheEntry H}

theorem record_ready (inSlots : cache.slots[slot]? = some ⟨key, published⟩)
    (resident : cache.entryOfSlot? key slot = some entry) (buffers : TileBuffers W N) :
    cache.record slot (.ready buffers) =
      { cache.modifyEntry key ({ · with bytes := buffers.byteSize }) with
        counts := { cache.counts with builds := cache.counts.builds + 1 } } := by
  simp [record, inSlots, resident]

theorem record_failed (inSlots : cache.slots[slot]? = some ⟨key, published⟩)
    (resident : cache.entryOfSlot? key slot = some entry) :
    cache.record slot .failed = cache := by
  simp [record, inSlots, resident]

/-- A build whose entry is gone changes nothing but one count. -/
theorem record_abandoned (inSlots : cache.slots[slot]? = some ⟨key, published⟩)
    (gone : cache.entryOfSlot? key slot = none) (result : BuildResult W N) :
    cache.record slot result =
      { cache with counts := { cache.counts with abandoned := cache.counts.abandoned + 1 } } := by
  cases result <;> simp [record, inSlots, gone]

end

/-- Recording a build changes nothing of an entry but its bytes. -/
theorem mem_record {cache : TileCache W N H} {slot : Nat} {result : BuildResult W N}
    {item : CacheKey × CacheEntry H} (member : item ∈ (cache.record slot result).entries) :
    ∃ old bytes, (item.1, old) ∈ cache.entries ∧ item.2 = { old with bytes } := by
  unfold record at member
  split at member
  next => exact ⟨item.2, _, member, rfl⟩
  next =>
    split at member
    next =>
      obtain ⟨⟨other, old⟩, inEntries, rfl⟩ := List.mem_map.1 member
      dsimp only
      split
      · exact ⟨old, _, inEntries, rfl⟩
      · exact ⟨old, _, inEntries, rfl⟩
    next => exact ⟨item.2, _, member, rfl⟩
    next => exact ⟨item.2, _, member, rfl⟩

end TileCache

end MapStyle
