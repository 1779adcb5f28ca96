import MapStyle.Proofs.Cache.Entries

/-!
# One build per entry, and exact counts

`CacheSystem.Accounted` ties what the cache counts to what there ever was: the slots are
those of the builds, the entries that ever came up are those the builds were started for,
and the counts add up. Every step keeps it, so it holds in every state that any interleaving
reaches, whoever gives up or is evicted on the way.
-/

namespace MapStyle

namespace CacheBuild

variable {W N : Type}

/-- The bytes that an entry shows for its build. -/
def recordedBytes (build : CacheBuild W N) : Nat :=
  (build.recordedBuffers?.map TileBuffers.byteSize).getD 0

/-- The slot of a build, as the cache holds it. -/
def buildSlot (build : CacheBuild W N) : BuildSlot W N := ⟨build.key, build.published?⟩

end CacheBuild

/-- Replacing an item by one with the same image keeps the images. -/
theorem map_set_of_same {α β : Type} (f : α → β) {items : List α} {index : Nat} {old : α}
    (found : items[index]? = some old) (new : α) (same : f new = f old) :
    (items.set index new).map f = items.map f := by
  obtain ⟨inside, rfl⟩ := List.getElem?_eq_some_iff.1 found
  rw [List.map_set, same]
  simp [← List.map_set]

/-- Replacing an item moves a count by what the two items count. -/
theorem countP_set_add {α : Type} (test : α → Bool) {items : List α} {index : Nat} {old : α}
    (found : items[index]? = some old) (new : α) :
    (items.set index new).countP test + (test old).toNat =
      items.countP test + (test new).toNat := by
  induction items generalizing index with
  | nil => cases found
  | cons item rest ih =>
    cases index with
    | zero =>
      obtain rfl : item = old := Option.some.inj found
      simp only [List.set_cons_zero, List.countP_cons]
      cases test item <;> cases test new <;> simp
    | succ index =>
      have smaller := ih found
      simp only [List.set_cons_succ, List.countP_cons]
      omega

namespace CacheSystem

variable {W N H : Type}

/-- The bytes of the build of a slot. -/
def bytesOf (s : CacheSystem W N H) (slot : Nat) : Nat :=
  ((s.builds[slot]?).map CacheBuild.recordedBytes).getD 0

/-- What holds of a cache and all that was ever asked of it. -/
structure Accounted (s : CacheSystem W N H) : Prop where
  slots : s.cache.slots = s.builds.map CacheBuild.buildSlot
  /-- The slot of a build is its place among the builds. -/
  numbered : s.builds.map CacheBuild.slot = List.range s.builds.length
  inserted : s.inserted = s.builds.map CacheBuild.identity
  resident : ∀ identity ∈ s.cache.identities, identity ∈ s.inserted
  distinct : s.cache.keys.Nodup
  bytes : ∀ item ∈ s.cache.entries, item.2.bytes = s.bytesOf item.2.slot
  requests : s.cache.counts.hits + s.cache.counts.misses = s.calls.length
  started : s.cache.counts.misses = s.cache.counts.coalesced + s.builds.length
  finished : s.cache.counts.builds + s.cache.counts.abandoned +
    s.builds.countP CacheBuild.failedResident + s.builds.countP CacheBuild.isRunning =
      s.builds.length

theorem accounted_start (budget : Nat) : (start budget : CacheSystem W N H).Accounted := by
  constructor <;> simp [start, TileCache.empty, TileCache.identities, TileCache.keys]

namespace Accounted

variable {s : CacheSystem W N H}

/-- An access that only retains entries keeps the books, if the requests it counts are made. -/
theorem reuse (good : s.Accounted) {cache : TileCache W N H} (retains : s.cache.Retains cache)
    {calls : List (CacheCall W N)}
    (requests : cache.counts.hits + cache.counts.misses = calls.length)
    (started : cache.counts.misses = cache.counts.coalesced + s.builds.length)
    (finished : cache.counts.builds = s.cache.counts.builds ∧
      cache.counts.abandoned = s.cache.counts.abandoned) :
    Accounted { s.withCache cache with calls } where
  slots := retains.slots.trans good.slots
  numbered := good.numbered
  inserted := by
    have noneNew : (cache.identities.filter fun identity =>
      identity ∉ s.cache.identities) = [] := by
      refine List.filter_eq_nil_iff.2 fun identity member => ?_
      simp [retains.identities member]
    simp only [CacheSystem.withCache, noneNew, List.append_nil]
    exact good.inserted
  resident := by
    intro identity member
    exact List.mem_append_left _ (good.resident identity (retains.identities member))
  distinct := retains.distinct good.distinct
  bytes := by
    intro item member
    obtain ⟨old, inOld, slot, bytes⟩ := retains.entries item member
    rw [← slot, ← bytes]
    exact good.bytes _ inOld
  requests := requests
  started := started
  finished := by simpa [CacheSystem.withCache, finished] using good.finished

/-- An access that only retains entries and counts nothing keeps the books. -/
theorem withCache (good : s.Accounted) {cache : TileCache W N H}
    (retains : s.cache.Retains cache) (counts : cache.counts = s.cache.counts) :
    (s.withCache cache).Accounted :=
  good.reuse retains (counts ▸ good.requests) (counts ▸ good.started) (by simp [counts])

/-- The build at a place has the number of the place. -/
theorem slot_eq (good : s.Accounted) {index : Nat} {build : CacheBuild W N}
    (found : s.builds[index]? = some build) : build.slot = index := by
  have inside := (List.getElem?_eq_some_iff.1 found).1
  have numbered := congrArg (·[index]?) good.numbered
  simpa [found, List.getElem?_range inside] using numbered

/-- The build an entry was made for. -/
theorem exists_build (good : s.Accounted) {identity : CacheKey × Nat}
    (member : identity ∈ s.inserted) :
    ∃ build, s.builds[identity.2]? = some build ∧ build.key = identity.1 := by
  rw [good.inserted] at member
  obtain ⟨build, inBuilds, rfl⟩ := List.mem_map.1 member
  obtain ⟨index, found⟩ := List.getElem?_of_mem inBuilds
  refine ⟨build, ?_, rfl⟩
  rw [CacheBuild.identity, good.slot_eq found]
  exact found

/-! ## Builds -/

/-- A build comes to its next phase, and the cache follows. The entries stay; one that was made
for the build shows the bytes that are recorded for it. -/
theorem advance (good : s.Accounted) {index : Nat} {build : CacheBuild W N}
    (found : s.builds[index]? = some build) {phase : BuildPhase W N} {cache : TileCache W N H}
    (identities : cache.identities = s.cache.identities)
    (slots : cache.slots = s.cache.slots.set index { build with phase }.buildSlot)
    (bytes : ∀ item ∈ cache.entries, item.2.bytes =
      if item.2.slot = index then { build with phase }.recordedBytes else s.bytesOf item.2.slot)
    (requests : cache.counts.hits = s.cache.counts.hits ∧
      cache.counts.misses = s.cache.counts.misses ∧
      cache.counts.coalesced = s.cache.counts.coalesced)
    (finished : cache.counts.builds + cache.counts.abandoned +
        { build with phase }.failedResident.toNat + { build with phase }.isRunning.toNat =
      s.cache.counts.builds + s.cache.counts.abandoned + build.failedResident.toNat +
        build.isRunning.toNat) :
    Accounted { s.withCache cache with builds := s.builds.set index { build with phase } } := by
  have noneNew : (cache.identities.filter fun identity => identity ∉ s.cache.identities) = [] := by
    rw [identities]
    simp
  constructor
  case slots => simp [CacheSystem.withCache, slots, good.slots]
  case numbered =>
    rw [List.length_set]
    exact (map_set_of_same CacheBuild.slot found { build with phase } rfl).trans good.numbered
  case inserted =>
    simp only [CacheSystem.withCache, noneNew, List.append_nil]
    exact good.inserted.trans
      (map_set_of_same CacheBuild.identity found { build with phase } rfl).symm
  case resident =>
    intro identity member
    exact List.mem_append_left _ (good.resident identity (identities ▸ member))
  case distinct =>
    have distinct := good.distinct
    rw [TileCache.keys_eq_identities] at distinct ⊢
    exact identities ▸ distinct
  case bytes =>
    intro item member
    rw [bytes item member]
    simp only [bytesOf, List.getElem?_set]
    by_cases own : item.2.slot = index
    · have inside := (List.getElem?_eq_some_iff.1 found).1
      simp [own, inside]
    · simp [own, Ne.symm own]
  case requests => simpa [CacheSystem.withCache, requests] using good.requests
  case started => simpa [CacheSystem.withCache, requests] using good.started
  case finished =>
    have before := good.finished
    have failed := countP_set_add CacheBuild.failedResident found { build with phase }
    have running := countP_set_add CacheBuild.isRunning found { build with phase }
    simp only [CacheSystem.withCache, List.length_set]
    omega

/-- The slot of a build is the one the cache holds for it. -/
theorem slots_getElem? (good : s.Accounted) {index : Nat} {build : CacheBuild W N}
    (found : s.builds[index]? = some build) : s.cache.slots[index]? = some build.buildSlot := by
  rw [good.slots, List.getElem?_map, found, Option.map_some]

/-- An entry that holds the slot of a build is under the key of the build. -/
theorem key_eq (good : s.Accounted) {index : Nat} {build : CacheBuild W N}
    (found : s.builds[index]? = some build) {item : CacheKey × CacheEntry H}
    (member : item ∈ s.cache.entries) (own : item.2.slot = index) : item.1 = build.key := by
  have resident := good.resident _ (List.mem_map_of_mem member)
  obtain ⟨other, foundOther, sameKey⟩ := good.exists_build resident
  rw [own, found] at foundOther
  cases foundOther
  exact sameKey.symm

/-- Before a build is recorded, its entry shows no bytes. -/
theorem bytesOf_running {index slot : Nat} {key : CacheKey}
    (found : s.builds[index]? = some ⟨key, slot, .running⟩) : s.bytesOf index = 0 := by
  simp [bytesOf, found, CacheBuild.recordedBytes, CacheBuild.recordedBuffers?]

theorem record (good : s.Accounted) {index slot : Nat} {key : CacheKey}
    (found : s.builds[index]? = some ⟨key, slot, .running⟩) (result : BuildResult W N) :
    Accounted { s.withCache (s.cache.record slot result) with
      builds := s.builds.set index
        ⟨key, slot, .recorded result (s.cache.entryOfSlot? key slot).isSome⟩ } := by
  obtain rfl : slot = index := good.slot_eq found
  have inSlots : s.cache.slots[slot]? = some ⟨key, none⟩ := good.slots_getElem? found
  have unchanged : s.cache.slots.set slot ⟨key, none⟩ = s.cache.slots := by
    simpa using map_set_of_same id inSlots ⟨key, none⟩ rfl
  cases resident : s.cache.entryOfSlot? key slot with
  | none =>
    rw [TileCache.record_abandoned inSlots resident]
    refine good.advance found rfl unchanged.symm ?bytes ⟨rfl, rfl, rfl⟩ ?finished
    case bytes =>
      intro item member
      rw [good.bytes item member, if_neg]
      intro own
      have here : (key, slot) ∈ s.cache.identities := by
        obtain ⟨other, entry⟩ := item
        obtain rfl : other = key := good.key_eq found member own
        exact TileCache.mem_identities.2 ⟨entry, member, own⟩
      have held := (TileCache.isSome_entryOfSlot? good.distinct).2 here
      simp [resident] at held
    case finished =>
      simp only [CacheBuild.failedResident, CacheBuild.isRunning]
      cases result <;> simp <;> omega
  | some entry =>
    cases result with
    | failed =>
      rw [TileCache.record_failed inSlots resident]
      refine good.advance found rfl unchanged.symm ?bytes ⟨rfl, rfl, rfl⟩ ?finished
      case bytes =>
        intro item member
        rw [good.bytes item member]
        split
        next own => rw [own, bytesOf_running found]; rfl
        next => rfl
      case finished =>
        rfl
    | ready buffers =>
      rw [TileCache.record_ready inSlots resident]
      refine good.advance found ?identities unchanged.symm ?bytes ⟨rfl, rfl, rfl⟩ ?finished
      case identities =>
        exact TileCache.identities_modifyEntry s.cache key ({ · with bytes := buffers.byteSize })
          fun _ => rfl
      case bytes =>
        intro item member
        obtain ⟨⟨other, old⟩, inOld, rfl⟩ := List.mem_map.1 member
        have oldBytes := good.bytes _ inOld
        by_cases own : other = key
        · subst own
          obtain ⟨found', slot'⟩ := Option.filter_eq_some_iff.1 resident
          rw [TileCache.find?_of_mem good.distinct inOld] at found'
          cases found'
          simp_all [CacheBuild.recordedBytes, CacheBuild.recordedBuffers?]
        · have elsewhere : old.slot ≠ slot := fun same => own (good.key_eq found inOld same)
          simp only [own, if_false, if_neg elsewhere]
          exact oldBytes
      case finished =>
        simp only [CacheBuild.failedResident, CacheBuild.isRunning]
        simp
        omega

theorem publish (good : s.Accounted) {index slot : Nat} {key : CacheKey}
    {result : BuildResult W N} {wasResident : Bool}
    (found : s.builds[index]? = some ⟨key, slot, .recorded result wasResident⟩) :
    Accounted { s.withCache (s.cache.publish slot result) with
      builds := s.builds.set index ⟨key, slot, .published result wasResident⟩ } := by
  obtain rfl : slot = index := good.slot_eq found
  have inSlots := good.slots_getElem? found
  refine good.advance found rfl ?slots ?bytes ⟨rfl, rfl, rfl⟩ ?finished
  case slots =>
    refine List.ext_getElem? fun place => ?_
    simp only [TileCache.publish, List.getElem?_modify, List.getElem?_set]
    by_cases here : slot = place
    · subst here
      have inside := (List.getElem?_eq_some_iff.1 inSlots).1
      rw [if_pos rfl, if_pos inside, inSlots]
      simp [CacheBuild.buildSlot, CacheBuild.published?]
    · simp [here]
  case bytes =>
    intro item member
    rw [good.bytes item member]
    by_cases own : item.2.slot = slot
    · cases result <;> simp [own, bytesOf, found, CacheBuild.recordedBytes,
        CacheBuild.recordedBuffers?]
    · rw [if_neg own]
  case finished =>
    cases result <;> rfl

/-! ## Requests -/

/-- A request that finds an entry joins the build of that entry. -/
theorem requestFound (good : s.Accounted) {key : CacheKey} {entry : CacheEntry H}
    (found : (s.cache.dropFailed key).find? key = some entry) :
    (s.request key).Accounted := by
  have retains := (TileCache.retains_dropFailed s.cache key).trans
    (TileCache.retains_putFirst found rfl rfl)
  have requests := good.requests
  have started := good.started
  simp only [CacheSystem.request, TileCache.request_found found, Bool.false_eq_true, if_false,
    List.append_nil]
  refine good.reuse (retains.recount _) ?_ ?_ ?_
  all_goals
    simp only [TileCache.countFound, TileCache.counts_dropFailed]
    split <;> simp <;> omega

/-- The slot of a build that was started before. -/
theorem slot_lt (good : s.Accounted) {identity : CacheKey × Nat} (member : identity ∈ s.inserted) :
    identity.2 < s.builds.length := by
  obtain ⟨build, found, -⟩ := good.exists_build member
  exact (List.getElem?_eq_some_iff.1 found).1

/-- A request that finds no entry makes one, with a slot that no entry ever had. -/
theorem requestNew (good : s.Accounted) {key : CacheKey}
    (absent : (s.cache.dropFailed key).find? key = none) : (s.request key).Accounted := by
  have retains := TileCache.retains_dropFailed s.cache key
  have number : (s.cache.dropFailed key).slots.length = s.builds.length := by
    rw [retains.slots, good.slots, List.length_map]
  have identities := TileCache.identities_insertNew (s.cache.dropFailed key) key
  rw [number] at identities
  have fresh : (key, s.builds.length) ∉ s.cache.identities := by
    intro member
    exact Nat.lt_irrefl _ (good.slot_lt (good.resident _ member))
  have oldOthers : ∀ identity ∈ (s.cache.dropFailed key).identities.filter
      (fun identity => identity.1 ≠ key), identity ∈ s.cache.identities :=
    fun identity member => retains.identities (List.mem_filter.1 member).1
  have oneNew : ((s.cache.dropFailed key).insertNew key).identities.filter
      (fun identity => identity ∉ s.cache.identities) = [(key, s.builds.length)] := by
    rw [identities, List.filter_cons_of_pos (by simpa using fresh), List.cons_inj_right]
    refine List.filter_eq_nil_iff.2 fun identity member => ?_
    simp [oldOthers identity member]
  simp only [CacheSystem.request, TileCache.request_absent absent, if_true, number]
  constructor
  case slots =>
    simp [CacheSystem.withCache, TileCache.insertNew, retains.slots, good.slots,
      CacheBuild.buildSlot, CacheBuild.published?]
  case numbered => simp [good.numbered, List.range_succ]
  case inserted =>
    simp only [CacheSystem.withCache, oneNew, good.inserted]
    simp [CacheBuild.identity]
  case resident =>
    intro identity member
    simp only [CacheSystem.withCache, oneNew, List.mem_append, List.mem_singleton]
    replace member : identity ∈ ((s.cache.dropFailed key).insertNew key).identities := member
    rw [identities] at member
    rcases List.mem_cons.1 member with new | old
    · exact .inr new
    · exact .inl (good.resident _ (oldOthers identity old))
  case distinct => exact TileCache.distinct_putFirst (retains.distinct good.distinct) key _
  case bytes =>
    refine List.forall_mem_cons.2 ⟨?_, fun item member => ?_⟩
    · simp [bytesOf, number, CacheBuild.recordedBytes, CacheBuild.recordedBuffers?]
    · obtain ⟨old, inOld, slot, bytes⟩ := retains.entries item (List.mem_filter.1 member).1
      have inside := good.slot_lt (good.resident _ (List.mem_map_of_mem inOld))
      have before := good.bytes _ inOld
      rw [slot, bytes] at before
      rw [before, bytesOf, bytesOf, List.getElem?_append_left (slot ▸ inside)]
  case requests =>
    have before := good.requests
    simp [CacheSystem.withCache, TileCache.insertNew]
    omega
  case started =>
    have before := good.started
    simp [CacheSystem.withCache, TileCache.insertNew]
    omega
  case finished =>
    have before := good.finished
    simp [CacheSystem.withCache, TileCache.insertNew, CacheBuild.failedResident,
      CacheBuild.isRunning]
    omega

theorem request (good : s.Accounted) (key : CacheKey) : (s.request key).Accounted := by
  cases found : (s.cache.dropFailed key).find? key with
  | none => exact good.requestNew found
  | some entry => exact good.requestFound found

/-- What happens to calls and uploads is not in the books, as long as no call is forgotten. -/
theorem bystanders (good : s.Accounted) {calls : List (CacheCall W N)}
    (uploads : List (CacheUpload W N)) (same : calls.length = s.calls.length) :
    Accounted { s with calls, uploads } :=
  ⟨good.slots, good.numbered, good.inserted, good.resident, good.distinct, good.bytes,
    same ▸ good.requests, good.started, good.finished⟩

end Accounted

/-- Every step keeps the books. -/
theorem accounted_step {s t : CacheSystem W N H} {action : CacheAction W N H}
    (good : s.Accounted) (stepped : s.step? action = some t) : t.Accounted := by
  cases action with
  | request key =>
    cases stepped
    exact good.request key
  | record index result =>
    simp only [step?] at stepped
    split at stepped
    next key slot found =>
      cases stepped
      exact good.record found result
    next => cases stepped
  | publish index =>
    simp only [step?] at stepped
    split at stepped
    next key slot result wasResident found =>
      cases stepped
      exact good.publish found
    next => cases stepped
  | answer index =>
    simp only [step?] at stepped
    split at stepped
    next key slot found =>
      obtain ⟨outcome, -, rfl⟩ := Option.map_eq_some_iff.1 stepped
      exact good.bystanders s.uploads (List.length_set ..)
    next => cases stepped
  | giveUp index =>
    simp only [step?] at stepped
    split at stepped
    next key slot found =>
      cases stepped
      exact good.bystanders s.uploads (List.length_set ..)
    next => cases stepped
  | attach key =>
    cases stepped
    refine good.withCache (TileCache.retains_attach s.cache key) ?_
    unfold TileCache.attach
    split <;> rfl
  | detach key =>
    cases stepped
    refine good.withCache (TileCache.retains_detach s.cache key) ?_
    unfold TileCache.detach
    split <;> rfl
  | trim =>
    cases stepped
    exact good.withCache (TileCache.retains_removeWhere s.cache _) rfl
  | evict tile =>
    cases stepped
    exact good.withCache (TileCache.retains_dispose s.cache _) rfl
  | invalidateStyle style =>
    cases stepped
    exact good.withCache (TileCache.retains_dispose s.cache _) rfl
  | beginUpload key =>
    simp only [step?] at stepped
    split at stepped
    · cases stepped
      exact good.bystanders _ rfl
    · cases stepped
      exact good
  | finishUpload index handle =>
    obtain ⟨upload, -, rfl⟩ := Option.map_eq_some_iff.1 stepped
    refine (good.withCache (TileCache.retains_finishUpload s.cache _ _ handle) ?_).bystanders _ rfl
    unfold TileCache.finishUpload
    split
    · rfl
    · split <;> rfl
  | failUpload index =>
    obtain ⟨upload, -, rfl⟩ := Option.map_eq_some_iff.1 stepped
    exact good.bystanders _ rfl

/-- Every interleaving that starts from an empty cache keeps the books. -/
theorem accounted_run {budget : Nat} {actions : List (CacheAction W N H)}
    {s : CacheSystem W N H} (ran : (start budget).run? actions = some s) : s.Accounted :=
  run?_invariant (fun _ _ _ => accounted_step) (accounted_start budget) ran

/-! ## The accounts of a run -/

/-- The buffers of the build of a slot, once its success is recorded. -/
def recordedBuffers? (s : CacheSystem W N H) (slot : Nat) : Option (TileBuffers W N) :=
  (s.builds.find? (·.slot = slot)).bind CacheBuild.recordedBuffers?

/-- The bytes that some buffers take together. -/
def totalBytes (buffers : List (TileBuffers W N)) : Nat :=
  buffers.foldr (fun one total => one.byteSize + total) 0

namespace Accounted

variable {s : CacheSystem W N H}

/-- One build was started with a slot, however often its key was asked for. -/
theorem countP_slot (good : s.Accounted) {slot : Nat} (started : slot < s.builds.length) :
    s.builds.countP (·.slot = slot) = 1 := by
  have counted : s.builds.countP (·.slot = slot) = (s.builds.map CacheBuild.slot).count slot := by
    rw [List.count, List.countP_map]
    refine List.countP_congr fun build _ => ?_
    simp
  rw [counted, good.numbered, List.count_range, if_pos started]

theorem recordedBuffers?_eq (good : s.Accounted) {slot : Nat} {build : CacheBuild W N}
    (found : s.builds[slot]? = some build) :
    s.recordedBuffers? slot = build.recordedBuffers? := by
  obtain ⟨inside, same⟩ := List.getElem?_eq_some_iff.1 found
  have first : s.builds.find? (·.slot = slot) = some build := by
    refine List.find?_eq_some_iff_getElem.2 ⟨by simp [good.slot_eq found], slot, inside, same, ?_⟩
    intro earlier before
    have number := good.slot_eq (List.getElem?_eq_getElem (Nat.lt_trans before inside))
    simp [number]
    omega
  rw [recordedBuffers?, first, Option.bind_some]

/-- The bytes of an entry are those of the buffers that are recorded for it. -/
theorem bytes_eq (good : s.Accounted) {item : CacheKey × CacheEntry H}
    (member : item ∈ s.cache.entries) :
    item.2.bytes = ((s.recordedBuffers? item.2.slot).map TileBuffers.byteSize).getD 0 := by
  obtain ⟨build, found, -⟩ :=
    good.exists_build (good.resident _ (List.mem_map_of_mem member))
  rw [good.bytes item member, good.recordedBuffers?_eq found, bytesOf, found]
  rfl

/-- The cache holds as many bytes as the recorded buffers of its entries take. -/
theorem residentBytes_eq (good : s.Accounted) :
    s.cache.residentBytes = totalBytes (s.cache.entries.filterMap fun item =>
      s.recordedBuffers? item.2.slot) := by
  unfold TileCache.residentBytes
  have shown : ∀ item ∈ s.cache.entries, item.2.bytes =
      ((s.recordedBuffers? item.2.slot).map TileBuffers.byteSize).getD 0 :=
    fun item member => good.bytes_eq member
  generalize s.cache.entries = entries at shown
  induction entries with
  | nil => rfl
  | cons item rest ih =>
    obtain ⟨key, entry⟩ := item
    obtain ⟨first, others⟩ := List.forall_mem_cons.1 shown
    rw [List.foldr_cons, ih others, List.filterMap_cons]
    simp only at first ⊢
    rw [first]
    cases s.recordedBuffers? entry.slot <;> simp [totalBytes]

end Accounted

/-- In whatever order callers, builds, renderers and those who take out entries have come to
their turns, and whoever has given up: every entry that is there has one build that was ever
started for it, under its key; no slot was ever that of two entries, so as many builds were
started for a key as entries came up under it; requests and builds are counted exactly; and
the bytes are those of the entries whose success is recorded. -/
theorem run_exact {budget : Nat} {actions : List (CacheAction W N H)} {s : CacheSystem W N H}
    (ran : (start budget).run? actions = some s) :
    (∀ item ∈ s.cache.entries, s.builds.countP (·.slot = item.2.slot) = 1 ∧
      ∀ build ∈ s.builds, build.slot = item.2.slot → build.key = item.1) ∧
    (∀ identity ∈ s.cache.identities, identity ∈ s.inserted) ∧
    (s.inserted.map Prod.snd).Nodup ∧
    (∀ key, s.builds.countP (·.key = key) = s.inserted.countP (·.1 = key)) ∧
    s.cache.counts.hits + s.cache.counts.misses = s.calls.length ∧
    s.cache.counts.misses = s.cache.counts.coalesced + s.builds.length ∧
    s.cache.counts.builds + s.cache.counts.abandoned +
      s.builds.countP CacheBuild.failedResident + s.builds.countP CacheBuild.isRunning =
        s.builds.length ∧
    s.cache.residentBytes = totalBytes (s.cache.entries.filterMap fun item =>
      s.recordedBuffers? item.2.slot) := by
  have good := accounted_run ran
  refine ⟨fun item member => ⟨?one, ?own⟩, good.resident, ?distinct, fun key => ?perKey,
    good.requests, good.started, good.finished, good.residentBytes_eq⟩
  case one => exact good.countP_slot (good.slot_lt (good.resident _ (List.mem_map_of_mem member)))
  case own =>
    intro build inBuilds own
    obtain ⟨index, found⟩ := List.getElem?_of_mem inBuilds
    have number := good.slot_eq found
    exact (good.key_eq found member (own.symm.trans number)).symm
  case distinct =>
    have slots : s.inserted.map Prod.snd = s.builds.map CacheBuild.slot := by
      simp [good.inserted, CacheBuild.identity]
    rw [slots, good.numbered]
    exact List.nodup_range
  case perKey =>
    rw [good.inserted, List.countP_map]
    rfl

/-- One tile under one style. -/
def someKey : CacheKey := ⟨⟨0, 0, 0⟩, 0⟩

/-- Buffers of two words of vertices and three indices. -/
def someBuffers : TileBuffers Unit Unit where
  tile := someKey.tile
  style := someKey.style
  generation := 0
  vertices := [(), ()]
  indices := [0, 1, 1]
  layout := ⟨4, []⟩
  drawRanges := []
  symbols := []
  featureCount := 1
  warnings := []

/-- A tile is evicted while it is built and asked for again; the first build finishes after all,
the second fails, and the third, which the failure makes necessary, succeeds. One caller gives
up on the way. -/
def rebuilding : List (CacheAction Unit Unit Unit) := [
  .request someKey, .evict someKey.tile, .request someKey, .giveUp 0,
  .record 0 (.ready someBuffers), .request someKey, .record 1 .failed, .publish 0, .publish 1,
  .answer 1, .request someKey, .record 2 (.ready someBuffers), .trim, .publish 2, .answer 3,
  .request someKey]

theorem rebuilding_exact :
    ∃ s, (start 0).run? rebuilding = some s ∧ s.builds.length = 3 ∧ s.calls.length = 5 ∧
      s.cache.counts = ⟨1, 4, 1, 1, 1⟩ ∧ s.builds.countP CacheBuild.failedResident = 1 ∧
      s.cache.residentBytes = 20 := by
  refine ⟨_, rfl, rfl, rfl, rfl, rfl, ?_⟩
  have ran : (start 0).run? rebuilding = some _ := rfl
  rw [(run_exact ran).2.2.2.2.2.2.2]
  rfl

end CacheSystem

end MapStyle
