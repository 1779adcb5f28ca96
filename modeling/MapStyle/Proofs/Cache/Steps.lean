import MapStyle.Proofs.Cache.Accounting

/-!
# What steps do to builds, calls and entries

One step does little to each part of a system: a build goes on to its next phase, a call is
made or comes to its end, an entry comes up or is taken out. Each of these is said here
once, with everything that an action may do to the part, and then for whole runs: a build
that is published stays as it is, a call keeps the entry it has joined, and an entry that
was taken out never comes back.
-/

namespace MapStyle

variable {W N H : Type}

/-- How far a build may have come some steps later. -/
inductive BuildPhase.LeadsTo : BuildPhase W N → BuildPhase W N → Prop
  | same (phase) : LeadsTo phase phase
  | record (result wasResident) : LeadsTo .running (.recorded result wasResident)
  | publish (result wasResident) :
      LeadsTo (.recorded result wasResident) (.published result wasResident)
  | finish (result wasResident) : LeadsTo .running (.published result wasResident)

theorem BuildPhase.LeadsTo.trans {first second third : BuildPhase W N}
    (one : first.LeadsTo second) (two : second.LeadsTo third) : first.LeadsTo third := by
  cases one with
  | same => exact two
  | record result wasResident =>
    cases two with
    | same => exact .record result wasResident
    | publish => exact .finish result wasResident
  | publish result wasResident =>
    cases two
    exact .publish result wasResident
  | finish result wasResident =>
    cases two
    exact .finish result wasResident

theorem BuildPhase.LeadsTo.of_published {result : BuildResult W N} {wasResident : Bool}
    {phase : BuildPhase W N} (leads : LeadsTo (.published result wasResident) phase) :
    phase = .published result wasResident := by
  cases leads
  rfl

/-- What a call is told when its build came to a result. -/
def BuildResult.told (tile : TileId) (isResident : Bool) : BuildResult W N → BuildOutcome W N
  | .ready buffers => if isResident then .ready buffers else .abandoned
  | .failed => .failed tile

/-- What those do to a cache who neither ask for buffers nor build them. -/
inductive TileCache.Access (cache : TileCache W N H) : CacheAction W N H → TileCache W N H → Prop
  | attach (key : CacheKey) : Access cache (.attach key) (cache.attach key).1
  | detach (key : CacheKey) : Access cache (.detach key) (cache.detach key)
  | trim : Access cache .trim cache.trim.1
  | evict (tile) : Access cache (.evict tile) (cache.evict tile).1
  | invalidateStyle (style) : Access cache (.invalidateStyle style) (cache.invalidateStyle style).1
  | beginUpload (key : CacheKey) : Access cache (.beginUpload key) cache
  | finishUpload (index handle) (key : CacheKey) (slot) :
      Access cache (.finishUpload index handle) (cache.finishUpload key slot handle).1
  | failUpload (index) : Access cache (.failUpload index) cache

namespace CacheSystem

variable {s t u : CacheSystem W N H} {action : CacheAction W N H}
  {actions : List (CacheAction W N H)}

/-- What does not hold before a run and holds after it, some step of the run has brought about. -/
theorem exists_step (holds : CacheSystem W N H → Prop) (before : ¬holds s)
    (ran : s.run? actions = some t) (after : holds t) :
    ∃ first action rest u v, actions = first ++ action :: rest ∧ s.run? first = some u ∧
      u.step? action = some v ∧ v.run? rest = some t ∧ ¬holds u ∧ holds v := by
  simp only [run?_eq_foldlM] at ran ⊢
  exact exists_step_of_foldlM holds before ran after

/-- A step, by who takes it: a request that is made, a build that is recorded or published, a call
that is answered or gives up, or anybody else. -/
inductive Turn (s : CacheSystem W N H) : CacheAction W N H → CacheSystem W N H → Prop
  | request (key) : Turn s (.request key) (s.request key)
  | record {index key slot} (result) (found : s.builds[index]? = some ⟨key, slot, .running⟩) :
      Turn s (.record index result) { s.withCache (s.cache.record slot result) with
        builds := s.builds.set index
          ⟨key, slot, .recorded result (s.cache.entryOfSlot? key slot).isSome⟩ }
  | publish {index key slot result wasResident}
      (found : s.builds[index]? = some ⟨key, slot, .recorded result wasResident⟩) :
      Turn s (.publish index) { s.withCache (s.cache.publish slot result) with
        builds := s.builds.set index ⟨key, slot, .published result wasResident⟩ }
  | answer {index key slot outcome} (found : s.calls[index]? = some ⟨key, slot, .waiting⟩)
      (told : s.cache.outcome? slot = some outcome) :
      Turn s (.answer index)
        { s with calls := s.calls.set index ⟨key, slot, .returned outcome⟩ }
  | giveUp {index key slot} (found : s.calls[index]? = some ⟨key, slot, .waiting⟩) :
      Turn s (.giveUp index) { s with calls := s.calls.set index ⟨key, slot, .dropped⟩ }
  | access {action cache} (access : s.cache.Access action cache) (uploads) :
      Turn s action { s.withCache cache with uploads }

@[simp] theorem withCache_self (s : CacheSystem W N H) : s.withCache s.cache = s := by
  have noneNew :
      (s.cache.identities.filter fun identity => identity ∉ s.cache.identities) = [] := by
    simp
  simp only [withCache, noneNew, List.append_nil]

/-- Every step is the turn of somebody. -/
theorem turn_of_step (stepped : s.step? action = some t) : s.Turn action t := by
  cases action with
  | request key =>
    cases stepped
    exact .request key
  | record index result =>
    simp only [step?] at stepped
    split at stepped
    next found =>
      cases stepped
      exact .record result found
    next => cases stepped
  | publish index =>
    simp only [step?] at stepped
    split at stepped
    next found =>
      cases stepped
      exact .publish found
    next => cases stepped
  | answer index =>
    simp only [step?] at stepped
    split at stepped
    next found =>
      obtain ⟨outcome, told, rfl⟩ := Option.map_eq_some_iff.1 stepped
      exact .answer found told
    next => cases stepped
  | giveUp index =>
    simp only [step?] at stepped
    split at stepped
    next found =>
      cases stepped
      exact .giveUp found
    next => cases stepped
  | attach key =>
    cases stepped
    exact .access (.attach key) s.uploads
  | detach key =>
    cases stepped
    exact .access (.detach key) s.uploads
  | trim =>
    cases stepped
    exact .access .trim s.uploads
  | evict tile =>
    cases stepped
    exact .access (.evict tile) s.uploads
  | invalidateStyle style =>
    cases stepped
    exact .access (.invalidateStyle style) s.uploads
  | beginUpload key =>
    have turn (uploads) : s.Turn (.beginUpload key) { s with uploads } := by
      have access : s.Turn (.beginUpload key) { s.withCache s.cache with uploads } :=
        .access (.beginUpload key) uploads
      rwa [withCache_self] at access
    simp only [step?] at stepped
    split at stepped
    · cases stepped
      exact turn _
    · cases stepped
      exact turn s.uploads
  | finishUpload index handle =>
    obtain ⟨upload, -, rfl⟩ := Option.map_eq_some_iff.1 stepped
    exact .access (.finishUpload index handle upload.key upload.slot) _
  | failUpload index =>
    obtain ⟨upload, -, rfl⟩ := Option.map_eq_some_iff.1 stepped
    have access : s.Turn (.failUpload index)
        { s.withCache s.cache with uploads := s.uploads.eraseIdx index } :=
      .access (.failUpload index) _
    rwa [withCache_self] at access

/-! ## Builds -/

/-- Setting the build at one place leaves every build where it is or leads it on. -/
theorem build_of_set {builds : List (CacheBuild W N)} {place index : Nat}
    {build : CacheBuild W N} {key : CacheKey} {slot : Nat} {before after : BuildPhase W N}
    (there : builds[place]? = some ⟨key, slot, before⟩) (leads : before.LeadsTo after)
    (found : builds[index]? = some build) :
    ∃ phase, (builds.set place ⟨key, slot, after⟩)[index]? = some { build with phase } ∧
      build.phase.LeadsTo phase := by
  by_cases own : place = index
  · subst own
    rw [found] at there
    cases there
    exact ⟨after, List.getElem?_set_self (List.getElem?_eq_some_iff.1 found).1, leads⟩
  · exact ⟨build.phase, (List.getElem?_set_ne own).trans found, .same _⟩

/-- A build stays what it is or goes on to its next phase. -/
theorem build_step {index : Nat} {build : CacheBuild W N} (found : s.builds[index]? = some build)
    (stepped : s.step? action = some t) :
    ∃ phase, t.builds[index]? = some { build with phase } ∧ build.phase.LeadsTo phase := by
  cases turn_of_step stepped with
  | request key =>
    have inside := (List.getElem?_eq_some_iff.1 found).1
    exact ⟨build.phase, (List.getElem?_append_left inside).trans found, .same _⟩
  | record result there => exact build_of_set there (.record result _) found
  | publish there => exact build_of_set there (.publish _ _) found
  | answer | giveUp | access => exact ⟨build.phase, found, .same _⟩

theorem build_run {index : Nat} {build : CacheBuild W N} (found : s.builds[index]? = some build)
    (ran : s.run? actions = some t) :
    ∃ phase, t.builds[index]? = some { build with phase } ∧ build.phase.LeadsTo phase := by
  refine @run?_invariant W N H (fun u => ∃ phase, u.builds[index]? = some { build with phase } ∧
    build.phase.LeadsTo phase) ?_ s t actions ⟨build.phase, found, .same _⟩ ran
  rintro u v action ⟨phase, there, leads⟩ stepped
  obtain ⟨next, nextThere, nextLeads⟩ := build_step there stepped
  exact ⟨next, nextThere, leads.trans nextLeads⟩

/-- A build is published once. -/
theorem published_step {index slot : Nat} {key : CacheKey} {result : BuildResult W N}
    {wasResident : Bool}
    (found : s.builds[index]? = some ⟨key, slot, .published result wasResident⟩)
    (stepped : s.step? action = some t) :
    t.builds[index]? = some ⟨key, slot, .published result wasResident⟩ := by
  obtain ⟨phase, there, leads⟩ := build_step found stepped
  rw [there, leads.of_published]

theorem published_run {index slot : Nat} {key : CacheKey} {result : BuildResult W N}
    {wasResident : Bool}
    (found : s.builds[index]? = some ⟨key, slot, .published result wasResident⟩)
    (ran : s.run? actions = some t) :
    t.builds[index]? = some ⟨key, slot, .published result wasResident⟩ := by
  obtain ⟨phase, there, leads⟩ := build_run found ran
  rw [there, leads.of_published]

/-! ## Calls -/

/-- A call keeps the entry it has joined, and is not touched once it has come to its end. -/
theorem call_step {index : Nat} {call : CacheCall W N} (found : s.calls[index]? = some call)
    (stepped : s.step? action = some t) :
    ∃ phase, t.calls[index]? = some { call with phase } ∧
      (phase = call.phase ∨ call.phase = .waiting) := by
  have set {place key slot} (after : CallPhase W N)
      (there : s.calls[place]? = some ⟨key, slot, .waiting⟩) :
      ∃ phase, (s.calls.set place ⟨key, slot, after⟩)[index]? = some { call with phase } ∧
        (phase = call.phase ∨ call.phase = .waiting) := by
    by_cases own : place = index
    · subst own
      rw [found] at there
      cases there
      exact ⟨after, List.getElem?_set_self (List.getElem?_eq_some_iff.1 found).1, .inr rfl⟩
    · exact ⟨call.phase, (List.getElem?_set_ne own).trans found, .inl rfl⟩
  cases turn_of_step stepped with
  | request key =>
    have inside := (List.getElem?_eq_some_iff.1 found).1
    exact ⟨call.phase, (List.getElem?_append_left inside).trans found, .inl rfl⟩
  | answer there => exact set _ there
  | giveUp there => exact set _ there
  | record | publish | access => exact ⟨call.phase, found, .inl rfl⟩

theorem call_run {index : Nat} {call : CacheCall W N} (found : s.calls[index]? = some call)
    (ran : s.run? actions = some t) :
    ∃ phase, t.calls[index]? = some { call with phase } ∧
      (phase = call.phase ∨ call.phase = .waiting) := by
  refine @run?_invariant W N H (fun u => ∃ phase, u.calls[index]? = some { call with phase } ∧
    (phase = call.phase ∨ call.phase = .waiting)) ?_ s t actions ⟨call.phase, found, .inl rfl⟩ ran
  rintro u v action ⟨phase, there, kept⟩ stepped
  obtain ⟨next, nextThere, nextKept⟩ := call_step there stepped
  refine ⟨next, nextThere, ?_⟩
  rcases kept with rfl | waited
  · exact nextKept
  · exact .inr waited

/-! ## What calls are told -/

/-- What the cache shows as published in a slot is what the build of the slot has published. -/
theorem Accounted.result?_eq_some (good : s.Accounted) {slot : Nat} {result : BuildResult W N} :
    s.cache.result? slot = some result ↔ ∃ key wasResident,
      s.builds[slot]? = some ⟨key, slot, .published result wasResident⟩ := by
  have slots : s.cache.slots[slot]? = (s.builds[slot]?).map CacheBuild.buildSlot := by
    rw [good.slots, List.getElem?_map]
  unfold TileCache.result?
  rw [slots]
  constructor
  · intro shown
    cases found : s.builds[slot]? with
    | none => simp [found] at shown
    | some build =>
      obtain ⟨key, number, phase⟩ := build
      obtain rfl : number = slot := good.slot_eq found
      cases phase with
      | running | recorded => simp [found, CacheBuild.buildSlot, CacheBuild.published?] at shown
      | published published wasResident =>
        obtain rfl : published = result := by
          simpa [found, CacheBuild.buildSlot, CacheBuild.published?] using shown
        exact ⟨key, wasResident, rfl⟩
  · rintro ⟨key, wasResident, found⟩
    simp [found, CacheBuild.buildSlot, CacheBuild.published?]

/-- Once a build is published, its calls are told by its result and by whether their entry is
still there. -/
theorem Accounted.outcome?_published (good : s.Accounted) {key : CacheKey} {slot : Nat}
    {result : BuildResult W N} {wasResident : Bool}
    (found : s.builds[slot]? = some ⟨key, slot, .published result wasResident⟩) :
    s.cache.outcome? slot =
      some (result.told key.tile (decide ((key, slot) ∈ s.cache.identities))) := by
  have inSlots : s.cache.slots[slot]? = some ⟨key, some result⟩ := good.slots_getElem? found
  have resident : (s.cache.entryOfSlot? key slot).isSome =
      decide ((key, slot) ∈ s.cache.identities) := by
    rw [Bool.eq_iff_iff, TileCache.isSome_entryOfSlot? good.distinct, decide_eq_true_iff]
  cases result with
  | failed => simp [TileCache.outcome?, inSlots, BuildResult.told]
  | ready buffers => simp [TileCache.outcome?, inSlots, BuildResult.told, resident]

/-- Before that, they are told nothing. -/
theorem Accounted.published_of_outcome? (good : s.Accounted) {slot : Nat}
    {outcome : BuildOutcome W N} (told : s.cache.outcome? slot = some outcome) :
    ∃ key result wasResident,
      s.builds[slot]? = some ⟨key, slot, .published result wasResident⟩ := by
  have shown : ∃ result, s.cache.result? slot = some result := by
    unfold TileCache.outcome? at told
    split at told
    next buffers inSlots => exact ⟨.ready buffers, by simp [TileCache.result?, inSlots]⟩
    next inSlots => exact ⟨.failed, by simp [TileCache.result?, inSlots]⟩
    next => cases told
  obtain ⟨result, shown⟩ := shown
  obtain ⟨key, wasResident, found⟩ := good.result?_eq_some.1 shown
  exact ⟨key, result, wasResident, found⟩

/-! ## Entries -/

/-- What comes up in a step is what was not there before it. -/
theorem inserted_step (stepped : s.step? action = some t) :
    t.inserted = s.inserted ++ t.cache.identities.filter fun identity =>
      identity ∉ s.cache.identities := by
  cases turn_of_step stepped with
  | request | record | publish | access => rfl
  | answer | giveUp => simp

theorem mem_inserted_step {identity : CacheKey × Nat} (member : identity ∈ s.inserted)
    (stepped : s.step? action = some t) : identity ∈ t.inserted := by
  rw [inserted_step stepped]
  exact List.mem_append_left _ member

/-- The entries that ever came up are numbered in that order. -/
theorem Accounted.numbered_inserted (good : s.Accounted) :
    s.inserted.map Prod.snd = List.range s.inserted.length := by
  have slots : s.inserted.map Prod.snd = s.builds.map CacheBuild.slot := by
    simp [good.inserted, CacheBuild.identity]
  rw [slots, good.numbered, good.inserted, List.length_map]

/-- A new entry has a number that none had before. -/
theorem Accounted.le_of_new (good : t.Accounted) (stepped : s.step? action = some t)
    {identity : CacheKey × Nat} (there : identity ∈ t.cache.identities)
    (new : identity ∉ s.cache.identities) : s.inserted.length ≤ identity.2 := by
  have cameUp : identity ∈ t.cache.identities.filter fun identity =>
      identity ∉ s.cache.identities := by
    simpa using ⟨there, new⟩
  obtain ⟨place, found⟩ := List.getElem?_of_mem cameUp
  have number := congrArg (·[s.inserted.length + place]?) good.numbered_inserted
  have inside : s.inserted.length + place < t.inserted.length := by
    rw [inserted_step stepped, List.length_append]
    have := (List.getElem?_eq_some_iff.1 found).1
    omega
  have foundThere : t.inserted[s.inserted.length + place]? = some identity := by
    rw [inserted_step stepped, List.getElem?_append_right (Nat.le_add_right ..)]
    simpa using found
  simp only [List.getElem?_map, foundThere, List.getElem?_range inside, Option.map_some,
    Option.some.injEq] at number
  omega

/-- The number of an entry that ever came up is one that was given. -/
theorem Accounted.lt_of_inserted (good : s.Accounted) {identity : CacheKey × Nat}
    (member : identity ∈ s.inserted) : identity.2 < s.inserted.length := by
  have lt := good.slot_lt member
  rwa [good.inserted, List.length_map]

/-- A request leaves the entries as they are, but for one that has failed and one that it makes. -/
theorem Accounted.mem_request (good : s.Accounted) {key : CacheKey}
    {item : CacheKey × CacheEntry H} (member : item ∈ (s.cache.request key).1.entries) :
    item ∈ s.cache.entries ∨ item = (key, ⟨s.builds.length, 0, 0, none⟩) := by
  cases found : (s.cache.dropFailed key).find? key with
  | some entry =>
    rw [TileCache.request_found found] at member
    rcases TileCache.mem_putFirst member with rfl | ⟨kept, -⟩
    · exact .inl (TileCache.mem_dropFailed (TileCache.find?_eq_some found))
    · exact .inl (TileCache.mem_dropFailed kept)
  | none =>
    have number : (s.cache.dropFailed key).slots.length = s.builds.length := by
      rw [(TileCache.retains_dropFailed s.cache key).slots, good.slots, List.length_map]
    rw [TileCache.request_absent found] at member
    rcases TileCache.mem_putFirst member with rfl | ⟨kept, -⟩
    · exact .inr (by rw [number])
    · exact .inl (TileCache.mem_dropFailed kept)

/-- An entry that was taken out does not come back. -/
theorem Accounted.gone_step (good : s.Accounted) (stepped : s.step? action = some t)
    {identity : CacheKey × Nat} (once : identity ∈ s.inserted)
    (gone : identity ∉ s.cache.identities) : identity ∉ t.cache.identities := by
  intro back
  have late := (accounted_step good stepped).le_of_new stepped back gone
  have early := good.lt_of_inserted once
  omega

theorem Accounted.gone_run (good : s.Accounted) (ran : s.run? actions = some t)
    {identity : CacheKey × Nat} (once : identity ∈ s.inserted)
    (gone : identity ∉ s.cache.identities) : identity ∉ t.cache.identities := by
  have lost : t.Accounted ∧ identity ∈ t.inserted ∧ identity ∉ t.cache.identities := by
    refine @run?_invariant W N H
      (fun u => u.Accounted ∧ identity ∈ u.inserted ∧ identity ∉ u.cache.identities)
      ?_ s t actions ⟨good, once, gone⟩ ran
    rintro u v action ⟨good, once, gone⟩ stepped
    exact ⟨accounted_step good stepped, mem_inserted_step once stepped,
      good.gone_step stepped once gone⟩
  exact lost.2.2

end CacheSystem

end MapStyle
