import MapStyle.Proofs.Cache.Removal

/-!
# What calls are told

A call returns in one step of its own, and what it is told then is the result of the build
whose entry it joined, however often the key was evicted and built again in the meantime.
`CacheSystem.ready_agrees` puts this together for calls that are told of finished buffers:
the cache hands out the same buffers in that moment, all calls of one entry are told of the
same ones, and a request never joins an entry of which a failure was published before.
-/

namespace MapStyle

variable {W N H : Type}

theorem BuildResult.ready_of_told {tile : TileId} {isResident : Bool} {result : BuildResult W N}
    {buffers : TileBuffers W N} (same : .ready buffers = result.told tile isResident) :
    result = .ready buffers ∧ isResident = true := by
  cases result with
  | failed => cases same
  | ready built =>
    cases isResident with
    | false => cases same
    | true =>
      cases same
      exact ⟨rfl, rfl⟩

theorem BuildResult.abandoned_of_told {tile : TileId} {isResident : Bool}
    {result : BuildResult W N} (same : .abandoned = result.told tile isResident) :
    (∃ buffers, result = .ready buffers) ∧ isResident = false := by
  cases result with
  | failed => cases same
  | ready built =>
    cases isResident with
    | false => exact ⟨⟨built, rfl⟩, rfl⟩
    | true => cases same

namespace CacheSystem

variable {s t : CacheSystem W N H} {action : CacheAction W N H}
  {actions : List (CacheAction W N H)}

/-! ## The step in which a call returns -/

/-- Nobody but the call itself makes it return. -/
theorem answered_step {index slot : Nat} {key : CacheKey} {outcome : BuildOutcome W N}
    (pending : s.calls[index]? ≠ some ⟨key, slot, .returned outcome⟩)
    (stepped : s.step? action = some t)
    (returned : t.calls[index]? = some ⟨key, slot, .returned outcome⟩) :
    action = .answer index ∧ s.calls[index]? = some ⟨key, slot, .waiting⟩ ∧
      s.cache.outcome? slot = some outcome := by
  cases turn_of_step stepped with
  | record | publish | access => exact absurd returned pending
  | request other =>
    replace returned : (s.calls ++ [⟨other, (s.cache.request other).2.slot, .waiting⟩])[index]? =
      some ⟨key, slot, .returned outcome⟩ := returned
    rw [List.getElem?_append] at returned
    split at returned
    · exact absurd returned pending
    · have made := List.mem_of_getElem? returned
      cases List.mem_singleton.1 made
  | @answer place other number answer found told =>
    replace returned : (s.calls.set place ⟨other, number, .returned answer⟩)[index]? =
      some ⟨key, slot, .returned outcome⟩ := returned
    by_cases own : place = index
    · subst own
      rw [List.getElem?_set_self (List.getElem?_eq_some_iff.1 found).1] at returned
      cases returned
      exact ⟨rfl, found, told⟩
    · rw [List.getElem?_set_ne own] at returned
      exact absurd returned pending
  | @giveUp place other number found =>
    replace returned : (s.calls.set place ⟨other, number, .dropped⟩)[index]? =
      some ⟨key, slot, .returned outcome⟩ := returned
    by_cases own : place = index
    · subst own
      rw [List.getElem?_set_self (List.getElem?_eq_some_iff.1 found).1] at returned
      cases returned
    · rw [List.getElem?_set_ne own] at returned
      exact absurd returned pending

/-- A call that returned in a run was answered in one of its steps. -/
theorem exists_answer {index slot : Nat} {key : CacheKey} {outcome : BuildOutcome W N}
    (pending : s.calls[index]? ≠ some ⟨key, slot, .returned outcome⟩)
    (ran : s.run? actions = some t)
    (returned : t.calls[index]? = some ⟨key, slot, .returned outcome⟩) :
    ∃ first rest u v, actions = first ++ .answer index :: rest ∧ s.run? first = some u ∧
      u.step? (.answer index) = some v ∧ v.run? rest = some t ∧
      u.calls[index]? = some ⟨key, slot, .waiting⟩ ∧ u.cache.outcome? slot = some outcome := by
  obtain ⟨first, action, rest, u, v, rfl, ranTo, stepped, ranOn, before, after⟩ :=
    exists_step (fun u => u.calls[index]? = some ⟨key, slot, .returned outcome⟩)
      pending ran returned
  obtain ⟨rfl, waiting, told⟩ := answered_step before stepped after
  exact ⟨first, rest, u, v, rfl, ranTo, stepped, ranOn, waiting, told⟩

/-! ## Calls and their builds -/

/-- What holds of the calls there ever were, next to the books. -/
structure Answered (s : CacheSystem W N H) : Prop extends s.Accounted where
  joined : ∀ call ∈ s.calls, (call.key, call.slot) ∈ s.inserted
  told : ∀ call ∈ s.calls, ∀ outcome, call.phase = .returned outcome →
    ∃ result wasResident isResident,
      s.builds[call.slot]? = some ⟨call.key, call.slot, .published result wasResident⟩ ∧
      outcome = result.told call.key.tile isResident
  /-- An entry that is there is the last that came up under its key. -/
  newest : ∀ identity ∈ s.cache.identities, ∀ other ∈ s.inserted,
    other.1 = identity.1 → other.2 ≤ identity.2

theorem answered_start (budget : Nat) : (start budget : CacheSystem W N H).Answered where
  toAccounted := accounted_start budget
  joined := by simp [start]
  told := by simp [start]
  newest := by simp [start, TileCache.empty, TileCache.identities]

/-- Every call after a step was made before it, or has just joined an entry that is there. -/
theorem joined_step (stepped : s.step? action = some t) {call : CacheCall W N}
    (member : call ∈ t.calls) :
    (∃ old ∈ s.calls, old.key = call.key ∧ old.slot = call.slot) ∨
      (call.key, call.slot) ∈ t.cache.identities := by
  cases turn_of_step stepped with
  | record | publish | access => exact .inl ⟨call, member, rfl, rfl⟩
  | request key =>
    rcases List.mem_append.1 member with old | new
    · exact .inl ⟨call, old, rfl, rfl⟩
    · obtain rfl := List.mem_singleton.1 new
      exact .inr (s.cache.joined_mem_identities key)
  | answer found | giveUp found =>
    rcases List.mem_or_eq_of_mem_set member with old | rfl
    · exact .inl ⟨call, old, rfl, rfl⟩
    · exact .inl ⟨_, List.mem_of_getElem? found, rfl, rfl⟩

namespace Answered

/-- The build of the entry that a call has joined. -/
theorem exists_joined (good : s.Answered) {call : CacheCall W N} (member : call ∈ s.calls) :
    ∃ phase, s.builds[call.slot]? = some ⟨call.key, call.slot, phase⟩ := by
  obtain ⟨⟨key, slot, phase⟩, found, rfl⟩ := good.exists_build (good.joined call member)
  obtain rfl : slot = call.slot := good.slot_eq found
  exact ⟨phase, found⟩

/-- A call that is told something is told so by its own build. -/
theorem published_of_told (good : s.Answered) {call : CacheCall W N} (member : call ∈ s.calls)
    {outcome : BuildOutcome W N} (told : s.cache.outcome? call.slot = some outcome) :
    ∃ result wasResident,
      s.builds[call.slot]? = some ⟨call.key, call.slot, .published result wasResident⟩ ∧
      outcome =
        result.told call.key.tile (decide ((call.key, call.slot) ∈ s.cache.identities)) := by
  obtain ⟨phase, found⟩ := good.exists_joined member
  obtain ⟨key, result, wasResident, published⟩ := good.published_of_outcome? told
  rw [found] at published
  cases published
  refine ⟨result, wasResident, found, ?_⟩
  rw [good.outcome?_published found] at told
  exact (Option.some.inj told).symm

theorem step (good : s.Answered) (stepped : s.step? action = some t) : t.Answered where
  toAccounted := accounted_step good.toAccounted stepped
  joined := by
    intro call member
    rcases joined_step stepped member with ⟨old, inOld, sameKey, sameSlot⟩ | there
    · rw [← sameKey, ← sameSlot]
      exact mem_inserted_step (good.joined old inOld) stepped
    · exact (accounted_step good.toAccounted stepped).resident _ there
  told := by
    rintro ⟨key, slot, phase⟩ member outcome rfl
    obtain ⟨index, found⟩ := List.getElem?_of_mem member
    by_cases before : s.calls[index]? = some ⟨key, slot, .returned outcome⟩
    · obtain ⟨result, wasResident, isResident, published, same⟩ :=
        good.told _ (List.mem_of_getElem? before) outcome rfl
      exact ⟨result, wasResident, isResident, published_step published stepped, same⟩
    · obtain ⟨-, waiting, told⟩ := answered_step before stepped found
      obtain ⟨result, wasResident, published, same⟩ :=
        good.published_of_told (List.mem_of_getElem? waiting) told
      exact ⟨result, wasResident, _, published_step published stepped, same⟩
  newest := by
    have after := accounted_step good.toAccounted stepped
    rintro ⟨_, slot⟩ there ⟨key, number⟩ came rfl
    rw [inserted_step stepped] at came
    rcases List.mem_append.1 came with old | new
    · by_cases stays : (key, slot) ∈ s.cache.identities
      · exact good.newest _ stays _ old rfl
      · have late := after.le_of_new stepped there stays
        have early := good.lt_of_inserted old
        omega
    · -- Two entries that are there under one key are one entry.
      have distinct := after.distinct
      rw [TileCache.keys_eq_identities] at distinct
      have known := lookup_of_mem distinct there
      rw [lookup_of_mem distinct (List.mem_filter.1 new).1] at known
      exact Nat.le_of_eq (Option.some.inj known)

end Answered

theorem answered_run {budget : Nat} (ran : (start budget).run? actions = some s) : s.Answered :=
  run?_invariant (fun _ _ _ => Answered.step) (answered_start budget) ran

/-! ## Requests after a failure -/

/-- A request starts a build with a number of its own, or joins an entry that is there and of
which no failure is published. -/
theorem Accounted.request_cases (good : s.Accounted) (key : CacheKey) :
    ((s.cache.request key).2.slot = s.builds.length ∧
      (s.request key).builds = s.builds ++ [⟨key, s.builds.length, .running⟩]) ∨
    ((key, (s.cache.request key).2.slot) ∈ s.cache.identities ∧
      s.cache.hasFailed (s.cache.request key).2.slot = false ∧
      (s.request key).builds = s.builds) := by
  cases found : (s.cache.dropFailed key).find? key with
  | some entry =>
    obtain ⟨there, sound⟩ := TileCache.dropFailed_found found
    have member : (key, entry.slot) ∈ s.cache.identities :=
      TileCache.mem_identities.2 ⟨entry, TileCache.find?_eq_some there, rfl⟩
    simp only [CacheSystem.request, TileCache.request_found found, Bool.false_eq_true, if_false,
      List.append_nil]
    exact .inr ⟨member, sound, trivial⟩
  | none =>
    have number : (s.cache.dropFailed key).slots.length = s.builds.length := by
      rw [(TileCache.retains_dropFailed s.cache key).slots, good.slots, List.length_map]
    simp only [CacheSystem.request, TileCache.request_absent found, if_true, number]
    exact .inl ⟨trivial, trivial⟩

/-- After a failure was published, a request joins a later entry. -/
theorem Answered.lt_of_failed (good : s.Answered) {key : CacheKey} {failed : Nat}
    {wasResident : Bool}
    (published : s.builds[failed]? = some ⟨key, failed, .published .failed wasResident⟩) :
    failed < (s.cache.request key).2.slot := by
  rcases good.request_cases key with ⟨number, -⟩ | ⟨there, sound, -⟩
  · rw [number]
    exact (List.getElem?_eq_some_iff.1 published).1
  · have came : (key, failed) ∈ s.inserted := by
      rw [good.inserted]
      exact List.mem_map.2 ⟨_, List.mem_of_getElem? published, rfl⟩
    have earlier : failed ≤ (s.cache.request key).2.slot := good.newest _ there _ came rfl
    have hasFailed : s.cache.hasFailed failed = true :=
      TileCache.hasFailed_iff.2 (good.result?_eq_some.2 ⟨key, wasResident, published⟩)
    rcases Nat.lt_or_eq_of_le earlier with lt | same
    · exact lt
    · rw [← same, hasFailed] at sound
      cases sound

/-! ## Finished buffers -/

/-- The cache hands out what was published for the entry that is there. -/
theorem Accounted.get?_of_published (good : s.Accounted) {key : CacheKey} {slot : Nat}
    {buffers : TileBuffers W N} {wasResident : Bool} (there : (key, slot) ∈ s.cache.identities)
    (published : s.builds[slot]? = some ⟨key, slot, .published (.ready buffers) wasResident⟩) :
    s.cache.get? key = some buffers := by
  obtain ⟨entry, member, same⟩ := TileCache.mem_identities.1 there
  have found := TileCache.find?_of_mem good.distinct member
  have shown : s.cache.buffers? slot = some buffers :=
    TileCache.buffers?_eq_some.2 (good.result?_eq_some.2 ⟨key, wasResident, published⟩)
  simp only [TileCache.get?, found, Option.bind_some, same, shown]

/-- In whatever order everybody comes to their turns. A call that is told of finished buffers is
told so in one step, in which the entry it has joined is there, the only build of that entry is
published with these buffers, and the cache hands them out. Two calls of one entry that are told
of finished buffers are told of the same. Whatever a call is told is the result of the build of
its own entry. And a request joins an entry that is there, for good: a new one with a build of
its own or one that was there before, but none of which a failure is published. -/
theorem ready_agrees {budget : Nat} {actions : List (CacheAction W N H)} {s : CacheSystem W N H}
    (ran : (start budget).run? actions = some s) :
    (∀ index key slot buffers,
      s.calls[index]? = some ⟨key, slot, .returned (.ready buffers)⟩ →
      ∃ before after u wasResident, actions = before ++ .answer index :: after ∧
        (start budget).run? before = some u ∧
        u.calls[index]? = some ⟨key, slot, .waiting⟩ ∧
        (key, slot) ∈ u.cache.identities ∧
        u.builds.countP (·.slot = slot) = 1 ∧
        u.builds[slot]? = some ⟨key, slot, .published (.ready buffers) wasResident⟩ ∧
        u.cache.get? key = some buffers) ∧
    (∀ first ∈ s.calls, ∀ second ∈ s.calls, first.slot = second.slot →
      ∀ buffers others, first.phase = .returned (.ready buffers) →
        second.phase = .returned (.ready others) → buffers = others) ∧
    (∀ call ∈ s.calls, ∀ outcome, call.phase = .returned outcome →
      ∃ result wasResident isResident,
        s.builds[call.slot]? = some ⟨call.key, call.slot, .published result wasResident⟩ ∧
        outcome = result.told call.key.tile isResident) ∧
    (∀ key t, s.step? (.request key) = some t → ∃ slot,
      t.calls = s.calls ++ [⟨key, slot, .waiting⟩] ∧
      (key, slot) ∈ t.cache.identities ∧
      (slot = s.builds.length ∧ t.builds = s.builds ++ [⟨key, slot, .running⟩] ∨
        (key, slot) ∈ s.cache.identities ∧ t.builds = s.builds) ∧
      (∀ failed wasResident,
        s.builds[failed]? = some ⟨key, failed, .published .failed wasResident⟩ →
          failed < slot) ∧
      ∀ later u, t.run? later = some u →
        ∃ phase, u.calls[s.calls.length]? = some ⟨key, slot, phase⟩) := by
  have good := answered_run ran
  refine ⟨?returns, ?same, good.told, ?joins⟩
  case returns =>
    intro index key slot buffers returned
    have pending : (start budget : CacheSystem W N H).calls[index]? ≠
        some ⟨key, slot, .returned (.ready buffers)⟩ := by
      simp [start]
    obtain ⟨before, after, u, v, rfl, ranTo, -, -, waiting, told⟩ :=
      exists_answer pending ran returned
    have goodThere := answered_run ranTo
    have member := List.mem_of_getElem? waiting
    obtain ⟨result, wasResident, published, same⟩ := goodThere.published_of_told member told
    obtain ⟨rfl, there⟩ := BuildResult.ready_of_told same
    replace there : (key, slot) ∈ u.cache.identities := of_decide_eq_true there
    refine ⟨before, after, u, wasResident, rfl, ranTo, waiting, there, ?_, published, ?_⟩
    · exact goodThere.countP_slot (goodThere.slot_lt (goodThere.joined _ member))
    · exact goodThere.get?_of_published there published
  case same =>
    intro first inFirst second inSecond sameSlot buffers others one two
    obtain ⟨result, _, _, published, toldFirst⟩ := good.told first inFirst _ one
    obtain ⟨other, _, _, publishedToo, toldSecond⟩ := good.told second inSecond _ two
    obtain ⟨rfl, -⟩ := BuildResult.ready_of_told toldFirst
    obtain ⟨rfl, -⟩ := BuildResult.ready_of_told toldSecond
    rw [sameSlot, publishedToo] at published
    have phases := congrArg CacheBuild.phase (Option.some.inj published)
    cases phases
    rfl
  case joins =>
    intro key t stepped
    cases stepped
    refine ⟨(s.cache.request key).2.slot, rfl, s.cache.joined_mem_identities key, ?_, ?_, ?_⟩
    · rcases good.request_cases key with ⟨number, started⟩ | ⟨there, -, unchanged⟩
      · exact .inl ⟨number, by rw [number, started]⟩
      · exact .inr ⟨there, unchanged⟩
    · exact fun failed wasResident published => good.lt_of_failed published
    · intro later u ranLater
      have made : (s.request key).calls[s.calls.length]? =
          some ⟨key, (s.cache.request key).2.slot, .waiting⟩ :=
        List.getElem?_concat_length
      obtain ⟨phase, found, -⟩ := call_run made ranLater
      exact ⟨phase, found⟩

/-- Buffers of a later generation of the tile. -/
def laterBuffers : TileBuffers Unit Unit := { someBuffers with generation := 1 }

/-- A tile is evicted while it is built, asked for twice again, and built twice; the first build
is published before the second. -/
def overtaken : List (CacheAction Unit Unit Unit) := [
  .request someKey, .evict someKey.tile, .request someKey, .request someKey,
  .record 0 (.ready someBuffers), .publish 0, .record 1 (.ready laterBuffers), .publish 1,
  .answer 2, .answer 0, .answer 1]

theorem overtaken_agrees :
    ∃ s, (start 0).run? overtaken = some s ∧
      s.calls.map CacheCall.phase = [.returned .abandoned, .returned (.ready laterBuffers),
        .returned (.ready laterBuffers)] ∧
      ∃ before after u, overtaken = before ++ .answer 2 :: after ∧
        (start 0).run? before = some u ∧ u.cache.get? someKey = some laterBuffers := by
  refine ⟨_, rfl, rfl, ?_⟩
  have ran : (start 0).run? overtaken = some _ := rfl
  obtain ⟨before, after, u, -, same, ranTo, -, -, -, -, got⟩ :=
    (ready_agrees ran).1 2 someKey 1 laterBuffers rfl
  exact ⟨before, after, u, same, ranTo, got⟩

end CacheSystem

end MapStyle
