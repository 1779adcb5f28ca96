import MapStyle.Proofs.Cache.Agreement

/-!
# Calls whose entry is taken out

A call looks at the cache once more when the result it has waited for is there. If its entry
was disposed of while the build ran, it is told so, unless the build fails: a failure is
reported whether or not the entry is still there (`CacheSystem.disposed_told`). A call that is
told its entry was taken out need not have met an eviction during the build: any removal
before it looks has the same effect, also one that makes room after the build
(`CacheSystem.abandoned_after_removal`).
-/

namespace MapStyle

variable {W N H : Type}

@[simp] theorem BuildResult.told_false_eq_abandoned {tile : TileId} {result : BuildResult W N} :
    result.told tile false = .abandoned ↔ result ≠ .failed := by
  cases result <;> simp [told]

namespace CacheSystem

variable {s t u : CacheSystem W N H} {action : CacheAction W N H}
  {actions : List (CacheAction W N H)}

/-- A call can return once its build is published, and is then told by the result and by whether
its entry is still there. -/
theorem Accounted.answer_step (good : s.Accounted) {index slot : Nat} {key : CacheKey}
    {result : BuildResult W N} {wasResident : Bool}
    (waiting : s.calls[index]? = some ⟨key, slot, .waiting⟩)
    (published : s.builds[slot]? = some ⟨key, slot, .published result wasResident⟩) :
    ∃ t, s.step? (.answer index) = some t ∧ t.calls[index]? = some ⟨key, slot,
      .returned (result.told key.tile (decide ((key, slot) ∈ s.cache.identities)))⟩ := by
  have stepped : s.step? (.answer index) = some { s with calls := s.calls.set index ⟨key, slot,
      .returned (result.told key.tile (decide ((key, slot) ∈ s.cache.identities)))⟩ } := by
    simp only [step?, waiting, good.outcome?_published published, Option.map_some]
  exact ⟨_, stepped, List.getElem?_set_self (List.getElem?_eq_some_iff.1 waiting).1⟩

/-! ## Entries that are disposed of while they are built -/

/-- Disposing of an entry leaves builds and calls alone. -/
theorem of_disposes (stepped : s.step? action = some t) {key : CacheKey}
    (disposes : action.disposes key = true) : t.builds = s.builds ∧ t.calls = s.calls := by
  cases action with
  | evict | invalidateStyle =>
    cases stepped
    exact ⟨rfl, rfl⟩
  | _ => cases disposes

/-- When an entry is disposed of while its build runs, every call that has joined it is told that
it was taken out or, if the build fails after all, that the build has failed; and each of them
can return as soon as the build is published, unless it has given up. -/
theorem disposed_told {budget : Nat} {before after : List (CacheAction W N H)}
    (ran : (start budget).run? before = some s) (stepped : s.step? action = some t)
    (ranOn : t.run? after = some u) {index : Nat} {call : CacheCall W N}
    (joined : s.calls[index]? = some call)
    (running : s.builds[call.slot]? = some ⟨call.key, call.slot, .running⟩)
    (disposes : action.disposes call.key = true) :
    ∃ phase, u.calls[index]? = some { call with phase } ∧
      (∀ outcome, phase = .returned outcome → ∃ result wasResident,
        u.builds[call.slot]? = some ⟨call.key, call.slot, .published result wasResident⟩ ∧
        outcome = result.told call.key.tile false ∧
        (outcome = .abandoned ↔ result ≠ .failed)) ∧
      (phase = .waiting → ∀ result wasResident,
        u.builds[call.slot]? = some ⟨call.key, call.slot, .published result wasResident⟩ →
        ∃ v, u.step? (.answer index) = some v ∧ v.calls[index]? =
          some { call with phase := .returned (result.told call.key.tile false) }) := by
  have good := answered_run ran
  have goodNext := good.step stepped
  have once := mem_inserted_step (good.joined call (List.mem_of_getElem? joined)) stepped
  have gone := not_mem_of_disposes stepped disposes call.slot
  obtain ⟨sameBuilds, sameCalls⟩ := of_disposes stepped disposes
  rw [← sameCalls] at joined
  rw [← sameBuilds] at running
  obtain ⟨phase, found, -⟩ := call_run joined ranOn
  refine ⟨phase, found, ?returned, ?waiting⟩
  case returned =>
    rintro outcome rfl
    -- While the build runs nobody has returned, so the answer comes after the disposal.
    have pending : t.calls[index]? ≠ some ⟨call.key, call.slot, .returned outcome⟩ := by
      intro early
      obtain ⟨result, wasResident, _, published, -⟩ :=
        goodNext.told _ (List.mem_of_getElem? early) outcome rfl
      rw [running] at published
      cases published
    obtain ⟨first, rest, v, w, rfl, ranTo, answered, ranLast, waiting, told⟩ :=
      exists_answer pending ranOn found
    have goodThere := run?_invariant (fun _ _ _ => Answered.step) goodNext ranTo
    obtain ⟨result, wasResident, published, same⟩ :=
      goodThere.published_of_told (List.mem_of_getElem? waiting) told
    have goneThere := goodNext.gone_run ranTo once gone
    rw [decide_eq_false goneThere] at same
    refine ⟨result, wasResident, ?_, same, ?_⟩
    · exact published_run (published_step published answered) ranLast
    · rw [same, BuildResult.told_false_eq_abandoned]
  case waiting =>
    rintro rfl result wasResident published
    have goodLast := run?_invariant (fun _ _ _ => accounted_step) goodNext.toAccounted ranOn
    obtain ⟨v, answered, told⟩ := goodLast.answer_step found published
    rw [decide_eq_false (goodNext.gone_run ranOn once gone)] at told
    exact ⟨v, answered, told⟩

/-- A tile is evicted while it is built, then the build succeeds. -/
theorem evicted_told_abandoned :
    ∃ s t u v : CacheSystem Unit Unit Unit, (start 0).run? [.request someKey] = some s ∧
      s.step? (.evict someKey.tile) = some t ∧
      t.run? [.record 0 (.ready someBuffers), .publish 0] = some u ∧
      u.step? (.answer 0) = some v ∧
      v.calls[0]? = some ⟨someKey, 0, .returned .abandoned⟩ := by
  obtain ⟨s, ran, joined, running, t, stepped, u, ranOn, waiting, published⟩ :
      ∃ s : CacheSystem Unit Unit Unit, (start 0).run? [.request someKey] = some s ∧
        s.calls[0]? = some ⟨someKey, 0, .waiting⟩ ∧
        s.builds[0]? = some ⟨someKey, 0, .running⟩ ∧
        ∃ t, s.step? (.evict someKey.tile) = some t ∧
        ∃ u, t.run? [.record 0 (.ready someBuffers), .publish 0] = some u ∧
          u.calls[0]? = some ⟨someKey, 0, .waiting⟩ ∧
          u.builds[0]? = some ⟨someKey, 0, .published (.ready someBuffers) false⟩ :=
    ⟨_, rfl, rfl, rfl, _, rfl, _, rfl, rfl, rfl⟩
  obtain ⟨phase, found, -, answers⟩ := disposed_told ran stepped ranOn joined running rfl
  rw [waiting] at found
  cases found
  obtain ⟨v, answered, told⟩ := answers rfl _ _ published
  exact ⟨s, t, u, v, ran, stepped, ranOn, answered, told⟩

/-- A tile is evicted while it is built, then the build fails: the failure is reported. -/
theorem evicted_told_failed :
    ∃ s t u : CacheSystem Unit Unit Unit, (start 0).run? [.request someKey] = some s ∧
      s.calls[0]? = some ⟨someKey, 0, .waiting⟩ ∧
      s.builds[0]? = some ⟨someKey, 0, .running⟩ ∧
      (someKey, 0) ∈ s.cache.identities ∧
      s.step? (.evict someKey.tile) = some t ∧
      t.cache.identities = [] ∧
      t.run? [.record 0 .failed, .publish 0, .answer 0] = some u ∧
      u.calls[0]? = some ⟨someKey, 0, .returned (.failed someKey.tile)⟩ :=
  ⟨_, _, _, rfl, rfl, rfl, List.mem_singleton.2 rfl, rfl, rfl, rfl, rfl⟩

/-! ## Entries that are taken out at any time -/

/-- The buffers that an entry shows were published by its own build. -/
theorem Accounted.published_of_shown (good : s.Accounted) {key : CacheKey} {entry : CacheEntry H}
    (member : (key, entry) ∈ s.cache.entries) {buffers : TileBuffers W N}
    (shown : s.cache.buffers? entry.slot = some buffers) : ∃ wasResident,
      s.builds[entry.slot]? = some ⟨key, entry.slot, .published (.ready buffers) wasResident⟩ := by
  obtain ⟨owner, wasResident, published⟩ :=
    good.result?_eq_some.1 (TileCache.buffers?_eq_some.1 shown)
  obtain rfl : key = owner := good.key_eq published member rfl
  exact ⟨wasResident, published⟩

/-- Only an entry whose build has succeeded is taken out to make room. -/
theorem Accounted.published_of_idle (good : s.Accounted) {key : CacheKey} {entry : CacheEntry H}
    (member : (key, entry) ∈ s.cache.entries) (idle : s.cache.isIdle entry = true) :
    ∃ buffers wasResident, s.builds[entry.slot]? =
      some ⟨key, entry.slot, .published (.ready buffers) wasResident⟩ := by
  obtain ⟨-, finished⟩ := (Bool.and_eq_true ..).mp idle
  obtain ⟨buffers, shown⟩ := Option.isSome_iff_exists.1 finished
  exact ⟨buffers, good.published_of_shown member shown⟩

/-- A call is told of finished buffers as long as its entry is there. -/
theorem Accounted.ready_step (good : s.Accounted) {index slot : Nat} {key : CacheKey}
    {buffers : TileBuffers W N} {wasResident : Bool}
    (waiting : s.calls[index]? = some ⟨key, slot, .waiting⟩)
    (published : s.builds[slot]? = some ⟨key, slot, .published (.ready buffers) wasResident⟩)
    (there : (key, slot) ∈ s.cache.identities) :
    ∃ t, s.step? (.answer index) = some t ∧
      t.calls[index]? = some ⟨key, slot, .returned (.ready buffers)⟩ := by
  obtain ⟨t, answered, told⟩ := good.answer_step waiting published
  rw [decide_eq_true there] at told
  exact ⟨t, answered, told⟩

/-- A request counts as a hit when it finds an entry whose build has succeeded. -/
theorem Accounted.hit_published (good : s.Accounted) {key : CacheKey}
    (hit : (s.cache.request key).1.counts.hits = s.cache.counts.hits + 1) :
    ∃ buffers wasResident, s.builds[(s.cache.request key).2.slot]? =
      some ⟨key, (s.cache.request key).2.slot, .published (.ready buffers) wasResident⟩ := by
  cases found : (s.cache.dropFailed key).find? key with
  | none =>
    rw [TileCache.request_absent found] at hit
    simp [TileCache.insertNew, TileCache.putFirst] at hit
  | some entry =>
    obtain ⟨there, -⟩ := TileCache.dropFailed_found found
    have same : (s.cache.dropFailed key).buffers? entry.slot = s.cache.buffers? entry.slot := by
      simp only [TileCache.buffers?, TileCache.result?,
        (TileCache.retains_dropFailed s.cache key).slots]
    rw [TileCache.request_found found] at hit ⊢
    simp only [TileCache.countFound, same, TileCache.counts_dropFailed] at hit
    split at hit
    next finished =>
      obtain ⟨buffers, shown⟩ := Option.isSome_iff_exists.1 finished
      exact ⟨buffers, good.published_of_shown (TileCache.find?_eq_some there) shown⟩
    next => simp at hit

/-- A call that is told its entry was taken out has met a removal before: somebody disposed of the
entry, or it was taken out to make room after its build was published. A call whose entry is still
there when it looks is told of the finished buffers, whether it has waited for them or counted as
a hit. -/
theorem abandoned_after_removal {budget : Nat} (ran : (start budget).run? actions = some s) :
    (∀ index key slot, s.calls[index]? = some ⟨key, slot, .returned .abandoned⟩ →
      ∃ first action middle last u v w,
        actions = first ++ action :: (middle ++ .answer index :: last) ∧
        (start budget).run? first = some u ∧ u.step? action = some v ∧
        v.run? middle = some w ∧ w.calls[index]? = some ⟨key, slot, .waiting⟩ ∧
        (key, slot) ∈ u.cache.identities ∧ (key, slot) ∉ v.cache.identities ∧
        (action.disposes key = true ∨ action = .trim ∧ ∃ buffers wasResident,
          u.builds[slot]? = some ⟨key, slot, .published (.ready buffers) wasResident⟩)) ∧
    (∀ index key slot buffers wasResident, s.calls[index]? = some ⟨key, slot, .waiting⟩ →
      s.builds[slot]? = some ⟨key, slot, .published (.ready buffers) wasResident⟩ →
      (key, slot) ∈ s.cache.identities →
      ∃ t, s.step? (.answer index) = some t ∧
        t.calls[index]? = some ⟨key, slot, .returned (.ready buffers)⟩) ∧
    (∀ key t, s.step? (.request key) = some t →
      t.cache.counts.hits = s.cache.counts.hits + 1 →
      ∃ slot buffers, t.calls = s.calls ++ [⟨key, slot, .waiting⟩] ∧
        ∀ later u, t.run? later = some u →
          u.calls[s.calls.length]? = some ⟨key, slot, .waiting⟩ →
          (key, slot) ∈ u.cache.identities →
          ∃ v, u.step? (.answer s.calls.length) = some v ∧
            v.calls[s.calls.length]? = some ⟨key, slot, .returned (.ready buffers)⟩) := by
  have good := answered_run ran
  refine ⟨?abandoned, ?resident, ?hit⟩
  case abandoned =>
    intro index key slot returned
    have pending : (start budget : CacheSystem W N H).calls[index]? ≠
        some ⟨key, slot, .returned .abandoned⟩ := by
      simp [start]
    obtain ⟨before, last, w, _, rfl, ranTo, -, -, waiting, told⟩ :=
      exists_answer pending ran returned
    have goodThere := answered_run ranTo
    have member := List.mem_of_getElem? waiting
    obtain ⟨result, wasResident, published, same⟩ := goodThere.published_of_told member told
    obtain ⟨⟨buffers, rfl⟩, gone⟩ := BuildResult.abandoned_of_told same
    replace gone : (key, slot) ∉ w.cache.identities := of_decide_eq_false gone
    obtain ⟨first, action, middle, u, v, rfl, ranFirst, stepped, ranMiddle, there, taken,
      removal⟩ := (accounted_start budget).exists_removal ranTo (by simp [start])
        (goodThere.joined _ member) gone
    refine ⟨first, action, middle, last, u, v, w, by simp, ranFirst, stepped, ranMiddle,
      waiting, there, taken, ?_⟩
    have goodFirst := accounted_run ranFirst
    cases removal with
    | disposed disposes => exact .inl disposes
    | trimmed member idle => exact .inr ⟨rfl, goodFirst.published_of_idle member idle⟩
    | retried _ failed =>
      -- Who retries a failed build would have made the call fail, too.
      obtain ⟨_, _, failure⟩ := goodFirst.result?_eq_some.1 (TileCache.hasFailed_iff.1 failed)
      have failureThen := published_run (published_step failure stepped) ranMiddle
      rw [published] at failureThen
      cases failureThen
  case resident =>
    exact fun index key slot buffers wasResident waiting published there =>
      good.ready_step waiting published there
  case hit =>
    intro key t stepped hit
    cases stepped
    obtain ⟨buffers, wasResident, published⟩ := good.hit_published hit
    refine ⟨(s.cache.request key).2.slot, buffers, rfl, fun later u ranOn waiting there => ?_⟩
    have goodThen := run?_invariant (fun _ _ _ => accounted_step)
      (good.toAccounted.request key) ranOn
    have joined : s.step? (.request key) = some (s.request key) := rfl
    have publishedThen := published_run (published_step published joined) ranOn
    exact goodThen.ready_step waiting publishedThen there

/-- A tile is evicted while it is built and asked for again, which builds it once more. -/
def rebuilt : List (CacheAction Unit Unit Unit) := [
  .request someKey, .evict someKey.tile, .record 0 (.ready someBuffers), .publish 0, .answer 0,
  .request someKey, .record 1 (.ready someBuffers), .publish 1]

/-- The first call met the eviction, the second is told of the buffers, and so is a hit. -/
theorem rebuilt_told :
    ∃ s t, (start 0).run? rebuilt = some s ∧
      (∃ first action middle last, rebuilt = first ++ action :: (middle ++ .answer 0 :: last) ∧
        (action.disposes someKey = true ∨ action = .trim)) ∧
      (∃ u, s.step? (.answer 1) = some u ∧
        u.calls[1]? = some ⟨someKey, 1, .returned (.ready someBuffers)⟩) ∧
      s.step? (.request someKey) = some t ∧
      ∃ buffers u, t.step? (.answer 2) = some u ∧
        u.calls[2]? = some ⟨someKey, 1, .returned (.ready buffers)⟩ := by
  obtain ⟨s, ran, returned, waiting, published, there, made, t, stepped, hit, joined, resident⟩ :
      ∃ s : CacheSystem Unit Unit Unit, (start 0).run? rebuilt = some s ∧
        s.calls[0]? = some ⟨someKey, 0, .returned .abandoned⟩ ∧
        s.calls[1]? = some ⟨someKey, 1, .waiting⟩ ∧
        s.builds[1]? = some ⟨someKey, 1, .published (.ready someBuffers) true⟩ ∧
        (someKey, 1) ∈ s.cache.identities ∧ s.calls.length = 2 ∧
        ∃ t, s.step? (.request someKey) = some t ∧
          t.cache.counts.hits = s.cache.counts.hits + 1 ∧
          t.calls[2]? = some ⟨someKey, 1, .waiting⟩ ∧ (someKey, 1) ∈ t.cache.identities :=
    ⟨_, rfl, rfl, rfl, rfl, List.mem_singleton.2 rfl, rfl, _, rfl, rfl, rfl,
      List.mem_singleton.2 rfl⟩
  obtain ⟨abandoned, finished, hits⟩ := abandoned_after_removal ran
  refine ⟨s, t, ran, ?removal, finished 1 someKey 1 someBuffers true waiting published there,
    stepped, ?hit⟩
  case removal =>
    obtain ⟨first, action, middle, last, _, _, _, same, -, -, -, -, -, -, reason⟩ :=
      abandoned 0 someKey 0 returned
    exact ⟨first, action, middle, last, same, reason.imp_right And.left⟩
  case hit =>
    obtain ⟨slot, buffers, calls, answers⟩ := hits someKey t stepped hit
    obtain rfl : slot = 1 := by
      rw [calls, ← made, List.getElem?_concat_length] at joined
      cases joined
      rfl
    rw [made] at answers
    exact ⟨buffers, answers [] t rfl joined resident⟩

/-- A request finds finished buffers, and the entry is taken out to make room before it looks
again. -/
theorem trimmed_hit_abandoned :
    ∃ s t u : CacheSystem Unit Unit Unit, (start 0).run? [.request someKey,
        .record 0 (.ready someBuffers), .publish 0, .answer 0] = some s ∧
      s.step? (.request someKey) = some t ∧ t.cache.counts.hits = s.cache.counts.hits + 1 ∧
      t.run? [.trim, .answer 1] = some u ∧
      u.calls[0]? = some ⟨someKey, 0, .returned (.ready someBuffers)⟩ ∧
      u.calls[1]? = some ⟨someKey, 0, .returned .abandoned⟩ :=
  ⟨_, _, _, rfl, rfl, rfl, rfl, rfl, rfl⟩

end CacheSystem

end MapStyle
