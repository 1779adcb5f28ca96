import MapStyle.Proofs.Cache.Steps

/-!
# How entries go

Most accesses take nothing out of a cache. `CacheSystem.Removal` lists the three reasons for
which a step does, and `CacheSystem.exists_removal` finds the step in which an entry went
that came up in a run and is not there at its end.
-/

namespace MapStyle

variable {W N H : Type}

/-- Whether an action disposes of the entry under a key. -/
def CacheAction.disposes : CacheAction W N H → CacheKey → Bool
  | .evict tile, key => key.tile = tile
  | .invalidateStyle style, key => key.style = style
  | _, _ => false

namespace TileCache

variable {cache : TileCache W N H} {key : CacheKey}

/-! ## Accesses that take nothing out -/

theorem find?_removeWhere_self (cache : TileCache W N H) (key : CacheKey) :
    (cache.removeWhere (· = key)).find? key = none := by
  refine List.lookup_eq_none_iff.2 fun item member => ?_
  have kept : item.1 ≠ key := by simpa using (List.mem_filter.1 member).2
  simpa using kept.symm

/-- What a request finds under its key has not failed, and was there before. -/
theorem dropFailed_found {entry : CacheEntry H}
    (found : (cache.dropFailed key).find? key = some entry) :
    cache.find? key = some entry ∧ cache.hasFailed entry.slot = false := by
  unfold dropFailed at found
  split at found
  next old there =>
    split at found
    next => rw [find?_removeWhere_self] at found; cases found
    next sound =>
      rw [there] at found
      cases found
      exact ⟨there, by simpa using sound⟩
  next absent => rw [absent] at found; cases found

/-- Moving an entry to the front takes nothing out. -/
theorem mem_identities_putFirst (distinct : cache.keys.Nodup) {old entry : CacheEntry H}
    (found : cache.find? key = some old) (slot : old.slot = entry.slot)
    {identity : CacheKey × Nat} (member : identity ∈ cache.identities) :
    identity ∈ (cache.putFirst key entry).identities := by
  obtain ⟨item, inEntries, same⟩ := mem_identities.1 member
  by_cases own : identity.1 = key
  · have unique : cache.find? key = some item := find?_of_mem distinct (own ▸ inEntries)
    rw [found] at unique
    cases unique
    refine mem_identities.2 ⟨entry, ?_, slot.symm.trans same⟩
    rw [own]
    exact List.mem_cons_self
  · refine mem_identities.2 ⟨item, List.mem_cons_of_mem _ (List.mem_filter.2 ⟨inEntries, ?_⟩), same⟩
    simpa using own

theorem mem_identities_attach (distinct : cache.keys.Nodup) {identity : CacheKey × Nat}
    (member : identity ∈ cache.identities) : identity ∈ (cache.attach key).1.identities := by
  unfold attach
  split
  next entry found => exact mem_identities_putFirst distinct found rfl member
  next => exact member

theorem mem_identities_detach (distinct : cache.keys.Nodup) {identity : CacheKey × Nat}
    (member : identity ∈ cache.identities) : identity ∈ (cache.detach key).identities := by
  unfold detach
  split
  next entry found => exact mem_identities_putFirst distinct found rfl member
  next => exact member

theorem mem_identities_finishUpload (distinct : cache.keys.Nodup) (slot : Nat) (handle : H)
    {identity : CacheKey × Nat} (member : identity ∈ cache.identities) :
    identity ∈ (cache.finishUpload key slot handle).1.identities := by
  unfold finishUpload
  split
  next => exact member
  next entry found =>
    split
    · exact mem_identities_putFirst distinct found rfl member
    · exact mem_identities_putFirst distinct found rfl member

theorem identities_record (cache : TileCache W N H) (slot : Nat) (result : BuildResult W N) :
    (cache.record slot result).identities = cache.identities := by
  unfold record
  split
  next => rfl
  next =>
    split
    next entry buffers _ =>
      exact identities_modifyEntry cache _ ({ · with bytes := buffers.byteSize }) fun _ => rfl
    next => rfl
    next => rfl

/-! ## Accesses that take entries out -/

/-- An entry is gone after its key was removed, and only then. -/
theorem mem_identities_removeWhere {test : CacheKey → Bool} {identity : CacheKey × Nat} :
    identity ∈ (cache.removeWhere test).identities ↔
      identity ∈ cache.identities ∧ test identity.1 = false := by
  simp only [mem_identities, removeWhere, List.mem_filter, Bool.not_eq_true']
  constructor
  · rintro ⟨entry, ⟨member, kept⟩, same⟩
    exact ⟨⟨entry, member, same⟩, kept⟩
  · rintro ⟨⟨entry, member, same⟩, kept⟩
    exact ⟨entry, ⟨member, kept⟩, same⟩

/-- A request takes an entry out only under its own key, and only if the build has failed. -/
theorem dropFailed_gone {identity : CacheKey × Nat} (distinct : cache.keys.Nodup)
    (there : identity ∈ cache.identities)
    (gone : identity ∉ (cache.dropFailed key).identities) :
    identity.1 = key ∧ cache.hasFailed identity.2 = true := by
  unfold dropFailed at gone
  split at gone
  next entry found =>
    split at gone
    next failed =>
      have own : identity.1 = key := by
        by_cases own : identity.1 = key
        · exact own
        · exact absurd (mem_identities_removeWhere.2 ⟨there, by simpa using own⟩) gone
      obtain ⟨item, inEntries, same⟩ := mem_identities.1 there
      have unique := find?_of_mem distinct inEntries
      rw [own, found] at unique
      cases unique
      exact ⟨own, same ▸ failed⟩
    next => exact absurd there gone
  next => exact absurd there gone

/-- Apart from that, a request takes nothing out. -/
theorem mem_identities_request (distinct : cache.keys.Nodup) {identity : CacheKey × Nat}
    (member : identity ∈ (cache.dropFailed key).identities) :
    identity ∈ (cache.request key).1.identities := by
  have distinctThen := (retains_dropFailed cache key).distinct distinct
  cases found : (cache.dropFailed key).find? key with
  | some entry =>
    rw [request_found found]
    exact mem_identities_putFirst distinctThen found rfl member
  | none =>
    have elsewhere : identity.1 ≠ key := by
      rintro rfl
      obtain ⟨item, inEntries, -⟩ := mem_identities.1 member
      rw [find?_of_mem distinctThen inEntries] at found
      cases found
    rw [request_absent found, identities_insertNew]
    exact List.mem_cons_of_mem _ (List.mem_filter.2 ⟨member, by simpa using elsewhere⟩)

/-- The entry that a request joins is there. -/
theorem joined_mem_identities (cache : TileCache W N H) (key : CacheKey) :
    (key, (cache.request key).2.slot) ∈ (cache.request key).1.identities := by
  cases found : (cache.dropFailed key).find? key with
  | some entry =>
    rw [request_found found]
    exact List.mem_cons_self
  | none =>
    rw [request_absent found, identities_insertNew]
    exact List.mem_cons_self

/-- Only idle entries are taken out to make room. -/
theorem mem_victims {resident : Nat} {entries : List (CacheKey × CacheEntry H)}
    (member : key ∈ cache.victims resident entries) :
    ∃ entry, (key, entry) ∈ entries ∧ cache.isIdle entry = true := by
  induction entries generalizing resident with
  | nil => cases member
  | cons item rest ih =>
    obtain ⟨other, entry⟩ := item
    simp only [victims] at member
    split at member
    next => cases member
    next =>
      split at member
      next idle =>
        rcases List.mem_cons.1 member with rfl | later
        · exact ⟨entry, List.mem_cons_self, idle⟩
        · obtain ⟨found, inRest, isIdle⟩ := ih later
          exact ⟨found, List.mem_cons_of_mem _ inRest, isIdle⟩
      next =>
        obtain ⟨found, inRest, isIdle⟩ := ih member
        exact ⟨found, List.mem_cons_of_mem _ inRest, isIdle⟩

/-- An entry that is trimmed was idle. -/
theorem trimmed_idle (distinct : cache.keys.Nodup) {entry : CacheEntry H}
    (member : (key, entry) ∈ cache.entries)
    (gone : (key, entry.slot) ∉ cache.trim.1.identities) : cache.isIdle entry = true := by
  have there : (key, entry.slot) ∈ cache.identities := mem_identities.2 ⟨entry, member, rfl⟩
  have isVictim : key ∈ cache.victims cache.residentBytes cache.entries.reverse := by
    by_cases taken : key ∈ cache.victims cache.residentBytes cache.entries.reverse
    · exact taken
    · exact absurd (mem_identities_removeWhere.2 ⟨there, by simpa using taken⟩) gone
  obtain ⟨victim, inEntries, idle⟩ := mem_victims isVictim
  have found := find?_of_mem distinct (List.mem_reverse.1 inEntries)
  rw [find?_of_mem distinct member] at found
  cases found
  exact idle

end TileCache

namespace CacheSystem

variable {s t : CacheSystem W N H} {action : CacheAction W N H}
  {actions : List (CacheAction W N H)}

/-- Why a step takes an entry out: it disposes of it, it makes room and the entry is idle, or it is
a request for buffers that could not be built. -/
inductive Removal (s : CacheSystem W N H) : CacheAction W N H → CacheKey × Nat → Prop
  | disposed {action key} (disposes : action.disposes key = true) (slot) :
      Removal s action (key, slot)
  | trimmed {key entry} (there : (key, entry) ∈ s.cache.entries)
      (idle : s.cache.isIdle entry = true) : Removal s .trim (key, entry.slot)
  | retried (key) {slot} (failed : s.cache.hasFailed slot = true) :
      Removal s (.request key) (key, slot)

/-- There are no other reasons. -/
theorem Accounted.removal_step (good : s.Accounted) (stepped : s.step? action = some t)
    {identity : CacheKey × Nat} (there : identity ∈ s.cache.identities)
    (gone : identity ∉ t.cache.identities) : s.Removal action identity := by
  obtain ⟨key, slot⟩ := identity
  by_cases disposes : action.disposes key = true
  · exact .disposed disposes slot
  cases turn_of_step stepped with
  | request other =>
    have dropped : (key, slot) ∉ (s.cache.dropFailed other).identities := fun member =>
      gone (TileCache.mem_identities_request good.distinct member)
    obtain ⟨rfl, failed⟩ := TileCache.dropFailed_gone good.distinct there dropped
    exact .retried key failed
  | record result found =>
    refine absurd ?_ gone
    rwa [← TileCache.identities_record s.cache _ result] at there
  | publish | answer | giveUp => exact absurd there gone
  | access access =>
    cases access with
    | attach => exact absurd (TileCache.mem_identities_attach good.distinct there) gone
    | detach => exact absurd (TileCache.mem_identities_detach good.distinct there) gone
    | finishUpload =>
      exact absurd (TileCache.mem_identities_finishUpload good.distinct _ _ there) gone
    | beginUpload | failUpload => exact absurd there gone
    | trim =>
      obtain ⟨entry, member, rfl⟩ := TileCache.mem_identities.1 there
      exact .trimmed member (TileCache.trimmed_idle good.distinct member gone)
    | evict | invalidateStyle =>
      refine absurd (TileCache.mem_identities_removeWhere.2 ⟨there, ?_⟩) gone
      simpa [CacheAction.disposes] using disposes

/-- What is disposed of is gone. -/
theorem not_mem_of_disposes (stepped : s.step? action = some t) {key : CacheKey}
    (disposes : action.disposes key = true) (slot : Nat) : (key, slot) ∉ t.cache.identities := by
  cases action with
  | evict tile | invalidateStyle style =>
    cases stepped
    intro member
    have kept := (TileCache.mem_identities_removeWhere.1 member).2
    exact absurd disposes (by simpa [CacheAction.disposes] using kept)
  | _ => cases disposes

/-- An entry that came up in a run and is not there at its end was taken out by a step of the
run. -/
theorem Accounted.exists_removal (good : s.Accounted) (ran : s.run? actions = some t)
    {identity : CacheKey × Nat} (there : identity ∈ s.inserted → identity ∈ s.cache.identities)
    (once : identity ∈ t.inserted) (gone : identity ∉ t.cache.identities) :
    ∃ first action rest u v, actions = first ++ action :: rest ∧
      s.run? first = some u ∧ u.step? action = some v ∧ v.run? rest = some t ∧
      identity ∈ u.cache.identities ∧ identity ∉ v.cache.identities ∧
      u.Removal action identity := by
  have notYet : ¬(identity ∈ s.inserted ∧ identity ∉ s.cache.identities) :=
    fun lost => lost.2 (there lost.1)
  obtain ⟨first, action, rest, u, v, rfl, ranTo, stepped, ranOn, before, came, taken⟩ :=
    exists_step (fun u => identity ∈ u.inserted ∧ identity ∉ u.cache.identities)
      notYet ran ⟨once, gone⟩
  have goodThere : u.Accounted := run?_invariant (fun _ _ _ => accounted_step) good ranTo
  have present : identity ∈ u.cache.identities := by
    -- What comes up in a step is there after it, so this entry came up earlier.
    rw [inserted_step stepped] at came
    rcases List.mem_append.1 came with old | new
    · exact Decidable.not_not.1 fun lost => before ⟨old, lost⟩
    · exact absurd (List.mem_filter.1 new).1 taken
  exact ⟨first, action, rest, u, v, rfl, ranTo, stepped, ranOn, present, taken,
    goodThere.removal_step stepped present taken⟩

end CacheSystem

end MapStyle
