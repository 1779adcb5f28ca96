import Mathlib.Data.List.Nodup
import MapStyle.Proofs.Cache.Agreement
import MapStyle.Proofs.Cache.Attachment

/-!
# Handles and the buffers they were made from

An upload makes its handle while nobody holds the cache, so two uploads of one entry can be under
way at once, and the entry can be taken out and built again in the meantime. `UploadSystem` is a
cache that remembers from which upload every handle came and which handles were returned, and to
whom. A handle is known by its number: no two uploads make the same.

What carries the proof is that an entry is known by its slot. An upload ends in the entry of its
own slot or in none, and an entry that has a handle keeps it, so whoever is told a handle of an
entry is told the one that the entry has (`UploadSystem.handles_agree`).
-/

namespace MapStyle

/-! ## What steps do to the handle of an entry -/

namespace TileCache

variable {W N H : Type} {cache : TileCache W N H} {key : CacheKey}

@[simp] theorem find?_putFirst (cache : TileCache W N H) (key : CacheKey) (entry : CacheEntry H) :
    (cache.putFirst key entry).find? key = some entry := by
  simp [find?, putFirst]

/-- Moving an entry to the front leaves every entry as it is. -/
theorem perm_putFirst (distinct : cache.keys.Nodup) {entry : CacheEntry H}
    (found : cache.find? key = some entry) :
    (cache.putFirst key entry).entries.Perm cache.entries := by
  obtain ⟨before, after, split⟩ := List.append_of_mem (find?_eq_some found)
  have apart : ∀ item ∈ before ++ after, item.1 ≠ key := by
    rw [keys, split, List.map_append, List.map_cons] at distinct
    have outside := (List.nodup_cons.1 (List.nodup_middle.1 distinct)).1
    rw [← List.map_append] at outside
    intro item member same
    have inside : item.1 ∈ (before ++ after).map Prod.fst := List.mem_map_of_mem member
    rw [same] at inside
    exact outside inside
  have others : cache.entries.filter (fun item => item.1 ≠ key) = before ++ after := by
    rw [split, List.filter_append, List.filter_cons_of_neg (by simp), ← List.filter_append]
    exact List.filter_eq_self.2 fun item member => by simpa using apart item member
  rw [putFirst, others, split]
  exact List.perm_middle.symm

/-- Counting the renderers of an entry anew changes nothing else of any entry. -/
theorem mem_putFirst_refs {entry : CacheEntry H} (found : cache.find? key = some entry) {refs : Nat}
    {item : CacheKey × CacheEntry H}
    (member : item ∈ (cache.putFirst key { entry with refs }).entries) :
    ∃ old refs, (item.1, old) ∈ cache.entries ∧ item.2 = { old with refs } := by
  rcases mem_putFirst member with rfl | ⟨kept, -⟩
  · exact ⟨entry, refs, find?_eq_some found, rfl⟩
  · exact ⟨item.2, _, kept, rfl⟩

/-- Attaching a renderer changes nothing of an entry but its renderers. -/
theorem mem_attach {item : CacheKey × CacheEntry H} (member : item ∈ (cache.attach key).1.entries) :
    ∃ old refs, (item.1, old) ∈ cache.entries ∧ item.2 = { old with refs } := by
  cases found : cache.find? key with
  | none =>
    rw [attach_absent found] at member
    exact ⟨item.2, _, member, rfl⟩
  | some entry =>
    rw [attach_found found] at member
    exact mem_putFirst_refs found member

/-- So does detaching one. -/
theorem mem_detach {item : CacheKey × CacheEntry H} (member : item ∈ (cache.detach key).entries) :
    ∃ old refs, (item.1, old) ∈ cache.entries ∧ item.2 = { old with refs } := by
  cases found : cache.find? key with
  | none =>
    rw [detach_absent found] at member
    exact ⟨item.2, _, member, rfl⟩
  | some entry =>
    rw [detach_found found] at member
    exact mem_putFirst_refs found member

/-- An upload that ends finds its entry, and that has a handle from now on. -/
theorem finishUpload_found {entry : CacheEntry H} (found : cache.find? key = some entry)
    (handle : H) : cache.finishUpload key entry.slot handle =
      (cache.putFirst key { entry with handle := some (entry.handle.getD handle) },
        some (entry.handle.getD handle)) := by
  simp [finishUpload, found]

/-- What an upload that ends is told is the handle of its entry from now on. -/
theorem find?_of_told {slot : Nat} {handle told : H}
    (returned : (cache.finishUpload key slot handle).2 = some told) :
    ∃ entry, (cache.finishUpload key slot handle).1.find? key = some entry ∧ entry.slot = slot ∧
      entry.handle = some told := by
  unfold finishUpload at returned
  split at returned
  next => cases returned
  next entry found =>
    split at returned
    next own =>
      cases returned
      subst own
      rw [finishUpload_found found]
      exact ⟨_, find?_putFirst .., rfl, rfl⟩
    next => cases returned

/-- Only an entry that has a handle makes an upload unnecessary for its sake. -/
theorem handle_of_done {handle : H} (done : cache.beginUpload key = .done (some handle)) :
    ∃ entry, cache.find? key = some entry ∧ entry.handle = some handle := by
  unfold beginUpload at done
  split at done
  next => cases done
  next entry found =>
    split at done
    next kept has =>
      cases done
      exact ⟨entry, found, has⟩
    next => split at done <;> cases done

/-- Where its entry is gone, an upload that ends is told nothing and leaves every entry as it
is. -/
theorem finishUpload_gone (distinct : cache.keys.Nodup) {slot : Nat}
    (gone : (key, slot) ∉ cache.identities) (handle : H) :
    ∃ entries, entries.Perm cache.entries ∧
      cache.finishUpload key slot handle = ({ cache with entries }, none) := by
  unfold finishUpload
  split
  next => exact ⟨cache.entries, .refl _, rfl⟩
  next entry found =>
    split
    next same =>
      exact absurd (mem_identities.2 ⟨entry, find?_eq_some found, same⟩) gone
    next => exact ⟨_, perm_putFirst distinct found, rfl⟩

end TileCache

namespace CacheSystem

variable {W N H : Type} {s t : CacheSystem W N H} {action : CacheAction W N H}
  {actions : List (CacheAction W N H)}

/-- An action ends an upload for an entry with a handle. -/
def Ends (s : CacheSystem W N H) (action : CacheAction W N H) (key : CacheKey) (slot : Nat)
    (handle : H) : Prop :=
  ∃ index upload, action = .finishUpload index handle ∧ s.uploads[index]? = some upload ∧
    upload.key = key ∧ upload.slot = slot

/-- An entry was there before a step, with the handle it has or, if it had none, with an upload of
its own that the step ends. -/
def Precedes (s : CacheSystem W N H) (action : CacheAction W N H)
    (item : CacheKey × CacheEntry H) : Prop :=
  ∃ old, (item.1, old) ∈ s.cache.entries ∧ old.slot = item.2.slot ∧
    (item.2.handle = old.handle ∨ old.handle = none ∧
      ∃ handle, item.2.handle = some handle ∧ s.Ends action item.1 item.2.slot handle)

theorem precedes_of_mem {item : CacheKey × CacheEntry H} (there : item ∈ s.cache.entries) :
    s.Precedes action item :=
  ⟨item.2, there, rfl, .inl rfl⟩

theorem precedes_finishUpload {index : Nat} {handle : H}
    (stepped : s.step? (.finishUpload index handle) = some t)
    {item : CacheKey × CacheEntry H} (member : item ∈ t.cache.entries) :
    s.Precedes (.finishUpload index handle) item := by
  obtain ⟨upload, found, rfl⟩ := Option.map_eq_some_iff.1 stepped
  replace member : item ∈ (s.cache.finishUpload upload.key upload.slot handle).1.entries := member
  unfold TileCache.finishUpload at member
  split at member
  next => exact precedes_of_mem member
  next entry there =>
    have present := TileCache.find?_eq_some there
    split at member
    next own =>
      rcases TileCache.mem_putFirst member with rfl | ⟨kept, -⟩
      · refine ⟨entry, present, rfl, ?_⟩
        cases had : entry.handle with
        | some kept => exact .inl rfl
        | none => exact .inr ⟨rfl, handle, rfl, index, upload, rfl, found, rfl, own.symm⟩
      · exact precedes_of_mem kept
    next =>
      rcases TileCache.mem_putFirst member with rfl | ⟨kept, -⟩
      · exact precedes_of_mem present
      · exact precedes_of_mem kept

/-- Every entry after a step was there before it, or the step has made it without a handle. -/
theorem Accounted.precedes_step (good : s.Accounted) (stepped : s.step? action = some t)
    {item : CacheKey × CacheEntry H} (member : item ∈ t.cache.entries) :
    s.Precedes action item ∨ item.2.handle = none ∧ item.2.slot = s.builds.length := by
  cases turn_of_step stepped with
  | request key =>
    rcases good.mem_request member with there | rfl
    · exact .inl (precedes_of_mem there)
    · exact .inr ⟨rfl, rfl⟩
  | record =>
    obtain ⟨old, bytes, there, changed⟩ := TileCache.mem_record member
    exact .inl ⟨old, there, by rw [changed], .inl (by rw [changed])⟩
  | publish | answer | giveUp => exact .inl (precedes_of_mem member)
  | access access =>
    cases access with
    | attach key =>
      obtain ⟨old, refs, there, changed⟩ := TileCache.mem_attach member
      exact .inl ⟨old, there, by rw [changed], .inl (by rw [changed])⟩
    | detach key =>
      obtain ⟨old, refs, there, changed⟩ := TileCache.mem_detach member
      exact .inl ⟨old, there, by rw [changed], .inl (by rw [changed])⟩
    | trim | evict | invalidateStyle => exact .inl (precedes_of_mem (List.mem_filter.1 member).1)
    | beginUpload | failUpload => exact .inl (precedes_of_mem member)
    | finishUpload => exact .inl (precedes_finishUpload stepped member)

/-- An entry that has a handle keeps it for as long as it is there. -/
theorem Accounted.handle_run (good : s.Accounted) (ran : s.run? actions = some t) {key : CacheKey}
    {entry : CacheEntry H} (member : (key, entry) ∈ s.cache.entries) {handle : H}
    (has : entry.handle = some handle) {other : CacheEntry H}
    (there : (key, other) ∈ t.cache.entries) (own : other.slot = entry.slot) :
    other.handle = some handle := by
  let Keeps (u : CacheSystem W N H) : Prop :=
    u.Accounted ∧ (∃ build, u.builds[entry.slot]? = some build) ∧
      ∀ other, (key, other) ∈ u.cache.entries → other.slot = entry.slot →
        other.handle = some handle
  have first : Keeps s := by
    obtain ⟨build, found, -⟩ := good.exists_build (good.resident _ (List.mem_map_of_mem member))
    refine ⟨good, ⟨build, found⟩, fun other there own => ?_⟩
    have same := TileCache.find?_of_mem good.distinct there
    rw [TileCache.find?_of_mem good.distinct member] at same
    exact Option.some.inj same ▸ has
  have kept : ∀ u v action, Keeps u → u.step? action = some v → Keeps v := by
    rintro u v action ⟨good, ⟨build, found⟩, has⟩ stepped
    obtain ⟨phase, foundLater, -⟩ := build_step found stepped
    refine ⟨accounted_step good stepped, ⟨_, foundLater⟩, fun other there own => ?_⟩
    rcases good.precedes_step stepped there with ⟨old, inOld, slot, handles⟩ | ⟨-, new⟩
    · have before := has old inOld (slot.trans own)
      rcases handles with same | ⟨none, -⟩
      · exact same.trans before
      · rw [before] at none
        cases none
    · have inside := (List.getElem?_eq_some_iff.1 found).1
      dsimp only at new
      omega
  have last : Keeps t := run?_invariant kept first ran
  exact last.2.2 other there own

/-- The buffers of an upload are those that the build of its slot has published. -/
def Provides (s : CacheSystem W N H) (upload : CacheUpload W N) : Prop :=
  ∃ wasResident, s.builds[upload.slot]? =
    some ⟨upload.key, upload.slot, .published (.ready upload.buffers) wasResident⟩

theorem Provides.step {upload : CacheUpload W N} (provides : s.Provides upload)
    (stepped : s.step? action = some t) : t.Provides upload := by
  obtain ⟨wasResident, published⟩ := provides
  exact ⟨wasResident, published_step published stepped⟩

/-- An upload starts with the buffers of the entry that is there. -/
theorem Accounted.provides_needed (good : s.Accounted) {key : CacheKey} {slot : Nat}
    {buffers : TileBuffers W N} (needed : s.cache.beginUpload key = .needed slot buffers) :
    s.Provides ⟨key, slot, buffers⟩ := by
  unfold TileCache.beginUpload at needed
  split at needed
  next => cases needed
  next entry there =>
    split at needed
    next => cases needed
    next =>
      split at needed
      next shown =>
        cases needed
        obtain ⟨other, wasResident, published⟩ :=
          good.result?_eq_some.1 (TileCache.buffers?_eq_some.1 shown)
        have came := good.resident _ (List.mem_map_of_mem (TileCache.find?_eq_some there))
        obtain ⟨build, found, rfl⟩ := good.exists_build came
        rw [published] at found
        cases found
        exact ⟨wasResident, published⟩
      next => cases needed

/-- An upload that is under way after a step was so before it or begins in it. -/
theorem mem_uploads_step (stepped : s.step? action = some t) {upload : CacheUpload W N}
    (member : upload ∈ t.uploads) : upload ∈ s.uploads ∨
      s.cache.beginUpload upload.key = .needed upload.slot upload.buffers := by
  cases action with
  | request | attach | detach | trim | evict | invalidateStyle =>
    cases stepped
    exact .inl member
  | record | publish | giveUp =>
    simp only [step?] at stepped
    split at stepped
    next =>
      cases stepped
      exact .inl member
    next => cases stepped
  | answer =>
    simp only [step?] at stepped
    split at stepped
    next =>
      obtain ⟨outcome, -, rfl⟩ := Option.map_eq_some_iff.1 stepped
      exact .inl member
    next => cases stepped
  | beginUpload key =>
    simp only [step?] at stepped
    split at stepped
    next slot buffers needed =>
      cases stepped
      rcases List.mem_append.1 member with before | new
      · exact .inl before
      · obtain rfl := List.mem_singleton.1 new
        exact .inr needed
    next =>
      cases stepped
      exact .inl member
  | finishUpload | failUpload =>
    obtain ⟨ended, -, rfl⟩ := Option.map_eq_some_iff.1 stepped
    exact .inl (List.mem_of_mem_eraseIdx member)

end CacheSystem

/-! ## Handles and where they come from -/

/-- A handle that a call returned, and the entry it is of. -/
structure ReturnedHandle where
  key : CacheKey
  slot : Nat
  handle : Nat

/-- A cache whose handles are known by their numbers, with the uploads that made them and the calls
that returned them. -/
structure UploadSystem (W N : Type) where
  system : CacheSystem W N Nat
  /-- The upload that made each handle. -/
  made : List (CacheUpload W N)
  /-- Every handle that a call returned, in that order. -/
  returned : List ReturnedHandle

namespace UploadSystem

variable {W N : Type}

def start (budget : Nat) : UploadSystem W N := ⟨.start budget, [], []⟩

/-- Whether an action ends an upload with a handle that no other has made, if it ends one. -/
def makesNew (s : UploadSystem W N) : CacheAction W N Nat → Bool
  | .finishUpload _ handle => handle = s.made.length
  | _ => true

/-- The upload that an action ends with a handle. -/
def ended (s : UploadSystem W N) : CacheAction W N Nat → List (CacheUpload W N)
  | .finishUpload index _ => s.system.uploads[index]?.toList
  | _ => []

/-- The handle that a call returns when it begins: the entry has one already. -/
def returnedAtBegin (s : UploadSystem W N) (key : CacheKey) : Option ReturnedHandle :=
  match s.system.cache.beginUpload key with
  | .done handle => (s.system.cache.find? key).bind fun entry =>
    handle.map fun handle => ⟨key, entry.slot, handle⟩
  | .needed .. => none

/-- The handle that a call returns when its upload ends. -/
def returnedAtEnd (s : UploadSystem W N) (index handle : Nat) : Option ReturnedHandle :=
  s.system.uploads[index]?.bind fun upload =>
    (s.system.cache.finishUpload upload.key upload.slot handle).2.map fun told =>
      ⟨upload.key, upload.slot, told⟩

/-- The handle that a call returns in an action. -/
def returns (s : UploadSystem W N) : CacheAction W N Nat → List ReturnedHandle
  | .beginUpload key => (s.returnedAtBegin key).toList
  | .finishUpload index handle => (s.returnedAtEnd index handle).toList
  | _ => []

/-- Take an action. An upload that ends makes a handle of its own. -/
def step? (s : UploadSystem W N) (action : CacheAction W N Nat) : Option (UploadSystem W N) :=
  if s.makesNew action then
    (s.system.step? action).map fun system =>
      ⟨system, s.made ++ s.ended action, s.returned ++ s.returns action⟩
  else none

/-- Take actions one after another. -/
def run? (s : UploadSystem W N) (actions : List (CacheAction W N Nat)) :
    Option (UploadSystem W N) :=
  actions.foldlM step? s

variable {s t : UploadSystem W N} {action : CacheAction W N Nat}

theorem step_eq (stepped : s.step? action = some t) : s.makesNew action = true ∧
    ∃ system, s.system.step? action = some system ∧
      t = ⟨system, s.made ++ s.ended action, s.returned ++ s.returns action⟩ := by
  unfold step? at stepped
  split at stepped
  next new =>
    obtain ⟨system, inner, same⟩ := Option.map_eq_some_iff.1 stepped
    exact ⟨new, system, inner, same.symm⟩
  next => cases stepped

/-- The cache takes the step. -/
theorem system_step (stepped : s.step? action = some t) :
    s.system.step? action = some t.system := by
  obtain ⟨-, system, inner, rfl⟩ := step_eq stepped
  exact inner

theorem system_run {actions : List (CacheAction W N Nat)} (ran : s.run? actions = some t) :
    s.system.run? actions = some t.system := by
  induction actions generalizing s with
  | nil =>
    cases ran
    rfl
  | cons action rest ih =>
    rw [run?, List.foldlM_cons] at ran
    obtain ⟨next, stepped, ran⟩ := Option.bind_eq_some_iff.1 ran
    exact Option.bind_eq_some_iff.2 ⟨next.system, system_step stepped, ih ran⟩

/-- Whatever handle a call returns, the entry it is of is there and has it. -/
theorem found_of_returns (stepped : s.step? action = some t) {r : ReturnedHandle}
    (member : r ∈ s.returns action) :
    ∃ entry, t.system.cache.find? r.key = some entry ∧ entry.slot = r.slot ∧
      entry.handle = some r.handle := by
  have inner := system_step stepped
  cases action with
  | beginUpload key =>
    replace member := Option.mem_toList.1 member
    unfold returnedAtBegin at member
    split at member
    next told done =>
      obtain ⟨entry, found, member⟩ := Option.bind_eq_some_iff.1 member
      obtain ⟨handle, rfl, rfl⟩ := Option.map_eq_some_iff.1 member
      obtain ⟨other, there, has⟩ := TileCache.handle_of_done done
      rw [found] at there
      cases there
      have unchanged : t.system = s.system := by
        simp only [CacheSystem.step?, done] at inner
        exact (Option.some.inj inner).symm
      exact ⟨entry, by rw [unchanged]; exact found, rfl, has⟩
    next => cases member
  | finishUpload index handle =>
    replace member := Option.mem_toList.1 member
    obtain ⟨upload, found, member⟩ := Option.bind_eq_some_iff.1 member
    obtain ⟨told, returned, rfl⟩ := Option.map_eq_some_iff.1 member
    have reached : t.system.cache =
        (s.system.cache.finishUpload upload.key upload.slot handle).1 := by
      obtain ⟨other, foundToo, same⟩ := Option.map_eq_some_iff.1 inner
      rw [found] at foundToo
      cases foundToo
      rw [← same]
      rfl
    rw [reached]
    exact TileCache.find?_of_told returned
  | _ => cases member

/-! ## What is known of every handle -/

/-- A handle was made by an upload for an entry. -/
def MadeFor (s : UploadSystem W N) (key : CacheKey) (slot handle : Nat) : Prop :=
  ∃ upload, s.made[handle]? = some upload ∧ upload.key = key ∧ upload.slot = slot

theorem MadeFor.step {key : CacheKey} {slot handle : Nat} (made : s.MadeFor key slot handle)
    (stepped : s.step? action = some t) : t.MadeFor key slot handle := by
  obtain ⟨upload, found, same⟩ := made
  obtain ⟨-, system, -, rfl⟩ := step_eq stepped
  exact ⟨upload, (List.getElem?_append_left (List.getElem?_eq_some_iff.1 found).1).trans found,
    same⟩

/-- The build for whose entry a handle was made. -/
theorem MadeFor.exists_build (provided : ∀ upload ∈ s.made, s.system.Provides upload)
    {key : CacheKey} {slot handle : Nat} (made : s.MadeFor key slot handle) :
    ∃ upload wasResident, s.made[handle]? = some upload ∧
      s.system.builds[slot]? =
        some ⟨key, slot, .published (.ready upload.buffers) wasResident⟩ := by
  obtain ⟨upload, found, rfl, rfl⟩ := made
  obtain ⟨wasResident, published⟩ := provided upload (List.mem_of_getElem? found)
  exact ⟨upload, wasResident, found, published⟩

/-- Handles that were made for one slot were made for one key. -/
theorem MadeFor.key_eq (provided : ∀ upload ∈ s.made, s.system.Provides upload)
    {first second : CacheKey} {slot one two : Nat} (ofFirst : s.MadeFor first slot one)
    (ofSecond : s.MadeFor second slot two) : first = second := by
  obtain ⟨_, _, -, published⟩ := ofFirst.exists_build provided
  obtain ⟨_, _, -, publishedToo⟩ := ofSecond.exists_build provided
  rw [published] at publishedToo
  exact congrArg CacheBuild.key (Option.some.inj publishedToo)

/-- Every upload has the buffers that the build of its slot has published; an entry has a handle
that was made for it; and a call has returned the handle of its entry, which is still the one if
the entry is still there. -/
structure Tracked (s : UploadSystem W N) : Prop extends s.system.Accounted where
  underWay : ∀ upload ∈ s.system.uploads, s.system.Provides upload
  provided : ∀ upload ∈ s.made, s.system.Provides upload
  known : ∀ item ∈ s.system.cache.entries, ∀ handle, item.2.handle = some handle →
    s.MadeFor item.1 item.2.slot handle
  traced : ∀ r ∈ s.returned, s.MadeFor r.key r.slot r.handle
  current : ∀ r ∈ s.returned, ∀ entry, (r.key, entry) ∈ s.system.cache.entries →
    entry.slot = r.slot → entry.handle = some r.handle
  agreed : ∀ first ∈ s.returned, ∀ second ∈ s.returned, first.slot = second.slot →
    first.handle = second.handle

theorem tracked_start (budget : Nat) : (start budget : UploadSystem W N).Tracked where
  toAccounted := CacheSystem.accounted_start budget
  underWay _ member := nomatch member
  provided _ member := nomatch member
  known _ member := nomatch member
  traced _ member := nomatch member
  current _ member := nomatch member
  agreed _ member := nomatch member

namespace Tracked

theorem known_step (good : s.Tracked) (stepped : s.step? action = some t)
    {item : CacheKey × CacheEntry Nat} (member : item ∈ t.system.cache.entries) {handle : Nat}
    (has : item.2.handle = some handle) : t.MadeFor item.1 item.2.slot handle := by
  rcases good.precedes_step (system_step stepped) member with
    ⟨old, there, slot, same | ⟨-, own, given, index, upload, rfl, found, key, ofSlot⟩⟩ | ⟨none, -⟩
  · rw [← slot]
    exact (good.known _ there handle (same.symm.trans has)).step stepped
  · obtain rfl : own = handle := Option.some.inj (given.symm.trans has)
    obtain ⟨new, system, -, rfl⟩ := step_eq stepped
    obtain rfl : own = s.made.length := of_decide_eq_true new
    refine ⟨upload, ?_, key, ofSlot⟩
    simp only [ended, found, Option.toList_some, List.getElem?_concat_length]
  · rw [has] at none
    cases none

theorem current_step (good : s.Tracked) (stepped : s.step? action = some t) {r : ReturnedHandle}
    (member : r ∈ s.returned) {entry : CacheEntry Nat}
    (there : (r.key, entry) ∈ t.system.cache.entries) (own : entry.slot = r.slot) :
    entry.handle = some r.handle := by
  rcases good.precedes_step (system_step stepped) there with
    ⟨old, inOld, slot, handles⟩ | ⟨-, new⟩
  · have before := good.current r member old inOld (slot.trans own)
    rcases handles with same | ⟨none, -⟩
    · exact same.trans before
    · rw [before] at none
      cases none
  · obtain ⟨_, _, -, published⟩ := (good.traced r member).exists_build good.provided
    have inside := (List.getElem?_eq_some_iff.1 published).1
    dsimp only at new
    omega

theorem provided_step (good : s.Tracked) (stepped : s.step? action = some t) :
    ∀ upload ∈ t.made, t.system.Provides upload := by
  have inner := system_step stepped
  obtain ⟨-, system, -, rfl⟩ := step_eq stepped
  intro upload member
  refine CacheSystem.Provides.step ?_ inner
  rcases List.mem_append.1 member with before | new
  · exact good.provided upload before
  · cases action with
    | finishUpload => exact good.underWay upload (List.mem_of_getElem? (Option.mem_toList.1 new))
    | _ => cases new

/-- Every action keeps what is known of the handles. -/
theorem step (good : s.Tracked) (stepped : s.step? action = some t) : t.Tracked := by
  have inner := system_step stepped
  have accounted := CacheSystem.accounted_step good.toAccounted inner
  have provided := good.provided_step stepped
  have returned : t.returned = s.returned ++ s.returns action := by
    obtain ⟨-, system, -, rfl⟩ := step_eq stepped
    rfl
  have known : ∀ item ∈ t.system.cache.entries, ∀ handle, item.2.handle = some handle →
      t.MadeFor item.1 item.2.slot handle :=
    fun item member handle has => good.known_step stepped member has
  have traced : ∀ r ∈ t.returned, t.MadeFor r.key r.slot r.handle := by
    intro r member
    rw [returned] at member
    rcases List.mem_append.1 member with before | new
    · exact (good.traced r before).step stepped
    · obtain ⟨entry, found, own, has⟩ := found_of_returns stepped new
      rw [← own]
      exact known _ (TileCache.find?_eq_some found) r.handle has
  have current : ∀ r ∈ t.returned, ∀ entry, (r.key, entry) ∈ t.system.cache.entries →
      entry.slot = r.slot → entry.handle = some r.handle := by
    intro r member entry there own
    rw [returned] at member
    rcases List.mem_append.1 member with before | new
    · exact good.current_step stepped before there own
    · obtain ⟨other, found, -, has⟩ := found_of_returns stepped new
      rw [TileCache.find?_of_mem accounted.distinct there] at found
      cases found
      exact has
  -- The entry of a handle that is returned is there, so it decides what others were told of it.
  have decided : ∀ new ∈ s.returns action, ∀ r ∈ t.returned, r.slot = new.slot →
      r.handle = new.handle := by
    intro new member r told same
    obtain ⟨entry, found, own, has⟩ := found_of_returns stepped member
    have there := TileCache.find?_eq_some found
    have ofNew := traced new (returned ▸ List.mem_append_right _ member)
    have key : r.key = new.key := (same ▸ traced r told).key_eq provided ofNew
    have toldToo := current r told entry (key ▸ there) (own.trans same.symm)
    exact Option.some.inj (toldToo.symm.trans has)
  refine ⟨accounted, fun upload member => ?_, provided, known, traced, current, ?_⟩
  · rcases CacheSystem.mem_uploads_step inner member with before | needed
    · exact (good.underWay upload before).step inner
    · exact (good.provides_needed needed).step inner
  · intro first inFirst second inSecond same
    by_cases newFirst : first ∈ s.returns action
    · exact (decided first newFirst second inSecond same.symm).symm
    · by_cases newSecond : second ∈ s.returns action
      · exact decided second newSecond first inFirst same
      · rw [returned, List.mem_append] at inFirst inSecond
        exact good.agreed first (inFirst.resolve_right newFirst) second
          (inSecond.resolve_right newSecond) same

end Tracked

theorem tracked_run {budget : Nat} {actions : List (CacheAction W N Nat)}
    (ran : (start budget).run? actions = some s) : s.Tracked :=
  foldlM_invariant Tracked (fun _ _ _ => Tracked.step) (tracked_start budget) ran

/-- An upload that is under way may fail, and then the cache is as it was. -/
theorem exists_fail {index : Nat} {upload : CacheUpload W N}
    (found : s.system.uploads[index]? = some upload) :
    ∃ t, s.step? (.failUpload index) = some t ∧ t.system.cache = s.system.cache ∧
      t.returned = s.returned := by
  refine ⟨⟨{ s.system with uploads := s.system.uploads.eraseIdx index }, s.made ++ [],
    s.returned ++ []⟩, ?_, rfl, List.append_nil _⟩
  simp only [step?, makesNew, if_true, CacheSystem.step?, found, Option.map_some]
  rfl

/-- Or it may end. It is told a handle when its entry is still there, and changes nothing when it
is not. -/
theorem Tracked.exists_end (good : s.Tracked) {index : Nat} {upload : CacheUpload W N}
    (found : s.system.uploads[index]? = some upload) :
    ∃ t, s.step? (.finishUpload index s.made.length) = some t ∧
      ((upload.key, upload.slot) ∈ s.system.cache.identities ∧
          (∃ handle, t.returned = s.returned ++ [⟨upload.key, upload.slot, handle⟩]) ∨
        (upload.key, upload.slot) ∉ s.system.cache.identities ∧ t.returned = s.returned ∧
          ∃ entries, entries.Perm s.system.cache.entries ∧
            t.system.cache = { s.system.cache with entries }) := by
  let reached := (s.system.cache.finishUpload upload.key upload.slot s.made.length).1
  let told := s.returnedAtEnd index s.made.length
  refine ⟨⟨{ s.system.withCache reached with uploads := s.system.uploads.eraseIdx index },
    s.made ++ s.ended (.finishUpload index s.made.length), s.returned ++ told.toList⟩, ?_, ?_⟩
  · simp only [step?, makesNew, decide_true, if_true, CacheSystem.step?, found, Option.map_some]
    rfl
  · by_cases there : (upload.key, upload.slot) ∈ s.system.cache.identities
    · obtain ⟨entry, member, own⟩ := TileCache.mem_identities.1 there
      have present := TileCache.find?_of_mem good.distinct member
      dsimp only at own present
      refine .inl ⟨there, entry.handle.getD s.made.length, ?_⟩
      simp only [told, returnedAtEnd, found, Option.bind_some, ← own,
        TileCache.finishUpload_found present, Option.map_some, Option.toList_some]
    · obtain ⟨entries, same, ends⟩ :=
        TileCache.finishUpload_gone good.distinct there s.made.length
      refine .inr ⟨there, ?_, entries, same, ?_⟩
      · simp only [told, returnedAtEnd, found, Option.bind_some, ends, Option.map_none,
          Option.toList_none, List.append_nil]
      · exact congrArg Prod.fst ends

/-! ## Agreement -/

/-- In whatever order uploads begin and end and everybody else comes to their turns. An entry that
has a handle keeps it for as long as it is there. Whenever a call returns a handle, its entry is
there and the cache shows that handle. Every handle that was returned or is kept in an entry was
made by an upload of the very buffers that were published for the entry; and whoever was returned
a handle of one entry was returned the same. A call that only looks, an upload that fails and an
upload that ends after its entry has been taken out leave every entry as it is, but for their
order; an upload whose entry is still there is always told a handle. -/
theorem handles_agree {budget : Nat} {actions : List (CacheAction W N Nat)}
    (ran : (start budget).run? actions = some s) :
    (∀ key entry handle, (key, entry) ∈ s.system.cache.entries → entry.handle = some handle →
      ∀ later t, s.run? later = some t → ∀ other, (key, other) ∈ t.system.cache.entries →
        other.slot = entry.slot → other.handle = some handle) ∧
    (∀ action t, s.step? action = some t → t.returned = s.returned ++ s.returns action ∧
      ∀ r ∈ s.returns action, t.system.cache.handle? r.key = some r.handle ∧
        (r.key, r.slot) ∈ t.system.cache.identities) ∧
    (∀ key slot handle, ⟨key, slot, handle⟩ ∈ s.returned ∨
        (∃ entry, (key, entry) ∈ s.system.cache.entries ∧ entry.slot = slot ∧
          entry.handle = some handle) →
      ∃ upload wasResident, s.made[handle]? = some upload ∧ upload.key = key ∧
        upload.slot = slot ∧ s.system.builds[slot]? =
          some ⟨key, slot, .published (.ready upload.buffers) wasResident⟩) ∧
    (∀ first ∈ s.returned, ∀ second ∈ s.returned, first.slot = second.slot →
      first.handle = second.handle) ∧
    (∀ key t, s.step? (.beginUpload key) = some t → t.system.cache = s.system.cache) ∧
    ∀ index upload, s.system.uploads[index]? = some upload →
      (∃ t, s.step? (.failUpload index) = some t ∧ t.system.cache = s.system.cache ∧
        t.returned = s.returned) ∧
      ∃ t, s.step? (.finishUpload index s.made.length) = some t ∧
        ((upload.key, upload.slot) ∈ s.system.cache.identities ∧
            (∃ handle, t.returned = s.returned ++ [⟨upload.key, upload.slot, handle⟩]) ∨
          (upload.key, upload.slot) ∉ s.system.cache.identities ∧ t.returned = s.returned ∧
            ∃ entries, entries.Perm s.system.cache.entries ∧
              t.system.cache = { s.system.cache with entries }) := by
  have good := tracked_run ran
  refine ⟨?keeps, ?returns, ?made, good.agreed, ?begins,
    fun index upload found => ⟨exists_fail found, good.exists_end found⟩⟩
  case keeps =>
    intro key entry handle member has later t ranLater other there own
    exact good.handle_run (system_run ranLater) member has there own
  case returns =>
    intro action t stepped
    refine ⟨?_, fun r member => ?_⟩
    · obtain ⟨-, system, -, rfl⟩ := step_eq stepped
      rfl
    · obtain ⟨entry, found, own, has⟩ := found_of_returns stepped member
      have shown : t.system.cache.handle? r.key = some r.handle := by
        rw [TileCache.handle?, found, Option.bind_some, has]
      exact ⟨shown, TileCache.mem_identities.2 ⟨entry, TileCache.find?_eq_some found, own⟩⟩
  case made =>
    intro key slot handle source
    have made : s.MadeFor key slot handle := by
      rcases source with returned | ⟨entry, member, rfl, has⟩
      · exact good.traced _ returned
      · exact good.known _ member handle has
    obtain ⟨upload, wasResident, found, published⟩ := made.exists_build good.provided
    obtain ⟨other, foundToo, ofKey, ofSlot⟩ := made
    rw [found] at foundToo
    cases foundToo
    exact ⟨upload, wasResident, found, ofKey, ofSlot, published⟩
  case begins =>
    intro key t stepped
    have inner := system_step stepped
    simp only [CacheSystem.step?] at inner
    split at inner
    all_goals exact (congrArg CacheSystem.cache (Option.some.inj inner)).symm

/-- Three uploads of one entry begin. Two end, then the entry is evicted and built again, with
later buffers, and a fourth upload begins. -/
def racingUploads : List (CacheAction Unit Unit Nat) := [
  .request CacheSystem.someKey, .record 0 (.ready CacheSystem.someBuffers), .publish 0,
  .beginUpload CacheSystem.someKey, .beginUpload CacheSystem.someKey,
  .beginUpload CacheSystem.someKey, .finishUpload 0 0, .finishUpload 0 1,
  .evict CacheSystem.someKey.tile, .request CacheSystem.someKey,
  .record 1 (.ready CacheSystem.laterBuffers), .publish 1, .beginUpload CacheSystem.someKey]

/-- Both uploads that have ended were told the first handle. The third comes too late and is told
nothing; the fourth is told a handle that was made from the later buffers, which the entry then
keeps. -/
theorem racingUploads_agree :
    ∃ s t u v upload entry, (start 0).run? racingUploads = some s ∧
      s.returned = [⟨CacheSystem.someKey, 0, 0⟩, ⟨CacheSystem.someKey, 0, 0⟩] ∧
      s.step? (.finishUpload 0 2) = some t ∧ t.returned = s.returned ∧
      (start 0).run? (racingUploads ++ [.finishUpload 0 2, .finishUpload 0 3]) = some u ∧
      ⟨CacheSystem.someKey, 1, 3⟩ ∈ u.returned ∧ u.made[3]? = some upload ∧
      upload.buffers = CacheSystem.laterBuffers ∧
      u.run? [.attach CacheSystem.someKey] = some v ∧
      (CacheSystem.someKey, entry) ∈ v.system.cache.entries ∧ entry.handle = some 3 := by
  obtain ⟨s, ran, told, count, gone, late⟩ : ∃ s : UploadSystem Unit Unit,
      (start 0).run? racingUploads = some s ∧
      s.returned = [⟨CacheSystem.someKey, 0, 0⟩, ⟨CacheSystem.someKey, 0, 0⟩] ∧
      s.made.length = 2 ∧ (CacheSystem.someKey, 0) ∉ s.system.cache.identities ∧
      s.system.uploads[0]? = some ⟨CacheSystem.someKey, 0, CacheSystem.someBuffers⟩ :=
    ⟨_, rfl, rfl, rfl, by decide, rfl⟩
  obtain ⟨u, v, old, entry, ranTo, returned, built, there, own, has, ranOn, stays, same⟩ :
      ∃ (u v : UploadSystem Unit Unit) (old entry : CacheEntry Nat),
        (start 0).run? (racingUploads ++ [.finishUpload 0 2, .finishUpload 0 3]) = some u ∧
        ⟨CacheSystem.someKey, 1, 3⟩ ∈ u.returned ∧
        u.system.builds[1]? = some
          ⟨CacheSystem.someKey, 1, .published (.ready CacheSystem.laterBuffers) true⟩ ∧
        (CacheSystem.someKey, old) ∈ u.system.cache.entries ∧ old.slot = 1 ∧
        old.handle = some 3 ∧ u.run? [.attach CacheSystem.someKey] = some v ∧
        (CacheSystem.someKey, entry) ∈ v.system.cache.entries ∧ entry.slot = 1 :=
    ⟨_, _, _, _, rfl, List.mem_of_getElem? (i := 2) rfl, rfl, List.mem_singleton.2 rfl, rfl, rfl,
      rfl, List.mem_singleton.2 rfl, rfl⟩
  obtain ⟨-, -, -, -, -, ends⟩ := handles_agree ran
  obtain ⟨-, t, stepped, ⟨present, -⟩ | ⟨-, unchanged, -⟩⟩ := ends 0 _ late
  · exact absurd present gone
  · obtain ⟨keeps, -, made, -⟩ := handles_agree ranTo
    obtain ⟨upload, wasResident, found, -, -, published⟩ := made _ _ _ (.inl returned)
    simp only [built, Option.some.injEq, CacheBuild.mk.injEq, BuildPhase.published.injEq,
      BuildResult.ready.injEq, true_and] at published
    rw [count] at stepped
    have kept := keeps _ old 3 there has _ v ranOn entry stays (same.trans own.symm)
    exact ⟨s, t, u, v, upload, entry, ran, told, stepped, unchanged, ranTo, returned, found,
      published.1.symm, ranOn, stays, kept⟩

end UploadSystem

end MapStyle
