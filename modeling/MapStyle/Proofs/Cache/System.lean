import MapStyle.Cache.Tile
import MapStyle.Proofs.Outcome

/-!
# A cache with its callers, builds and uploads

`TileCache` gives each access to the shared state as a function. `CacheSystem.step?` puts
them in the hands of those who make them: a caller makes the first access of a request and,
when the result is published, the last one; the build that the request has started makes
two; an upload makes two. An action may be taken whenever its turn has come, so a list of
actions is one interleaving, and every interleaving is a list of actions. Nobody is bound to
go on: callers may give up, and a build may stay unfinished for ever.

Next to what the program keeps, the system remembers every request and build there ever was
and every entry that ever came up. That memory decides nothing but whose turn it is.
-/

namespace MapStyle

/-- How far a build has come. What is recorded or published is the result, and whether the entry
of the build was there when it was recorded. -/
inductive BuildPhase (W N : Type) where
  | running
  | recorded (result : BuildResult W N) (wasResident : Bool)
  | published (result : BuildResult W N) (wasResident : Bool)

/-- A build that was started. -/
structure CacheBuild (W N : Type) where
  key : CacheKey
  slot : Nat
  phase : BuildPhase W N

/-- What has become of a request. -/
inductive CallPhase (W N : Type) where
  | waiting
  | returned (outcome : BuildOutcome W N)
  | dropped

/-- A request, with the entry it has joined. -/
structure CacheCall (W N : Type) where
  key : CacheKey
  slot : Nat
  phase : CallPhase W N

/-- An upload between its two accesses to the cache. -/
structure CacheUpload (W N : Type) where
  key : CacheKey
  slot : Nat
  buffers : TileBuffers W N

/-- One access to the cache, by whoever has the turn. Builds, calls and uploads are told apart by
their place in the lists of the system. -/
inductive CacheAction (W N H : Type) where
  | request (key : CacheKey)
  | record (build : Nat) (result : BuildResult W N)
  | publish (build : Nat)
  | answer (call : Nat)
  | giveUp (call : Nat)
  | attach (key : CacheKey)
  | detach (key : CacheKey)
  | trim
  | evict (tile : TileId)
  | invalidateStyle (style : UInt64)
  | beginUpload (key : CacheKey)
  | finishUpload (upload : Nat) (handle : H)
  | failUpload (upload : Nat)

/-- The entries of a cache by key and slot: an entry keeps both as long as it is there. -/
def TileCache.identities {W N H : Type} (cache : TileCache W N H) : List (CacheKey × Nat) :=
  cache.entries.map fun item => (item.1, item.2.slot)

/-- A cache, and all that was ever asked of it. -/
structure CacheSystem (W N H : Type) where
  cache : TileCache W N H
  /-- Every build that was started, in that order. -/
  builds : List (CacheBuild W N)
  /-- Every request that was made, in that order. -/
  calls : List (CacheCall W N)
  /-- The uploads between their two accesses. -/
  uploads : List (CacheUpload W N)
  /-- Every entry that ever came up. -/
  inserted : List (CacheKey × Nat)

namespace CacheBuild

variable {W N : Type}

/-- The entry a build was started for. -/
def identity (build : CacheBuild W N) : CacheKey × Nat := (build.key, build.slot)

/-- The result that is published in the slot of a build. -/
def published? (build : CacheBuild W N) : Option (BuildResult W N) :=
  match build.phase with
  | .published result _ => some result
  | _ => none

/-- The buffers of a build whose success is recorded. -/
def recordedBuffers? (build : CacheBuild W N) : Option (TileBuffers W N) :=
  match build.phase with
  | .recorded (.ready buffers) _ | .published (.ready buffers) _ => some buffers
  | _ => none

def isRunning (build : CacheBuild W N) : Bool :=
  match build.phase with
  | .running => true
  | _ => false

/-- Whether a build has failed and was recorded while its entry was there. -/
def failedResident (build : CacheBuild W N) : Bool :=
  match build.phase with
  | .recorded .failed wasResident | .published .failed wasResident => wasResident
  | _ => false

end CacheBuild

namespace CacheSystem

variable {W N H : Type}

def start (budget : Nat) : CacheSystem W N H := ⟨TileCache.empty budget, [], [], [], []⟩

/-- The system after an access has changed the cache. Entries that were not there before the
access have come up. -/
def withCache (s : CacheSystem W N H) (cache : TileCache W N H) : CacheSystem W N H :=
  { s with
    cache
    inserted := s.inserted ++ cache.identities.filter fun identity =>
      identity ∉ s.cache.identities }

/-- The first access of a request. The build it may have to start belongs to the system. -/
def request (s : CacheSystem W N H) (key : CacheKey) : CacheSystem W N H :=
  let (cache, joined) := s.cache.request key
  { s.withCache cache with
    builds := s.builds ++ if joined.isNew then [⟨key, joined.slot, .running⟩] else []
    calls := s.calls ++ [⟨key, joined.slot, .waiting⟩] }

/-- Take an action; none when it is nobody's turn to. -/
def step? (s : CacheSystem W N H) : CacheAction W N H → Option (CacheSystem W N H)
  | .request key => some (s.request key)
  | .record index result =>
    match s.builds[index]? with
    | some ⟨key, slot, .running⟩ =>
      let wasResident := (s.cache.entryOfSlot? key slot).isSome
      some { s.withCache (s.cache.record slot result) with
        builds := s.builds.set index ⟨key, slot, .recorded result wasResident⟩ }
    | _ => none
  | .publish index =>
    match s.builds[index]? with
    | some ⟨key, slot, .recorded result wasResident⟩ =>
      some { s.withCache (s.cache.publish slot result) with
        builds := s.builds.set index ⟨key, slot, .published result wasResident⟩ }
    | _ => none
  | .answer index =>
    match s.calls[index]? with
    | some ⟨key, slot, .waiting⟩ =>
      (s.cache.outcome? slot).map fun outcome =>
        { s with calls := s.calls.set index ⟨key, slot, .returned outcome⟩ }
    | _ => none
  | .giveUp index =>
    match s.calls[index]? with
    | some ⟨key, slot, .waiting⟩ => some { s with calls := s.calls.set index ⟨key, slot, .dropped⟩ }
    | _ => none
  | .attach key => some (s.withCache (s.cache.attach key).1)
  | .detach key => some (s.withCache (s.cache.detach key))
  | .trim => some (s.withCache s.cache.trim.1)
  | .evict tile => some (s.withCache (s.cache.evict tile).1)
  | .invalidateStyle style => some (s.withCache (s.cache.invalidateStyle style).1)
  | .beginUpload key =>
    match s.cache.beginUpload key with
    | .needed slot buffers => some { s with uploads := s.uploads ++ [⟨key, slot, buffers⟩] }
    | .done _ => some s
  | .finishUpload index handle =>
    s.uploads[index]?.map fun upload =>
      { s.withCache (s.cache.finishUpload upload.key upload.slot handle).1 with
        uploads := s.uploads.eraseIdx index }
  | .failUpload index =>
    s.uploads[index]?.map fun _ => { s with uploads := s.uploads.eraseIdx index }

/-- Take actions one after another. -/
def run? (s : CacheSystem W N H) : List (CacheAction W N H) → Option (CacheSystem W N H)
  | [] => some s
  | action :: rest => (s.step? action).bind (run? · rest)

theorem run?_eq_foldlM (s : CacheSystem W N H) (actions : List (CacheAction W N H)) :
    s.run? actions = actions.foldlM step? s := by
  induction actions generalizing s with
  | nil => rfl
  | cons action rest ih =>
    rw [run?, List.foldlM_cons]
    exact congrArg (s.step? action).bind (funext ih)

/-- What every step from a good state keeps holds after every run from one. -/
theorem run?_invariant {holds : CacheSystem W N H → Prop}
    (kept : ∀ s t action, holds s → s.step? action = some t → holds t)
    {s t : CacheSystem W N H} {actions : List (CacheAction W N H)} (good : holds s)
    (ran : s.run? actions = some t) : holds t := by
  rw [run?_eq_foldlM] at ran
  exact foldlM_invariant holds (fun s action t => kept s t action) good ran

end CacheSystem

end MapStyle
