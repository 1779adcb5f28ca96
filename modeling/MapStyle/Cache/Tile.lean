import MapStyle.Tile.Tessellation

/-!
# A cache of tile buffers

Buffers are kept under the address of the tile and the digest of the style. The first
request for a key starts a build, and every request for the key waits for the build
of the entry it found. A build has a slot of its own, in which it publishes its
result; slots are numbered in the order in which builds start, and an entry holds the
number of its slot, so that an entry is told from a later one under the same key.

Every function here is one access to the shared state: the request, the two steps in
which a finished build is recorded and published, the last step of a request that has
waited, the two steps of an upload, and the operations that are one step anyway. What
other callers do in between is the business of whoever puts them together.
-/

namespace MapStyle

/-- What the buffers of a tile are kept under. -/
structure CacheKey where
  tile : TileId
  style : UInt64
deriving DecidableEq, Repr

/-- What a build comes to. -/
inductive BuildResult (W N : Type) where
  | ready (buffers : TileBuffers W N)
  | failed

/-- The place in which one build publishes its result. -/
structure BuildSlot (W N : Type) where
  key : CacheKey
  /-- The result, once it is published. -/
  result : Option (BuildResult W N)

/-- What the cache keeps under a key. Handles of the graphics device are of the type `H`. -/
structure CacheEntry (H : Type) where
  /-- The number of the slot of its build. -/
  slot : Nat
  /-- The number of attached renderers. -/
  refs : Nat
  /-- The bytes of its buffers, once the build is recorded. -/
  bytes : Nat
  handle : Option H

/-- What has happened in a cache. -/
structure CacheCounts where
  /-- Requests that found finished buffers. -/
  hits : Nat
  /-- All other requests. -/
  misses : Nat
  /-- Requests that joined a build that was running or had failed. -/
  coalesced : Nat
  /-- Builds that finished while their entry was there. -/
  builds : Nat
  /-- Builds whose entry was gone when they finished. -/
  abandoned : Nat
deriving DecidableEq, Repr

/-- A cache of tile buffers. -/
structure TileCache (W N H : Type) where
  /-- The bytes above which `trim` takes out entries. -/
  budget : Nat
  /-- The entries, the one used last first. -/
  entries : List (CacheKey × CacheEntry H)
  /-- The slots of all builds that were started. -/
  slots : List (BuildSlot W N)
  counts : CacheCounts

/-- What a request that has waited is told. -/
inductive BuildOutcome (W N : Type) where
  | ready (buffers : TileBuffers W N)
  /-- The entry was taken out while it was built. -/
  | abandoned
  | failed (tile : TileId)

/-- What a failed request reports. -/
def BuildOutcome.failureMessage (tile : TileId) : String := s!"build for tile {tile.text} failed"

namespace TileCache

variable {W N H : Type}

def empty (budget : Nat) : TileCache W N H :=
  ⟨budget, [], [], ⟨0, 0, 0, 0, 0⟩⟩

/-! ## Entries and slots -/

def find? (cache : TileCache W N H) (key : CacheKey) : Option (CacheEntry H) :=
  cache.entries.lookup key

/-- What was published in a slot. -/
def result? (cache : TileCache W N H) (slot : Nat) : Option (BuildResult W N) :=
  cache.slots[slot]?.bind BuildSlot.result

/-- The buffers that were published in a slot. -/
def buffers? (cache : TileCache W N H) (slot : Nat) : Option (TileBuffers W N) :=
  match cache.result? slot with
  | some (.ready buffers) => some buffers
  | _ => none

/-- Whether a failure was published in a slot. -/
def hasFailed (cache : TileCache W N H) (slot : Nat) : Bool :=
  match cache.result? slot with
  | some .failed => true
  | _ => false

/-- Take out all entries whose key passes a test. -/
def removeWhere (cache : TileCache W N H) (test : CacheKey → Bool) : TileCache W N H :=
  { cache with entries := cache.entries.filter fun (key, _) => !test key }

/-- Make an entry the one used last. -/
def putFirst (cache : TileCache W N H) (key : CacheKey) (entry : CacheEntry H) :
    TileCache W N H :=
  { cache with entries := (key, entry) :: cache.entries.filter fun (other, _) => other ≠ key }

/-- Change an entry in its place. -/
def modifyEntry (cache : TileCache W N H) (key : CacheKey)
    (change : CacheEntry H → CacheEntry H) : TileCache W N H :=
  { cache with entries := cache.entries.map fun (other, entry) =>
      (other, if other = key then change entry else entry) }

/-- The entry under a key, if its build has the given slot. -/
def entryOfSlot? (cache : TileCache W N H) (key : CacheKey) (slot : Nat) :
    Option (CacheEntry H) :=
  (cache.find? key).filter (·.slot = slot)

/-! ## Requests and builds -/

/-- What a request has found: the slot to wait for, and whether its build is to be started. -/
structure Joined where
  slot : Nat
  isNew : Bool
deriving DecidableEq, Repr

/-- Take out an entry whose build has failed. -/
def dropFailed (cache : TileCache W N H) (key : CacheKey) : TileCache W N H :=
  match cache.find? key with
  | some entry => if cache.hasFailed entry.slot then cache.removeWhere (· = key) else cache
  | none => cache

/-- Make an entry with a slot of its own. -/
def insertNew (cache : TileCache W N H) (key : CacheKey) : TileCache W N H :=
  let slot := cache.slots.length
  { cache.putFirst key ⟨slot, 0, 0, none⟩ with
    slots := cache.slots ++ [⟨key, none⟩]
    counts := { cache.counts with misses := cache.counts.misses + 1 } }

/-- Count a request that found an entry. -/
def countFound (cache : TileCache W N H) (slot : Nat) : CacheCounts :=
  if (cache.buffers? slot).isSome then { cache.counts with hits := cache.counts.hits + 1 }
  else { cache.counts with
    misses := cache.counts.misses + 1
    coalesced := cache.counts.coalesced + 1 }

/-- The first step of a request: join the build of the entry under a key, or start one. An entry
whose build has failed is replaced. -/
def request (cache : TileCache W N H) (key : CacheKey) : TileCache W N H × Joined :=
  let cache := cache.dropFailed key
  match cache.find? key with
  | some entry =>
    ({ cache.putFirst key entry with counts := cache.countFound entry.slot }, ⟨entry.slot, false⟩)
  | none => (cache.insertNew key, ⟨cache.slots.length, true⟩)

/-- The first step of a build that has finished: record its bytes in its entry, if that is still
there. -/
def record (cache : TileCache W N H) (slot : Nat) (result : BuildResult W N) :
    TileCache W N H :=
  match cache.slots[slot]? with
  | none => cache
  | some { key, .. } =>
    match cache.entryOfSlot? key slot, result with
    | some _, .ready buffers =>
      { cache.modifyEntry key ({ · with bytes := buffers.byteSize }) with
        counts := { cache.counts with builds := cache.counts.builds + 1 } }
    | some _, .failed => cache
    | none, _ => { cache with
        counts := { cache.counts with abandoned := cache.counts.abandoned + 1 } }

/-- The second step of a build that has finished: tell those who wait. -/
def publish (cache : TileCache W N H) (slot : Nat) (result : BuildResult W N) :
    TileCache W N H :=
  { cache with slots := cache.slots.modify slot ({ · with result := some result }) }

/-- The last step of a request that waited for a slot in which a result was published. Buffers
whose entry is gone are not handed out. -/
def outcome? (cache : TileCache W N H) (slot : Nat) : Option (BuildOutcome W N) :=
  match cache.slots[slot]? with
  | some ⟨key, some (.ready buffers)⟩ =>
    some (if (cache.entryOfSlot? key slot).isSome then .ready buffers else .abandoned)
  | some ⟨key, some .failed⟩ => some (.failed key.tile)
  | _ => none

/-! ## Reading -/

/-- The finished buffers under a key. -/
def get? (cache : TileCache W N H) (key : CacheKey) : Option (TileBuffers W N) :=
  (cache.find? key).bind fun entry => cache.buffers? entry.slot

def handle? (cache : TileCache W N H) (key : CacheKey) : Option H :=
  (cache.find? key).bind CacheEntry.handle

def contains (cache : TileCache W N H) (key : CacheKey) : Bool := (cache.find? key).isSome

def refs (cache : TileCache W N H) (key : CacheKey) : Nat :=
  ((cache.find? key).map CacheEntry.refs).getD 0

/-- The bytes of all entries. -/
def residentBytes (cache : TileCache W N H) : Nat :=
  cache.entries.foldr (fun (_, entry) bytes => entry.bytes + bytes) 0

/-! ## Renderers -/

/-- Attach a renderer, and tell whether there is an entry to attach it to. -/
def attach (cache : TileCache W N H) (key : CacheKey) : TileCache W N H × Bool :=
  match cache.find? key with
  | some entry => (cache.putFirst key { entry with refs := entry.refs + 1 }, true)
  | none => (cache, false)

/-- Detach a renderer. -/
def detach (cache : TileCache W N H) (key : CacheKey) : TileCache W N H :=
  match cache.find? key with
  | some entry => cache.putFirst key { entry with refs := entry.refs - 1 }
  | none => cache

/-! ## Taking out entries -/

/-- Whether an entry may be taken out to make room: its buffers are finished and no renderer is
attached. -/
def isIdle (cache : TileCache W N H) (entry : CacheEntry H) : Bool :=
  entry.refs = 0 && (cache.buffers? entry.slot).isSome

/-- The idle entries to take out, the one used longest ago first, until the others fit the
budget. -/
def victims (cache : TileCache W N H) (resident : Nat) :
    List (CacheKey × CacheEntry H) → List CacheKey
  | [] => []
  | (key, entry) :: rest =>
    if resident ≤ cache.budget then []
    else if cache.isIdle entry then key :: cache.victims (resident - entry.bytes) rest
    else cache.victims resident rest

/-- Take out idle entries until the others fit the budget, and tell how many. -/
def trim (cache : TileCache W N H) : TileCache W N H × Nat :=
  let keys := cache.victims cache.residentBytes cache.entries.reverse
  (cache.removeWhere (keys.contains ·), keys.length)

/-- Take out the entries whose key passes a test, and tell how many. -/
def dispose (cache : TileCache W N H) (test : CacheKey → Bool) : TileCache W N H × Nat :=
  (cache.removeWhere test, cache.entries.countP fun (key, _) => test key)

/-- Take out all entries of a tile. -/
def evict (cache : TileCache W N H) (tile : TileId) : TileCache W N H × Nat :=
  cache.dispose (·.tile = tile)

/-- Take out all entries of a style. -/
def invalidateStyle (cache : TileCache W N H) (style : UInt64) : TileCache W N H × Nat :=
  cache.dispose (·.style = style)

/-! ## Uploads -/

/-- What the first step of an upload finds. -/
inductive UploadStart (W N H : Type) where
  /-- There are no finished buffers, or they were uploaded before. -/
  | done (handle : Option H)
  /-- The buffers of a slot are to be uploaded. -/
  | needed (slot : Nat) (buffers : TileBuffers W N)

/-- The first step of an upload. -/
def beginUpload (cache : TileCache W N H) (key : CacheKey) : UploadStart W N H :=
  match cache.find? key with
  | none => .done none
  | some entry =>
    match entry.handle with
    | some handle => .done (some handle)
    | none =>
      match cache.buffers? entry.slot with
      | some buffers => .needed entry.slot buffers
      | none => .done none

/-- The last step of an upload: keep the handle in the entry from which the buffers came, and
tell the one that the entry has. One that it has already stays. -/
def finishUpload (cache : TileCache W N H) (key : CacheKey) (slot : Nat) (handle : H) :
    TileCache W N H × Option H :=
  match cache.find? key with
  | none => (cache, none)
  | some entry =>
    if entry.slot = slot then
      let kept := entry.handle.getD handle
      (cache.putFirst key { entry with handle := some kept }, some kept)
    else (cache.putFirst key entry, none)

end TileCache

end MapStyle
