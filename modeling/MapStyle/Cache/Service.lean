import MapStyle.Cache.Tile

/-!
# A tile service

Callers that ask for tiles, workers that build them, and the cache between them. A
worker finishes its build at once, unless builds are held back; a build that is held
back finishes when it is released, or fails. Whenever a build finishes, all callers
that wait for it are told the outcome.
-/

namespace MapStyle

/-- What has become of a caller. -/
inductive CallerState (W N : Type) where
  | waiting (slot : Nat)
  | told (outcome : BuildOutcome W N)
  | cancelled

/-- A build that is held back. -/
structure HeldBuild (W N : Type) where
  slot : Nat
  tile : Tile W N
  style : CompiledStyle W N

/-- A cache with its callers and workers. -/
structure TileService (W N H : Type) where
  tessellator : Tessellator N
  cache : TileCache W N H
  /-- Whether builds that start are held back. -/
  isHolding : Bool
  held : List (HeldBuild W N)
  /-- The callers by name, whoever came last first. -/
  callers : List (String × CallerState W N)

namespace TileService

variable {W N H : Type}

def start (tessellator : Tessellator N) (budget : Nat) : TileService W N H :=
  ⟨tessellator, TileCache.empty budget, false, [], []⟩

/-- Tell callers that wait for a published result. -/
def tellCallers (s : TileService W N H) : TileService W N H :=
  { s with callers := s.callers.map fun (name, state) =>
      match state with
      | .waiting slot =>
        match s.cache.outcome? slot with
        | some outcome => (name, .told outcome)
        | none => (name, state)
      | _ => (name, state) }

/-- Finish the build of a slot. -/
def finish (s : TileService W N H) (slot : Nat) (result : BuildResult W N) :
    TileService W N H :=
  tellCallers { s with cache := (s.cache.record slot result).publish slot result }

/-- The state of a caller. -/
def caller? (s : TileService W N H) (name : String) : Option (CallerState W N) :=
  s.callers.lookup name

/-- Forget a caller. -/
def dismiss (s : TileService W N H) (name : String) : TileService W N H :=
  { s with callers := s.callers.filter (·.1 ≠ name) }

/-- Let a caller give up, unless it has been told its outcome. -/
def cancel (s : TileService W N H) (name : String) : TileService W N H :=
  match s.caller? name with
  | some (.waiting _) =>
    { s.dismiss name with callers := (name, .cancelled) :: (s.dismiss name).callers }
  | _ => s

/-- The build of a slot, if it is held back. -/
def heldBuild? (s : TileService W N H) (slot : Nat) : Option (HeldBuild W N) :=
  s.held.find? (·.slot = slot)

/-- Take a build out of those that are held back. -/
def unhold (s : TileService W N H) (slot : Nat) : TileService W N H :=
  { s with held := s.held.filter (·.slot ≠ slot) }

/-- Let a build that is held back fail. -/
def fail (s : TileService W N H) (slot : Nat) : TileService W N H :=
  (s.unhold slot).finish slot .failed

variable [Scalar W] [Scalar N] [Precision W N]

/-- The key of a tile under a style. -/
def keyOf (tile : Tile W N) (style : CompiledStyle W N) : CacheKey := ⟨tile.id, style.hash⟩

/-- Run a build to its end. -/
def run (s : TileService W N H) (build : HeldBuild W N) : TileService W N H :=
  s.finish build.slot (.ready (s.tessellator.build build.style build.tile))

/-- Let a build that is held back run. -/
def release (s : TileService W N H) (build : HeldBuild W N) : TileService W N H :=
  (s.unhold build.slot).run build

/-- Ask for a tile under a style, and start its build if need be. -/
def request (s : TileService W N H) (tile : Tile W N) (style : CompiledStyle W N) :
    TileService W N H × TileCache.Joined :=
  let (cache, joined) := s.cache.request (keyOf tile style)
  let s := { s with cache }
  let build : HeldBuild W N := ⟨joined.slot, tile, style⟩
  if joined.isNew then
    if s.isHolding then ({ s with held := s.held ++ [build] }, joined)
    else (s.run build, joined)
  else (s, joined)

/-- Let a caller ask for a tile under a style. -/
def call (s : TileService W N H) (name : String) (tile : Tile W N) (style : CompiledStyle W N) :
    TileService W N H × TileCache.Joined :=
  let (s, joined) := s.request tile style
  let s := s.dismiss name
  (tellCallers { s with callers := (name, .waiting joined.slot) :: s.callers }, joined)

/-- Ask for a tile under a style, and tell its outcome unless its build is held back. -/
def build (s : TileService W N H) (tile : Tile W N) (style : CompiledStyle W N) :
    TileService W N H × Option (BuildOutcome W N) :=
  let (s, joined) := s.request tile style
  (s, s.cache.outcome? joined.slot)

end TileService

end MapStyle
