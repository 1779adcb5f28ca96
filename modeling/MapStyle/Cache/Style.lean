import MapStyle.Style.Compiled

/-!
# A cache of compiled styles

Specifications with equal digests share one compiled style. A request looks its digest
up, compiles the style outside the cache when it is missing, and then puts it in
unless another request has put in one meanwhile. The two accesses to the cache are
the functions `lookup` and `insert` here; anything may happen in between.
-/

namespace MapStyle

/-- A compiled style with the number that tells it from equal styles compiled at other times. -/
structure SharedStyle (W N : Type) where
  serial : Nat
  style : CompiledStyle W N

/-- Compiled styles under their digests, at most one under each. -/
structure StyleCache (W N : Type) where
  styles : List (UInt64 × SharedStyle W N)
  /-- The number of styles compiled so far, which is the serial of the next one. -/
  compiled : Nat

namespace StyleCache

variable {W N : Type}

def empty : StyleCache W N := ⟨[], 0⟩

/-- The style under a digest. -/
def lookup (cache : StyleCache W N) (hash : UInt64) : Option (SharedStyle W N) :=
  cache.styles.lookup hash

/-- Give a style that was just compiled its serial. -/
def share (cache : StyleCache W N) (style : CompiledStyle W N) :
    StyleCache W N × SharedStyle W N :=
  ({ cache with compiled := cache.compiled + 1 }, ⟨cache.compiled, style⟩)

/-- Put a style in under a digest, and tell which style is there. One that is there already
stays. -/
def insert (cache : StyleCache W N) (hash : UInt64) (shared : SharedStyle W N) :
    StyleCache W N × SharedStyle W N :=
  match cache.lookup hash with
  | some resident => (cache, resident)
  | none => ({ cache with styles := (hash, shared) :: cache.styles }, shared)

/-- Take out the style under a digest. -/
def remove (cache : StyleCache W N) (hash : UInt64) :
    StyleCache W N × Option (SharedStyle W N) :=
  ({ cache with styles := cache.styles.filter (·.1 ≠ hash) }, cache.lookup hash)

def size (cache : StyleCache W N) : Nat := cache.styles.length

variable [Scalar W] [Scalar N] [Precision W N]

/-- The compiled style of a specification, when no other request comes in between. -/
def getOrCompile (cache : StyleCache W N) (spec : StyleSpec W N) :
    StyleCache W N × Except CompileError (SharedStyle W N) :=
  match ParsedStyle.ofSpec spec with
  | .error e => (cache, .error e)
  | .ok parsed =>
    match cache.lookup parsed.hash with
    | some shared => (cache, .ok shared)
    | none =>
      match parsed.lower with
      | .error e => (cache, .error e)
      | .ok style =>
        let (cache, shared) := cache.share style
        let (cache, resident) := cache.insert parsed.hash shared
        (cache, .ok resident)

end StyleCache

end MapStyle
