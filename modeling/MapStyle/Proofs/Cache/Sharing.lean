import MapStyle.Cache.Style
import MapStyle.Proofs.Dictionary
import MapStyle.Proofs.Outcome
import MapStyle.Proofs.Style.Interchangeable

/-!
# Callers that share a cache of compiled styles

A call types its specification, looks the digest up, compiles the style outside the cache when
it is missing, and puts it in. `StyleSystem.step?` lets any number of calls and removals take
these steps in any order, so several calls may compile one style at once, and a removal may fall
between the look-up of a call and its insertion.

A call is decided in the step that ends it with a style: the look-up that finds one, or else
the insertion. What it is told is there, right after that step, under the digest of its
specification. Until the digest is removed nobody can put another style there, and so all who
are decided in between are told of one style.
-/

namespace MapStyle

/-- How far a call has come: what it has learned and what it does next. -/
inductive StyleCallPhase (W N : Type) where
  /-- The specification is typed; the look-up comes next. -/
  | typed (style : ParsedStyle W N)
  /-- The style is not in the cache; it is compiled next. -/
  | missed (style : ParsedStyle W N)
  /-- The style is compiled and put in next. -/
  | compiled (hash : UInt64) (shared : SharedStyle W N)
  | returned (outcome : Except CompileError (SharedStyle W N))

/-- A call, with the specification it was made for. -/
structure StyleCall (W N : Type) where
  spec : StyleSpec W N
  phase : StyleCallPhase W N

/-- One step of a caller. Calls are told apart by their place in the list of the system. -/
inductive StyleAction (W N : Type) where
  | ask (spec : StyleSpec W N)
  | lookUp (call : Nat)
  | compile (call : Nat)
  | insert (call : Nat)
  | remove (hash : UInt64)

/-- A cache of styles, and all calls there ever were. -/
structure StyleSystem (W N : Type) where
  cache : StyleCache W N
  calls : List (StyleCall W N)

namespace StyleSystem

variable {W N : Type}

def start : StyleSystem W N := ⟨.empty, []⟩

/-- A call goes on to its next phase. -/
def advance (s : StyleSystem W N) (index : Nat) (spec : StyleSpec W N)
    (phase : StyleCallPhase W N) : StyleSystem W N :=
  { s with calls := s.calls.set index ⟨spec, phase⟩ }

variable [Scalar W] [Scalar N] [Precision W N]

/-- The phase in which a call begins. -/
def firstPhase (spec : StyleSpec W N) : StyleCallPhase W N :=
  match ParsedStyle.ofSpec spec with
  | .ok style => .typed style
  | .error e => .returned (.error e)

/-- Take a step; none when it is not the turn of the call. -/
def step? (s : StyleSystem W N) : StyleAction W N → Option (StyleSystem W N)
  | .ask spec => some { s with calls := s.calls ++ [⟨spec, firstPhase spec⟩] }
  | .lookUp index =>
    match s.calls[index]? with
    | some ⟨spec, .typed style⟩ =>
      match s.cache.lookup style.hash with
      | some shared => some (s.advance index spec (.returned (.ok shared)))
      | none => some (s.advance index spec (.missed style))
    | _ => none
  | .compile index =>
    match s.calls[index]? with
    | some ⟨spec, .missed style⟩ =>
      match style.lower with
      | .error e => some (s.advance index spec (.returned (.error e)))
      | .ok compiled =>
        let (cache, shared) := s.cache.share compiled
        some ({ s with cache }.advance index spec (.compiled style.hash shared))
    | _ => none
  | .insert index =>
    match s.calls[index]? with
    | some ⟨spec, .compiled hash shared⟩ =>
      let (cache, resident) := s.cache.insert hash shared
      some ({ s with cache }.advance index spec (.returned (.ok resident)))
    | _ => none
  | .remove hash => some { s with cache := (s.cache.remove hash).1 }

/-- Take steps one after another. -/
def run? (s : StyleSystem W N) (actions : List (StyleAction W N)) : Option (StyleSystem W N) :=
  actions.foldlM step? s

/-- The call that takes a step. A removal is nobody's. -/
def callOf (s : StyleSystem W N) : StyleAction W N → Option Nat
  | .ask _ => some s.calls.length
  | .lookUp index | .compile index | .insert index => some index
  | .remove _ => none

/-- A call for a digest is decided: its look-up or its insertion ends it with a style. -/
structure Decides (s : StyleSystem W N) (action : StyleAction W N) (t : StyleSystem W N)
    (index : Nat) (hash : UInt64) (shared : SharedStyle W N) : Prop where
  stepped : s.step? action = some t
  taken : action = .lookUp index ∨ action = .insert index
  returned : ∃ spec style, ParsedStyle.ofSpec spec = .ok style ∧ style.hash = hash ∧
    t.calls[index]? = some ⟨spec, .returned (.ok shared)⟩

end StyleSystem

/-! ## The map -/

namespace StyleCache

variable {W N : Type} {cache : StyleCache W N} {hash other : UInt64}
  {shared resident : SharedStyle W N}

/-- No two styles share a digest, and every style is there under its own. -/
structure Consistent (cache : StyleCache W N) : Prop where
  distinct : (cache.styles.map Prod.fst).Nodup
  hashed : ∀ hash shared, (hash, shared) ∈ cache.styles → shared.style.hash = hash

theorem insert_found (found : cache.lookup hash = some resident) :
    cache.insert hash shared = (cache, resident) := by
  rw [insert, found]

theorem insert_absent (absent : cache.lookup hash = none) :
    cache.insert hash shared =
      ({ cache with styles := (hash, shared) :: cache.styles }, shared) := by
  rw [insert, absent]

/-- The style that is told of is there. -/
theorem lookup_insert (cache : StyleCache W N) (hash : UInt64) (shared : SharedStyle W N) :
    (cache.insert hash shared).1.lookup hash = some (cache.insert hash shared).2 := by
  cases found : cache.lookup hash with
  | some resident => rw [insert_found found, found]
  | none => rw [insert_absent found, lookup, List.lookup_cons_self]

/-- A style that is there stays, whatever is put in. -/
theorem lookup_insert_of_found (found : cache.lookup other = some resident) (hash : UInt64)
    (shared : SharedStyle W N) : (cache.insert hash shared).1.lookup other = some resident := by
  cases present : cache.lookup hash with
  | some _ => rw [insert_found present, found]
  | none =>
    have apart : other ≠ hash := by
      rintro rfl
      rw [present] at found
      cases found
    rw [insert_absent present, lookup, List.lookup_cons, beq_false_of_ne apart]
    exact found

theorem mem_insert (member : (other, resident) ∈ (cache.insert hash shared).1.styles) :
    (other, resident) ∈ cache.styles ∨ other = hash ∧ resident = shared := by
  cases found : cache.lookup hash with
  | some present =>
    rw [insert_found found] at member
    exact .inl member
  | none =>
    rw [insert_absent found] at member
    rcases List.mem_cons.1 member with same | there
    · exact .inr (Prod.mk.inj same)
    · exact .inl there

theorem compiled_insert (cache : StyleCache W N) (hash : UInt64) (shared : SharedStyle W N) :
    (cache.insert hash shared).1.compiled = cache.compiled := by
  rw [insert]
  split
  · rfl
  · rfl

/-- Taking out one style leaves the others. -/
theorem lookup_remove_of_ne (apart : other ≠ hash) :
    (cache.remove hash).1.lookup other = cache.lookup other :=
  lookup_filter_ne apart cache.styles

theorem mem_remove (member : (other, resident) ∈ (cache.remove hash).1.styles) :
    (other, resident) ∈ cache.styles :=
  (List.mem_filter.1 member).1

theorem Consistent.insert (good : cache.Consistent) (hashed : shared.style.hash = hash) :
    (cache.insert hash shared).1.Consistent where
  distinct := by
    cases found : cache.lookup hash with
    | some resident =>
      rw [insert_found found]
      exact good.distinct
    | none =>
      rw [insert_absent found]
      refine List.nodup_cons.2 ⟨fun there => ?_, good.distinct⟩
      obtain ⟨⟨key, resident⟩, member, rfl⟩ := List.mem_map.1 there
      rw [lookup, lookup_of_mem good.distinct member] at found
      cases found
  hashed key resident member := by
    rcases mem_insert member with there | ⟨rfl, rfl⟩
    · exact good.hashed key resident there
    · exact hashed

theorem Consistent.remove (good : cache.Consistent) (hash : UInt64) :
    (cache.remove hash).1.Consistent where
  distinct := good.distinct.sublist (List.filter_sublist.map Prod.fst)
  hashed key resident member := good.hashed key resident (mem_remove member)

/-- A style that is found has the digest it is found under. -/
theorem Consistent.hash_eq (good : cache.Consistent) (found : cache.lookup hash = some resident) :
    resident.style.hash = hash :=
  good.hashed hash resident (mem_of_lookup found)

end StyleCache

/-! ## Steps -/

section Steps

variable {W N : Type} [Scalar W] [Scalar N] [Precision W N]

/-- What a call does in its turn, which is all that happens to the cache and to its phase. -/
inductive StyleCallPhase.Goes (cache : StyleCache W N) (index : Nat) :
    StyleCallPhase W N → StyleAction W N → StyleCache W N → StyleCallPhase W N → Prop
  | hit {style shared} (found : cache.lookup style.hash = some shared) :
      Goes cache index (.typed style) (.lookUp index) cache (.returned (.ok shared))
  | miss {style} (absent : cache.lookup style.hash = none) :
      Goes cache index (.typed style) (.lookUp index) cache (.missed style)
  | refuse {style e} (failed : style.lower = .error e) :
      Goes cache index (.missed style) (.compile index) cache (.returned (.error e))
  | compile {style compiled} (ran : style.lower = .ok compiled) :
      Goes cache index (.missed style) (.compile index) (cache.share compiled).1
        (.compiled style.hash (cache.share compiled).2)
  | insert (hash shared) :
      Goes cache index (.compiled hash shared) (.insert index) (cache.insert hash shared).1
        (.returned (.ok (cache.insert hash shared).2))

namespace StyleSystem

variable {s t : StyleSystem W N} {action : StyleAction W N} {actions : List (StyleAction W N)}
  {index : Nat} {spec : StyleSpec W N}

/-- A step, by who takes it: a call that comes up, a call that goes on, or a removal. -/
inductive Turn (s : StyleSystem W N) : StyleAction W N → StyleSystem W N → Prop
  | ask (asked) : Turn s (.ask asked) { s with calls := s.calls ++ [⟨asked, firstPhase asked⟩] }
  | go {index spec phase action cache after} (atCall : s.calls[index]? = some ⟨spec, phase⟩)
      (goes : phase.Goes s.cache index action cache after) :
      Turn s action ({ s with cache }.advance index spec after)
  | remove (hash) : Turn s (.remove hash) { s with cache := (s.cache.remove hash).1 }

theorem turn_of_step (stepped : s.step? action = some t) : s.Turn action t := by
  cases action with
  | ask spec =>
    cases stepped
    exact .ask spec
  | lookUp index =>
    simp only [step?] at stepped
    split at stepped
    next spec style atCall =>
      split at stepped
      next shared found =>
        cases stepped
        exact .go atCall (.hit found)
      next absent =>
        cases stepped
        exact .go atCall (.miss absent)
    next => cases stepped
  | compile index =>
    simp only [step?] at stepped
    split at stepped
    next spec style atCall =>
      split at stepped
      next e failed =>
        cases stepped
        exact .go atCall (.refuse failed)
      next compiled ran =>
        cases stepped
        exact .go atCall (.compile ran)
    next => cases stepped
  | insert index =>
    simp only [step?] at stepped
    split at stepped
    next spec hash shared atCall =>
      cases stepped
      exact .go atCall (.insert hash shared)
    next => cases stepped
  | remove hash =>
    cases stepped
    exact .remove hash

omit [Scalar W] [Scalar N] [Precision W N] in
theorem getElem?_advance {call : StyleCall W N} (atCall : s.calls[index]? = some call)
    (cache : StyleCache W N) (phase : StyleCallPhase W N) :
    ({ s with cache }.advance index spec phase).calls[index]? = some ⟨spec, phase⟩ :=
  List.getElem?_set_self (List.getElem?_eq_some_iff.1 atCall).1

/-- Where the phase of a call is new after a step, the call has come up or gone on. -/
theorem call_step (stepped : s.step? action = some t) {after : StyleCallPhase W N}
    (found : t.calls[index]? = some ⟨spec, after⟩) :
    s.calls[index]? = some ⟨spec, after⟩ ∨
    (action = .ask spec ∧ after = firstPhase spec) ∨
    ∃ phase, s.calls[index]? = some ⟨spec, phase⟩ ∧
      phase.Goes s.cache index action t.cache after := by
  cases turn_of_step stepped with
  | ask asked =>
    rcases Nat.lt_trichotomy index s.calls.length with old | rfl | beyond
    · rw [List.getElem?_append_left old] at found
      exact .inl found
    · rw [List.getElem?_concat_length] at found
      cases found
      exact .inr (.inl ⟨rfl, rfl⟩)
    · rw [List.getElem?_eq_none (by simp; omega)] at found
      cases found
  | @go other _ phase _ _ _ atCall goes =>
    by_cases same : other = index
    · subst same
      cases (getElem?_advance atCall _ _).symm.trans found
      exact .inr (.inr ⟨phase, atCall, goes⟩)
    · rw [advance, List.getElem?_set_ne same] at found
      exact .inl found
  | remove hash => exact .inl found

/-- What a call was told it was told for good. -/
theorem returned_step {outcome : Except CompileError (SharedStyle W N)}
    (found : s.calls[index]? = some ⟨spec, .returned outcome⟩) (stepped : s.step? action = some t) :
    t.calls[index]? = some ⟨spec, .returned outcome⟩ := by
  have inside := (List.getElem?_eq_some_iff.1 found).1
  cases turn_of_step stepped with
  | ask asked => exact (List.getElem?_append_left inside).trans found
  | @go other _ phase _ _ _ atCall goes =>
    have apart : other ≠ index := by
      rintro rfl
      rw [found] at atCall
      cases atCall
      cases goes
    exact (List.getElem?_set_ne apart).trans found
  | remove hash => exact found

/-- A style stays where it is until it is removed. -/
theorem lookup_step {hash : UInt64} {shared : SharedStyle W N}
    (found : s.cache.lookup hash = some shared) (kept : action ≠ .remove hash)
    (stepped : s.step? action = some t) : t.cache.lookup hash = some shared := by
  cases turn_of_step stepped with
  | ask asked => exact found
  | go atCall goes =>
    cases goes with
    | hit => exact found
    | miss => exact found
    | refuse => exact found
    | compile => exact found
    | insert other compiled => exact StyleCache.lookup_insert_of_found found other compiled
  | remove other =>
    have apart : hash ≠ other := fun same => kept (congrArg StyleAction.remove same.symm)
    exact (StyleCache.lookup_remove_of_ne apart).trans found

/-! ## Runs -/

theorem run?_append {before after : List (StyleAction W N)}
    (ran : s.run? (before ++ after) = some t) :
    ∃ u, s.run? before = some u ∧ u.run? after = some t := by
  rw [run?, List.foldlM_append] at ran
  exact Option.bind_eq_some_iff.1 ran

theorem run?_cons {rest : List (StyleAction W N)} (ran : s.run? (action :: rest) = some t) :
    ∃ u, s.step? action = some u ∧ u.run? rest = some t := by
  rw [run?, List.foldlM_cons] at ran
  exact Option.bind_eq_some_iff.1 ran

theorem returned_run {outcome : Except CompileError (SharedStyle W N)}
    (found : s.calls[index]? = some ⟨spec, .returned outcome⟩) (ran : s.run? actions = some t) :
    t.calls[index]? = some ⟨spec, .returned outcome⟩ :=
  foldlM_invariant (fun s => s.calls[index]? = some ⟨spec, .returned outcome⟩)
    (fun _ _ _ => returned_step) found ran

theorem lookup_run {hash : UInt64} {shared : SharedStyle W N}
    (found : s.cache.lookup hash = some shared) (kept : .remove hash ∉ actions)
    (ran : s.run? actions = some t) : t.cache.lookup hash = some shared := by
  induction actions generalizing s with
  | nil =>
    cases ran
    exact found
  | cons action rest ih =>
    obtain ⟨keptHere, keptLater⟩ := List.ne_and_not_mem_of_not_mem_cons kept
    obtain ⟨u, stepped, ran⟩ := run?_cons ran
    exact ih (lookup_step found (Ne.symm keptHere) stepped) keptLater ran

end StyleSystem

end Steps

/-! ## What every run keeps -/

section Invariant

variable {W N : Type} [Scalar W] [Scalar N] [Precision W N]

/-- What a call knows comes from its specification. -/
inductive StyleCall.Sound : StyleCall W N → Prop
  | typed {spec style} (parsed : ParsedStyle.ofSpec spec = .ok style) : Sound ⟨spec, .typed style⟩
  | missed {spec style} (parsed : ParsedStyle.ofSpec spec = .ok style) : Sound ⟨spec, .missed style⟩
  | compiled {spec style shared} (parsed : ParsedStyle.ofSpec spec = .ok style)
      (ran : style.lower = .ok shared.style) : Sound ⟨spec, .compiled style.hash shared⟩
  | shared {spec style shared} (parsed : ParsedStyle.ofSpec spec = .ok style)
      (hashed : shared.style.hash = style.hash) : Sound ⟨spec, .returned (.ok shared)⟩
  | refused {spec e} (failed : CompiledStyle.ofSpec spec = .error e) :
      Sound ⟨spec, .returned (.error e)⟩

/-- The style a call has compiled or was told of. -/
def StyleCallPhase.shared? : StyleCallPhase W N → Option (SharedStyle W N)
  | .compiled _ shared | .returned (.ok shared) => some shared
  | .typed _ | .missed _ | .returned (.error _) => none

theorem StyleCall.sound_first (spec : StyleSpec W N) :
    StyleCall.Sound ⟨spec, StyleSystem.firstPhase spec⟩ := by
  unfold StyleSystem.firstPhase
  split
  next style parsed => exact .typed parsed
  next e failed =>
    refine .refused ?_
    rw [CompiledStyle.ofSpec, failed]
    rfl

theorem StyleCallPhase.shared?_first (spec : StyleSpec W N) :
    (StyleSystem.firstPhase spec).shared? = none := by
  unfold StyleSystem.firstPhase
  split
  · rfl
  · rfl

namespace StyleSystem

variable {s t : StyleSystem W N} {action : StyleAction W N} {actions : List (StyleAction W N)}
  {index : Nat} {spec : StyleSpec W N}

/-- The styles that are in the cache or with a call. -/
def Knows (s : StyleSystem W N) (shared : SharedStyle W N) : Prop :=
  (∃ hash, (hash, shared) ∈ s.cache.styles) ∨ ∃ call ∈ s.calls, call.phase.shared? = some shared

/-- The map is consistent, calls know what follows from their specifications, and the serials of
all styles are below the next one. -/
structure Sound (s : StyleSystem W N) : Prop where
  consistent : s.cache.Consistent
  calls : ∀ call ∈ s.calls, call.Sound
  serials : ∀ shared, s.Knows shared → shared.serial < s.cache.compiled

theorem sound_start : (start : StyleSystem W N).Sound where
  consistent := ⟨List.nodup_nil, nofun⟩
  calls := nofun
  serials := by
    rintro shared (⟨hash, member⟩ | ⟨call, member, -⟩)
    · cases member
    · cases member

/-- What a call knows after its turn comes from its specification, too. -/
theorem sound_goes {cache : StyleCache W N} {phase after : StyleCallPhase W N}
    (good : s.Sound) (before : StyleCall.Sound ⟨spec, phase⟩)
    (goes : phase.Goes s.cache index action cache after) : StyleCall.Sound ⟨spec, after⟩ := by
  cases goes with
  | hit found =>
    cases before with
    | typed parsed => exact .shared parsed (good.consistent.hash_eq found)
  | miss absent =>
    cases before with
    | typed parsed => exact .missed parsed
  | refuse failed =>
    cases before with
    | missed parsed =>
      refine .refused ?_
      rw [CompiledStyle.ofSpec, parsed]
      exact failed
  | compile ran =>
    cases before with
    | missed parsed => exact .compiled parsed ran
  | insert hash shared =>
    cases before with
    | @compiled _ style _ parsed ran =>
      refine .shared parsed ?_
      have put := good.consistent.insert (ParsedStyle.hash_lower ran)
      exact put.hash_eq (StyleCache.lookup_insert s.cache style.hash shared)

theorem consistent_goes {cache : StyleCache W N} {phase after : StyleCallPhase W N}
    (good : s.Sound) (before : StyleCall.Sound ⟨spec, phase⟩)
    (goes : phase.Goes s.cache index action cache after) : cache.Consistent := by
  cases goes with
  | hit found => exact good.consistent
  | miss absent => exact good.consistent
  | refuse failed => exact good.consistent
  | compile ran => exact ⟨good.consistent.distinct, good.consistent.hashed⟩
  | insert hash shared =>
    cases before with
    | compiled parsed ran => exact good.consistent.insert (ParsedStyle.hash_lower ran)

/-- The styles in the cache after the turn of a call were known before. -/
theorem knows_of_mem {cache : StyleCache W N} {phase after : StyleCallPhase W N}
    (atCall : s.calls[index]? = some ⟨spec, phase⟩)
    (goes : phase.Goes s.cache index action cache after)
    {hash : UInt64} {shared : SharedStyle W N} (member : (hash, shared) ∈ cache.styles) :
    s.Knows shared := by
  cases goes with
  | hit found => exact .inl ⟨hash, member⟩
  | miss absent => exact .inl ⟨hash, member⟩
  | refuse failed => exact .inl ⟨hash, member⟩
  | compile ran => exact .inl ⟨hash, member⟩
  | insert other compiled =>
    rcases StyleCache.mem_insert member with there | ⟨-, rfl⟩
    · exact .inl ⟨hash, there⟩
    · exact .inr ⟨_, List.mem_of_getElem? atCall, rfl⟩

/-- A call has a style from the cache, or one that was just compiled. -/
theorem knows_of_shared? {cache : StyleCache W N} {phase after : StyleCallPhase W N}
    (atCall : s.calls[index]? = some ⟨spec, phase⟩)
    (goes : phase.Goes s.cache index action cache after)
    {shared : SharedStyle W N} (has : after.shared? = some shared) :
    s.Knows shared ∨ shared.serial = s.cache.compiled ∧ cache.compiled = s.cache.compiled + 1 := by
  cases goes with
  | hit found =>
    cases has
    exact .inl (.inl ⟨_, mem_of_lookup found⟩)
  | miss absent => cases has
  | refuse failed => cases has
  | compile ran =>
    cases has
    exact .inr ⟨rfl, rfl⟩
  | insert hash compiled =>
    cases has
    have there := mem_of_lookup (StyleCache.lookup_insert s.cache hash compiled)
    exact .inl (knows_of_mem atCall (.insert hash compiled) there)

theorem le_compiled {cache : StyleCache W N} {phase after : StyleCallPhase W N}
    (goes : phase.Goes s.cache index action cache after) : s.cache.compiled ≤ cache.compiled := by
  cases goes with
  | hit found => exact Nat.le_refl _
  | miss absent => exact Nat.le_refl _
  | refuse failed => exact Nat.le_refl _
  | compile ran => exact Nat.le_succ _
  | insert hash shared => exact Nat.le_of_eq (StyleCache.compiled_insert s.cache hash shared).symm

theorem Sound.step (good : s.Sound) (stepped : s.step? action = some t) : t.Sound := by
  cases turn_of_step stepped with
  | ask asked =>
    refine ⟨good.consistent, fun call member => ?_, fun shared known => good.serials shared ?_⟩
    · rcases List.mem_append.1 member with old | new
      · exact good.calls call old
      · rw [List.mem_singleton.1 new]
        exact StyleCall.sound_first asked
    · rcases known with there | ⟨call, member, has⟩
      · exact .inl there
      · rcases List.mem_append.1 member with old | new
        · exact .inr ⟨call, old, has⟩
        · rw [List.mem_singleton.1 new, StyleCallPhase.shared?_first] at has
          cases has
  | @go index spec phase _ cache after atCall goes =>
    have before := good.calls _ (List.mem_of_getElem? atCall)
    refine ⟨consistent_goes good before goes, fun call member => ?_, fun shared known => ?_⟩
    · rcases List.mem_or_eq_of_mem_set member with old | rfl
      · exact good.calls call old
      · exact sound_goes good before goes
    · have origin : s.Knows shared ∨
          shared.serial = s.cache.compiled ∧ cache.compiled = s.cache.compiled + 1 := by
        rcases known with ⟨hash, there⟩ | ⟨call, member, has⟩
        · exact .inl (knows_of_mem atCall goes there)
        · rcases List.mem_or_eq_of_mem_set member with old | rfl
          · exact .inl (.inr ⟨call, old, has⟩)
          · exact knows_of_shared? atCall goes has
      rcases origin with known | ⟨serial, grown⟩
      · exact Nat.lt_of_lt_of_le (good.serials shared known) (le_compiled goes)
      · rw [serial]
        exact Nat.lt_of_lt_of_eq (Nat.lt_succ_self _) grown.symm
  | remove hash =>
    refine ⟨good.consistent.remove hash, good.calls, fun shared known => good.serials shared ?_⟩
    rcases known with ⟨other, there⟩ | withCall
    · exact .inl ⟨other, StyleCache.mem_remove there⟩
    · exact .inr withCall

theorem sound_run (ran : start.run? actions = some s) : s.Sound :=
  foldlM_invariant Sound (fun _ _ _ => Sound.step) sound_start ran

/-! ## Deciding steps -/

/-- Right after a call was decided, the style it was told of is there under its digest. -/
theorem Sound.lookup_decides (good : s.Sound) {hash : UInt64} {shared : SharedStyle W N}
    (decides : s.Decides action t index hash shared) : t.cache.lookup hash = some shared := by
  obtain ⟨spec, style, parsed, rfl, returned⟩ := decides.returned
  have turn := turn_of_step decides.stepped
  rcases decides.taken with rfl | rfl
  · cases turn with
    | go atCall goes =>
      cases goes with
      | hit found =>
        cases (getElem?_advance atCall _ _).symm.trans returned
        cases good.calls _ (List.mem_of_getElem? atCall) with
        | typed known =>
          cases parsed.symm.trans known
          exact found
      | miss absent => cases (getElem?_advance atCall _ _).symm.trans returned
  · cases turn with
    | go atCall goes =>
      cases goes with
      | insert hash own =>
        cases (getElem?_advance atCall _ _).symm.trans returned
        cases good.calls _ (List.mem_of_getElem? atCall) with
        | compiled known ran =>
          cases parsed.symm.trans known
          exact StyleCache.lookup_insert s.cache style.hash own

/-- A call that ends with a style is decided in some step. -/
theorem exists_decides {shared : SharedStyle W N} (ran : start.run? actions = some s)
    (returned : s.calls[index]? = some ⟨spec, .returned (.ok shared)⟩) :
    ∃ style before action after u v, ParsedStyle.ofSpec spec = .ok style ∧
      actions = before ++ action :: after ∧ start.run? before = some u ∧ v.run? after = some s ∧
      u.Decides action v index style.hash shared := by
  obtain ⟨style, parsed⟩ : ∃ style, ParsedStyle.ofSpec spec = .ok style := by
    cases (sound_run ran).calls _ (List.mem_of_getElem? returned) with
    | shared parsed => exact ⟨_, parsed⟩
  have pending :
      ¬(start : StyleSystem W N).calls[index]? = some ⟨spec, .returned (.ok shared)⟩ := by
    simp [start]
  obtain ⟨before, action, after, u, v, rfl, ranTo, stepped, ranOn, not, now⟩ :=
    exists_step_of_foldlM (fun s => s.calls[index]? = some ⟨spec, .returned (.ok shared)⟩) pending
      ran returned
  refine ⟨style, before, action, after, u, v, parsed, rfl, ranTo, ranOn, stepped, ?_,
    spec, style, parsed, rfl, now⟩
  rcases call_step stepped now with same | ⟨-, first⟩ | ⟨phase, -, goes⟩
  · exact absurd same not
  · have none := StyleCallPhase.shared?_first spec
    rw [← first] at none
    cases none
  · generalize v.cache = cache at goes
    cases goes with
    | hit found => exact .inl rfl
    | insert hash own => exact .inr rfl

/-- The steps of a call leave the map as it is, other than an insertion. -/
theorem styles_step (stepped : s.step? action = some t) (own : s.callOf action = some index) :
    t.cache.styles = s.cache.styles ∨
      ∃ spec shared, t.calls[index]? = some ⟨spec, .returned (.ok shared)⟩ := by
  cases turn_of_step stepped with
  | ask asked => exact .inl rfl
  | @go other spec phase _ _ _ atCall goes =>
    cases goes with
    | hit found => exact .inl rfl
    | miss absent => exact .inl rfl
    | refuse failed => exact .inl rfl
    | compile ran => exact .inl rfl
    | insert hash shared =>
      cases own
      exact .inr ⟨spec, _, getElem?_advance atCall _ _⟩
  | remove hash => cases own

/-- A style that was just compiled has a serial of its own. -/
theorem Sound.serial_ne (good : s.Sound) (stepped : s.step? (.compile index) = some t)
    {hash : UInt64} {shared other : SharedStyle W N}
    (compiled : t.calls[index]? = some ⟨spec, .compiled hash shared⟩) (known : s.Knows other) :
    other.serial ≠ shared.serial := by
  cases turn_of_step stepped with
  | go atCall goes =>
    cases goes with
    | refuse failed => cases (getElem?_advance atCall _ _).symm.trans compiled
    | compile ran =>
      cases (getElem?_advance atCall _ _).symm.trans compiled
      exact Nat.ne_of_lt (good.serials other known)

/-! ## Every interleaving -/

/-- A call that nobody disturbs does what `StyleCache.getOrCompile` says. -/
theorem exists_run_alone (s : StyleSystem W N) (spec : StyleSpec W N) : ∃ actions t,
    s.run? actions = some t ∧ t.cache = (s.cache.getOrCompile spec).1 ∧
      t.calls = s.calls ++ [⟨spec, .returned (s.cache.getOrCompile spec).2⟩] := by
  let index := s.calls.length
  cases parsed : ParsedStyle.ofSpec spec with
  | error e =>
    refine ⟨[.ask spec], _, rfl, ?_⟩
    simp [StyleCache.getOrCompile, firstPhase, parsed]
  | ok style =>
    cases found : s.cache.lookup style.hash with
    | some shared =>
      refine ⟨[.ask spec, .lookUp index], ?_⟩
      simp [run?, step?, firstPhase, advance, StyleCache.getOrCompile, index, parsed, found]
    | none =>
      cases ran : style.lower with
      | error e =>
        refine ⟨[.ask spec, .lookUp index, .compile index], ?_⟩
        simp [run?, step?, firstPhase, advance, StyleCache.getOrCompile, index, parsed, found, ran]
      | ok compiled =>
        refine ⟨[.ask spec, .lookUp index, .compile index, .insert index], ?_⟩
        simp [run?, step?, firstPhase, advance, StyleCache.getOrCompile, index, parsed, found, ran]

/-- In whatever order the calls and removals take their steps. No two styles share a digest, and
each is there under its own. A call that ends with a style is decided in one of its steps, and
right after it this style is there under the digest of the call. Calls for one digest that are
decided one after the other, without a removal of that digest in between, are told of one style.
A call that fails tells what is wrong with its specification, and none of its steps changes
which styles are there. And a style that is compiled is told apart from all that are known. -/
theorem racing_share (ran : (start : StyleSystem W N).run? actions = some s) :
    s.cache.Consistent ∧
    (∀ index spec shared, s.calls[index]? = some ⟨spec, .returned (.ok shared)⟩ →
      ∃ style before action after u v, ParsedStyle.ofSpec spec = .ok style ∧
        actions = before ++ action :: after ∧ start.run? before = some u ∧ v.run? after = some s ∧
        u.Decides action v index style.hash shared ∧ v.cache.lookup style.hash = some shared) ∧
    (∀ before first middle second after u v w x hash i j one two,
      actions = before ++ first :: (middle ++ second :: after) → start.run? before = some u →
      u.Decides first v i hash one → v.run? middle = some w → .remove hash ∉ middle →
      w.Decides second x j hash two → one = two) ∧
    (∀ index spec e, s.calls[index]? = some ⟨spec, .returned (.error e)⟩ →
      CompiledStyle.ofSpec spec = .error e ∧
      ∀ before action after u v, actions = before ++ action :: after →
        start.run? before = some u → u.step? action = some v → u.callOf action = some index →
        v.cache.styles = u.cache.styles) ∧
    ∀ before index after u v spec hash shared other, actions = before ++ .compile index :: after →
      start.run? before = some u → u.step? (.compile index) = some v →
      v.calls[index]? = some ⟨spec, .compiled hash shared⟩ → u.Knows other →
      other.serial ≠ shared.serial := by
  have good := sound_run ran
  refine ⟨good.consistent, ?decided, ?agree, ?fails, ?fresh⟩
  case decided =>
    intro index spec shared returned
    obtain ⟨style, before, action, after, u, v, parsed, split, ranTo, ranOn, decides⟩ :=
      exists_decides ran returned
    exact ⟨style, before, action, after, u, v, parsed, split, ranTo, ranOn, decides,
      (sound_run ranTo).lookup_decides decides⟩
  case agree =>
    intro before first middle second after u v w x hash i j one two split ranTo decides ranOn kept
      decidesLater
    have goodThere := sound_run ranTo
    have there := lookup_run (goodThere.lookup_decides decides) kept ranOn
    have goodLater : w.Sound :=
      foldlM_invariant Sound (fun _ _ _ => Sound.step) (goodThere.step decides.stepped) ranOn
    have stays : x.cache.lookup hash = some one := by
      refine lookup_step there ?_ decidesLater.stepped
      rintro rfl
      rcases decidesLater.taken with other | other
      · cases other
      · cases other
    have told := goodLater.lookup_decides decidesLater
    exact Option.some.inj (stays.symm.trans told)
  case fails =>
    intro index spec e returned
    refine ⟨?_, fun before action after u v split ranTo stepped own => ?_⟩
    · cases good.calls _ (List.mem_of_getElem? returned) with
      | refused failed => exact failed
    · subst split
      obtain ⟨_, sameTo, ranOn⟩ := run?_append ran
      cases ranTo.symm.trans sameTo
      obtain ⟨_, sameStep, ranOn⟩ := run?_cons ranOn
      cases stepped.symm.trans sameStep
      rcases styles_step stepped own with same | ⟨spec, shared, succeeded⟩
      · exact same
      · cases (returned_run succeeded ranOn).symm.trans returned
  case fresh =>
    intro before index after u v spec hash shared other split ranTo stepped compiled known
    exact (sound_run ranTo).serial_ne stepped compiled known

/-- A specification of a property nobody knows. -/
def glowing : StyleSpec Double Single :=
  { StyleSpec.empty with properties := Dictionary.empty.insert "glow" (.bool true) }

/-- Two calls race for the style of roads, each with its own way to write it. The style is removed
and asked for again, and then comes a property nobody knows. -/
def raceForRoads : List (StyleAction Double Single) := [
  .ask CompiledStyle.roadsByLabel, .ask CompiledStyle.roadsByCondition,
  .lookUp 0, .lookUp 1, .compile 0, .compile 1, .insert 1, .insert 0,
  .remove CompiledStyle.widerRoads.hash,
  .ask CompiledStyle.roadsByLabel, .lookUp 2, .compile 2, .insert 2,
  .ask glowing]

theorem exists_raceForRoads : ∃ compiled s, start.run? raceForRoads = some s ∧
    s.calls = [⟨CompiledStyle.roadsByLabel, .returned (.ok ⟨1, compiled⟩)⟩,
      ⟨CompiledStyle.roadsByCondition, .returned (.ok ⟨1, compiled⟩)⟩,
      ⟨CompiledStyle.roadsByLabel, .returned (.ok ⟨2, compiled⟩)⟩,
      ⟨glowing, .returned (.error (.unknownStyleProperty "glow"))⟩] := by
  have byLabel : ParsedStyle.ofSpec CompiledStyle.roadsByLabel = .ok CompiledStyle.widerRoads := by
    rfl
  have byCondition : ParsedStyle.ofSpec CompiledStyle.roadsByCondition =
      .ok CompiledStyle.widerRoads := by rfl
  have refused : ParsedStyle.ofSpec glowing = .error (.unknownStyleProperty "glow") := by rfl
  obtain ⟨compiled, lowered⟩ : ∃ compiled, CompiledStyle.widerRoads.lower = .ok compiled :=
    (ParsedStyle.exists_lower_iff (ParsedStyle.sound_ofSpec byLabel)).2 ⟨_, rfl⟩
  refine ⟨compiled, ?_⟩
  simp [run?, raceForRoads, step?, firstPhase, byLabel, byCondition, refused, lowered, start,
    advance, StyleCache.lookup, StyleCache.share, StyleCache.insert, StyleCache.remove,
    StyleCache.empty]

/-- The racing calls are told of the style that came first into the cache, which is not the one that
was compiled first, and it is there when the first call is told of it. After the removal the
digest stands for another style. -/
theorem raceForRoads_share : ∃ compiled s, start.run? raceForRoads = some s ∧
    s.calls.map StyleCall.phase = [.returned (.ok ⟨1, compiled⟩), .returned (.ok ⟨1, compiled⟩),
      .returned (.ok ⟨2, compiled⟩), .returned (.error (.unknownStyleProperty "glow"))] ∧
    s.cache.Consistent ∧
    ∃ style before action after u v, ParsedStyle.ofSpec CompiledStyle.roadsByLabel = .ok style ∧
      raceForRoads = before ++ action :: after ∧ start.run? before = some u ∧
      u.Decides action v 0 style.hash ⟨1, compiled⟩ ∧
      v.cache.lookup style.hash = some ⟨1, compiled⟩ := by
  obtain ⟨compiled, s, ran, calls⟩ := exists_raceForRoads
  obtain ⟨consistent, decided, -⟩ := racing_share ran
  obtain ⟨style, before, action, after, u, v, parsed, split, ranTo, -, decides, there⟩ :=
    decided 0 CompiledStyle.roadsByLabel ⟨1, compiled⟩ (by rw [calls]; rfl)
  exact ⟨compiled, s, ran, by rw [calls]; rfl, consistent, style, before, action, after, u, v,
    parsed, split, ranTo, decides, there⟩

end StyleSystem

end Invariant

end MapStyle
