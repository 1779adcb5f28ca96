import Mathlib.Data.List.Nodup
import MapStyle.Proofs.Cache.Removal

/-!
# Making room

`TileCache.trim` goes through the entries once, from the one used longest ago, with a running
total of the bytes that are left. `TileCache.MakesRoom` says what it is to make room without
such a run: of the idle entries a first part goes, the shortest without which the cache fits
its budget, and everything else stays as and where it is. `TileCache.trim_exact` shows that
the run does this.

A running total of natural numbers cannot tell an underflow from a zero. `TileCache.victims?`
is the same run with a subtraction that fails where it would underflow, and it never fails.
-/

namespace MapStyle

namespace TileCache

variable {W N H : Type} {cache : TileCache W N H} {key : CacheKey}

/-! ## What may go, and what is left -/

/-- The bytes of some entries. -/
def bytesOf (entries : List (CacheKey × CacheEntry H)) : Nat :=
  entries.foldr (fun item bytes => item.2.bytes + bytes) 0

/-- The idle entries, the one used longest ago first. -/
def idle (cache : TileCache W N H) : List (CacheKey × CacheEntry H) :=
  cache.entries.reverse.filter fun item => cache.isIdle item.2

/-- The cache without some entries. -/
def without (cache : TileCache W N H) (items : List (CacheKey × CacheEntry H)) :
    TileCache W N H :=
  cache.removeWhere fun key => key ∈ items.map Prod.fst

/-- What it is to make room: how many of the idle entries go, and what is left. -/
structure MakesRoom (cache after : TileCache W N H) (count : Nat) : Prop where
  /-- It is the idle entries used longest ago that go. -/
  taken : after = cache.without (cache.idle.take count)
  counted : count ≤ cache.idle.length
  /-- If any fewer went, the others would not fit the budget. -/
  needed : ∀ fewer < count, cache.budget < (cache.without (cache.idle.take fewer)).residentBytes
  /-- The others fit the budget, or no idle entry is left. -/
  enough : after.residentBytes ≤ cache.budget ∨ count = cache.idle.length
  /-- As many entries went as were counted. -/
  gone : after.entries.length + count = cache.entries.length
  /-- All others have stayed, each with its contents. -/
  kept : ∀ item, item ∈ after.entries ↔ item ∈ cache.entries ∧ item ∉ cache.idle.take count
  /-- They are still in the order of their last use. -/
  order : after.entries.Sublist cache.entries

/-- The entries that `victims` takes out, where a subtraction fails that would underflow. -/
def victims? (cache : TileCache W N H) (resident : Nat) :
    List (CacheKey × CacheEntry H) → Option (List CacheKey)
  | [] => some []
  | (key, entry) :: rest =>
    if resident ≤ cache.budget then some []
    else if cache.isIdle entry then
      if entry.bytes ≤ resident then
        (cache.victims? (resident - entry.bytes) rest).map (key :: ·)
      else none
    else cache.victims? resident rest

/-- An entry is idle when no renderer is attached and its build has succeeded. -/
theorem mem_idle {item : CacheKey × CacheEntry H} :
    item ∈ cache.idle ↔ item ∈ cache.entries ∧ item.2.refs = 0 ∧
      ∃ buffers, cache.result? item.2.slot = some (.ready buffers) := by
  simp only [idle, List.mem_filter, List.mem_reverse, isIdle, Bool.and_eq_true, decide_eq_true_eq,
    Option.isSome_iff_exists, buffers?_eq_some]

/-! ## Bytes of parts of a list -/

theorem bytesOf_append (first second : List (CacheKey × CacheEntry H)) :
    bytesOf (first ++ second) = bytesOf first + bytesOf second := by
  induction first with
  | nil => simp [bytesOf]
  | cons item rest ih =>
    simp only [bytesOf, List.cons_append, List.foldr_cons] at ih ⊢
    omega

theorem bytesOf_reverse (entries : List (CacheKey × CacheEntry H)) :
    bytesOf entries.reverse = bytesOf entries := by
  induction entries with
  | nil => rfl
  | cons item rest ih =>
    rw [List.reverse_cons, bytesOf_append, ih]
    simp only [bytesOf, List.foldr_cons, List.foldr_nil]
    omega

/-- The entries that pass a test and the others have all the bytes between them. -/
theorem bytesOf_filter (test : CacheKey × CacheEntry H → Bool)
    (entries : List (CacheKey × CacheEntry H)) :
    bytesOf (entries.filter fun item => !test item) + bytesOf (entries.filter test) =
      bytesOf entries := by
  induction entries with
  | nil => rfl
  | cons item rest ih =>
    cases passes : test item <;>
      · simp only [List.filter_cons, passes, Bool.not_true, Bool.not_false, if_true,
          Bool.false_eq_true, if_false, bytesOf, List.foldr_cons] at ih ⊢
        omega

/-- Where keys are distinct, a part of a list is found again by its keys. -/
theorem filter_keys_eq {part entries : List (CacheKey × CacheEntry H)}
    (sublist : part.Sublist entries) (distinct : (entries.map Prod.fst).Nodup) :
    (entries.filter fun item => item.1 ∈ part.map Prod.fst) = part := by
  induction sublist with
  | slnil => rfl
  | @cons part entries item sublist ih =>
    obtain ⟨outside, distinct⟩ := List.nodup_cons.1 distinct
    have absent : item.1 ∉ part.map Prod.fst := fun member =>
      outside ((sublist.map Prod.fst).subset member)
    rw [List.filter_cons_of_neg (by simpa using absent), ih distinct]
  | @cons_cons part entries item sublist ih =>
    obtain ⟨outside, distinct⟩ := List.nodup_cons.1 distinct
    rw [List.filter_cons_of_pos (by simp)]
    refine congrArg (item :: ·) (Eq.trans (List.filter_congr fun other member => ?_) (ih distinct))
    have elsewhere : other.1 ≠ item.1 := fun same => outside (same ▸ List.mem_map_of_mem member)
    simp [elsewhere]

/-! ## The entries that are left -/

section

variable {part : List (CacheKey × CacheEntry H)}

/-- The entries that are taken out, in the order in which the run meets them. -/
theorem filter_taken (distinct : cache.keys.Nodup) (sublist : part.Sublist cache.entries.reverse) :
    (cache.entries.filter fun item => item.1 ∈ part.map Prod.fst) = part.reverse := by
  have reversed : (cache.entries.reverse.map Prod.fst).Nodup := by
    rw [List.map_reverse, List.nodup_reverse]
    exact distinct
  have found := filter_keys_eq sublist reversed
  rw [List.filter_reverse] at found
  exact List.reverse_eq_iff.1 found

theorem residentBytes_without (distinct : cache.keys.Nodup)
    (sublist : part.Sublist cache.entries.reverse) :
    (cache.without part).residentBytes + bytesOf part = cache.residentBytes := by
  have parts := bytesOf_filter (fun item => decide (item.1 ∈ part.map Prod.fst)) cache.entries
  rw [filter_taken distinct sublist, bytesOf_reverse] at parts
  exact parts

theorem length_without (distinct : cache.keys.Nodup)
    (sublist : part.Sublist cache.entries.reverse) :
    (cache.without part).entries.length + part.length = cache.entries.length := by
  have parts := List.length_eq_length_filter_add (l := cache.entries)
    fun item => decide (item.1 ∈ part.map Prod.fst)
  rw [filter_taken distinct sublist, List.length_reverse] at parts
  simp only [without, removeWhere]
  omega

theorem mem_without (distinct : cache.keys.Nodup) (sublist : part.Sublist cache.entries.reverse)
    {item : CacheKey × CacheEntry H} :
    item ∈ (cache.without part).entries ↔ item ∈ cache.entries ∧ item ∉ part := by
  have taken : item ∈ cache.entries → (item.1 ∈ part.map Prod.fst ↔ item ∈ part) := by
    intro member
    have either : item ∈ part.reverse ↔ item ∈ part := List.mem_reverse
    rw [← either, ← filter_taken distinct sublist, List.mem_filter]
    simp [member]
  simp only [without, removeWhere, List.mem_filter, Bool.not_eq_true', decide_eq_false_iff_not]
  exact and_congr_right fun member => not_congr (taken member)

end

/-! ## The run -/

/-- From any running total and any entry on, the run takes the shortest first part of the idle
entries whose bytes bring the total to the budget, or all of them. -/
theorem victims_eq_take (cache : TileCache W N H) (resident : Nat)
    (entries : List (CacheKey × CacheEntry H)) :
    let idle := entries.filter fun item => cache.isIdle item.2
    ∃ count ≤ idle.length, cache.victims resident entries = (idle.take count).map Prod.fst ∧
      (∀ fewer < count, cache.budget + bytesOf (idle.take fewer) < resident) ∧
      (resident ≤ cache.budget + bytesOf (idle.take count) ∨ count = idle.length) := by
  induction entries generalizing resident with
  | nil => exact ⟨0, Nat.le_refl _, rfl, by simp, .inr rfl⟩
  | cons item rest ih =>
    obtain ⟨key, entry⟩ := item
    by_cases fits : resident ≤ cache.budget
    · exact ⟨0, Nat.zero_le _, by simp [victims, fits], by simp,
        .inl (by simpa [bytesOf] using fits)⟩
    cases isIdle : cache.isIdle entry with
    | false =>
      rw [List.filter_cons_of_neg (by simpa using isIdle)]
      simpa only [victims, fits, isIdle, if_false, Bool.false_eq_true] using ih resident
    | true =>
      obtain ⟨count, counted, taken, needed, enough⟩ := ih (resident - entry.bytes)
      rw [List.filter_cons_of_pos (by simpa using isIdle)]
      refine ⟨count + 1, Nat.succ_le_succ counted, ?_, ?_, ?_⟩
      · simp [victims, fits, isIdle, taken]
      · intro fewer less
        cases fewer with
        | zero => simpa [bytesOf] using fits
        | succ fewer =>
          have before := needed fewer (Nat.lt_of_succ_lt_succ less)
          simp only [bytesOf, List.take_succ_cons, List.foldr_cons] at before ⊢
          omega
      · rcases enough with fitting | all
        · left
          simp only [bytesOf, List.take_succ_cons, List.foldr_cons] at fitting ⊢
          omega
        · exact .inr (congrArg Nat.succ all)

/-- No subtraction of the run underflows where the total covers the entries ahead. -/
theorem victims?_eq_some {resident : Nat} {entries : List (CacheKey × CacheEntry H)}
    (covered : bytesOf entries ≤ resident) :
    cache.victims? resident entries = some (cache.victims resident entries) := by
  induction entries generalizing resident with
  | nil => rfl
  | cons item rest ih =>
    obtain ⟨key, entry⟩ := item
    simp only [bytesOf, List.foldr_cons] at covered
    have ofRest : bytesOf rest ≤ resident - entry.bytes := by
      simp only [bytesOf]
      omega
    have enough : entry.bytes ≤ resident := by omega
    have ofAll : bytesOf rest ≤ resident := Nat.le_trans ofRest (Nat.sub_le ..)
    simp only [victims?, victims]
    split
    · rfl
    · split
      · rw [ih ofRest, Option.map_some]
      · exact ih ofAll

/-- In every cache, whatever renderers, bytes and builds its entries have, making room takes out
the shortest first part of the idle entries, from the one used longest ago, without which the
others fit the budget, and all idle entries if they never do. Idle are those without renderers
whose build has succeeded. It takes out none where the entries fit as they are, its running
total never underflows, and it tells how many it took. -/
theorem trim_exact (cache : TileCache W N H) (distinct : cache.keys.Nodup) :
    cache.MakesRoom cache.trim.1 cache.trim.2 ∧
      (∀ item, item ∈ cache.idle ↔ item ∈ cache.entries ∧ item.2.refs = 0 ∧
        ∃ buffers, cache.result? item.2.slot = some (.ready buffers)) ∧
      (cache.residentBytes ≤ cache.budget → cache.trim = (cache, 0)) ∧
      cache.victims? cache.residentBytes cache.entries.reverse =
        some (cache.victims cache.residentBytes cache.entries.reverse) := by
  obtain ⟨count, counted, taken, needed, enough⟩ : ∃ count ≤ cache.idle.length,
      cache.victims cache.residentBytes cache.entries.reverse =
        (cache.idle.take count).map Prod.fst ∧
      (∀ fewer < count,
        cache.budget + bytesOf (cache.idle.take fewer) < cache.residentBytes) ∧
      (cache.residentBytes ≤ cache.budget + bytesOf (cache.idle.take count) ∨
        count = cache.idle.length) :=
    victims_eq_take cache cache.residentBytes cache.entries.reverse
  have sublist (number : Nat) : (cache.idle.take number).Sublist cache.entries.reverse :=
    (List.take_sublist ..).trans List.filter_sublist
  have total (number : Nat) := residentBytes_without distinct (sublist number)
  have trimmed : cache.trim = (cache.without (cache.idle.take count), count) := by
    have length : ((cache.idle.take count).map Prod.fst).length = count := by
      rw [List.length_map, List.length_take]
      exact Nat.min_eq_left counted
    simp only [trim, taken, length, without, List.contains_eq_mem]
  rw [trimmed]
  refine ⟨⟨rfl, counted, ?needed, ?enough, ?gone, fun _ => mem_without distinct (sublist count),
    List.filter_sublist⟩, fun _ => mem_idle, ?fits,
    victims?_eq_some (Nat.le_of_eq (bytesOf_reverse _))⟩
  case needed =>
    intro fewer less
    have above := needed fewer less
    have parts := total fewer
    omega
  case enough =>
    refine enough.imp_left fun fitting => ?_
    have parts := total count
    dsimp only
    omega
  case gone =>
    have length := length_without distinct (sublist count)
    rwa [List.length_take, Nat.min_eq_left counted] at length
  case fits =>
    intro fitting
    cases count with
    | zero => simp [without, removeWhere]
    | succ others =>
      have above := needed 0 (Nat.succ_pos others)
      simp only [List.take_zero, bytesOf, List.foldr_nil] at above
      omega

/-- The tiles of a row, under one style. -/
def rowKey (x : UInt32) : CacheKey := ⟨⟨4, x, 0⟩, 0⟩

/-- Buffers of some words of vertices. -/
def wordsOnly (count : Nat) : TileBuffers Unit Unit :=
  { CacheSystem.someBuffers with vertices := List.replicate count (), indices := [] }

/-- From the entry used longest ago: one whose build has failed, an idle one, one with a renderer,
an idle one without bytes, one that is still built, and two idle ones. -/
def crowded : TileCache Unit Unit Unit where
  budget := 40
  entries := [
    (rowKey 6, ⟨6, 0, 16, none⟩), (rowKey 5, ⟨5, 0, 12, none⟩), (rowKey 4, ⟨4, 0, 0, none⟩),
    (rowKey 3, ⟨3, 0, 0, none⟩), (rowKey 2, ⟨2, 1, 20, none⟩), (rowKey 1, ⟨1, 0, 8, none⟩),
    (rowKey 0, ⟨0, 0, 0, none⟩)]
  slots := [
    ⟨rowKey 0, some .failed⟩, ⟨rowKey 1, some (.ready (wordsOnly 2))⟩,
    ⟨rowKey 2, some (.ready (wordsOnly 5))⟩, ⟨rowKey 3, some (.ready (wordsOnly 0))⟩,
    ⟨rowKey 4, none⟩, ⟨rowKey 5, some (.ready (wordsOnly 3))⟩,
    ⟨rowKey 6, some (.ready (wordsOnly 4))⟩]
  counts := ⟨0, 7, 0, 5, 0⟩

/-- Three of the four idle entries go, the one without bytes among them. -/
theorem crowded_trimmed :
    crowded.keys.Nodup ∧ crowded.residentBytes = 56 ∧ crowded.idle.length = 4 ∧
      crowded.MakesRoom crowded.trim.1 3 ∧ crowded.trim.1.residentBytes = 36 ∧
      crowded.trim.1.keys = [rowKey 6, rowKey 4, rowKey 2, rowKey 0] := by
  have distinct : crowded.keys.Nodup := by decide
  exact ⟨distinct, rfl, rfl, (trim_exact crowded distinct).1, rfl, rfl⟩

end TileCache

end MapStyle
