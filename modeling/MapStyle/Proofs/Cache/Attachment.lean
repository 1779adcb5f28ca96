import MapStyle.Proofs.Cache.Removal

/-!
# Renderers that are attached

An entry counts the renderers that are attached to it, and one with attached renderers is not
taken out to make room. But attaching and detaching name a key. When the entry a renderer was
attached to has been taken out and there is another one under its key, the other one loses a
renderer that it never had.

`ClientSystem` is a cache with clients that detach at most once for every attachment they were
granted, and it keeps which entry each attachment was to. An entry counts no renderer that is
not attached to it, and falls short of those that are by no more than it lost to clients of
other entries (`ClientSystem.trim_keeps_attached`).
-/

namespace MapStyle

/-- An attachment that was granted to a client. -/
structure Attachment where
  client : Nat
  key : CacheKey
  /-- The slot of the entry that was there. -/
  slot : Nat
  /-- Whether the client has not detached yet. -/
  isHeld : Bool

/-- Whether an attachment is one to the entry of a slot, and is still held. -/
def Attachment.holds (slot : Nat) (attachment : Attachment) : Bool :=
  attachment.isHeld && attachment.slot = slot

/-- How many of some attachments are held to the entry of a slot. -/
def heldTo (attachments : List Attachment) (slot : Nat) : Nat :=
  attachments.countP (Attachment.holds slot)

/-- What the count of an entry says of the attachments to it. It counts none that is not held, and
misses none that is held but for the renderers it lost to clients of other entries. -/
def CacheEntry.Counts {H : Type} (attachments : List Attachment) (astray : List Nat)
    (entry : CacheEntry H) : Prop :=
  entry.refs ≤ heldTo attachments entry.slot ∧
    heldTo attachments entry.slot ≤ entry.refs + astray.count entry.slot

/-- An action of a client, or of anybody else. Attachments are told apart by their place in the
list of the system. -/
inductive ClientAction (W N H : Type) where
  | attach (client : Nat) (key : CacheKey)
  | detach (client attachment : Nat)
  | other (action : CacheAction W N H)

/-- Whether an action attaches or detaches a renderer. -/
def CacheAction.isClients {W N H : Type} : CacheAction W N H → Bool
  | .attach _ | .detach _ => true
  | _ => false

/-- A cache, and the attachments to its entries. -/
structure ClientSystem (W N H : Type) where
  system : CacheSystem W N H
  /-- Every attachment that was granted, in that order. -/
  attachments : List Attachment
  /-- The slot of every entry that lost a renderer to a client that was attached to another. -/
  astray : List Nat

namespace ClientSystem

variable {W N H : Type}

def start (budget : Nat) : ClientSystem W N H := ⟨.start budget, [], []⟩

/-- What a client that attaches is granted: an attachment to the entry under the key, if there is
one. -/
def granted (s : ClientSystem W N H) (client : Nat) (key : CacheKey) : List Attachment :=
  ((s.system.cache.find? key).map fun entry => ⟨client, key, entry.slot, true⟩).toList

/-- The slot of the entry under a key, unless it is the given one. -/
def otherSlot (s : ClientSystem W N H) (key : CacheKey) (slot : Nat) : List Nat :=
  ((s.system.cache.find? key).map CacheEntry.slot).toList.filter (· ≠ slot)

/-- Take an action. Clients detach only what was granted to them, and once. -/
def step? (s : ClientSystem W N H) : ClientAction W N H → Option (ClientSystem W N H)
  | .attach client key =>
    (s.system.step? (.attach key)).map fun system =>
      { s with system, attachments := s.attachments ++ s.granted client key }
  | .detach client index =>
    match s.attachments[index]? with
    | some ⟨owner, key, slot, true⟩ =>
      if owner = client then
        (s.system.step? (.detach key)).map fun system =>
          { system
            attachments := s.attachments.set index ⟨owner, key, slot, false⟩
            astray := s.astray ++ s.otherSlot key slot }
      else none
    | _ => none
  | .other action =>
    if action.isClients then none
    else (s.system.step? action).map fun system => { s with system }

/-- Take actions one after another. -/
def run? (s : ClientSystem W N H) (actions : List (ClientAction W N H)) :
    Option (ClientSystem W N H) :=
  actions.foldlM step? s

end ClientSystem

/-! ## What actions do to the count of an entry -/

namespace TileCache

variable {W N H : Type} {cache : TileCache W N H} {key : CacheKey}
  {item : CacheKey × CacheEntry H}

/-- There is an entry with the key, slot and renderers of the given one. -/
def HasLike (cache : TileCache W N H) (item : CacheKey × CacheEntry H) : Prop :=
  ∃ old, (item.1, old) ∈ cache.entries ∧ old.slot = item.2.slot ∧ old.refs = item.2.refs

theorem hasLike_of_mem (member : item ∈ cache.entries) : cache.HasLike item :=
  ⟨item.2, member, rfl, rfl⟩

/-- Moving an entry to the front may change it in everything but its slot and renderers. -/
theorem hasLike_putFirst {old entry : CacheEntry H} (found : cache.find? key = some old)
    (member : item ∈ (cache.putFirst key entry).entries) (slot : old.slot = entry.slot)
    (refs : old.refs = entry.refs) : cache.HasLike item := by
  rcases mem_putFirst member with rfl | ⟨kept, -⟩
  · exact ⟨old, find?_eq_some found, slot, refs⟩
  · exact hasLike_of_mem kept

theorem hasLike_record {slot : Nat} {result : BuildResult W N}
    (member : item ∈ (cache.record slot result).entries) : cache.HasLike item := by
  obtain ⟨old, bytes, there, same⟩ := mem_record member
  exact ⟨old, there, by rw [same], by rw [same]⟩

/-- An upload changes nothing of an entry but its handle. -/
theorem hasLike_finishUpload {slot : Nat} {handle : H}
    (member : item ∈ (cache.finishUpload key slot handle).1.entries) : cache.HasLike item := by
  unfold finishUpload at member
  split at member
  next => exact hasLike_of_mem member
  next entry found =>
    split at member
    · exact hasLike_putFirst found member rfl rfl
    · exact hasLike_putFirst found member rfl rfl

theorem attach_found {entry : CacheEntry H} (found : cache.find? key = some entry) :
    cache.attach key = (cache.putFirst key { entry with refs := entry.refs + 1 }, true) := by
  simp [attach, found]

theorem attach_absent (absent : cache.find? key = none) : cache.attach key = (cache, false) := by
  simp [attach, absent]

theorem detach_found {entry : CacheEntry H} (found : cache.find? key = some entry) :
    cache.detach key = cache.putFirst key { entry with refs := entry.refs - 1 } := by
  simp [detach, found]

theorem detach_absent (absent : cache.find? key = none) : cache.detach key = cache := by
  simp [detach, absent]

end TileCache

namespace CacheSystem

variable {W N H : Type} {s t : CacheSystem W N H} {action : CacheAction W N H}

/-- A request leaves the renderers of entries alone. The entry that it makes has a slot of its own
and no renderers. -/
theorem Accounted.hasLike_request (good : s.Accounted) {key : CacheKey}
    {item : CacheKey × CacheEntry H} (member : item ∈ (s.cache.request key).1.entries) :
    s.cache.HasLike item ∨ item.2.refs = 0 ∧ item.2.slot = s.builds.length := by
  rcases good.mem_request member with there | rfl
  · exact .inl (TileCache.hasLike_of_mem there)
  · exact .inr ⟨rfl, rfl⟩

/-- So does everything else but attaching and detaching. -/
theorem Accounted.hasLike_step (good : s.Accounted) (stepped : s.step? action = some t)
    (others : action.isClients = false) {item : CacheKey × CacheEntry H}
    (member : item ∈ t.cache.entries) :
    s.cache.HasLike item ∨ item.2.refs = 0 ∧ item.2.slot = s.builds.length := by
  cases turn_of_step stepped with
  | request key => exact good.hasLike_request member
  | record => exact .inl (TileCache.hasLike_record member)
  | publish | answer | giveUp => exact .inl (TileCache.hasLike_of_mem member)
  | access access =>
    cases access with
    | attach | detach => cases others
    | trim | evict | invalidateStyle =>
      exact .inl (TileCache.hasLike_of_mem (List.mem_filter.1 member).1)
    | beginUpload | failUpload => exact .inl (TileCache.hasLike_of_mem member)
    | finishUpload => exact .inl (TileCache.hasLike_finishUpload member)

/-- A slot belongs to one key. -/
theorem Accounted.key_of_slot (good : s.Accounted) {first second : CacheKey} {slot : Nat}
    (one : (first, slot) ∈ s.inserted) (two : (second, slot) ∈ s.inserted) : first = second := by
  obtain ⟨build, found, rfl⟩ := good.exists_build one
  obtain ⟨other, foundOther, rfl⟩ := good.exists_build two
  rw [found] at foundOther
  cases foundOther
  rfl

/-- An entry under another key has another slot. -/
theorem Accounted.slot_ne (good : s.Accounted) {item : CacheKey × CacheEntry H}
    (member : item ∈ s.cache.entries) {key : CacheKey} {slot : Nat}
    (came : (key, slot) ∈ s.inserted) (elsewhere : item.1 ≠ key) : item.2.slot ≠ slot := by
  rintro rfl
  exact elsewhere (good.key_of_slot (good.resident _ (List.mem_map_of_mem member)) came)

end CacheSystem

namespace ClientSystem

variable {W N H : Type} {s t : ClientSystem W N H} {action : ClientAction W N H}

/-- An action, by who takes it. -/
inductive Turn (s : ClientSystem W N H) : ClientAction W N H → ClientSystem W N H → Prop
  | attach (client key) : Turn s (.attach client key) { s with
      system := s.system.withCache (s.system.cache.attach key).1
      attachments := s.attachments ++ s.granted client key }
  | detach {client index key slot}
      (found : s.attachments[index]? = some ⟨client, key, slot, true⟩) :
      Turn s (.detach client index) {
        system := s.system.withCache (s.system.cache.detach key)
        attachments := s.attachments.set index ⟨client, key, slot, false⟩
        astray := s.astray ++ s.otherSlot key slot }
  | other {action system} (others : action.isClients = false)
      (stepped : s.system.step? action = some system) : Turn s (.other action) { s with system }

theorem turn_of_step (stepped : s.step? action = some t) : s.Turn action t := by
  cases action with
  | attach client key =>
    cases stepped
    exact .attach client key
  | detach client index =>
    simp only [step?] at stepped
    split at stepped
    next owner key slot found =>
      split at stepped
      next own =>
        subst own
        cases stepped
        exact .detach found
      next => cases stepped
    next => cases stepped
  | other action =>
    simp only [step?] at stepped
    split at stepped
    next => cases stepped
    next others =>
      obtain ⟨system, inner, rfl⟩ := Option.map_eq_some_iff.1 stepped
      exact .other (by simpa using others) inner

/-- The cache takes a step of its own. -/
theorem system_step (stepped : s.step? action = some t) :
    ∃ inner, s.system.step? inner = some t.system := by
  cases turn_of_step stepped with
  | attach client key => exact ⟨.attach key, rfl⟩
  | detach found => exact ⟨.detach _, rfl⟩
  | other others inner => exact ⟨_, inner⟩

/-- Attachments are never forgotten, and detached once. -/
theorem released_step (stepped : s.step? action = some t) {attachment : Attachment}
    (member : attachment ∈ s.attachments) (released : attachment.isHeld = false) :
    attachment ∈ t.attachments := by
  cases turn_of_step stepped with
  | attach => exact List.mem_append_left _ member
  | other => exact member
  | @detach client index key slot found =>
    obtain ⟨place, there⟩ := List.getElem?_of_mem member
    have elsewhere : index ≠ place := by
      rintro rfl
      rw [found] at there
      cases there
      cases released
    exact List.mem_of_getElem? ((List.getElem?_set_ne elsewhere).trans there)

/-- Whoever attaches is attached to the entry that is there. -/
theorem heldTo_granted (attachments : List Attachment) (client : Nat) {key : CacheKey}
    {entry : CacheEntry H} (found : s.system.cache.find? key = some entry) (slot : Nat) :
    heldTo (attachments ++ s.granted client key) slot =
      heldTo attachments slot + if entry.slot = slot then 1 else 0 := by
  simp only [heldTo, granted, found, List.countP_append, Option.map_some, Option.toList_some,
    List.countP_singleton, Attachment.holds, Bool.true_and, decide_eq_true_eq]

/-- Whoever detaches is attached to that entry no more. -/
theorem heldTo_release {attachments : List Attachment} {client index own : Nat} {key : CacheKey}
    (found : attachments[index]? = some ⟨client, key, own, true⟩) (slot : Nat) :
    heldTo (attachments.set index ⟨client, key, own, false⟩) slot +
      (if own = slot then 1 else 0) = heldTo attachments slot := by
  have moved := countP_set_add (Attachment.holds slot) found ⟨client, key, own, false⟩
  simp only [Attachment.holds, Bool.true_and, Bool.false_and, Bool.toNat_false,
    Nat.add_zero] at moved
  rw [heldTo, heldTo, ← moved]
  by_cases same : own = slot <;> simp [same]

/-! ## Who is attached to an entry -/

/-- The counts of the entries, next to the attachments there are. -/
structure Attached (s : ClientSystem W N H) : Prop extends s.system.Accounted where
  known : ∀ attachment ∈ s.attachments, (attachment.key, attachment.slot) ∈ s.system.inserted
  counted : ∀ item ∈ s.system.cache.entries, item.2.Counts s.attachments s.astray
  /-- Who took a renderer from another entry was attached to one that has been taken out. -/
  replaced : ∀ slot ∈ s.astray, ∃ attachment ∈ s.attachments, attachment.isHeld = false ∧
    (attachment.key, slot) ∈ s.system.inserted ∧ attachment.slot ≠ slot ∧
    (attachment.key, attachment.slot) ∉ s.system.cache.identities

theorem attached_start (budget : Nat) : (start budget : ClientSystem W N H).Attached where
  toAccounted := CacheSystem.accounted_start budget
  known := by simp [start]
  counted := by simp [start, CacheSystem.start, TileCache.empty]
  replaced := by simp [start]

namespace Attached

theorem counted_attach (good : s.Attached) (client : Nat) (key : CacheKey)
    {item : CacheKey × CacheEntry H} (member : item ∈ (s.system.cache.attach key).1.entries) :
    item.2.Counts (s.attachments ++ s.granted client key) s.astray := by
  cases found : s.system.cache.find? key with
  | none =>
    rw [TileCache.attach_absent found] at member
    simpa only [granted, found, Option.map_none, Option.toList_none, List.append_nil]
      using good.counted item member
  | some entry =>
    have there := TileCache.find?_eq_some found
    have joined := heldTo_granted s.attachments client found item.2.slot
    unfold CacheEntry.Counts
    rw [TileCache.attach_found found] at member
    rcases TileCache.mem_putFirst member with rfl | ⟨kept, elsewhere⟩
    · obtain ⟨least, most⟩ := good.counted _ there
      dsimp only at joined least most ⊢
      rw [if_pos rfl] at joined
      omega
    · have ne := good.slot_ne kept (good.resident _ (List.mem_map_of_mem there)) elsewhere
      obtain ⟨least, most⟩ := good.counted item kept
      rw [if_neg ne.symm] at joined
      omega

theorem counted_detach (good : s.Attached) {client index slot : Nat} {key : CacheKey}
    (found : s.attachments[index]? = some ⟨client, key, slot, true⟩)
    {item : CacheKey × CacheEntry H} (member : item ∈ (s.system.cache.detach key).entries) :
    item.2.Counts (s.attachments.set index ⟨client, key, slot, false⟩)
      (s.astray ++ s.otherSlot key slot) := by
  have released := heldTo_release found item.2.slot
  have came : (key, slot) ∈ s.system.inserted := good.known _ (List.mem_of_getElem? found)
  unfold CacheEntry.Counts
  rw [List.count_append]
  cases there : s.system.cache.find? key with
  | none =>
    rw [TileCache.detach_absent there] at member
    have elsewhere : item.1 ≠ key := by
      rintro rfl
      rw [TileCache.find?_of_mem good.distinct member] at there
      cases there
    have ne := good.slot_ne member came elsewhere
    obtain ⟨least, most⟩ := good.counted item member
    rw [if_neg ne.symm] at released
    omega
  | some entry =>
    have present := TileCache.find?_eq_some there
    rw [TileCache.detach_found there] at member
    rcases TileCache.mem_putFirst member with rfl | ⟨kept, elsewhere⟩
    · obtain ⟨least, most⟩ := good.counted _ present
      by_cases same : entry.slot = slot
      · rw [if_pos same.symm] at released
        dsimp only at released least most ⊢
        omega
      · rw [if_neg (Ne.symm same)] at released
        have hit : (s.otherSlot key slot).count entry.slot = 1 := by
          simp [otherSlot, there, same]
        dsimp only at released least most ⊢
        omega
    · have ne := good.slot_ne kept came elsewhere
      obtain ⟨least, most⟩ := good.counted item kept
      rw [if_neg ne.symm] at released
      omega

theorem counted_other (good : s.Attached) {action : CacheAction W N H}
    {system : CacheSystem W N H} (stepped : s.system.step? action = some system)
    (others : action.isClients = false) {item : CacheKey × CacheEntry H}
    (member : item ∈ system.cache.entries) : item.2.Counts s.attachments s.astray := by
  rcases good.hasLike_step stepped others member with ⟨old, there, slot, refs⟩ | ⟨none, new⟩
  · have before := good.counted _ there
    unfold CacheEntry.Counts at before ⊢
    rwa [slot, refs] at before
  · have unheld : heldTo s.attachments item.2.slot = 0 := by
      refine List.countP_eq_zero.2 fun attachment granted => ?_
      have earlier := good.slot_lt (good.known attachment granted)
      have ne : attachment.slot ≠ item.2.slot := by omega
      simp [Attachment.holds, ne]
    simp [CacheEntry.Counts, none, unheld]

/-- The entry that a client detaches from in error is there, and not the one it was attached to,
which must have been taken out. -/
theorem replaced_detach (good : s.Attached) {own slot : Nat} {key : CacheKey}
    (hit : slot ∈ s.otherSlot key own) : (key, slot) ∈ s.system.inserted ∧ own ≠ slot ∧
      (key, own) ∉ s.system.cache.identities := by
  obtain ⟨present, ne⟩ := List.mem_filter.1 hit
  replace ne : slot ≠ own := by simpa using ne
  obtain ⟨entry, there, rfl⟩ := Option.map_eq_some_iff.1 (Option.mem_toList.1 present)
  have member := TileCache.find?_eq_some there
  refine ⟨good.resident _ (List.mem_map_of_mem member), ne.symm, fun ownThere => ?_⟩
  obtain ⟨item, inEntries, same⟩ := TileCache.mem_identities.1 ownThere
  rw [TileCache.find?_of_mem good.distinct inEntries] at there
  cases there
  exact ne same

/-- Every action keeps the counts that close to the attachments. -/
theorem step (good : s.Attached) (stepped : s.step? action = some t) : t.Attached := by
  obtain ⟨inner, cacheStepped⟩ := system_step stepped
  constructor
  case toAccounted => exact CacheSystem.accounted_step good.toAccounted cacheStepped
  case known =>
    have old (attachment) (member : attachment ∈ s.attachments) :
        (attachment.key, attachment.slot) ∈ t.system.inserted :=
      CacheSystem.mem_inserted_step (good.known attachment member) cacheStepped
    cases turn_of_step stepped with
    | attach client key =>
      intro attachment member
      rcases List.mem_append.1 member with before | new
      · exact old attachment before
      · obtain ⟨entry, found, rfl⟩ := Option.map_eq_some_iff.1 (Option.mem_toList.1 new)
        have there := good.resident _ (List.mem_map_of_mem (TileCache.find?_eq_some found))
        exact CacheSystem.mem_inserted_step there cacheStepped
    | detach found =>
      intro attachment member
      rcases List.mem_or_eq_of_mem_set member with before | rfl
      · exact old attachment before
      · have granted := old _ (List.mem_of_getElem? found)
        exact granted
    | other => exact old
  case counted =>
    cases turn_of_step stepped with
    | attach client key => exact fun item member => good.counted_attach client key member
    | detach found => exact fun item member => good.counted_detach found member
    | other others inner => exact fun item member => good.counted_other inner others member
  case replaced =>
    have old (slot) (member : slot ∈ s.astray) : ∃ attachment ∈ t.attachments,
        attachment.isHeld = false ∧ (attachment.key, slot) ∈ t.system.inserted ∧
        attachment.slot ≠ slot ∧
        (attachment.key, attachment.slot) ∉ t.system.cache.identities := by
      obtain ⟨attachment, granted, released, came, ne, gone⟩ := good.replaced slot member
      exact ⟨attachment, released_step stepped granted released, released,
        CacheSystem.mem_inserted_step came cacheStepped, ne,
        good.gone_step cacheStepped (good.known attachment granted) gone⟩
    cases turn_of_step stepped with
    | attach | other => exact old
    | @detach client index key own found =>
      intro slot member
      rcases List.mem_append.1 member with before | hit
      · exact old slot before
      · obtain ⟨came, ne, gone⟩ := good.replaced_detach hit
        have inside := (List.getElem?_eq_some_iff.1 found).1
        have granted := good.known _ (List.mem_of_getElem? found)
        exact ⟨⟨client, key, own, false⟩, List.mem_set inside _, rfl,
          CacheSystem.mem_inserted_step came cacheStepped, ne,
          good.gone_step cacheStepped granted gone⟩

end Attached

theorem attached_run {budget : Nat} {actions : List (ClientAction W N H)}
    (ran : (start budget).run? actions = some s) : s.Attached :=
  foldlM_invariant Attached (fun _ _ _ => Attached.step) (attached_start budget) ran

/-- In whatever order clients attach and detach and everybody else comes to their turns. An entry
counts no renderers but those that are attached to it, and misses one at most for every client
that was attached to another entry under its key, which was taken out, and detached from this
one in its place. So an entry with more renderers attached than it lost in this way is not taken
out to make room; and none with a renderer attached is, as long as no client has detached from
an entry that it was not attached to. -/
theorem trim_keeps_attached {budget : Nat} {actions : List (ClientAction W N H)}
    (ran : (start budget).run? actions = some s) :
    (∀ key entry, (key, entry) ∈ s.system.cache.entries →
      entry.refs ≤ heldTo s.attachments entry.slot ∧
      heldTo s.attachments entry.slot ≤ entry.refs + s.astray.count entry.slot) ∧
    (∀ slot ∈ s.astray, ∃ attachment ∈ s.attachments, attachment.isHeld = false ∧
      (attachment.key, slot) ∈ s.system.inserted ∧ attachment.slot ≠ slot ∧
      (attachment.key, attachment.slot) ∉ s.system.cache.identities) ∧
    ∀ t, s.step? (.other .trim) = some t → ∀ key slot, (key, slot) ∈ s.system.cache.identities →
      s.astray.count slot < heldTo s.attachments slot →
      (key, slot) ∈ t.system.cache.identities := by
  have good := attached_run ran
  refine ⟨fun key entry member => good.counted _ member, good.replaced, ?trim⟩
  rintro t stepped key slot there attached
  cases stepped
  obtain ⟨entry, member, rfl⟩ := TileCache.mem_identities.1 there
  refine Decidable.not_not.1 fun gone => ?_
  have idle := TileCache.trimmed_idle good.distinct member gone
  have unreferenced : entry.refs = 0 := of_decide_eq_true ((Bool.and_eq_true ..).mp idle).1
  have counted := (good.counted _ member).2
  dsimp only at counted attached
  omega

/-- A client is attached to an entry that is evicted, another client to the next one under the
key. -/
def handover : List (ClientAction Unit Unit Unit) := [
  .other (.request CacheSystem.someKey), .other (.record 0 (.ready CacheSystem.someBuffers)),
  .other (.publish 0), .attach 0 CacheSystem.someKey, .other (.evict CacheSystem.someKey.tile),
  .other (.request CacheSystem.someKey), .other (.record 1 (.ready CacheSystem.someBuffers)),
  .other (.publish 1), .attach 1 CacheSystem.someKey]

/-- A third client keeps the entry that lost one of its two renderers. -/
theorem shared_handover_kept :
    ∃ s t, (start 0).run? (handover ++ [.attach 2 CacheSystem.someKey, .detach 0 0]) = some s ∧
      heldTo s.attachments 1 = 2 ∧ s.astray = [1] ∧ s.step? (.other .trim) = some t ∧
      (CacheSystem.someKey, 1) ∈ t.system.cache.identities := by
  obtain ⟨s, ran, attached, lost, there, t, stepped⟩ : ∃ s : ClientSystem Unit Unit Unit,
      (start 0).run? (handover ++ [.attach 2 CacheSystem.someKey, .detach 0 0]) = some s ∧
      heldTo s.attachments 1 = 2 ∧ s.astray = [1] ∧
      (CacheSystem.someKey, 1) ∈ s.system.cache.identities ∧
      ∃ t, s.step? (.other .trim) = some t :=
    ⟨_, rfl, rfl, rfl, List.mem_singleton.2 rfl, _, rfl⟩
  refine ⟨s, t, ran, attached, lost, stepped, ?_⟩
  refine (trim_keeps_attached ran).2.2 t stepped CacheSystem.someKey 1 there ?_
  rw [attached, lost]
  decide

/-- Without a third client the entry is taken out, though the second client is attached to it. -/
theorem handover_trimmed :
    ∃ s t : ClientSystem Unit Unit Unit,
      (start 0).run? (handover ++ [.detach 0 0]) = some s ∧
      s.attachments = [⟨0, CacheSystem.someKey, 0, false⟩, ⟨1, CacheSystem.someKey, 1, true⟩] ∧
      (CacheSystem.someKey, 1) ∈ s.system.cache.identities ∧ s.step? (.other .trim) = some t ∧
      (CacheSystem.someKey, 1) ∉ t.system.cache.identities :=
  ⟨_, _, rfl, rfl, List.mem_singleton.2 rfl, rfl, List.not_mem_nil⟩

end ClientSystem

end MapStyle
