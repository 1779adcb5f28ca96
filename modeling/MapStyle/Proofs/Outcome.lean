/-!
# Computations that may fail

A computation that ends well has ended well at every step. These are the inversions by
which proofs take such a computation apart. Where it also matters how a computation fails,
`Settles` says what a good end promises and which errors a bad one may bring.
-/

namespace MapStyle

variable {ε α β : Type}

theorem bind_eq_ok {x : Except ε α} {f : α → Except ε β} {b : β} :
    x >>= f = .ok b ↔ ∃ a, x = .ok a ∧ f a = .ok b := by
  cases x with
  | ok a => simp [bind, Except.bind]
  | error e => simp [bind, Except.bind]

theorem map_eq_ok {x : Except ε α} {f : α → β} {b : β} :
    f <$> x = .ok b ↔ ∃ a, x = .ok a ∧ f a = b := by
  cases x with
  | ok a => simp [Functor.map, Except.map]
  | error e => simp [Functor.map, Except.map]

@[simp] theorem pure_eq_ok {a b : α} : (pure a : Except ε α) = .ok b ↔ a = b := by
  simp [pure, Except.pure]

/-- A list that is run through without failure keeps its length, and every result is that of
some item. -/
theorem mapM_eq_ok {f : α → Except ε β} {xs : List α} {ys : List β} (ran : xs.mapM f = .ok ys) :
    ys.length = xs.length ∧ ∀ y ∈ ys, ∃ x ∈ xs, f x = .ok y := by
  induction xs generalizing ys with
  | nil =>
    rw [List.mapM_nil, pure_eq_ok] at ran
    simp [← ran]
  | cons x rest ih =>
    rw [List.mapM_cons, bind_eq_ok] at ran
    obtain ⟨y, first, ran⟩ := ran
    rw [bind_eq_ok] at ran
    obtain ⟨others, ranRest, same⟩ := ran
    obtain ⟨sameLength, ofOthers⟩ := ih ranRest
    rw [pure_eq_ok] at same
    subst same
    refine ⟨by simp [sameLength], List.forall_mem_cons.2 ⟨⟨x, by simp, first⟩, ?_⟩⟩
    intro y member
    obtain ⟨x, inRest, same⟩ := ofOthers y member
    exact ⟨x, List.mem_cons_of_mem _ inRest, same⟩

theorem bind_eq_error {x : Except ε α} {f : α → Except ε β} {e : ε} :
    x >>= f = .error e ↔ x = .error e ∨ ∃ a, x = .ok a ∧ f a = .error e := by
  cases x with
  | ok a => simp [bind, Except.bind]
  | error e => simp [bind, Except.bind]

/-- Every item of a list that is run through without failure ends well. -/
theorem exists_of_mapM_eq_ok {f : α → Except ε β} {xs : List α} {ys : List β}
    (ran : xs.mapM f = .ok ys) {x : α} (member : x ∈ xs) : ∃ y, f x = .ok y := by
  induction xs generalizing ys with
  | nil => nomatch member
  | cons first rest ih =>
    rw [List.mapM_cons, bind_eq_ok] at ran
    obtain ⟨y, ranFirst, ran⟩ := ran
    obtain ⟨others, ranRest, -⟩ := bind_eq_ok.1 ran
    rcases List.mem_cons.1 member with rfl | later
    · exact ⟨y, ranFirst⟩
    · exact ih ranRest later

/-- A list that is run through fails like the first of its items that does. -/
theorem mapM_eq_error {f : α → Except ε β} {xs : List α} {e : ε} (failed : xs.mapM f = .error e) :
    ∃ before x after, xs = before ++ x :: after ∧ (∀ y ∈ before, ∃ b, f y = .ok b) ∧
      f x = .error e := by
  induction xs with
  | nil => cases failed
  | cons first rest ih =>
    rw [List.mapM_cons, bind_eq_error] at failed
    rcases failed with atFirst | ⟨b, ranFirst, failed⟩
    · exact ⟨[], first, rest, rfl, by simp, atFirst⟩
    · rcases bind_eq_error.1 failed with atRest | ⟨others, -, same⟩
      · obtain ⟨before, x, after, rfl, ran, atItem⟩ := ih atRest
        exact ⟨first :: before, x, after, rfl, List.forall_mem_cons.2 ⟨⟨b, ranFirst⟩, ran⟩, atItem⟩
      · cases same

/-- A map that commutes with every step of a fold commutes with the fold. -/
theorem foldlM_map {γ δ : Type} {f : β → α → Except ε β} {k : δ → γ → Except ε δ} (h : β → δ)
    (g : α → γ) (each : ∀ b a, k (h b) (g a) = (f b a).map h) (xs : List α) (b : β) :
    (xs.map g).foldlM k (h b) = (xs.foldlM f b).map h := by
  induction xs generalizing b with
  | nil => rfl
  | cons x rest ih =>
    rw [List.map_cons, List.foldlM_cons, List.foldlM_cons, each]
    cases f b x with
    | ok after => exact ih after
    | error e => rfl

/-- What every step of a fold keeps holds of its result, and so does what the step for each item
has achieved, when no later step undoes it. -/
theorem foldlM_eq_ok {f : β → α → Except ε β} (kept : β → Prop) (done : α → β → Prop)
    (step : ∀ b a after, kept b → f b a = .ok after → kept after ∧ done a after)
    (stable : ∀ b a after x, kept b → f b a = .ok after → done x b → done x after)
    {xs : List α} {b c : β} (start : kept b) (ran : xs.foldlM f b = .ok c) :
    kept c ∧ (∀ x ∈ xs, done x c) ∧ ∀ x, done x b → done x c := by
  induction xs generalizing b with
  | nil =>
    rw [List.foldlM_nil, pure_eq_ok] at ran
    subst ran
    exact ⟨start, by simp, fun _ already => already⟩
  | cons first rest ih =>
    rw [List.foldlM_cons, bind_eq_ok] at ran
    obtain ⟨after, ranFirst, ran⟩ := ran
    obtain ⟨keptAfter, ofFirst⟩ := step b first after start ranFirst
    obtain ⟨keptLast, ofRest, lasts⟩ := ih keptAfter ran
    refine ⟨keptLast, List.forall_mem_cons.2 ⟨lasts first ofFirst, ofRest⟩, fun x already => ?_⟩
    exact lasts x (stable b first after x start ranFirst already)

/-! ## Ways to end -/

/-- A computation ends with a result that is promised, or in an error that is allowed. -/
def Settles (promise : α → Prop) (allowed : ε → Prop) : Except ε α → Prop
  | .ok a => promise a
  | .error e => allowed e

/-- A fold settles when every step does from where the steps before it may end. -/
theorem Settles.foldlM {promise : β → Prop} {allowed : ε → Prop} {f : β → α → Except ε β}
    {xs : List α} (step : ∀ b, ∀ a ∈ xs, promise b → Settles promise allowed (f b a)) {b : β}
    (start : promise b) : Settles promise allowed (xs.foldlM f b) := by
  induction xs generalizing b with
  | nil => exact start
  | cons first rest ih =>
    obtain ⟨atFirst, atRest⟩ : (∀ b, promise b → Settles promise allowed (f b first)) ∧
        ∀ b, ∀ a ∈ rest, promise b → Settles promise allowed (f b a) :=
      ⟨fun b => step b first List.mem_cons_self,
        fun b a member => step b a (List.mem_cons_of_mem _ member)⟩
    have settled := atFirst b start
    rw [List.foldlM_cons]
    cases ran : f b first with
    | ok after =>
      rw [ran] at settled
      exact ih atRest settled
    | error e =>
      rw [ran] at settled
      exact settled

/-! ## Steps one after another -/

section Steps

variable {σ : Type} {f : σ → α → Option σ} {s t : σ} {xs : List α}

/-- What every step keeps holds after all of them. -/
theorem foldlM_invariant (holds : σ → Prop) (kept : ∀ s a t, holds s → f s a = some t → holds t)
    (good : holds s) (ran : xs.foldlM f s = some t) : holds t := by
  induction xs generalizing s with
  | nil =>
    cases ran
    exact good
  | cons a rest ih =>
    rw [List.foldlM_cons] at ran
    obtain ⟨next, stepped, ran⟩ := Option.bind_eq_some_iff.1 ran
    exact ih (kept s a next good stepped) ran

/-- What does not hold at first and holds in the end, some step has brought about. -/
theorem exists_step_of_foldlM (holds : σ → Prop) (before : ¬holds s)
    (ran : xs.foldlM f s = some t) (after : holds t) :
    ∃ first a rest u v, xs = first ++ a :: rest ∧ first.foldlM f s = some u ∧ f u a = some v ∧
      rest.foldlM f v = some t ∧ ¬holds u ∧ holds v := by
  induction xs generalizing s with
  | nil =>
    cases ran
    exact absurd after before
  | cons a rest ih =>
    rw [List.foldlM_cons] at ran
    obtain ⟨next, stepped, ran⟩ := Option.bind_eq_some_iff.1 ran
    by_cases now : holds next
    · exact ⟨[], a, rest, s, next, rfl, rfl, stepped, ran, before, now⟩
    · obtain ⟨first, last, rest, u, v, rfl, ranTo, later⟩ := ih now ran
      refine ⟨a :: first, last, rest, u, v, rfl, ?_, later⟩
      rw [List.foldlM_cons]
      exact Option.bind_eq_some_iff.2 ⟨next, stepped, ranTo⟩

end Steps

end MapStyle
