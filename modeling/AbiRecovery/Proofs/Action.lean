import AbiRecovery.FileTree.Change

/-!
# Actions

Actions that change a state and may fail, which then keep what they have done. Two ways of speaking about
them: what an action ensures from the states that meet a condition, and what two actions have in common
that begin in related states.
-/
namespace AbiRecovery

variable {ε σ α β γ δ : Type}

/-- What an action comes to from a state, and the state after it. -/
def perform (x : ExceptT ε (StateM σ) α) (s : σ) : Except ε α × σ := x.run.run s

section Steps

variable (s : σ)

@[simp]
theorem perform_pure (a : α) : perform (pure a : ExceptT ε (StateM σ) α) s = (.ok a, s) := rfl

@[simp]
theorem perform_throw (e : ε) : perform (throw e : ExceptT ε (StateM σ) α) s = (.error e, s) := rfl

@[simp]
theorem perform_get : perform (get : ExceptT ε (StateM σ) σ) s = (.ok s, s) := rfl

@[simp]
theorem perform_set (s' : σ) : perform (set s' : ExceptT ε (StateM σ) PUnit) s = (.ok ⟨⟩, s') := rfl

@[simp]
theorem perform_modify (f : σ → σ) : perform (modify f : ExceptT ε (StateM σ) PUnit) s = (.ok ⟨⟩, f s) := rfl

theorem perform_bind (x : ExceptT ε (StateM σ) α) (f : α → ExceptT ε (StateM σ) β) :
    perform (x >>= f) s = match perform x s with
      | (.ok a, s') => perform (f a) s'
      | (.error e, s') => (.error e, s') := by
  unfold perform
  show (ExceptT.bindCont (fun a => f a) (x.run.run s).1).run (x.run.run s).2 = _
  cases x.run.run s with
  | mk result s' => cases result <;> rfl

theorem perform_map (g : α → β) (x : ExceptT ε (StateM σ) α) :
    perform (g <$> x) s = match perform x s with
      | (.ok a, s') => (.ok (g a), s')
      | (.error e, s') => (.error e, s') := by
  rw [← bind_pure_comp, perform_bind]
  rfl

/-- What follows on a step that goes through. -/
theorem perform_bind_ok {x : ExceptT ε (StateM σ) α} {f : α → ExceptT ε (StateM σ) β} {s s' : σ} {a : α}
    (first : perform x s = (.ok a, s')) : perform (x >>= f) s = perform (f a) s' := by
  rw [perform_bind, first]

/-- Nothing follows on a step that fails. -/
theorem perform_bind_error {x : ExceptT ε (StateM σ) α} {f : α → ExceptT ε (StateM σ) β} {s s' : σ} {e : ε}
    (first : perform x s = (.error e, s')) : perform (x >>= f) s = (.error e, s') := by
  rw [perform_bind, first]

/-- A sequence that goes through has gone through its first step. -/
theorem bind_ok_cases {x : ExceptT ε (StateM σ) α} {f : α → ExceptT ε (StateM σ) β} {s s' : σ} {b : β}
    (whole : perform (x >>= f) s = (.ok b, s')) :
    ∃ a s₁, perform x s = (.ok a, s₁) ∧ perform (f a) s₁ = (.ok b, s') := by
  rw [perform_bind] at whole
  cases first : perform x s with
  | mk result s₁ =>
    rw [first] at whole
    cases result with
    | error e => cases whole
    | ok a => exact ⟨a, s₁, rfl, whole⟩

end Steps

/-- From every state that meets `before`, the action gives a value in a state that meets `done`, or fails in one
that meets `failed`. -/
def Ensures (before : σ → Prop) (x : ExceptT ε (StateM σ) α) (done : α → σ → Prop) (failed : σ → Prop) : Prop :=
  ∀ s, before s → match perform x s with
    | (.ok a, s') => done a s'
    | (.error _, s') => failed s'

namespace Ensures

variable {before middle failed : σ → Prop} {done : α → σ → Prop} {after : β → σ → Prop}

theorem pure {a : α} (holds : ∀ s, before s → done a s) :
    Ensures before (Pure.pure a : ExceptT ε (StateM σ) α) done failed := holds

theorem throw {e : ε} (holds : ∀ s, before s → failed s) :
    Ensures before (MonadExcept.throw e : ExceptT ε (StateM σ) α) done failed := holds

theorem modify {f : σ → σ} {done : PUnit → σ → Prop} (holds : ∀ s, before s → done ⟨⟩ (f s)) :
    Ensures before (modify f : ExceptT ε (StateM σ) PUnit) done failed := holds

theorem bind {x : ExceptT ε (StateM σ) α} {f : α → ExceptT ε (StateM σ) β} (first : Ensures before x done failed)
    (rest : ∀ a, Ensures (done a) (f a) after failed) : Ensures before (x >>= f) after failed := by
  intro s start
  have reached := first s start
  rw [perform_bind]
  cases step : perform x s with
  | mk result s' =>
    rw [step] at reached
    cases result with
    | ok a => exact rest a s' reached
    | error e => exact reached

/-- What is read of the state is what it is then. -/
theorem get_bind {f : σ → ExceptT ε (StateM σ) β} (rest : ∀ s, before s → Ensures (· = s) (f s) after failed) :
    Ensures before (get >>= f) after failed := by
  intro s start
  rw [perform_bind, perform_get]
  exact rest s start s rfl

theorem weaken {before' : σ → Prop} {x : ExceptT ε (StateM σ) α} {done' : α → σ → Prop} {failed' : σ → Prop}
    (holds : Ensures before x done failed) (entry : ∀ s, before' s → before s)
    (good : ∀ a s, done a s → done' a s) (bad : ∀ s, failed s → failed' s) : Ensures before' x done' failed' := by
  intro s start
  have reached := holds s (entry s start)
  cases step : perform x s with
  | mk result s' =>
    rw [step] at reached
    cases result with
    | ok a => exact good a s' reached
    | error e => exact bad s' reached

/-- What holds after an action whether it fails or not. -/
theorem iff_ends {x : ExceptT ε (StateM σ) α} {reached : σ → Prop} :
    Ensures before x (fun _ => reached) reached ↔ ∀ s, before s → reached (perform x s).2 := by
  unfold Ensures
  refine forall_congr' fun s => imp_congr_right fun _ => ?_
  cases perform x s with
  | mk result s' => cases result <;> rfl

theorem forM {items : List α} {f : α → ExceptT ε (StateM σ) PUnit}
    (each : ∀ a, Ensures before (f a) (fun _ => before) failed) :
    Ensures before (items.forM f) (fun _ => before) failed := by
  induction items with
  | nil => exact pure fun _ => id
  | cons a items ih => exact (each a).bind fun _ => ih

end Ensures

/-- An action that goes from states that meet a condition to such states, whatever comes of it. -/
def Keeps (kept : σ → Prop) (x : ExceptT ε (StateM σ) α) : Prop := ∀ s, kept s → kept (perform x s).2

namespace Keeps

variable {kept : σ → Prop}

theorem of_ensures {x : ExceptT ε (StateM σ) α} (holds : Ensures kept x (fun _ => kept) kept) : Keeps kept x :=
  Ensures.iff_ends.mp holds

theorem ensures {x : ExceptT ε (StateM σ) α} (holds : Keeps kept x) : Ensures kept x (fun _ => kept) kept :=
  Ensures.iff_ends.mpr holds

theorem pure (a : α) : Keeps kept (Pure.pure a : ExceptT ε (StateM σ) α) := fun _ start => start

theorem get : Keeps kept (MonadState.get : ExceptT ε (StateM σ) σ) := fun _ start => start

/-- What holds after a step holds after all that follows on it and keeps it. -/
theorem bind_ends {x : ExceptT ε (StateM σ) α} {f : α → ExceptT ε (StateM σ) β} {s : σ} (first : kept (perform x s).2)
    (rest : ∀ a, Keeps kept (f a)) : kept (perform (x >>= f) s).2 := by
  rw [perform_bind]
  cases step : perform x s with
  | mk result s' =>
    rw [step] at first
    cases result with
    | ok a => exact rest a s' first
    | error e => exact first

theorem bind {x : ExceptT ε (StateM σ) α} {f : α → ExceptT ε (StateM σ) β} (first : Keeps kept x)
    (rest : ∀ a, Keeps kept (f a)) : Keeps kept (x >>= f) :=
  fun s start => bind_ends (first s start) rest

theorem map (g : α → β) {x : ExceptT ε (StateM σ) α} (holds : Keeps kept x) : Keeps kept (g <$> x) := by
  rw [← bind_pure_comp]
  exact holds.bind fun a => pure (g a)

theorem forM {items : List α} {f : α → ExceptT ε (StateM σ) PUnit} (each : ∀ a, Keeps kept (f a)) :
    Keeps kept (items.forM f) :=
  of_ensures (Ensures.forM fun a => (each a).ensures)

end Keeps

/-- Two results in related states: related values, or the same failure. -/
inductive Paired (states : σ → σ → Prop) (values : α → β → Prop) : Except ε α × σ → Except ε β × σ → Prop where
  | done {a : α} {b : β} {s t : σ} (same : values a b) (related : states s t) :
      Paired states values (.ok a, s) (.ok b, t)
  | failed {e : ε} {s t : σ} (related : states s t) : Paired states values (.error e, s) (.error e, t)

/-- From related states two actions come to related values or to the same failure, in related states. -/
def Matches (states : σ → σ → Prop) (values : α → β → Prop) (x : ExceptT ε (StateM σ) α)
    (y : ExceptT ε (StateM σ) β) : Prop :=
  ∀ s t, states s t → Paired states values (perform x s) (perform y t)

theorem Paired.mono {states states' : σ → σ → Prop} {values values' : α → β → Prop} {left : Except ε α × σ}
    {right : Except ε β × σ} (paired : Paired states values left right) (later : ∀ s t, states s t → states' s t)
    (implied : ∀ a b, values a b → values' a b) : Paired states' values' left right := by
  cases paired with
  | done same related => exact .done (implied _ _ same) (later _ _ related)
  | failed related => exact .failed (later _ _ related)

namespace Matches

variable {states : σ → σ → Prop} {values : α → β → Prop}

theorem pure {a : α} {b : β} (same : values a b) :
    Matches states values (Pure.pure a : ExceptT ε (StateM σ) α) (Pure.pure b) :=
  fun _ _ related => .done same related

theorem throw {e : ε} :
    Matches states values (MonadExcept.throw e : ExceptT ε (StateM σ) α) (MonadExcept.throw e) :=
  fun _ _ related => .failed related

theorem modify {f g : σ → σ} (keeps : ∀ s t, states s t → states (f s) (g t)) :
    Matches states Eq (modify f : ExceptT ε (StateM σ) PUnit) (modify g) :=
  fun s t related => .done rfl (keeps s t related)

theorem bind {x : ExceptT ε (StateM σ) α} {y : ExceptT ε (StateM σ) β} {f : α → ExceptT ε (StateM σ) γ}
    {g : β → ExceptT ε (StateM σ) δ} {later : γ → δ → Prop} (first : Matches states values x y)
    (rest : ∀ a b, values a b → Matches states later (f a) (g b)) : Matches states later (x >>= f) (y >>= g) := by
  intro s t related
  have reached := first s t related
  rw [perform_bind, perform_bind]
  revert reached
  generalize perform x s = left
  generalize perform y t = right
  intro reached
  cases reached with
  | done same related => exact rest _ _ same _ _ related
  | failed related => exact .failed related

/-- Both sides read related states. -/
theorem get_bind {f : σ → ExceptT ε (StateM σ) α} {g : σ → ExceptT ε (StateM σ) β}
    (rest : ∀ s t, states s t → Matches states values (f s) (g t)) :
    Matches states values (get >>= f) (get >>= g) := by
  intro s t related
  rw [perform_bind, perform_bind]
  exact rest s t related s t related

/-- A step without a value, and what follows on it. -/
theorem seq {x y : ExceptT ε (StateM σ) PUnit} {z : ExceptT ε (StateM σ) α} {z' : ExceptT ε (StateM σ) β}
    (step : Matches states Eq x y) (rest : Matches states values z z') :
    Matches states values (x >>= fun _ => z) (y >>= fun _ => z') :=
  step.bind fun _ _ _ => rest

/-- A step that is taken under a condition, and what follows on it. -/
theorem guarded {c d : Prop} [Decidable c] [Decidable d] {x y : ExceptT ε (StateM σ) PUnit}
    {z : ExceptT ε (StateM σ) α} {z' : ExceptT ε (StateM σ) β} (same : c ↔ d) (step : Matches states Eq x y)
    (rest : Matches states values z z') :
    Matches states values (if c then x >>= fun _ => z else z) (if d then y >>= fun _ => z' else z') := by
  by_cases holds : d
  · rw [if_pos holds, if_pos (same.mpr holds)]
    exact step.seq rest
  · rw [if_neg holds, if_neg fun c => holds (same.mp c)]
    exact rest

end Matches

end AbiRecovery
