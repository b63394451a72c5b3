import Mathlib.Data.Set.List

/-! Opening computations that may fail. A sequence succeeds exactly when its parts do. -/

namespace NeuralGraph

variable {ε α β : Type}

theorem bind_eq_ok {first : Except ε α} {next : α → Except ε β} {result : β} :
    (first >>= next) = .ok result ↔ ∃ value, first = .ok value ∧ next value = .ok result := by
  cases first <;> simp [bind, Except.bind]

theorem bind_ok (value : α) (next : α → Except ε β) : (Except.ok value >>= next) = next value := rfl

theorem pure_eq_ok {value result : α} :
    (pure value : Except ε α) = .ok result ↔ value = result := by
  simp [pure, Except.pure]

theorem throw_ne_ok {error : ε} {result : α} : (throw error : Except ε α) ≠ .ok result := by
  simp [throw, throwThe, MonadExceptOf.throw]

theorem eq_ok_get {result : Except ε α} (success : result.toOption.isSome = true) :
    result = .ok (result.toOption.get success) := by
  cases result with
  | error _ => cases success
  | ok _ => rfl

/-- A stateful computation that succeeds leaves a state and a value. -/
theorem exists_eq_ok {σ : Type} (outcome : σ × Except ε α)
    (success : outcome.2.toOption.isSome = true) : ∃ state value, outcome = (state, .ok value) :=
  ⟨outcome.1, outcome.2.toOption.get success, Prod.ext rfl (eq_ok_get success)⟩

/-- A check in front of a computation. -/
theorem seq_eq_ok {check : Except ε Unit} {next : Unit → Except ε β} {result : β} :
    (check >>= next) = .ok result ↔ check = .ok () ∧ next () = .ok result := by
  cases check <;> simp [bind, Except.bind]

/-- Passes a check that throws. -/
theorem guard_eq_ok {refuse : Prop} [Decidable refuse] {error : ε} {next : α → Except ε β}
    {rest : Except ε β} {result : β} :
    (if refuse then throw error >>= next else rest) = .ok result ↔
      ¬refuse ∧ rest = .ok result := by
  by_cases refused : refuse
  · simp [refused, throw, throwThe, MonadExceptOf.throw, bind, Except.bind]
  · simp [refused]

/-- Passes a last check. -/
theorem check_eq_ok {refuse : Prop} [Decidable refuse] {error : ε} :
    (if refuse then throw error else pure () : Except ε Unit) = .ok () ↔ ¬refuse := by
  by_cases refused : refuse
  · simp [refused, throw_ne_ok]
  · simp [refused, pure, Except.pure]

theorem throw_bind_ne_ok {error : ε} {next : α → Except ε β} {result : β} :
    (throw error >>= next) ≠ .ok result := by
  simp [throw, throwThe, MonadExceptOf.throw, bind, Except.bind]

theorem map_guard {γ : Type} {refuse : Prop} [Decidable refuse] {error : ε}
    {next : γ → Except ε α} {rest : Except ε α} (f : α → β) :
    f <$> (if refuse then throw error >>= next else rest) =
      if refuse then throw error >>= fun value => f <$> next value else f <$> rest := by
  rw [apply_ite (f <$> ·), map_bind]

/-- Opens one step of a computation that gathers a list. -/
theorem cons_bind_eq_ok {head : α} {rest : Except ε (List α)} {result : List α} :
    (do return head :: (← rest)) = .ok result ↔
      ∃ tail, rest = .ok tail ∧ head :: tail = result := by
  rw [bind_eq_ok]
  simp only [pure_eq_ok]

/-- A list of one computed value. -/
theorem singleton_eq_ok {computed : Except ε α} {value : α} :
    (do return [← computed]) = .ok [value] ↔ computed = .ok value := by
  rw [bind_eq_ok]
  simp only [pure_eq_ok, List.cons.injEq, and_true, exists_eq_right]

/-- Computing a list succeeds exactly when each of its entries does. -/
theorem mapM_eq_ok {compute : α → Except ε β} {entries : List α} {results : List β} :
    entries.mapM compute = .ok results ↔ results.map Except.ok = entries.map compute := by
  induction entries generalizing results with
  | nil => cases results <;> simp [pure, Except.pure]
  | cons entry entries ih =>
    rw [List.mapM_cons, List.map_cons, List.map_eq_cons_iff]
    cases computed : compute entry with
    | error error => simp [bind, Except.bind]
    | ok value =>
      rw [bind_ok, cons_bind_eq_ok]
      constructor
      · rintro ⟨rest, later, rfl⟩
        exact ⟨value, rest, rfl, rfl, ih.mp later⟩
      · rintro ⟨_, rest, rfl, same, later⟩
        cases same
        exact ⟨rest, ih.mpr later, rfl⟩

/-- Outcomes give a list of values when each of them gives one. -/
theorem exists_map_ok {outcomes : List (Except ε α)} :
    (∃ values : List α, values.map Except.ok = outcomes) ↔
      ∀ outcome ∈ outcomes, ∃ value, outcome = .ok value := by
  have range := congrArg (outcomes ∈ ·) (Set.range_list_map (Except.ok : α → Except ε α))
  simpa [eq_comm] using range

/-- A computation that does not fail in the way that is singled out. -/
structure Avoids (failure : ε → Prop) (result : Except ε α) : Prop where
  spares : ∀ error, result = .error error → ¬failure error

namespace Avoids

variable {failure : ε → Prop}

theorem ok (value : α) : Avoids failure (.ok value : Except ε α) := ⟨fun _ failed => nomatch failed⟩

theorem error {error : ε} (other : ¬failure error) :
    Avoids failure (.error error : Except ε α) := by
  refine ⟨fun same failed => ?_⟩
  cases failed
  exact other

theorem bind {first : Except ε α} {next : α → Except ε β} (head : Avoids failure first)
    (tail : ∀ value, Avoids failure (next value)) : Avoids failure (first >>= next) := by
  cases first with
  | error fault => exact error (head.spares fault rfl)
  | ok value => exact tail value

theorem guard {refuse : Prop} [Decidable refuse] {error : ε} {next : β → Except ε α}
    {rest : Except ε α} (other : ¬failure error) (passes : Avoids failure rest) :
    Avoids failure (if refuse then throw error >>= next else rest) := by
  by_cases refused : refuse
  · rw [if_pos refused]
    exact Avoids.error other
  · rwa [if_neg refused]

theorem map {first : Except ε α} (f : α → β) (spared : Avoids failure first) :
    Avoids failure (f <$> first) := by
  cases first with
  | error fault => exact error (spared.spares fault rfl)
  | ok value => exact ok (f value)

theorem mapM {compute : α → Except ε β} (each : ∀ entry, Avoids failure (compute entry))
    (entries : List α) : Avoids failure (entries.mapM compute) := by
  induction entries with
  | nil => exact ok []
  | cons entry entries ih =>
    rw [List.mapM_cons]
    exact bind (each entry) fun _ => bind ih fun _ => ok _

end Avoids

end NeuralGraph
