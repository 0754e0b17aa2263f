import Pyverge.Py.Effects

/-! Programs that cannot tell related states apart.
Such a program answers alike from related states, whether it returns or raises, and leaves related
states behind, so a run of them never finds the difference.
-/

namespace Py

variable {ε σ α β : Type} {R : σ → σ → Prop}

/-- From related states the program has one outcome and stops in related states. -/
def Respects (R : σ → σ → Prop) (program : EStateM ε σ α) : Prop :=
  ∀ left right, R left right →
    outcome program left = outcome program right ∧ R (after program left) (after program right)

theorem Respects.pure (value : α) : Respects R (Pure.pure value : EStateM ε σ α) :=
  fun _ _ related => ⟨rfl, related⟩

theorem Respects.throw (error : ε) : Respects R (MonadExcept.throw error : EStateM ε σ α) :=
  fun _ _ related => ⟨rfl, related⟩

/-- A raised error skips the rest of the program. -/
theorem Respects.throw_bind (error : ε) (next : α → EStateM ε σ β)
    : Respects R (MonadExcept.throw error >>= next) :=
  fun _ _ related => ⟨rfl, related⟩

theorem Respects.query {read : σ → Except ε α}
    (same : ∀ left right, R left right → read left = read right)
    : Respects R (Py.query read) := by
  intro left right related
  rw [outcome_query, outcome_query, after_query, after_query, same left right related]
  exact ⟨rfl, related⟩

theorem Respects.const (answer : Except ε α) : Respects R (Py.query (fun _ : σ => answer)) :=
  .query (fun _ _ _ => rfl)

theorem Respects.modify {update : σ → σ}
    (kept : ∀ left right, R left right → R (update left) (update right))
    : Respects R (modify update : EStateM ε σ PUnit) :=
  fun left right related => ⟨rfl, kept left right related⟩

/-- Sequencing, by cases on the one outcome of the first part. -/
theorem Respects.bind {first : EStateM ε σ α} {next : α → EStateM ε σ β}
    (respects : Respects R first) (later : ∀ value, Respects R (next value))
    : Respects R (first >>= next) := by
  intro left right related
  have both := respects left right related
  unfold outcome after at both ⊢
  obtain ⟨same, reached⟩ := both
  rw [bind_apply, bind_apply]
  cases ranLeft : first left with
  | ok value leftState =>
      cases ranRight : first right with
      | ok other rightState =>
          rw [ranLeft, ranRight] at same reached
          obtain rfl := Except.ok.inj same
          exact later value leftState rightState reached
      | error error rightState =>
          rw [ranLeft, ranRight] at same
          cases same
  | error error leftState =>
      cases ranRight : first right with
      | ok other rightState =>
          rw [ranLeft, ranRight] at same
          cases same
      | error other rightState =>
          rw [ranLeft, ranRight] at same reached
          exact ⟨congrArg Except.error (Except.error.inj same), reached⟩

theorem Respects.ite {left right : EStateM ε σ α} (condition : Prop) [Decidable condition]
    (whenTrue : Respects R left) (whenFalse : Respects R right)
    : Respects R (if condition then left else right) := by
  split
  · exact whenTrue
  · exact whenFalse

/-- A loop, by induction on the visited items. -/
theorem Respects.forM {body : α → EStateM ε σ PUnit} (items : List α)
    (each : ∀ item, Respects R (body item))
    : Respects R (items.forM body) := by
  induction items with
  | nil => exact .pure PUnit.unit
  | cons item rest ih => exact .bind (each item) (fun _ => ih)

theorem Respects.tryCatch {program : EStateM ε σ α} {handler : ε → EStateM ε σ α}
    (respects : Respects R program) (handled : ∀ error, Respects R (handler error))
    : Respects R (tryCatch program handler) := by
  intro left right related
  have both := respects left right related
  unfold outcome after at both ⊢
  obtain ⟨same, reached⟩ := both
  rw [tryCatch_apply, tryCatch_apply]
  cases ranLeft : program left with
  | ok value leftState =>
      cases ranRight : program right with
      | ok other rightState =>
          rw [ranLeft, ranRight] at same reached
          exact ⟨same, reached⟩
      | error error rightState =>
          rw [ranLeft, ranRight] at same
          cases same
  | error error leftState =>
      cases ranRight : program right with
      | ok other rightState =>
          rw [ranLeft, ranRight] at same
          cases same
      | error other rightState =>
          rw [ranLeft, ranRight] at same reached
          obtain rfl := Except.error.inj same
          exact handled error leftState rightState reached

end Py
