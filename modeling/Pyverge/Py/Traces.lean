import Pyverge.Py.Effects

/-! Programs that only add to a trace: what they add and how they end, put together step by step.
-/

namespace Py

variable {ε τ α β : Type}

/-- Whatever the trace so far, the program adds this to it and ends so. -/
def Writes (program : EStateM ε (List τ) α) (added : List τ) (out : Except ε α) : Prop :=
  ∀ trace, program trace = query (fun _ => out) (trace ++ added)

namespace Writes

variable {program : EStateM ε (List τ) α} {added later : List τ} {out : Except ε α}

theorem outcome (writes : Writes program added out) (trace : List τ)
    : Py.outcome program trace = out := by
  unfold Py.outcome
  rw [writes trace]
  exact outcome_query _ _

theorem after (writes : Writes program added out) (trace : List τ)
    : Py.after program trace = trace ++ added := by
  unfold Py.after
  rw [writes trace]
  exact after_query _ _

theorem const (out : Except ε α) : Writes (query (fun _ => out)) ([] : List τ) out := by
  intro trace
  rw [List.append_nil]

theorem pure (value : α) : Writes (Pure.pure value) ([] : List τ) (.ok value : Except ε α) :=
  const (.ok value)

theorem throw (error : ε)
    : Writes (MonadExcept.throw error) ([] : List τ) (.error error : Except ε α) :=
  const (.error error)

theorem append (added : List τ)
    : Writes (modify (· ++ added)) added (.ok PUnit.unit : Except ε PUnit) :=
  fun _ => rfl

/-- A program goes on where its first part returns. -/
theorem bind {value : α} {next : α → EStateM ε (List τ) β} {ended : Except ε β}
    (first : Writes program added (.ok value)) (rest : Writes (next value) later ended)
    : Writes (program >>= next) (added ++ later) ended := by
  intro trace
  rw [bind_eq_of_ok (first trace), rest, List.append_assoc]

theorem bind_quiet {value : α} {next : α → EStateM ε (List τ) β} {ended : Except ε β}
    (first : Writes program added (.ok value)) (rest : Writes (next value) [] ended)
    : Writes (program >>= next) added ended := by
  have both := bind first rest
  rw [List.append_nil] at both
  exact both

/-- A program ends where its first part raises. -/
theorem bind_error {error : ε} {next : α → EStateM ε (List τ) β}
    (first : Writes program added (.error error))
    : Writes (program >>= next) added (.error error) :=
  fun trace => bind_eq_of_error (first trace)

/-- A program goes on with what a call returns. -/
theorem const_bind {value : α} {next : α → EStateM ε (List τ) β} {ended : Except ε β}
    (returned : out = .ok value) (rest : Writes (next value) added ended)
    : Writes (query (fun _ => out) >>= next) added ended := by
  rw [returned]
  exact bind (const _) rest

/-- A program ends with what a call raises. -/
theorem const_bind_error {error : ε} (raised : out = .error error)
    (next : α → EStateM ε (List τ) β)
    : Writes (query (fun _ => out) >>= next) [] (.error error) := by
  rw [raised]
  exact bind_error (const _)

theorem map (writes : Writes program added out) (f : α → β)
    : Writes (program >>= fun value => Pure.pure (f value)) added (out.map f) := by
  cases out with
  | error error => exact bind_error writes
  | ok value => exact bind_quiet writes (pure (f value))

theorem tryCatch {value : α} {handler : ε → EStateM ε (List τ) α}
    (returns : Writes program added (.ok value))
    : Writes (MonadExcept.tryCatch program handler) added (.ok value) := by
  intro trace
  rw [tryCatch_apply, returns trace]
  rfl

theorem tryCatch_error {error : ε} {handler : ε → EStateM ε (List τ) α} {ended : Except ε α}
    (raises : Writes program added (.error error)) (handled : Writes (handler error) later ended)
    : Writes (MonadExcept.tryCatch program handler) (added ++ later) ended := by
  intro trace
  rw [tryCatch_apply, raises trace]
  exact (handled _).trans (by rw [List.append_assoc])

/-- What a program adds and how it ends is determined. -/
theorem unique {other : List τ} {ended : Except ε α} (left : Writes program added out)
    (right : Writes program other ended)
    : added = other ∧ out = ended :=
  ⟨(left.after []).symm.trans (right.after []), (left.outcome []).symm.trans (right.outcome [])⟩

end Writes

end Py
