import Pyverge.Py.Effects

/-! Programs that raise without a trace, and loops that read what to visit.
Where a program raises in the state it started from, a caller that catches the error may go on as if
nothing had been called.
-/

namespace Py

variable {ε σ α β : Type}

-----------------------------------------------------------------------------------------
-- Rolling back
-----------------------------------------------------------------------------------------

/-- Where the program raises, it leaves the state it started from. -/
def RollsBack (program : EStateM ε σ α) (state : σ) : Prop :=
  ∀ error final, program state = .error error final → final = state

/-- The program returns in a state with a property, or raises in the state it started from. -/
def Atomic (Post : σ → Prop) (program : EStateM ε σ α) (state : σ) : Prop :=
  (∃ value final, program state = .ok value final ∧ Post final)
    ∨ ∃ error, program state = .error error state

variable {Post : σ → Prop} {program : EStateM ε σ α} {state : σ}

theorem RollsBack.of_error {error : ε} (run : program state = .error error state)
    : RollsBack program state := by
  intro raised final again
  exact (EStateM.Result.error.inj (again.symm.trans run)).2

theorem Atomic.rollsBack (atomic : Atomic Post program state) : RollsBack program state := by
  rcases atomic with ⟨value, final, run, _⟩ | ⟨error, run⟩
  · intro raised reached again
    cases run.symm.trans again
  · exact .of_error run

/-- A property that holds before an atomic program holds after it. -/
theorem Atomic.after (atomic : Atomic Post program state) (holds : Post state)
    : Post (Py.after program state) := by
  rcases atomic with ⟨value, final, run, reached⟩ | ⟨error, run⟩
  · rwa [after_of_ok run]
  · rwa [after_of_error run]

theorem Atomic.query_bind {read : σ → Except ε α} {next : α → EStateM ε σ β}
    (later : ∀ value, read state = .ok value → Atomic Post (next value) state)
    : Atomic Post (query read >>= next) state := by
  unfold Atomic
  rw [query_bind_eq]
  cases found : read state with
  | error error => exact .inr ⟨error, rfl⟩
  | ok value => exact later value found

/-- Dropping what an atomic program returns. -/
theorem Atomic.drop (atomic : Atomic Post program state) (value : β)
    : Atomic Post (program >>= fun _ => pure value) state := by
  rcases atomic with ⟨found, final, run, reached⟩ | ⟨error, run⟩
  · exact .inl ⟨value, final, bind_eq_of_ok run, reached⟩
  · exact .inr ⟨error, bind_eq_of_error run⟩

theorem exists_ok_of_outcome (ok : (Py.outcome program state).isOk = true)
    : ∃ value final, program state = .ok value final := by
  cases run : program state with
  | ok value final => exact ⟨value, final, rfl⟩
  | error error final =>
      rw [Py.outcome, run] at ok
      cases ok

-----------------------------------------------------------------------------------------
-- Loops over what is read
-----------------------------------------------------------------------------------------

theorem forM_append (body : α → EStateM ε σ PUnit) (first second : List α) (state : σ)
    : (first ++ second).forM body state
      = (first.forM body >>= fun _ => second.forM body) state := by
  induction first generalizing state with
  | nil => rfl
  | cons item rest ih =>
      change (body item >>= fun _ => (rest ++ second).forM body) state
        = ((body item >>= fun _ => rest.forM body) >>= fun _ => second.forM body) state
      simp only [bind_apply]
      cases body item state with
      | error error reached => rfl
      | ok value reached =>
          refine (ih reached).trans ?_
          rw [bind_apply]

/-- Visit what is read for an item. -/
def visitAll {γ : Type} (read : α → σ → List β) (visit : α → β → γ)
    (body : γ → EStateM ε σ PUnit) (item : α) : EStateM ε σ PUnit := do
  let found ← query (fun state => .ok (read item state))
  found.forM (fun own => body (visit item own))

/-- Loops that read what to visit visit what is read at first, if nothing they do changes that. -/
theorem forM_visitAll {γ : Type} {read : α → σ → List β} {visit : α → β → γ}
    {body : γ → EStateM ε σ PUnit} (kept : ∀ visited item, Keeps (read item) (body visited))
    (items : List α) (state : σ)
    : items.forM (visitAll read visit body) state
      = (items.flatMap (fun item => (read item state).map (visit item))).forM body state := by
  have inner : ∀ (item : α) (found : List β),
      (found.map (visit item)).forM body = found.forM (fun own => body (visit item own)) := by
    intro item found
    induction found with
    | nil => rfl
    | cons own rest ih => exact congrArg (fun later => body (visit item own) >>= fun _ => later) ih
  have steady : ∀ (item : α) (found : List β) (other : α),
      Keeps (read other) (found.forM (fun own => body (visit item own))) := by
    intro item found other
    refine keeps_iff_preserves.mpr (fun value => .forM _ (fun own _ => ?_))
    exact keeps_iff_preserves.mp (kept (visit item own) other) value
  induction items generalizing state with
  | nil => rfl
  | cons item rest ih =>
      have first : visitAll read visit body item state
          = (read item state).forM (fun own => body (visit item own)) state :=
        query_bind_eq _ _ state
      rw [List.flatMap_cons, forM_append, inner, bind_apply]
      refine (bind_apply (visitAll read visit body item) _ state).trans ?_
      rw [first]
      cases ran : (read item state).forM (fun own => body (visit item own)) state with
      | error error reached => rfl
      | ok value reached =>
          refine (ih reached).trans ?_
          have same : ∀ other, read other reached = read other state := by
            intro other
            rw [← after_of_ok ran]
            exact steady item _ other state
          simp only [same]

end Py
