import Pyverge.Py.Effects

/-! Programs that may run out of a resource, as a call stack, which shows as one error.
What such a program does is compared with a loop over the calls that it makes, whatever it returns.
-/

namespace Py

variable {ε σ α β : Type}

-----------------------------------------------------------------------------------------
-- What a program does
-----------------------------------------------------------------------------------------

/-- The program without what it returns. -/
def effect (program : EStateM ε σ α) : EStateM ε σ PUnit := do
  let _ ← program
  return ⟨⟩

@[simp]
theorem effect_pure (value : α) : effect (pure value : EStateM ε σ α) = pure ⟨⟩ := rfl

@[simp]
theorem effect_throw (error : ε) : effect (throw error : EStateM ε σ α) = throw error := rfl

/-- If what follows does the same for every value, it can be told without the value. -/
theorem effect_bind {first : EStateM ε σ α} {next : α → EStateM ε σ β} {rest : EStateM ε σ PUnit}
    (each : ∀ value, effect (next value) = rest)
    : effect (first >>= next) = effect first >>= fun _ => rest := by
  unfold effect at each ⊢
  rw [bind_assoc, bind_assoc]
  congr 1
  funext value
  rw [each value, pure_bind]

/-- Computing a result from a value does nothing. -/
@[simp]
theorem effect_map (first : EStateM ε σ α) (result : α → β)
    : effect (first >>= fun value => pure (result value)) = effect first := by
  rw [effect_bind (fun _ => effect_pure _)]
  exact bind_pure _

theorem effect_mapM {body : α → EStateM ε σ β} {step : α → EStateM ε σ PUnit}
    (each : ∀ item, effect (body item) = step item) (items : List α)
    : effect (items.mapM body) = items.forM step := by
  induction items with
  | nil => rfl
  | cons item rest ih =>
      rw [List.mapM_cons, effect_bind (fun _ => effect_map _ _), ih, each]
      rfl

/-- A loop whose steps do the same whatever was computed before. -/
theorem effect_foldlM {body : β → α → EStateM ε σ β} {step : α → EStateM ε σ PUnit}
    (each : ∀ value item, effect (body value item) = step item) (items : List α) (start : β)
    : effect (items.foldlM body start) = items.forM step := by
  induction items generalizing start with
  | nil => rfl
  | cons item rest ih =>
      rw [List.foldlM_cons, effect_bind (fun value => ih value), each]
      rfl

theorem after_effect (program : EStateM ε σ α) (state : σ)
    : after (effect program) state = after program state := by
  unfold effect
  unfold after
  rw [bind_apply]
  cases program state <;> rfl

/-- What a program keeps, it keeps whatever it returns. -/
theorem preserves_effect {Inv : σ → Prop} {program : EStateM ε σ α}
    : Preserves Inv (effect program) ↔ Preserves Inv program := by
  unfold Preserves
  simp only [after_effect]

theorem Preserves.foldlM {Inv : σ → Prop} {body : β → α → EStateM ε σ β} {items : List α}
    (kept : ∀ value, ∀ item ∈ items, Preserves Inv (body value item)) (start : β)
    : Preserves Inv (items.foldlM body start) := by
  induction items generalizing start with
  | nil => exact .pure Inv start
  | cons item rest ih =>
      rw [List.foldlM_cons]
      refine .bind (kept start item List.mem_cons_self) (fun value => ih (fun value other member =>
        kept value other (List.mem_cons_of_mem _ member)) value)

theorem effect_ok {program : EStateM ε σ α} {state final : σ} {result : PUnit}
    : effect program state = .ok result final ↔ ∃ value, program state = .ok value final := by
  unfold effect
  rw [bind_apply]
  cases program state with
  | ok value reached => simp [pure_apply]
  | error raised reached => simp

theorem effect_error {program : EStateM ε σ α} {state final : σ} {error : ε}
    : effect program state = .error error final ↔ program state = .error error final := by
  unfold effect
  rw [bind_apply]
  cases program state with
  | ok value reached => simp [pure_apply]
  | error raised reached => simp

theorem forM_concat (body : α → EStateM ε σ PUnit) (earlier later : List α)
    : (earlier ++ later).forM body = earlier.forM body >>= fun _ => later.forM body :=
  List.forM_append

theorem forM_flatMap {body : β → EStateM ε σ PUnit} {each : α → List β} (items : List α)
    : (items.flatMap each).forM body = items.forM (fun item => (each item).forM body) := by
  induction items with
  | nil => rfl
  | cons item rest ih =>
      rw [List.flatMap_cons, forM_concat, ih]
      rfl

/-- A loop that returns has made every call of it. -/
theorem forM_ok {body : α → EStateM ε σ PUnit} {items : List α} {state final : σ} {result : PUnit}
    (run : items.forM body state = .ok result final)
    : ∀ item ∈ items, ∃ before after, body item before = .ok ⟨⟩ after := by
  induction items generalizing state with
  | nil => simp
  | cons item rest ih =>
      obtain ⟨_, middle, first, later⟩ := bind_ok.mp run
      exact List.forall_mem_cons.mpr ⟨⟨state, middle, first⟩, ih later⟩

theorem foldlM_ok {body : β → α → EStateM ε σ β} {items : List α} {start result : β}
    {state final : σ} (run : items.foldlM body start state = .ok result final)
    : ∀ item ∈ items, ∃ value next before after, body value item before = .ok next after := by
  induction items generalizing start state with
  | nil => simp
  | cons item rest ih =>
      rw [List.foldlM_cons] at run
      obtain ⟨next, middle, first, later⟩ := bind_ok.mp run
      exact List.forall_mem_cons.mpr ⟨⟨start, next, state, middle, first⟩, ih later⟩

/-- What is told of each result of a loop is told of the list of them. -/
theorem map_of_mapM {γ : Type} {view : β → γ} {expected : α → γ} {body : α → EStateM ε σ β}
    (each : ∀ item value before after,
      body item before = .ok value after → view value = expected item)
    {items : List α} {values : List β} {state final : σ}
    (run : items.mapM body state = .ok values final)
    : values.map view = items.map expected := by
  induction items generalizing state values final with
  | nil =>
      obtain ⟨rfl, _⟩ := EStateM.Result.ok.inj run
      rfl
  | cons item rest ih =>
      rw [List.mapM_cons] at run
      obtain ⟨value, middle, first, later⟩ := bind_ok.mp run
      obtain ⟨others, reached, ran, ended⟩ := bind_ok.mp later
      obtain ⟨rfl, _⟩ := EStateM.Result.ok.inj ended
      rw [List.map_cons, List.map_cons, each item value state middle first, ih ran]

-----------------------------------------------------------------------------------------
-- Running out
-----------------------------------------------------------------------------------------

/-- Every run returns, or raises the error where that may be. -/
def Stops (error : ε) (may : Prop) (program : EStateM ε σ α) : Prop :=
  ∀ state, (∃ value final, program state = .ok value final)
    ∨ (may ∧ ∃ final, program state = .error error final)

variable {error : ε} {may : Prop}

theorem Stops.pure (value : α) : Stops error may (Pure.pure value : EStateM ε σ α) :=
  fun state => Or.inl ⟨value, state, rfl⟩

theorem Stops.modify (update : σ → σ)
    : Stops error may (modify update : EStateM ε σ PUnit) :=
  fun state => Or.inl ⟨⟨⟩, update state, rfl⟩

theorem Stops.throw (holds : may) : Stops error may (MonadExcept.throw error : EStateM ε σ α) :=
  fun state => Or.inr ⟨holds, state, rfl⟩

theorem Stops.const {answer : Except ε α} {value : α} (returned : answer = .ok value)
    : Stops error may (query (fun _ : σ => answer)) := by
  intro state
  exact Or.inl ⟨value, state, query_ok.mpr ⟨returned, rfl⟩⟩

/-- The rest of the program runs on what the first part has returned. -/
theorem Stops.bind {first : EStateM ε σ α} {next : α → EStateM ε σ β}
    (stops : Stops error may first)
    (later : ∀ value before after, first before = .ok value after → Stops error may (next value))
    : Stops error may (first >>= next) := by
  intro state
  rcases stops state with returned | raised
  · obtain ⟨value, middle, ran⟩ := returned
    rw [bind_eq_of_ok ran]
    exact later value state middle ran middle
  · obtain ⟨holds, final, ran⟩ := raised
    exact Or.inr ⟨holds, final, bind_eq_of_error ran⟩

theorem Stops.imp {program : EStateM ε σ α} {other : Prop} (stops : Stops error may program)
    (weaker : may → other)
    : Stops error other program := by
  intro state
  rcases stops state with returned | raised
  · exact Or.inl returned
  · exact Or.inr ⟨weaker raised.1, raised.2⟩

theorem stops_effect {program : EStateM ε σ α}
    : Stops error may (effect program) ↔ Stops error may program := by
  unfold Stops
  simp only [effect_ok, effect_error]
  apply forall_congr'
  intro state
  apply or_congr_left
  constructor
  · intro given
    obtain ⟨_, final, value, ran⟩ := given
    exact ⟨value, final, ran⟩
  · intro given
    obtain ⟨value, final, ran⟩ := given
    exact ⟨⟨⟩, final, value, ran⟩

theorem Stops.forM {body : α → EStateM ε σ PUnit} {items : List α}
    (each : ∀ item ∈ items, Stops error may (body item))
    : Stops error may (items.forM body) := by
  induction items with
  | nil => exact .pure PUnit.unit
  | cons item rest ih =>
      have both := List.forall_mem_cons.mp each
      exact both.1.bind (fun _ _ _ _ => ih both.2)

theorem Stops.foldlM {body : β → α → EStateM ε σ β} {items : List α}
    (each : ∀ item ∈ items, ∀ value, Stops error may (body value item)) (start : β)
    : Stops error may (items.foldlM body start) := by
  induction items generalizing start with
  | nil => exact .pure start
  | cons item rest ih =>
      have both := List.forall_mem_cons.mp each
      rw [List.foldlM_cons]
      exact (both.1 start).bind (fun value _ _ _ => ih both.2 value)

/-- A handler that raises the error again changes nothing where the program raises nothing else. -/
theorem Stops.tryCatch {program : EStateM ε σ α} {handler : ε → EStateM ε σ α}
    (stops : Stops error may program) (again : handler error = MonadExcept.throw error)
    : Stops error may (tryCatch program handler) := by
  intro state
  rw [tryCatch_apply]
  rcases stops state with returned | raised
  · obtain ⟨value, final, ran⟩ := returned
    exact Or.inl ⟨value, final, by rw [ran]⟩
  · obtain ⟨holds, final, ran⟩ := raised
    refine Or.inr ⟨holds, final, ?_⟩
    rw [ran]
    exact congrFun again final

/-- Every run raises the error. -/
def Exhausts (error : ε) (program : EStateM ε σ α) : Prop :=
  ∀ state, ∃ final, program state = .error error final

theorem Exhausts.bind {first : EStateM ε σ α} (exhausts : Exhausts error first)
    (next : α → EStateM ε σ β)
    : Exhausts error (first >>= next) := by
  intro state
  obtain ⟨final, ran⟩ := exhausts state
  exact ⟨final, bind_eq_of_error ran⟩

/-- The rest of the program raises the error, if it is reached. -/
theorem Exhausts.bind_right {first : EStateM ε σ α} {next : α → EStateM ε σ β}
    (stops : Stops error True first) (exhausts : ∀ value, Exhausts error (next value))
    : Exhausts error (first >>= next) := by
  intro state
  rcases stops state with returned | raised
  · obtain ⟨value, middle, ran⟩ := returned
    rw [bind_eq_of_ok ran]
    exact exhausts value middle
  · obtain ⟨_, final, ran⟩ := raised
    exact ⟨final, bind_eq_of_error ran⟩

theorem exhausts_effect {program : EStateM ε σ α}
    : Exhausts error (effect program) ↔ Exhausts error program := by
  unfold Exhausts
  simp only [effect_error]

/-- A loop raises the error that one of its calls always raises, if no earlier one raises
another.
-/
theorem Exhausts.forM {body : α → EStateM ε σ PUnit} {earlier later : List α} {item : α}
    (stops : ∀ other ∈ earlier, Stops error True (body other))
    (exhausts : Exhausts error (body item))
    : Exhausts error ((earlier ++ item :: later).forM body) := by
  rw [forM_concat]
  exact .bind_right (.forM stops) (fun _ => exhausts.bind _)

/-- No run raises the error. -/
def Avoids (error : ε) (program : EStateM ε σ α) : Prop :=
  ∀ state final, program state ≠ .error error final

theorem Stops.avoids {program : EStateM ε σ α} (stops : Stops error False program)
    : Avoids error program := by
  intro state final raised
  rcases stops state with returned | never
  · obtain ⟨value, reached, ran⟩ := returned
    rw [ran] at raised
    cases raised
  · exact never.1

theorem avoids_effect {program : EStateM ε σ α}
    : Avoids error (effect program) ↔ Avoids error program := by
  unfold Avoids
  simp only [ne_eq, effect_error]

theorem Avoids.bind {first : EStateM ε σ α} {next : α → EStateM ε σ β}
    (avoids : Avoids error first) (later : ∀ value, Avoids error (next value))
    : Avoids error (first >>= next) := by
  intro state final raised
  cases ran : first state with
  | ok value middle =>
      rw [bind_eq_of_ok ran] at raised
      exact later value middle final raised
  | error other middle =>
      rw [bind_eq_of_error ran] at raised
      obtain ⟨rfl, rfl⟩ := EStateM.Result.error.inj raised
      exact avoids state middle ran

theorem Avoids.forM {body : α → EStateM ε σ PUnit} {items : List α}
    (each : ∀ item ∈ items, Avoids error (body item))
    : Avoids error (items.forM body) := by
  induction items with
  | nil => exact (Stops.pure PUnit.unit).avoids
  | cons item rest ih =>
      have both := List.forall_mem_cons.mp each
      exact both.1.bind (fun _ => ih both.2)

/-- Nothing is run after a call that raises another error. -/
theorem Avoids.forM_before (body : α → EStateM ε σ PUnit) {earlier : List α} {item : α}
    {other : ε} (each : ∀ item ∈ earlier, Avoids error (body item))
    (raises : Exhausts other (body item)) (apart : other ≠ error) (later : List α)
    (next : PUnit → EStateM ε σ β)
    : Avoids error ((earlier ++ item :: later).forM body >>= next) := by
  rw [forM_concat, bind_assoc]
  refine (Avoids.forM each).bind (fun _ state final raised => ?_)
  have exhausts : Exhausts other ((item :: later).forM body) := raises.bind _
  obtain ⟨reached, ran⟩ := exhausts.bind next state
  exact apart (EStateM.Result.error.inj (ran.symm.trans raised)).1

end Py
