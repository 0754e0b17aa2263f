import Mathlib.Data.List.Forall2
import Mathlib.Logic.Basic

/-! Fallible stateful computations keep the state they have reached when they raise.
An invariant of such a program must therefore hold on the value path and on the error path.
-/

namespace Py

variable {ε σ α β : Type}

-----------------------------------------------------------------------------------------
-- Queries and final states
-----------------------------------------------------------------------------------------

/-- A fallible read of the current state, which is left as it was. -/
def query (read : σ → Except ε α) : EStateM ε σ α := fun state =>
  match read state with
  | .ok value => .ok value state
  | .error error => .error error state

/-- The state in which a computation stops, whether it returns or raises. -/
def after (program : EStateM ε σ α) (state : σ) : σ :=
  match program state with
  | .ok _ final => final
  | .error _ final => final

theorem after_of_ok {program : EStateM ε σ α} {state final : σ} {value : α}
    (run : program state = .ok value final)
    : after program state = final := by
  simp only [after, run]

theorem after_of_error {program : EStateM ε σ α} {state final : σ} {error : ε}
    (run : program state = .error error final)
    : after program state = final := by
  simp only [after, run]

/-- Equal outcomes stop in equal states, also when they start in different ones. -/
theorem after_eq {program other : EStateM ε σ α} {state start : σ}
    (run : program state = other start)
    : after program state = after other start := by
  simp only [after, run]

@[simp]
theorem after_pure (value : α) (state : σ)
    : after (pure value : EStateM ε σ α) state = state := rfl

@[simp]
theorem after_throw (error : ε) (state : σ)
    : after (throw error : EStateM ε σ α) state = state := rfl

@[simp]
theorem after_query (read : σ → Except ε α) (state : σ)
    : after (query read) state = state := by
  unfold after query
  cases read state <;> rfl

-- Symbolic execution: how a computation runs from a given state.

theorem bind_apply (first : EStateM ε σ α) (next : α → EStateM ε σ β) (state : σ)
    : (first >>= next) state
      = match first state with
        | .ok value reached => next value reached
        | .error error reached => .error error reached := by
  change EStateM.bind first next state = _
  unfold EStateM.bind
  cases first state <;> rfl

theorem pure_apply (value : α) (state : σ)
    : (pure value : EStateM ε σ α) state = .ok value state := rfl

theorem throw_apply (error : ε) (state : σ)
    : (throw error : EStateM ε σ α) state = .error error state := rfl

theorem tryCatch_apply (program : EStateM ε σ α) (handler : ε → EStateM ε σ α) (state : σ)
    : (tryCatch program handler : EStateM ε σ α) state
      = match program state with
        | .ok value reached => .ok value reached
        | .error error reached => handler error reached := by
  change EStateM.tryCatch program handler state = _
  unfold EStateM.tryCatch
  cases program state <;> rfl

theorem modify_apply (update : σ → σ) (state : σ)
    : (modify update : EStateM ε σ PUnit) state = .ok PUnit.unit (update state) := rfl

theorem get_apply (state : σ) : (get : EStateM ε σ σ) state = .ok state state := rfl

theorem query_apply (read : σ → Except ε α) (state : σ)
    : query read state
      = match read state with
        | .ok value => .ok value state
        | .error error => .error error state := rfl

theorem query_ok {read : σ → Except ε α} {state final : σ} {value : α}
    : query read state = .ok value final ↔ read state = .ok value ∧ final = state := by
  unfold query
  cases read state with
  | ok found => simp [eq_comm]
  | error raised => simp

theorem query_bind_eq (read : σ → Except ε α) (next : α → EStateM ε σ β) (state : σ)
    : (query read >>= next) state
      = match read state with
        | .ok value => next value state
        | .error error => .error error state := by
  change EStateM.bind (query read) next state = _
  unfold EStateM.bind query
  cases read state <;> rfl

theorem after_query_bind (read : σ → Except ε α) (next : α → EStateM ε σ β) (state : σ)
    : after (query read >>= next) state
      = match read state with
        | .ok value => after (next value) state
        | .error _ => state := by
  unfold after
  rw [query_bind_eq]
  cases read state <;> rfl

theorem after_modify_bind (update : σ → σ) (next : PUnit → EStateM ε σ β) (state : σ)
    : after (modify update >>= next) state = after (next ⟨⟩) (update state) := rfl

theorem bind_ok {first : EStateM ε σ α} {next : α → EStateM ε σ β} {state final : σ} {value : β}
    : (first >>= next) state = .ok value final
      ↔ ∃ middle reached, first state = .ok middle reached
          ∧ next middle reached = .ok value final := by
  change EStateM.bind first next state = _ ↔ _
  unfold EStateM.bind
  cases first state with
  | ok found reached =>
      constructor
      · intro run
        exact ⟨found, reached, rfl, run⟩
      · rintro ⟨_, _, ⟨rfl, rfl⟩, run⟩
        exact run
  | error raised reached => simp

theorem query_bind_ok {read : σ → Except ε α} {next : α → EStateM ε σ β} {state final : σ}
    {value : β}
    : (query read >>= next) state = .ok value final
      ↔ ∃ seen, read state = .ok seen ∧ next seen state = .ok value final := by
  rw [query_bind_eq]
  cases read state <;> simp

theorem modify_bind_ok {update : σ → σ} {next : PUnit → EStateM ε σ β} {state final : σ}
    {value : β}
    : (modify update >>= next) state = .ok value final
      ↔ next ⟨⟩ (update state) = .ok value final := Iff.rfl

theorem bind_eq_of_ok {first : EStateM ε σ α} {next : α → EStateM ε σ β} {state middle : σ}
    {value : α} (run : first state = .ok value middle)
    : (first >>= next) state = next value middle := by
  rw [bind_apply, run]

theorem bind_eq_of_error {first : EStateM ε σ α} {next : α → EStateM ε σ β} {state middle : σ}
    {raised : ε} (run : first state = .error raised middle)
    : (first >>= next) state = .error raised middle := by
  rw [bind_apply, run]

/-- Programs that go on alike from every result of their first part are equal. -/
theorem bind_congr_of_ok {first : EStateM ε σ α} {next other : α → EStateM ε σ β}
    (same : ∀ state value final, first state = .ok value final → next value = other value)
    : first >>= next = first >>= other := by
  funext state
  rw [bind_apply, bind_apply]
  cases run : first state with
  | ok value reached => simp only [same state value reached run]
  | error error reached => rfl

/-- A loop whose first step returns goes on from the state that step has reached. -/
theorem forM_cons_ok {body : α → EStateM ε σ PUnit} {item : α} {rest : List α}
    {state middle : σ} (run : body item state = .ok ⟨⟩ middle)
    : (item :: rest).forM body state = rest.forM body middle :=
  bind_eq_of_ok run

/-- A loop whose steps all return without a change does the same. -/
theorem forM_fixed {body : α → EStateM ε σ PUnit} {items : List α} {state : σ}
    (fixed : ∀ item ∈ items, body item state = .ok ⟨⟩ state)
    : items.forM body state = .ok ⟨⟩ state := by
  induction items with
  | nil => rfl
  | cons item rest ih =>
      rw [forM_cons_ok (fixed item (by simp))]
      exact ih (fun other member => fixed other (List.mem_cons_of_mem _ member))

/-- A loop does not need the items whose steps change nothing, where the others keep what that
depends on.
-/
theorem forM_filter {body : α → EStateM ε σ PUnit} {needed : α → Bool} {Inv : σ → Prop}
    (idle : ∀ item state, needed item = false → Inv state → body item state = .ok ⟨⟩ state)
    (kept : ∀ item state next, Inv state → body item state = .ok ⟨⟩ next → Inv next)
    (items : List α) {state : σ} (holds : Inv state)
    : items.forM body state = (items.filter needed).forM body state := by
  induction items generalizing state with
  | nil => rfl
  | cons item rest ih =>
      cases need : needed item with
      | false =>
          rw [List.filter_cons_of_neg (by simp [need]), forM_cons_ok (idle item state need holds)]
          exact ih holds
      | true =>
          rw [List.filter_cons_of_pos need]
          cases run : body item state with
          | ok value middle =>
              rw [forM_cons_ok run, forM_cons_ok run]
              exact ih (kept item state middle holds run)
          | error raised middle =>
              exact (bind_eq_of_error run).trans (bind_eq_of_error run).symm

-----------------------------------------------------------------------------------------
-- Invariant rules
-----------------------------------------------------------------------------------------

/-- Every run of the program from a state satisfying `Inv` stops in such a state. -/
def Preserves (Inv : σ → Prop) (program : EStateM ε σ α) : Prop :=
  ∀ state, Inv state → Inv (after program state)

theorem Preserves.pure (Inv : σ → Prop) (value : α)
    : Preserves Inv (Pure.pure value : EStateM ε σ α) :=
  fun _ holds => holds

theorem Preserves.throw (Inv : σ → Prop) (error : ε)
    : Preserves Inv (MonadExcept.throw error : EStateM ε σ α) :=
  fun _ holds => holds

/-- A raised error skips the rest of the program. -/
theorem Preserves.throw_bind (Inv : σ → Prop) (error : ε) (next : α → EStateM ε σ β)
    : Preserves Inv (MonadExcept.throw error >>= next) :=
  fun _ holds => holds

theorem Preserves.query (Inv : σ → Prop) (read : σ → Except ε α)
    : Preserves Inv (Py.query read) := by
  intro state holds
  rwa [after_query]

theorem Preserves.modify {Inv : σ → Prop} {update : σ → σ}
    (kept : ∀ state, Inv state → Inv (update state))
    : Preserves Inv (modify update : EStateM ε σ PUnit) :=
  fun state holds => kept state holds

/-- What holds where the first part stops leads to what holds where the whole stops, by cases on
the first outcome.
-/
theorem after_bind_of {Mid Post : σ → Prop} {first : EStateM ε σ α} {next : α → EStateM ε σ β}
    {state : σ} (reached : Mid (after first state)) (early : ∀ state, Mid state → Post state)
    (later : ∀ value state, Mid state → Post (after (next value) state))
    : Post (after (first >>= next) state) := by
  have eq : (first >>= next) state = EStateM.bind first next state := rfl
  unfold after at reached ⊢
  rw [eq]
  unfold EStateM.bind
  cases run : first state with
  | ok value middle =>
      rw [run] at reached
      exact later value middle reached
  | error raised middle =>
      rw [run] at reached
      exact early middle reached

/-- An invariant that the first part has established is kept by the rest. -/
theorem Preserves.after_bind {Inv : σ → Prop} {first : EStateM ε σ α}
    {next : α → EStateM ε σ β} {state : σ} (reached : Inv (after first state))
    (later : ∀ value, Preserves Inv (next value))
    : Inv (after (first >>= next) state) :=
  after_bind_of reached (fun _ holds => holds) later

/-- Sequencing keeps an invariant that both parts keep. -/
theorem Preserves.bind {Inv : σ → Prop} {first : EStateM ε σ α} {next : α → EStateM ε σ β}
    (kept : Preserves Inv first) (later : ∀ value, Preserves Inv (next value))
    : Preserves Inv (first >>= next) :=
  fun state holds => Preserves.after_bind (kept state holds) later

/-- A query leaves the state, and the rest of the program runs on what it found. -/
theorem after_query_bind_of {Post : σ → Prop} {read : σ → Except ε α}
    {next : α → EStateM ε σ β} {state : σ} (early : Post state)
    (later : ∀ value, read state = .ok value → Post (after (next value) state))
    : Post (after (Py.query read >>= next) state) := by
  have eq := query_bind_eq read next state
  cases found : read state with
  | ok value =>
      have done := later value found
      rw [found] at eq
      unfold after at done ⊢
      rwa [eq]
  | error raised =>
      rw [found] at eq
      rwa [after_of_error eq]

/-- After a query the rest of the program may use what the query found in that state. -/
theorem Preserves.query_bind {Inv : σ → Prop} {read : σ → Except ε α}
    {next : α → EStateM ε σ β}
    (kept : ∀ state value,
      Inv state → read state = .ok value → Inv (after (next value) state))
    : Preserves Inv (Py.query read >>= next) := by
  intro state holds
  exact after_query_bind_of holds (fun value => kept state value holds)

theorem Preserves.ite {Inv : σ → Prop} {left right : EStateM ε σ α} (condition : Prop)
    [Decidable condition] (whenTrue : Preserves Inv left) (whenFalse : Preserves Inv right)
    : Preserves Inv (if condition then left else right) := by
  split
  · exact whenTrue
  · exact whenFalse

/-- A loop keeps an invariant that its body keeps, by induction on the visited items. -/
theorem Preserves.forM {Inv : σ → Prop} {body : α → EStateM ε σ PUnit}
    (items : List α) (kept : ∀ item ∈ items, Preserves Inv (body item))
    : Preserves Inv (items.forM body) := by
  induction items with
  | nil => exact Preserves.pure Inv PUnit.unit
  | cons item rest ih =>
      exact Preserves.bind (kept item (by simp))
        (fun _ => ih (fun later member => kept later (List.mem_cons_of_mem item member)))

/-- A handler that keeps the invariant also keeps it after a caught error. -/
theorem Preserves.tryCatch {Inv : σ → Prop} {program : EStateM ε σ α}
    {handler : ε → EStateM ε σ α}
    (kept : Preserves Inv program) (handled : ∀ error, Preserves Inv (handler error))
    : Preserves Inv (tryCatch program handler) := by
  intro state holds
  have reached := kept state holds
  change Inv (after (EStateM.tryCatch program handler) state)
  unfold after at reached ⊢
  unfold EStateM.tryCatch
  cases run : program state with
  | ok value middle =>
      rw [run] at reached
      exact reached
  | error raised middle =>
      rw [run] at reached
      exact handled raised middle reached

-----------------------------------------------------------------------------------------
-- Frame rules
-----------------------------------------------------------------------------------------

variable {τ : Type}

/-- Every run of the program leaves this part of the state as it was. -/
def Keeps (view : σ → τ) (program : EStateM ε σ α) : Prop :=
  ∀ state, view (after program state) = view state

/-- What a program keeps is an invariant of it, whatever the kept value is. -/
theorem keeps_iff_preserves {view : σ → τ} {program : EStateM ε σ α}
    : Keeps view program ↔ ∀ value, Preserves (fun state => view state = value) program := by
  constructor
  · rintro kept value state rfl
    exact kept state
  · intro kept state
    exact kept (view state) state rfl

/-- A program keeps every property of a part of the state that it keeps. -/
theorem Keeps.preserves {view : σ → τ} {program : EStateM ε σ α} (kept : Keeps view program)
    {Inv : σ → Prop} (depends : ∀ before after, view after = view before → Inv before → Inv after)
    : Preserves Inv program :=
  fun state holds => depends state _ (kept state) holds

theorem Keeps.pure (view : σ → τ) (value : α)
    : Keeps view (Pure.pure value : EStateM ε σ α) :=
  fun _ => rfl

theorem Keeps.throw (view : σ → τ) (error : ε)
    : Keeps view (MonadExcept.throw error : EStateM ε σ α) :=
  fun _ => rfl

/-- A raised error skips the rest of the program. -/
theorem Keeps.throw_bind (view : σ → τ) (error : ε) (next : α → EStateM ε σ β)
    : Keeps view (MonadExcept.throw error >>= next) :=
  fun _ => rfl

theorem Keeps.query (view : σ → τ) (read : σ → Except ε α)
    : Keeps view (Py.query read) := by
  intro state
  rw [after_query]

theorem Keeps.modify {view : σ → τ} {update : σ → σ}
    (kept : ∀ state, view (update state) = view state)
    : Keeps view (modify update : EStateM ε σ PUnit) :=
  kept

theorem Keeps.bind {view : σ → τ} {first : EStateM ε σ α} {next : α → EStateM ε σ β}
    (kept : Keeps view first) (later : ∀ value, Keeps view (next value))
    : Keeps view (first >>= next) :=
  keeps_iff_preserves.mpr (fun seen => Preserves.bind (keeps_iff_preserves.mp kept seen)
    (fun value => keeps_iff_preserves.mp (later value) seen))

theorem Keeps.ite {view : σ → τ} {left right : EStateM ε σ α} (condition : Prop)
    [Decidable condition] (whenTrue : Keeps view left) (whenFalse : Keeps view right)
    : Keeps view (if condition then left else right) := by
  split
  · exact whenTrue
  · exact whenFalse

theorem Keeps.forM {view : σ → τ} {body : α → EStateM ε σ PUnit} (items : List α)
    (kept : ∀ item ∈ items, Keeps view (body item))
    : Keeps view (items.forM body) :=
  keeps_iff_preserves.mpr (fun seen => Preserves.forM items
    (fun item member => keeps_iff_preserves.mp (kept item member) seen))

theorem Keeps.tryCatch {view : σ → τ} {program : EStateM ε σ α} {handler : ε → EStateM ε σ α}
    (kept : Keeps view program) (handled : ∀ error, Keeps view (handler error))
    : Keeps view (tryCatch program handler) :=
  keeps_iff_preserves.mpr (fun seen => Preserves.tryCatch (keeps_iff_preserves.mp kept seen)
    (fun error => keeps_iff_preserves.mp (handled error) seen))

-----------------------------------------------------------------------------------------
-- Outcomes
-----------------------------------------------------------------------------------------

/-- Two calls in a row return exactly if both do. -/
theorem ok_bind_iff {first : Except ε α} {next : α → Except ε β} {result : β}
    : (first >>= next) = .ok result ↔ ∃ value, first = .ok value ∧ next value = .ok result := by
  cases first <;> simp [bind, Except.bind]

/-- A loop that collects results returns exactly if each call does, by list induction. -/
theorem mapM_eq_ok_iff {step : α → Except ε β} {items : List α} {results : List β}
    : items.mapM step = .ok results
      ↔ List.Forall₂ (fun item result => step item = .ok result) items results := by
  induction items generalizing results with
  | nil => simp [pure, Except.pure, eq_comm]
  | cons item rest ih =>
      rw [List.mapM_cons]
      cases first : step item with
      | error error =>
          simp only [bind, Except.bind, reduceCtorEq, false_iff]
          rintro (_ | ⟨head, _⟩)
          simp [first] at head
      | ok value =>
          cases later : rest.mapM step with
          | error error =>
              simp only [bind, Except.bind, reduceCtorEq, false_iff]
              rintro (_ | ⟨_, tail⟩)
              simp [ih.mpr tail] at later
          | ok values =>
              simp only [bind, Except.bind, pure, Except.pure, Except.ok.injEq]
              constructor
              · rintro rfl
                exact .cons first (ih.mp later)
              · rintro (_ | ⟨head, tail⟩)
                obtain rfl := Except.ok.inj (head.symm.trans first)
                obtain rfl := Except.ok.inj ((ih.mpr tail).symm.trans later)
                rfl

theorem map_eq_ok {f : α → β} {result : Except ε α} {value : β}
    : result.map f = .ok value ↔ ∃ given, result = .ok given ∧ f given = value := by
  cases result <;> simp [Except.map]

theorem mapError_eq_ok {ε' : Type} {wrap : ε → ε'} {result : Except ε α} {value : α}
    : result.mapError wrap = .ok value ↔ result = .ok value := by
  cases result <;> simp [Except.mapError]

/-- A loop returns if every call of it does. -/
theorem exists_mapM {step : α → Except ε β} {items : List α}
    (every : ∀ item ∈ items, ∃ value, step item = .ok value)
    : ∃ results, items.mapM step = .ok results := by
  induction items with
  | nil => exact ⟨[], rfl⟩
  | cons item rest ih =>
      obtain ⟨value, first⟩ := every item List.mem_cons_self
      obtain ⟨values, later⟩ := ih (fun other member => every other (List.mem_cons_of_mem _ member))
      exact ⟨value :: values, by rw [List.mapM_cons, first, later]; rfl⟩

/-- A loop raises what one of its calls does. -/
theorem exists_of_mapM_error {step : α → Except ε β} {items : List α} {error : ε}
    (raised : items.mapM step = .error error)
    : ∃ item ∈ items, step item = .error error := by
  induction items with
  | nil => cases raised
  | cons item rest ih =>
      rw [List.mapM_cons] at raised
      cases first : step item with
      | error failure =>
          rw [first] at raised
          obtain rfl := Except.error.inj raised
          exact ⟨item, List.mem_cons_self, first⟩
      | ok value =>
          cases later : rest.mapM step with
          | error failure =>
              rw [first, later] at raised
              obtain rfl := Except.error.inj raised
              obtain ⟨other, member, stopped⟩ := ih later
              exact ⟨other, List.mem_cons_of_mem _ member, stopped⟩
          | ok values =>
              rw [first, later] at raised
              cases raised

/-- A loop that returns has called every item, and its results are those of the calls. -/
theorem mapM_eq_map {step : α → Except ε β} (result : α → β) {items : List α} {results : List β}
    (agrees : ∀ item value, step item = .ok value → value = result item)
    (run : items.mapM step = .ok results)
    : results = items.map result ∧ ∀ item ∈ items, step item = .ok (result item) := by
  have calls := mapM_eq_ok_iff.mp run
  induction calls with
  | nil => simp
  | cons head tail ih =>
      obtain rfl := agrees _ _ head
      obtain ⟨rfl, all⟩ := ih (mapM_eq_ok_iff.mpr tail)
      refine ⟨rfl, ?_⟩
      intro item member
      rcases List.mem_cons.mp member with rfl | later
      · exact head
      · exact all item later

/-- What a run returns or raises, without the state it stops in. -/
def outcome (program : EStateM ε σ α) (state : σ) : Except ε α :=
  match program state with
  | .ok value _ => .ok value
  | .error error _ => .error error

/-- What the program returns or raises does not depend on the state, as if it only wrote a
trace.
-/
def Oblivious (program : EStateM ε σ α) : Prop :=
  ∀ state other, outcome program state = outcome program other

theorem run_of_isOk {program : EStateM ε σ PUnit} {state : σ}
    (returned : (outcome program state).isOk = true)
    : program state = .ok ⟨⟩ (after program state) := by
  unfold outcome at returned
  cases run : program state with
  | ok value final =>
      rw [after_of_ok run]
  | error error final =>
      rw [run] at returned
      cases returned

@[simp]
theorem outcome_pure (value : α) (state : σ)
    : outcome (pure value : EStateM ε σ α) state = .ok value := rfl

@[simp]
theorem outcome_throw (error : ε) (state : σ)
    : outcome (throw error : EStateM ε σ α) state = .error error := rfl

@[simp]
theorem outcome_modify (update : σ → σ) (state : σ)
    : outcome (modify update : EStateM ε σ PUnit) state = .ok PUnit.unit := rfl

@[simp]
theorem outcome_query (read : σ → Except ε α) (state : σ)
    : outcome (query read) state = read state := by
  unfold outcome query
  cases read state <;> rfl

theorem outcome_bind (first : EStateM ε σ α) (next : α → EStateM ε σ β) (state : σ)
    : outcome (first >>= next) state
      = (outcome first state).bind (fun value => outcome (next value) (after first state)) := by
  simp only [outcome, after, bind_apply]
  cases first state <;> rfl

theorem outcome_tryCatch (program : EStateM ε σ α) (handler : ε → EStateM ε σ α) (state : σ)
    : outcome (tryCatch program handler) state
      = match outcome program state with
        | .ok value => .ok value
        | .error error => outcome (handler error) (after program state) := by
  change outcome (EStateM.tryCatch program handler) state = _
  simp only [outcome, after, EStateM.tryCatch]
  cases program state <;> rfl

/-- After an oblivious continuation only the outcome of the first part matters. -/
theorem outcome_bind_of_oblivious {first : EStateM ε σ α} {next : α → EStateM ε σ β}
    (oblivious : ∀ value, Oblivious (next value)) (state : σ)
    : outcome (first >>= next) state
      = (outcome first state).bind (fun value => outcome (next value) state) := by
  rw [outcome_bind]
  congr 1
  funext value
  exact oblivious value _ _

theorem Oblivious.pure (value : α) : Oblivious (Pure.pure value : EStateM ε σ α) :=
  fun _ _ => rfl

theorem Oblivious.throw (error : ε)
    : Oblivious (MonadExcept.throw error : EStateM ε σ α) :=
  fun _ _ => rfl

theorem Oblivious.modify (update : σ → σ)
    : Oblivious (modify update : EStateM ε σ PUnit) :=
  fun _ _ => rfl

theorem Oblivious.const (value : Except ε α) : Oblivious (query (fun _ : σ => value)) := by
  intro state other
  rw [outcome_query, outcome_query]

theorem Oblivious.bind {first : EStateM ε σ α} {next : α → EStateM ε σ β}
    (oblivious : Oblivious first) (later : ∀ value, Oblivious (next value))
    : Oblivious (first >>= next) := by
  intro state other
  rw [outcome_bind_of_oblivious later, outcome_bind_of_oblivious later, oblivious state other]
  congr 1
  funext value
  exact later value _ _

theorem Oblivious.tryCatch {program : EStateM ε σ α} {handler : ε → EStateM ε σ α}
    (oblivious : Oblivious program) (handled : ∀ error, Oblivious (handler error))
    : Oblivious (tryCatch program handler) := by
  intro state other
  rw [outcome_tryCatch, outcome_tryCatch, oblivious state other]
  cases outcome program other with
  | ok value => rfl
  | error error => exact handled error _ _

theorem Oblivious.ite {left right : EStateM ε σ α} (condition : Prop) [Decidable condition]
    (whenTrue : Oblivious left) (whenFalse : Oblivious right)
    : Oblivious (if condition then left else right) := by
  split
  · exact whenTrue
  · exact whenFalse

theorem Oblivious.forM {body : α → EStateM ε σ PUnit} (oblivious : ∀ item, Oblivious (body item))
    (items : List α)
    : Oblivious (items.forM body) := by
  induction items with
  | nil => exact .pure _
  | cons item rest ih => exact .bind (oblivious item) (fun _ => ih)

theorem Oblivious.mapM {body : α → EStateM ε σ β} (oblivious : ∀ item, Oblivious (body item))
    (items : List α)
    : Oblivious (items.mapM body) := by
  induction items with
  | nil => exact .pure _
  | cons item rest ih =>
      rw [List.mapM_cons]
      exact .bind (oblivious item) (fun _ => .bind ih (fun _ => .pure _))

/-- The outcome of a loop that collects results is the outcome of collecting outcomes. -/
theorem outcome_mapM {body : α → EStateM ε σ β} (oblivious : ∀ item, Oblivious (body item))
    (items : List α) (state : σ)
    : outcome (items.mapM body) state = items.mapM (fun item => outcome (body item) state) := by
  induction items with
  | nil => rfl
  | cons item rest ih =>
      have tail := Oblivious.mapM oblivious rest
      rw [List.mapM_cons, List.mapM_cons,
        outcome_bind_of_oblivious (fun _ => .bind tail (fun _ => .pure _))]
      congr 1
      funext value
      rw [outcome_bind_of_oblivious (fun _ => .pure _), ih]
      rfl

-----------------------------------------------------------------------------------------
-- Programs that never raise
-----------------------------------------------------------------------------------------

/-- The program returns from every state. -/
def Returns (program : EStateM ε σ α) : Prop :=
  ∀ state, ∃ value final, program state = .ok value final

theorem Returns.pure (value : α) : Returns (Pure.pure value : EStateM ε σ α) :=
  fun state => ⟨value, state, rfl⟩

theorem Returns.modify (update : σ → σ) : Returns (modify update : EStateM ε σ PUnit) :=
  fun state => ⟨⟨⟩, update state, rfl⟩

theorem Returns.bind {first : EStateM ε σ α} {next : α → EStateM ε σ β} (returns : Returns first)
    (later : ∀ value, Returns (next value))
    : Returns (first >>= next) := by
  intro state
  obtain ⟨value, middle, ran⟩ := returns state
  obtain ⟨result, final, ended⟩ := later value middle
  exact ⟨result, final, (bind_eq_of_ok ran).trans ended⟩

/-- A handler that never raises answers for whatever it guards. -/
theorem Returns.tryCatch (program : EStateM ε σ α) {handler : ε → EStateM ε σ α}
    (returns : ∀ error, Returns (handler error))
    : Returns (tryCatch program handler) := by
  intro state
  rw [tryCatch_apply]
  cases program state with
  | ok value final => exact ⟨value, final, rfl⟩
  | error error final => exact returns error final

theorem Returns.ite {left right : EStateM ε σ α} (condition : Prop) [Decidable condition]
    (first : Returns left) (second : Returns right)
    : Returns (if condition then left else right) := by
  split
  · exact first
  · exact second

/-- The program returns from every state, and what it returns is as told. -/
def Yields (Told : α → Prop) (program : EStateM ε σ α) : Prop :=
  ∀ state, ∃ value final, program state = .ok value final ∧ Told value

theorem Yields.pure {Told : α → Prop} {value : α} (told : Told value)
    : Yields Told (Pure.pure value : EStateM ε σ α) :=
  fun state => ⟨value, state, rfl, told⟩

theorem Yields.modify (update : σ → σ)
    : Yields (fun _ => True) (modify update : EStateM ε σ PUnit) :=
  fun state => ⟨⟨⟩, update state, rfl, trivial⟩

theorem Yields.const {Told : α → Prop} {answer : Except ε α} {value : α}
    (returned : answer = .ok value) (told : Told value)
    : Yields Told (query (fun _ : σ => answer)) := by
  intro state
  subst returned
  exact ⟨value, state, rfl, told⟩

theorem Yields.bind {Middle : α → Prop} {Told : β → Prop} {first : EStateM ε σ α}
    {next : α → EStateM ε σ β} (yields : Yields Middle first)
    (later : ∀ value, Middle value → Yields Told (next value))
    : Yields Told (first >>= next) := by
  intro state
  obtain ⟨value, middle, ran, holds⟩ := yields state
  obtain ⟨result, final, ended, told⟩ := later value holds middle
  exact ⟨result, final, (bind_eq_of_ok ran).trans ended, told⟩

theorem Yields.tryCatch {Told : α → Prop} {program : EStateM ε σ α} (yields : Yields Told program)
    (handler : ε → EStateM ε σ α)
    : Yields Told (tryCatch program handler) := by
  intro state
  obtain ⟨value, final, ran, told⟩ := yields state
  refine ⟨value, final, ?_, told⟩
  rw [tryCatch_apply, ran]

theorem Yields.forM {body : α → EStateM ε σ PUnit} {items : List α}
    (yields : ∀ item ∈ items, Yields (fun _ => True) (body item))
    : Yields (fun _ => True) (items.forM body) := by
  induction items with
  | nil => exact .pure trivial
  | cons item rest ih =>
      refine .bind (yields item List.mem_cons_self) (fun _ _ => ?_)
      exact ih (fun other member => yields other (List.mem_cons_of_mem _ member))

theorem Yields.imp {Told Other : α → Prop} {program : EStateM ε σ α} (yields : Yields Told program)
    (weaker : ∀ value, Told value → Other value)
    : Yields Other program := by
  intro state
  obtain ⟨value, final, ran, told⟩ := yields state
  exact ⟨value, final, ran, weaker value told⟩

theorem Yields.outcome {Told : α → Prop} {program : EStateM ε σ α} (yields : Yields Told program)
    (state : σ)
    : ∃ value, outcome program state = .ok value ∧ Told value := by
  obtain ⟨value, final, ran, told⟩ := yields state
  refine ⟨value, ?_, told⟩
  rw [Py.outcome, ran]

-----------------------------------------------------------------------------------------
-- Programs that answer through a table
-----------------------------------------------------------------------------------------

/-- From valid states the program gives one answer and leads to valid states again, as it is with
a table of earlier answers.
-/
def Answers (Valid : σ → Prop) (program : EStateM ε σ α) (answer : Except ε α) : Prop :=
  ∀ state, Valid state → outcome program state = answer ∧ Valid (after program state)

theorem Answers.pure (Valid : σ → Prop) (value : α)
    : Answers Valid (Pure.pure value : EStateM ε σ α) (.ok value) :=
  fun _ valid => ⟨rfl, valid⟩

theorem Answers.const (Valid : σ → Prop) (answer : Except ε α)
    : Answers Valid (query (fun _ => answer)) answer := by
  intro state valid
  exact ⟨outcome_query _ _, by rwa [after_query]⟩

/-- The second program is run on the answer of the first only. -/
theorem Answers.bind_of_ok {Valid : σ → Prop} {first : EStateM ε σ α} {next : α → EStateM ε σ β}
    {answer : Except ε α} {later : α → Except ε β} (left : Answers Valid first answer)
    (right : ∀ value, answer = .ok value → Answers Valid (next value) (later value))
    : Answers Valid (first >>= next) (answer >>= later) := by
  intro state valid
  obtain ⟨given, kept⟩ := left state valid
  cases ran : first state with
  | error error middle =>
      have whole : (first >>= next) state = .error error middle := bind_eq_of_error ran
      rw [outcome, ran] at given
      rw [after_of_error ran] at kept
      rw [outcome, whole, after_of_error whole, ← given]
      exact ⟨rfl, kept⟩
  | ok value middle =>
      have whole : (first >>= next) state = next value middle := bind_eq_of_ok ran
      rw [outcome, ran] at given
      rw [after_of_ok ran] at kept
      rw [outcome, whole, after_eq whole, ← given]
      exact right value given.symm middle kept

theorem Answers.bind {Valid : σ → Prop} {first : EStateM ε σ α} {next : α → EStateM ε σ β}
    {answer : Except ε α} {later : α → Except ε β} (left : Answers Valid first answer)
    (right : ∀ value, Answers Valid (next value) (later value))
    : Answers Valid (first >>= next) (answer >>= later) :=
  left.bind_of_ok (fun value _ => right value)

-----------------------------------------------------------------------------------------
-- Programs on a part of the state
-----------------------------------------------------------------------------------------

/-- Run a program on a part of the state; what it raises is wrapped. -/
def zoom {τ ε' : Type} (part : σ → τ) (put : τ → σ → σ) (wrap : ε → ε') (program : EStateM ε τ α)
    : EStateM ε' σ α := fun state =>
  match program (part state) with
  | .ok value reached => .ok value (put reached state)
  | .error error reached => .error (wrap error) (put reached state)

theorem outcome_zoom {τ ε' : Type} (part : σ → τ) (put : τ → σ → σ) (wrap : ε → ε')
    (program : EStateM ε τ α) (state : σ)
    : outcome (zoom part put wrap program) state
      = (outcome program (part state)).mapError wrap := by
  simp only [outcome, zoom]
  cases program (part state) <;> rfl

/-- A program that answers on a part of the state answers on the whole of it. -/
theorem Answers.zoom {τ ε' : Type} {part : σ → τ} {put : τ → σ → σ} {wrap : ε → ε'}
    {Valid : τ → Prop} {Whole : σ → Prop} {program : EStateM ε τ α} {answer : Except ε α}
    (answers : Answers Valid program answer) (valid : ∀ state, Whole state → Valid (part state))
    (kept : ∀ state reached, Whole state → Valid reached → Whole (put reached state))
    : Answers Whole (zoom part put wrap program) (answer.mapError wrap) := by
  intro state whole
  obtain ⟨given, reachedValid⟩ := answers (part state) (valid state whole)
  unfold outcome after Py.zoom
  cases ran : program (part state) with
  | ok value reached =>
      rw [outcome, ran] at given
      rw [after_of_ok ran] at reachedValid
      subst given
      exact ⟨rfl, kept state reached whole reachedValid⟩
  | error error reached =>
      rw [outcome, ran] at given
      rw [after_of_error ran] at reachedValid
      subst given
      exact ⟨rfl, kept state reached whole reachedValid⟩

end Py
