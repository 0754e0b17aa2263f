import Pyverge.Runtime.Tracing

/-! Runs and steps are accounted for by the adapters that correlate their events.
An adapter finds the span of an end event by a key, so it is enough that no two numbered items
that are open have the same key, and that the publisher delivers both ends or none.
-/

namespace Pyverge

-----------------------------------------------------------------------------------------
-- Open items and their keys
-----------------------------------------------------------------------------------------

/-- The active numbers by key are those of the open items that are followed. -/
structure Correlated {α κ : Type} [DecidableEq α] [DecidableEq κ] (key : α → κ)
    (follows : α → Bool) (opened : Py.Dict α (Option Nat)) (active : Py.Dict κ Nat) : Prop where
  follows : ∀ item number, opened.get? item = some number → number.isSome = follows item
  active : ∀ k n, active.get? k = some n ↔ ∃ item, opened.get? item = some (some n) ∧ key item = k
  apart : ∀ item other n,
    opened.get? item = some (some n) → opened.get? other = some (some n) → item = other

/-- Some open item has the number. -/
def HasNumber {α : Type} [DecidableEq α] (opened : Py.Dict α (Option Nat)) (n : Nat) : Prop :=
  ∃ item, opened.get? item = some (some n)

namespace Correlated

section

variable {α κ : Type} [DecidableEq α] [DecidableEq κ] {key : α → κ} {follows : α → Bool}
  {opened : Py.Dict α (Option Nat)} {active : Py.Dict κ Nat} {item : α} {n : Nat}

theorem new : Correlated key follows ∅ ∅ := by
  refine ⟨?_, ?_, ?_⟩ <;> simp [Py.Dict.get?_empty]

/-- An open item that is followed has a number. -/
theorem numbered (correlated : Correlated key follows opened active) (openItem : item ∈ opened.keys)
    (followed : follows item = true)
    : ∃ n, opened.get? item = some (some n) := by
  obtain ⟨number, stored⟩ := Py.Dict.mem_keys.mp openItem
  have numbered := correlated.follows item number stored
  rw [followed, Option.isSome_iff_exists] at numbered
  obtain ⟨n, rfl⟩ := numbered
  exact ⟨n, stored⟩

/-- An open item that is not followed has none. -/
theorem unnumbered (correlated : Correlated key follows opened active)
    (openItem : item ∈ opened.keys) (followed : follows item = false)
    : opened.get? item = some none := by
  obtain ⟨number, stored⟩ := Py.Dict.mem_keys.mp openItem
  have numbered := correlated.follows item number stored
  rw [followed] at numbered
  rw [stored, Option.isSome_eq_false_iff.mp numbered |> Option.isNone_iff_eq_none.mp]

/-- Numbered items that are open have different keys. -/
theorem injective (correlated : Correlated key follows opened active) {other : α} {m : Nat}
    (stored : opened.get? item = some (some n)) (stored' : opened.get? other = some (some m))
    (same : key item = key other)
    : item = other := by
  have found := (correlated.active (key other) n).mpr ⟨item, stored, same⟩
  have found' := (correlated.active (key other) m).mpr ⟨other, stored', rfl⟩
  obtain rfl : n = m := Option.some.inj (found.symm.trans found')
  exact correlated.apart item other n stored stored'

/-- An item that is not followed starts without a trace. -/
theorem start_unfollowed (correlated : Correlated key follows opened active)
    (fresh : item ∉ opened.keys) (followed : follows item = false)
    : Correlated key follows (opened.set item none) active := by
  have absent := Py.Dict.get?_eq_none.mpr fresh
  have same : ∀ other m, (opened.set item none).get? other = some (some m)
      ↔ opened.get? other = some (some m) := by
    intro other m
    by_cases here : other = item
    · subst here
      simp [Py.Dict.get?_set_self, absent]
    · rw [Py.Dict.get?_set_ne _ _ here]
  refine ⟨?_, ?_, ?_⟩
  · intro other number stored
    by_cases here : other = item
    · subst here
      rw [Py.Dict.get?_set_self] at stored
      obtain rfl := Option.some.inj stored
      simp [followed]
    · rw [Py.Dict.get?_set_ne _ _ here] at stored
      exact correlated.follows other number stored
  · simpa only [same] using correlated.active
  · simpa only [same] using correlated.apart

/-- An item that is followed starts under a fresh number, and no open item may have its key. -/
theorem start (correlated : Correlated key follows opened active) (fresh : item ∉ opened.keys)
    (followed : follows item = true) (unused : ∀ other, opened.get? other ≠ some (some n))
    (free : ∀ other m, opened.get? other = some (some m) → key other ≠ key item)
    : Correlated key follows (opened.set item (some n)) (active.set (key item) n) := by
  refine ⟨?_, ?_, ?_⟩
  · intro other number stored
    by_cases here : other = item
    · subst here
      rw [Py.Dict.get?_set_self] at stored
      obtain rfl := Option.some.inj stored
      simp [followed]
    · rw [Py.Dict.get?_set_ne _ _ here] at stored
      exact correlated.follows other number stored
  · intro k m
    by_cases here : k = key item
    · subst here
      rw [Py.Dict.get?_set_self]
      constructor
      · intro equal
        exact ⟨item, by rw [Py.Dict.get?_set_self, Option.some.inj equal], rfl⟩
      · intro given
        obtain ⟨other, stored, same⟩ := given
        by_cases here : other = item
        · subst here
          rw [Py.Dict.get?_set_self] at stored
          exact Option.some.inj stored
        · rw [Py.Dict.get?_set_ne _ _ here] at stored
          exact absurd same (free other m stored)
    · rw [Py.Dict.get?_set_ne _ _ here, correlated.active]
      apply exists_congr
      intro other
      apply and_congr_left
      intro same
      have apart : other ≠ item := by
        rintro rfl
        exact here same.symm
      rw [Py.Dict.get?_set_ne _ _ apart]
  · intro one other m stored stored'
    rw [Py.Dict.get?_set] at stored stored'
    split at stored <;> split at stored'
    case isTrue.isTrue same same' => rw [same, same']
    case isTrue.isFalse same same' =>
      rw [← Option.some.inj (Option.some.inj stored)] at stored'
      exact absurd stored' (unused other)
    case isFalse.isTrue same same' =>
      rw [← Option.some.inj (Option.some.inj stored')] at stored
      exact absurd stored (unused one)
    case isFalse.isFalse same same' => exact correlated.apart one other m stored stored'

/-- An item without a number ends without a trace. -/
theorem finish_unfollowed (correlated : Correlated key follows opened active)
    (stored : opened.get? item = some none)
    : Correlated key follows (opened.erase item) active := by
  have same : ∀ other m, (opened.erase item).get? other = some (some m)
      ↔ opened.get? other = some (some m) := by
    intro other m
    by_cases here : other = item
    · subst here
      simp [Py.Dict.get?_erase_self, stored]
    · rw [Py.Dict.get?_erase_ne _ here]
  refine ⟨?_, ?_, ?_⟩
  · intro other number found
    by_cases here : other = item
    · subst here
      simp [Py.Dict.get?_erase_self] at found
    · rw [Py.Dict.get?_erase_ne _ here] at found
      exact correlated.follows other number found
  · simpa only [same] using correlated.active
  · simpa only [same] using correlated.apart

/-- A numbered item ends, and its key is free again. -/
theorem finish (correlated : Correlated key follows opened active)
    (stored : opened.get? item = some (some n))
    : Correlated key follows (opened.erase item) (active.erase (key item)) := by
  refine ⟨?_, ?_, ?_⟩
  · intro other number found
    by_cases here : other = item
    · subst here
      simp [Py.Dict.get?_erase_self] at found
    · rw [Py.Dict.get?_erase_ne _ here] at found
      exact correlated.follows other number found
  · intro k m
    by_cases here : k = key item
    · subst here
      simp only [Py.Dict.get?_erase_self, reduceCtorEq, false_iff]
      rintro ⟨other, found, same⟩
      by_cases here : other = item
      · subst here
        simp [Py.Dict.get?_erase_self] at found
      · rw [Py.Dict.get?_erase_ne _ here] at found
        exact here (correlated.injective found stored same)
    · rw [Py.Dict.get?_erase_ne _ here, correlated.active]
      apply exists_congr
      intro other
      apply and_congr_left
      intro same
      have apart : other ≠ item := by
        rintro rfl
        exact here same.symm
      rw [Py.Dict.get?_erase_ne _ apart]
  · intro one other m found found'
    by_cases here : one = item
    · simp [here, Py.Dict.get?_erase_self] at found
    · by_cases there : other = item
      · simp [there, Py.Dict.get?_erase_self] at found'
      · rw [Py.Dict.get?_erase_ne _ here] at found
        rw [Py.Dict.get?_erase_ne _ there] at found'
        exact correlated.apart one other m found found'

theorem hasNumber_set (fresh : item ∉ opened.keys) (number : Option Nat) (m : Nat)
    : HasNumber (opened.set item number) m ↔ HasNumber opened m ∨ number = some m := by
  have absent := Py.Dict.get?_eq_none.mpr fresh
  constructor
  · intro given
    obtain ⟨other, stored⟩ := given
    by_cases here : other = item
    · subst here
      rw [Py.Dict.get?_set_self] at stored
      exact .inr (Option.some.inj stored)
    · rw [Py.Dict.get?_set_ne _ _ here] at stored
      exact .inl ⟨other, stored⟩
  · intro given
    rcases given with ⟨other, stored⟩ | rfl
    · have here : other ≠ item := by
        rintro rfl
        simp [absent] at stored
      exact ⟨other, by rw [Py.Dict.get?_set_ne _ _ here, stored]⟩
    · exact ⟨item, Py.Dict.get?_set_self ..⟩

theorem hasNumber_erase (correlated : Correlated key follows opened active) {number : Option Nat}
    (stored : opened.get? item = some number) (m : Nat)
    : HasNumber (opened.erase item) m ↔ HasNumber opened m ∧ number ≠ some m := by
  constructor
  · intro given
    obtain ⟨other, found⟩ := given
    by_cases here : other = item
    · subst here
      simp [Py.Dict.get?_erase_self] at found
    · rw [Py.Dict.get?_erase_ne _ here] at found
      refine ⟨⟨other, found⟩, ?_⟩
      rintro rfl
      exact here (correlated.apart other item m found stored)
  · intro given
    obtain ⟨⟨other, found⟩, ne⟩ := given
    have here : other ≠ item := by
      rintro rfl
      exact ne (Option.some.inj (stored.symm.trans found))
    exact ⟨other, by rw [Py.Dict.get?_erase_ne _ here, found]⟩

/-- An item that starts is correlated under its number, if it is given one. -/
theorem started (correlated : Correlated key follows opened active) (fresh : item ∉ opened.keys)
    (unused : ¬HasNumber opened n)
    (free : follows item = true → ∀ other m, opened.get? other = some (some m) →
      key other ≠ key item)
    : Correlated key follows (opened.set item (if follows item then some n else none))
        (if follows item then active.set (key item) n else active) := by
  cases followed : follows item with
  | true =>
      apply correlated.start fresh followed _ (free followed)
      intro other stored
      exact unused ⟨other, stored⟩
  | false => exact correlated.start_unfollowed fresh followed

end

end Correlated

-----------------------------------------------------------------------------------------
-- Open runs and steps
-----------------------------------------------------------------------------------------

/-- The publisher delivers the events of a run. -/
def TelemetryPublisher.follows (publisher : TelemetryPublisher) (runId : String) : Bool :=
  publisher.delivers (.runStarted ⟨0, runId⟩)

/-- Away from failures in mode `errors`, delivery is decided by the run. -/
theorem TelemetryPublisher.delivers_eq_follows {publisher : TelemetryPublisher}
    {event : TelemetryEvent} (heard : publisher.mode = .errors → publisher.delivers event = false)
    : publisher.delivers event = publisher.follows event.runId := by
  by_cases errors : publisher.mode = .errors
  · rw [heard errors, follows, delivers, errors]
    simp [TelemetryEvent.isFailure]
  · have sampled : publisher.isSampled (.runStarted ⟨0, event.runId⟩) = publisher.isSampled event :=
      rfl
    simp only [follows, delivers, sampled, beq_eq_false_iff_ne.mpr errors, Bool.false_and]

/-- The active maps agree with the open runs and steps, whose numbers are the pending outcomes. -/
structure TelemetrySource.Tracked (publisher : TelemetryPublisher) (source : TelemetrySource)
    (runs : Py.Dict String Nat) (steps : Py.Dict (String × Path × Nat) Nat) : Prop where
  runs : Correlated RunRef.runId (publisher.follows ·.runId) source.runs runs
  steps : Correlated StepRef.key (publisher.follows ·.run.runId) source.steps steps
  belongs : ∀ step ∈ source.steps.keys, step.run ∈ source.runs.keys
  separate : ∀ n, HasNumber source.runs n → ¬HasNumber source.steps n
  pending : ∀ n,
    source.outcomes[n]? = some none ↔ HasNumber source.runs n ∨ HasNumber source.steps n
  failures : ∀ error ∈ source.failures, some (some error) ∈ source.outcomes

namespace TelemetrySource.Tracked

variable {publisher : TelemetryPublisher} {source : TelemetrySource}
  {runs : Py.Dict String Nat} {steps : Py.Dict (String × Path × Nat) Nat}

theorem new (publisher : TelemetryPublisher)
    : TelemetrySource.Tracked publisher .new ∅ ∅ where
  runs := .new
  steps := .new
  belongs := by simp [TelemetrySource.new, Py.Dict.mem_keys, Py.Dict.get?_empty]
  separate := by
    intro n given
    obtain ⟨run, stored⟩ := given
    simp [TelemetrySource.new, Py.Dict.get?_empty] at stored
  pending := by simp [TelemetrySource.new, HasNumber, Py.Dict.get?_empty]
  failures := by simp [TelemetrySource.new]

/-- The next number is not in use. -/
theorem unused (tracked : source.Tracked publisher runs steps)
    : ¬HasNumber source.runs source.outcomes.length
      ∧ ¬HasNumber source.steps source.outcomes.length := by
  rw [← not_or, ← tracked.pending]
  simp

/-- Outcomes are pending where a number is open, also after one more is opened. -/
theorem pending_opened (tracked : source.Tracked publisher runs steps) (delivered : Bool) (n : Nat)
    : (source.opened delivered)[n]? = some none
      ↔ (HasNumber source.runs n ∨ HasNumber source.steps n)
        ∨ source.number delivered = some n := by
  rw [← tracked.pending]
  cases delivered with
  | false => simp [opened, number]
  | true =>
      rcases Nat.lt_trichotomy n source.outcomes.length with inside | rfl | outside
      · simp [opened, number, List.getElem?_append_left inside, inside.ne']
      · simp [opened, number]
      · rw [List.getElem?_eq_none (by simp [opened]; omega)]
        simp [number, List.getElem?_eq_none outside.le, outside.ne]

/-- Outcomes are pending where a number is open, also after one is closed. -/
theorem pending_set (tracked : source.Tracked publisher runs steps) {n : Nat}
    (pending : source.outcomes[n]? = some none) (error : Option Raised) (m : Nat)
    : (source.outcomes.set n (some error))[m]? = some none
      ↔ (HasNumber source.runs m ∨ HasNumber source.steps m) ∧ some n ≠ some m := by
  obtain ⟨inside, -⟩ := List.getElem?_eq_some_iff.mp pending
  rw [← tracked.pending, List.getElem?_set]
  by_cases here : n = m
  · subst here
    simp [inside]
  · simp [here]

theorem failures_opened (tracked : source.Tracked publisher runs steps) (delivered : Bool)
    : ∀ error ∈ source.failures, some (some error) ∈ source.opened delivered := by
  intro error member
  have noted := tracked.failures error member
  cases delivered with
  | false => exact noted
  | true => exact List.mem_append_left _ noted

theorem failures_set (tracked : source.Tracked publisher runs steps) {n : Nat}
    (pending : source.outcomes[n]? = some none) (error : Option Raised)
    : ∀ failure ∈ source.failures ++ error.toList,
        some (some failure) ∈ source.outcomes.set n (some error) := by
  obtain ⟨inside, -⟩ := List.getElem?_eq_some_iff.mp pending
  intro failure member
  rcases List.mem_append.mp member with earlier | now
  · obtain ⟨m, noted⟩ := List.getElem?_of_mem (tracked.failures failure earlier)
    have here : n ≠ m := by
      rintro rfl
      simp [pending] at noted
    apply List.mem_of_getElem?
    rw [List.getElem?_set_ne here, noted]
  · obtain rfl := Option.mem_toList.mp now
    exact List.mem_set inside _

/-- Open runs that are followed have different run ids. -/
theorem run_eq (tracked : source.Tracked publisher runs steps) {run other : RunRef}
    (openRun : run ∈ source.runs.keys) (openOther : other ∈ source.runs.keys)
    (followed : publisher.follows run.runId = true) (same : run.runId = other.runId)
    : run = other := by
  obtain ⟨n, stored⟩ := tracked.runs.numbered openRun followed
  obtain ⟨m, stored'⟩ := tracked.runs.numbered openOther (by rw [← same, followed])
  exact tracked.runs.injective stored stored' same

/-- A run starts, and no open run that is followed may have its run id. -/
theorem startRun (tracked : source.Tracked publisher runs steps) {run : RunRef}
    (fresh : run ∉ source.runs.keys)
    (free : publisher.follows run.runId = true → ∀ other ∈ source.runs.keys,
      other.runId ≠ run.runId)
    : let delivered := publisher.follows run.runId
      TelemetrySource.Tracked publisher
        { source with
          runs := source.runs.set run (source.number delivered)
          outcomes := source.opened delivered }
        (if delivered then runs.set run.runId source.outcomes.length else runs) steps where
  runs := by
    apply tracked.runs.started fresh tracked.unused.1
    intro followed other m stored
    exact free followed other (Py.Dict.mem_keys.mpr ⟨_, stored⟩)
  steps := tracked.steps
  belongs := by
    intro step openStep
    exact Py.Dict.mem_keys_set.mpr (.inr (tracked.belongs step openStep))
  separate := by
    intro n given numbered
    rcases (Correlated.hasNumber_set fresh _ n).mp given with earlier | now
    · exact tracked.separate n earlier numbered
    · obtain rfl : source.outcomes.length = n := by
        simpa [number] using (Option.ite_none_right_eq_some.mp now).2
      exact tracked.unused.2 numbered
  pending := by
    intro n
    rw [tracked.pending_opened, Correlated.hasNumber_set fresh]
    tauto
  failures := tracked.failures_opened _

/-- A step of an open run starts. -/
theorem startStep (tracked : source.Tracked publisher runs steps) {step : StepRef}
    (openRun : step.run ∈ source.runs.keys) (fresh : step ∉ source.steps.keys)
    : let delivered := publisher.follows step.run.runId
      TelemetrySource.Tracked publisher
        { source with
          steps := source.steps.set step (source.number delivered)
          outcomes := source.opened delivered }
        runs (if delivered then steps.set step.key source.outcomes.length else steps) where
  runs := tracked.runs
  steps := by
    apply tracked.steps.started fresh tracked.unused.2
    intro followed other m stored same
    have openOther : other ∈ source.steps.keys := Py.Dict.mem_keys.mpr ⟨_, stored⟩
    obtain ⟨sameId, samePath, sameIndex⟩ : other.run.runId = step.run.runId
        ∧ other.path = step.path ∧ other.index = step.index := by
      simpa [StepRef.key] using same
    have sameRun : step.run = other.run :=
      tracked.run_eq openRun (tracked.belongs other openOther) followed sameId.symm
    apply fresh
    have equal : other = step := by
      cases other
      cases step
      simp_all
    rwa [← equal]
  belongs := by
    intro other openOther
    rcases Py.Dict.mem_keys_set.mp openOther with rfl | earlier
    · exact openRun
    · exact tracked.belongs other earlier
  separate := by
    intro n numbered given
    rcases (Correlated.hasNumber_set fresh _ n).mp given with earlier | now
    · exact tracked.separate n numbered earlier
    · obtain rfl : source.outcomes.length = n := by
        simpa [number] using (Option.ite_none_right_eq_some.mp now).2
      exact tracked.unused.1 numbered
  pending := by
    intro n
    rw [tracked.pending_opened, Correlated.hasNumber_set fresh]
    tauto
  failures := tracked.failures_opened _

/-- A run that is followed ends, and no step of it may be open. -/
theorem finishRun (tracked : source.Tracked publisher runs steps) {run : RunRef} {n : Nat}
    (stored : source.runs.get? run = some (some n))
    (idle : ∀ step ∈ source.steps.keys, step.run ≠ run) (error : Option Raised)
    : TelemetrySource.Tracked publisher
        { source.closed true (some (some n)) error with runs := source.runs.erase run }
        (runs.erase run.runId) steps := by
  have pending : source.outcomes[n]? = some none := (tracked.pending n).mpr (.inl ⟨run, stored⟩)
  refine ⟨tracked.runs.finish stored, tracked.steps, ?_, ?_, ?_, ?_⟩
  · intro step openStep
    exact Py.Dict.mem_keys_erase.mpr ⟨idle step openStep, tracked.belongs step openStep⟩
  · intro m given
    exact tracked.separate m ((tracked.runs.hasNumber_erase stored m).mp given).1
  · intro m
    refine (tracked.pending_set pending error m).trans ?_
    rw [tracked.runs.hasNumber_erase stored]
    constructor
    · tauto
    · intro given
      rcases given with others | numbered
      · tauto
      · refine ⟨.inr numbered, ?_⟩
        rintro ⟨⟩
        exact tracked.separate n ⟨run, stored⟩ numbered
  · exact tracked.failures_set pending error

/-- A step of a run that is followed ends. -/
theorem finishStep (tracked : source.Tracked publisher runs steps) {step : StepRef} {n : Nat}
    (stored : source.steps.get? step = some (some n)) (error : Option Raised)
    : TelemetrySource.Tracked publisher
        { source.closed true (some (some n)) error with steps := source.steps.erase step }
        runs (steps.erase step.key) := by
  have pending : source.outcomes[n]? = some none := (tracked.pending n).mpr (.inr ⟨step, stored⟩)
  refine ⟨tracked.runs, tracked.steps.finish stored, ?_, ?_, ?_, ?_⟩
  · intro other openOther
    exact tracked.belongs other (Py.Dict.mem_keys_erase.mp openOther).2
  · intro m numbered given
    exact tracked.separate m numbered ((tracked.steps.hasNumber_erase stored m).mp given).1
  · intro m
    refine (tracked.pending_set pending error m).trans ?_
    rw [tracked.steps.hasNumber_erase stored]
    constructor
    · tauto
    · intro given
      rcases given with numbered | others
      · refine ⟨.inl numbered, ?_⟩
        rintro ⟨⟩
        exact tracked.separate n numbered ⟨step, stored⟩
      · tauto
  · exact tracked.failures_set pending error

/-- A run that is not followed ends without a trace. -/
theorem finishRun_unfollowed (tracked : source.Tracked publisher runs steps) {run : RunRef}
    (stored : source.runs.get? run = some none)
    (idle : ∀ step ∈ source.steps.keys, step.run ≠ run)
    : TelemetrySource.Tracked publisher { source with runs := source.runs.erase run }
        runs steps := by
  have same : ∀ n, HasNumber (source.runs.erase run) n ↔ HasNumber source.runs n := by
    intro n
    simp [tracked.runs.hasNumber_erase stored]
  refine ⟨tracked.runs.finish_unfollowed stored, tracked.steps, ?_, ?_, ?_, tracked.failures⟩
  · intro step openStep
    exact Py.Dict.mem_keys_erase.mpr ⟨idle step openStep, tracked.belongs step openStep⟩
  · simpa only [same] using tracked.separate
  · simpa only [same] using tracked.pending

/-- A step of a run that is not followed ends without a trace. -/
theorem finishStep_unfollowed (tracked : source.Tracked publisher runs steps) {step : StepRef}
    (stored : source.steps.get? step = some none)
    : TelemetrySource.Tracked publisher { source with steps := source.steps.erase step }
        runs steps := by
  have same : ∀ n, HasNumber (source.steps.erase step) n ↔ HasNumber source.steps n := by
    intro n
    simp [tracked.steps.hasNumber_erase stored]
  refine ⟨tracked.runs, tracked.steps.finish_unfollowed stored, ?_, ?_, ?_, tracked.failures⟩
  · intro other openOther
    exact tracked.belongs other (Py.Dict.mem_keys_erase.mp openOther).2
  · simpa only [same] using tracked.separate
  · simpa only [same] using tracked.pending

end TelemetrySource.Tracked

end Pyverge
