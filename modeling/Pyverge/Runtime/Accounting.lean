import Pyverge.Runtime.Correlation

/-! The adapters account for every run whose events match.
A delivered start opens a span and a lineage record under the next number, and the end of the same
run or step finds both again.
-/

namespace Pyverge

-----------------------------------------------------------------------------------------
-- Lineage records
-----------------------------------------------------------------------------------------

/-- A position is the last one of an id. -/
structure IsLast (runs : List LineageRun) (run : LineageRun) (n : Nat) : Prop where
  here : runs[n]? = some run
  after : ∀ m, n < m → runs[m]? ≠ some run

namespace IsLast

variable {runs : List LineageRun} {run : LineageRun} {n : Nat}

/-- The last position stays the last one when another id is appended. -/
theorem append (last : IsLast runs run n) {next : LineageRun} (ne : next ≠ run)
    : IsLast (runs ++ [next]) run n := by
  have inside : n < runs.length := (List.getElem?_eq_some_iff.mp last.here).choose
  refine ⟨by rw [List.getElem?_append_left inside, last.here], ?_⟩
  intro m later
  rcases Nat.lt_trichotomy m runs.length with earlier | equal | outside
  · rw [List.getElem?_append_left earlier]
    exact last.after m later
  · subst equal
    simpa using ne
  · rw [List.getElem?_eq_none (by simp; omega)]
    simp

/-- A new id is last where it is appended. -/
theorem appended (runs : List LineageRun) (run : LineageRun)
    : IsLast (runs ++ [run]) run runs.length := by
  refine ⟨by simp, ?_⟩
  intro m later
  rw [List.getElem?_eq_none (by simp; omega)]
  simp

end IsLast

def LineageRecord.finish (record : LineageRecord) (error : Option Raised) : LineageRecord :=
  { record with ended := record.ended ++ [error] }

/-- Ending the last run of an id ends the record at its last position. -/
theorem endLast_eq_modify {records : List LineageRecord} {run : LineageRun} {n : Nat}
    (last : IsLast (records.map LineageRecord.run) run n) (error : Option Raised)
    : endLast run error records = records.modify n (LineageRecord.finish · error) := by
  induction records generalizing n with
  | nil => simp [endLast]
  | cons record rest ih =>
      cases n with
      | zero =>
          have same : record.run = run := by simpa using last.here
          have none : rest.any (·.run = run) = false := by
            rw [List.any_eq_false]
            intro later member same
            obtain ⟨m, found⟩ := List.getElem?_of_mem member
            apply last.after (m + 1) (Nat.succ_pos m)
            simpa [found] using same
          simp [endLast, none, same, LineageRecord.finish]
      | succ n =>
          have here : (rest.map LineageRecord.run)[n]? = some run := by simpa using last.here
          have some : rest.any (·.run = run) = true := by
            rw [List.any_eq_true]
            obtain ⟨later, member, same⟩ := List.mem_map.mp (List.mem_of_getElem? here)
            exact ⟨later, member, by simpa using same⟩
          have lastRest : IsLast (rest.map LineageRecord.run) run n := by
            refine ⟨here, ?_⟩
            intro m later
            simpa using last.after (m + 1) (Nat.succ_lt_succ later)
          simp [endLast, some, ih lastRest]

/-- An event of the client adds a record at the end, or ends the last of its id. -/
theorem lineageRecords_start (sent : List LineageEvent) (run : LineageRun)
    : lineageRecords (sent ++ [⟨run, .start⟩]) = lineageRecords sent ++ [⟨run, []⟩] := by
  simp [lineageRecords]

theorem lineageRecords_finished (sent : List LineageEvent) (run : LineageRun)
    (error : Option Raised)
    : lineageRecords (sent ++ [⟨run, .finished error⟩])
      = endLast run error (lineageRecords sent) := by
  cases error <;> simp [lineageRecords, LineageState.finished]

/-- Ending a record leaves the ids of the records as they were. -/
theorem map_run_modify (records : List LineageRecord) (n : Nat) (error : Option Raised)
    : (records.modify n (LineageRecord.finish · error)).map LineageRecord.run
      = records.map LineageRecord.run := by
  apply List.ext_getElem?
  intro m
  simp only [List.getElem?_map, List.getElem?_modify]
  split
  · cases records[m]? <;> rfl
  · simp

/-- Ending what is pending gives it one ending. -/
theorem map_toList_set {outcomes : List (Option (Option Raised))} {n : Nat}
    (pending : outcomes[n]? = some none) (error : Option Raised)
    : (outcomes.set n (some error)).map Option.toList
      = (outcomes.map Option.toList).modify n (· ++ [error]) := by
  obtain ⟨inside, none⟩ := List.getElem?_eq_some_iff.mp pending
  apply List.ext_getElem?
  intro m
  simp only [List.getElem?_map, List.getElem?_set, List.getElem?_modify]
  by_cases here : n = m
  · subst here
    simp [inside, none]
  · simp [here]

/-- The records of the lineage client are the outcomes, under ids that find the active ones. -/
structure OpenLineageAdapter.Follows (lineage : OpenLineageAdapter)
    (outcomes : List (Option (Option Raised))) (runs : Py.Dict String Nat)
    (steps : Py.Dict (String × Path × Nat) Nat) : Prop where
  statuses : (lineageRecords lineage.sent).map LineageRecord.ended = outcomes.map Option.toList
  activeRuns : ∀ runId, runId ∈ lineage.runs ↔ runId ∈ runs.keys
  activeSteps : ∀ key, Option.Rel
    (fun drawn n => IsLast ((lineageRecords lineage.sent).map LineageRecord.run) (.step drawn) n)
    (lineage.steps.get? key) (steps.get? key)
  lastRuns : ∀ runId n, runs.get? runId = some n →
    IsLast ((lineageRecords lineage.sent).map LineageRecord.run) (.run runId) n
  drawn : ∀ drawn,
    .step drawn ∈ (lineageRecords lineage.sent).map LineageRecord.run → drawn < lineage.sent.length

namespace OpenLineageAdapter.Follows

variable {lineage : OpenLineageAdapter} {outcomes : List (Option (Option Raised))}
  {runs : Py.Dict String Nat} {steps : Py.Dict (String × Path × Nat) Nat}

theorem new : OpenLineageAdapter.new.Follows [] ∅ ∅ := by
  refine ⟨rfl, ?_, ?_, ?_, ?_⟩
  · intro runId
    simp [OpenLineageAdapter.new, Py.Dict.mem_keys, Py.Dict.get?_empty]
  · intro key
    exact .none
  · simp [Py.Dict.get?_empty]
  · simp [OpenLineageAdapter.new, lineageRecords]

/-- Active steps stay found when the ids grow so that every last position stays one. -/
theorem activeSteps_append (follows : lineage.Follows outcomes runs steps) {next : LineageRun}
    (ne : ∀ drawn n, IsLast ((lineageRecords lineage.sent).map LineageRecord.run) (.step drawn) n →
      next ≠ .step drawn)
    (key : String × Path × Nat)
    : Option.Rel
        (fun drawn n =>
          IsLast ((lineageRecords lineage.sent).map LineageRecord.run ++ [next]) (.step drawn) n)
        (lineage.steps.get? key) (steps.get? key) := by
  have related := follows.activeSteps key
  generalize lineage.steps.get? key = drawn, steps.get? key = n at related
  cases related with
  | some last => exact .some (last.append (ne _ _ last))
  | none => exact .none

/-- There are as many records as outcomes. -/
theorem length (follows : lineage.Follows outcomes runs steps)
    : ((lineageRecords lineage.sent).map LineageRecord.run).length = outcomes.length := by
  simpa using congrArg List.length follows.statuses

/-- A run that starts has a record of its own at the end. -/
theorem startRun (follows : lineage.Follows outcomes runs steps) (run : RunRef)
    : (lineage.startRun run).Follows (outcomes ++ [none])
        (runs.set run.runId outcomes.length) steps := by
  have ids : (lineageRecords (lineage.startRun run).sent).map LineageRecord.run
      = (lineageRecords lineage.sent).map LineageRecord.run ++ [.run run.runId] := by
    simp [OpenLineageAdapter.startRun, send, lineageRecords_start]
  refine ⟨?_, ?_, ?_, ?_, ?_⟩
  · simp [OpenLineageAdapter.startRun, send, lineageRecords_start, follows.statuses]
  · intro runId
    rw [Py.Dict.mem_keys_set, ← follows.activeRuns]
    exact List.mem_insert_iff
  · intro key
    rw [ids]
    apply follows.activeSteps_append
    intro drawn n last same
    cases same
  · intro runId n found
    rw [ids]
    rw [Py.Dict.get?_set] at found
    split at found
    case isTrue same =>
      obtain rfl := Option.some.inj found
      rw [same, ← follows.length]
      exact .appended ..
    case isFalse ne =>
      apply (follows.lastRuns runId n found).append
      intro same
      exact ne (LineageRun.run.inj same).symm
  · intro drawn member
    rw [ids] at member
    have earlier := follows.drawn drawn (by simpa using member)
    simp only [OpenLineageAdapter.startRun, send, List.length_append]
    omega

/-- A step that starts has a record of its own at the end. -/
theorem startStep (follows : lineage.Follows outcomes runs steps) {step : StepRef}
    (openRun : step.run.runId ∈ runs.keys)
    : (lineage.startStep step).Follows (outcomes ++ [none]) runs
        (steps.set step.key outcomes.length) := by
  have tracked : step.run.runId ∈ lineage.runs := (follows.activeRuns _).mpr openRun
  have ids : (lineageRecords (lineage.startStep step).sent).map LineageRecord.run
      = (lineageRecords lineage.sent).map LineageRecord.run ++ [.step lineage.sent.length] := by
    simp [OpenLineageAdapter.startStep, tracked, send, lineageRecords_start]
  refine ⟨?_, ?_, ?_, ?_, ?_⟩
  · simp [OpenLineageAdapter.startStep, tracked, send, lineageRecords_start, follows.statuses]
  · simpa [OpenLineageAdapter.startStep, tracked, send] using follows.activeRuns
  · intro key
    have drawn : (lineage.startStep step).steps
        = lineage.steps.set step.key lineage.sent.length := by
      simp [OpenLineageAdapter.startStep, tracked]
    rw [ids, drawn, Py.Dict.get?_set, Py.Dict.get?_set]
    split
    · rw [← follows.length]
      exact .some (.appended ..)
    · apply follows.activeSteps_append
      intro earlier n last same
      have member := List.mem_of_getElem? last.here
      rw [← same] at member
      exact (follows.drawn _ member).false
  · intro runId n found
    rw [ids]
    apply (follows.lastRuns runId n found).append
    intro same
    cases same
  · intro drawn member
    rw [ids] at member
    have length : (lineage.startStep step).sent.length = lineage.sent.length + 1 := by
      simp [OpenLineageAdapter.startStep, tracked, send]
    rw [length]
    rcases List.mem_append.mp member with earlier | now
    · exact (follows.drawn drawn earlier).trans (Nat.lt_succ_self _)
    · obtain rfl : drawn = lineage.sent.length := by simpa using now
      exact Nat.lt_succ_self _

/-- What the client makes of the end of an active record. -/
theorem records_finished {records : List LineageRecord} {run : LineageRun} {n : Nat}
    (statuses : records.map LineageRecord.ended = outcomes.map Option.toList)
    (last : IsLast (records.map LineageRecord.run) run n) (pending : outcomes[n]? = some none)
    (error : Option Raised)
    : (endLast run error records).map LineageRecord.ended
        = (outcomes.set n (some error)).map Option.toList
      ∧ (endLast run error records).map LineageRecord.run = records.map LineageRecord.run := by
  rw [endLast_eq_modify last, map_toList_set pending, ← statuses]
  refine ⟨?_, map_run_modify records n error⟩
  apply List.ext_getElem?
  intro m
  simp only [List.getElem?_map, List.getElem?_modify]
  split
  · cases records[m]? <;> rfl
  · simp

/-- A run that ends ends its own record. -/
theorem finishRun (follows : lineage.Follows outcomes runs steps) {run : RunRef} {n : Nat}
    (found : runs.get? run.runId = some n) (pending : outcomes[n]? = some none)
    (error : Option Raised)
    : (lineage.finishRun run error).Follows (outcomes.set n (some error))
        (runs.erase run.runId) steps := by
  have tracked : run.runId ∈ lineage.runs :=
    (follows.activeRuns _).mpr (Py.Dict.mem_keys.mpr ⟨n, found⟩)
  have last := follows.lastRuns run.runId n found
  obtain ⟨statuses, ids⟩ := records_finished follows.statuses last pending error
  have records : lineageRecords (lineage.finishRun run error).sent
      = endLast (.run run.runId) error (lineageRecords lineage.sent) := by
    simp [OpenLineageAdapter.finishRun, tracked, send, lineageRecords_finished]
  rw [← records] at statuses ids
  refine ⟨statuses, ?_, ?_, ?_, ?_⟩
  · intro runId
    rw [Py.Dict.mem_keys_erase, ← follows.activeRuns]
    simp [OpenLineageAdapter.finishRun, tracked, send, and_comm]
  · rw [ids]
    simpa [OpenLineageAdapter.finishRun, tracked, send] using follows.activeSteps
  · rw [ids]
    intro runId m stored
    rw [Py.Dict.get?_erase] at stored
    split at stored
    · contradiction
    · exact follows.lastRuns runId m stored
  · rw [ids]
    intro drawn member
    have earlier := follows.drawn drawn member
    simp only [OpenLineageAdapter.finishRun, tracked, if_true, send, List.length_append]
    omega

/-- A step that ends ends its own record. -/
theorem finishStep (follows : lineage.Follows outcomes runs steps) {step : StepRef} {n : Nat}
    (found : steps.get? step.key = some n) (pending : outcomes[n]? = some none)
    (error : Option Raised)
    : (lineage.finishStep step error).Follows (outcomes.set n (some error)) runs
        (steps.erase step.key) := by
  have related := follows.activeSteps step.key
  rw [found] at related
  obtain ⟨drawn, stored, last⟩ : ∃ drawn, lineage.steps.get? step.key = some drawn
      ∧ IsLast ((lineageRecords lineage.sent).map LineageRecord.run) (.step drawn) n := by
    cases stored : lineage.steps.get? step.key with
    | none =>
        rw [stored] at related
        cases related
    | some drawn =>
        rw [stored] at related
        cases related with
        | some last => exact ⟨drawn, rfl, last⟩
  have finished : lineage.finishStep step error
      = { lineage with steps := lineage.steps.erase step.key }.send (.step drawn)
          (.finished error) := by
    simp [OpenLineageAdapter.finishStep, stored]
  obtain ⟨statuses, ids⟩ := records_finished follows.statuses last pending error
  rw [← lineageRecords_finished] at statuses ids
  rw [finished]
  refine ⟨statuses, follows.activeRuns, ?_, ?_, ?_⟩
  · intro key
    simp only [send, ids, Py.Dict.get?_erase]
    split
    · exact .none
    · exact follows.activeSteps key
  · simpa only [send, ids] using follows.lastRuns
  · intro drawn member
    simp only [send, ids, List.length_append] at member ⊢
    have earlier := follows.drawn drawn member
    omega

end OpenLineageAdapter.Follows

-----------------------------------------------------------------------------------------
-- Whole runs
-----------------------------------------------------------------------------------------

/-- The states that the events of interleaved runs lead to, by events that meet a condition. -/
inductive TracedRuns.Reached (publisher : TelemetryPublisher)
    (meets : TelemetrySource → TelemetryEvent → Prop) : TracedRuns → Prop where
  | new : TracedRuns.Reached publisher meets .new
  | step {traced : TracedRuns} {event : TelemetryEvent}
      (reached : TracedRuns.Reached publisher meets traced)
      (allowed : traced.source.Allows event) (met : meets traced.source event)
      : TracedRuns.Reached publisher meets (traced.step publisher event)

/-- A run that starts has a run id that no open run has. -/
def TelemetrySource.Apart (source : TelemetrySource) : TelemetryEvent → Prop
  | .runStarted run => ∀ other ∈ source.runs.keys, other.runId ≠ run.runId
  | _ => True

/-- No failure is delivered without its start, and no run starts while one of its run id is
open.
-/
structure TelemetryPublisher.Matches (publisher : TelemetryPublisher) (source : TelemetrySource)
    (event : TelemetryEvent) : Prop where
  heard : publisher.mode = .errors → publisher.delivers event = false
  apart : publisher.delivers event = true → source.Apart event

/-- Both adapters follow the runs. -/
structure TracedRuns.Followed (publisher : TelemetryPublisher) (traced : TracedRuns) : Prop where
  tracked : traced.source.Tracked publisher traced.otel.runs traced.otel.steps
  statuses : traced.otel.spans.map Span.ended = traced.source.outcomes.map Option.toList
  lineage : traced.lineage.Follows traced.source.outcomes traced.otel.runs traced.otel.steps

namespace TracedRuns.Followed

variable {publisher : TelemetryPublisher} {traced : TracedRuns}

/-- There are as many spans as outcomes. -/
theorem length (followed : traced.Followed publisher)
    : traced.otel.spans.length = traced.source.outcomes.length := by
  simpa using congrArg List.length followed.statuses

/-- Ending the span of a pending outcome gives it that outcome. -/
theorem statuses_exit (followed : traced.Followed publisher) {n : Nat}
    (pending : traced.source.outcomes[n]? = some none) (error : Option Raised)
    : (traced.otel.spans.modify n (fun span => ⟨span.ended ++ [error]⟩)).map Span.ended
      = (traced.source.outcomes.set n (some error)).map Option.toList := by
  rw [map_toList_set pending, ← followed.statuses]
  apply List.ext_getElem?
  intro m
  simp only [List.getElem?_map, List.getElem?_modify]
  split
  · cases traced.otel.spans[m]? <;> rfl
  · simp

theorem startRun (followed : traced.Followed publisher) {run : RunRef}
    (allowed : traced.source.Allows (.runStarted run))
    (met : publisher.Matches traced.source (.runStarted run))
    : (traced.step publisher (.runStarted run)).Followed publisher := by
  have agrees : publisher.delivers (.runStarted run) = publisher.follows run.runId :=
    TelemetryPublisher.delivers_eq_follows met.heard
  have tracked := followed.tracked.startRun allowed (fun delivered =>
    met.apart (agrees.trans delivered))
  simp only [← agrees] at tracked
  cases delivered : publisher.delivers (.runStarted run) with
  | false =>
      rw [delivered] at tracked
      refine ⟨?_, ?_, ?_⟩ <;>
        simp only [step, delivered, Bool.false_eq_true, if_false, TelemetrySource.advance]
      · exact tracked
      · exact followed.statuses
      · exact followed.lineage
  | true =>
      rw [delivered] at tracked
      refine ⟨?_, ?_, ?_⟩ <;>
        simp only [step, delivered, if_true, TelemetrySource.advance, OtelAdapter.emit,
          OtelAdapter.startRun, OpenLineageAdapter.emit, followed.length]
      · exact tracked
      · simp [followed.statuses, TelemetrySource.opened]
      · exact followed.lineage.startRun run

theorem startStep (followed : traced.Followed publisher) {step : StepRef}
    (allowed : traced.source.Allows (.stepStarted step))
    (met : publisher.Matches traced.source (.stepStarted step))
    : (traced.step publisher (.stepStarted step)).Followed publisher := by
  have agrees : publisher.delivers (.stepStarted step) = publisher.follows step.run.runId :=
    TelemetryPublisher.delivers_eq_follows met.heard
  have tracked := followed.tracked.startStep allowed.1 allowed.2
  simp only [← agrees] at tracked
  cases delivered : publisher.delivers (.stepStarted step) with
  | false =>
      rw [delivered] at tracked
      refine ⟨?_, ?_, ?_⟩ <;>
        simp only [TracedRuns.step, delivered, Bool.false_eq_true, if_false,
          TelemetrySource.advance]
      · exact tracked
      · exact followed.statuses
      · exact followed.lineage
  | true =>
      rw [delivered] at tracked
      -- the run was delivered too, so the lineage adapter knows it
      obtain ⟨n, stored⟩ := followed.tracked.runs.numbered allowed.1 (agrees.symm.trans delivered)
      have active := (followed.tracked.runs.active step.run.runId n).mpr ⟨step.run, stored, rfl⟩
      refine ⟨?_, ?_, ?_⟩ <;>
        simp only [TracedRuns.step, delivered, if_true, TelemetrySource.advance,
          OtelAdapter.emit, OtelAdapter.startStep, OpenLineageAdapter.emit, followed.length]
      · exact tracked
      · simp [followed.statuses, TelemetrySource.opened]
      · exact followed.lineage.startStep (Py.Dict.mem_keys.mpr ⟨n, active⟩)

/-- Ending a run, however its event is delivered. -/
theorem finishRun (followed : traced.Followed publisher) {run : RunRef} {delivered : Bool}
    (openRun : run ∈ traced.source.runs.keys)
    (idle : ∀ step ∈ traced.source.steps.keys, step.run ≠ run)
    (agrees : delivered = publisher.follows run.runId) (error : Option Raised)
    : TracedRuns.Followed publisher
        { source :=
            { traced.source.closed delivered (traced.source.runs.get? run) error with
              runs := traced.source.runs.erase run }
          otel := if delivered then traced.otel.finishRun run error else traced.otel
          lineage := if delivered then traced.lineage.finishRun run error else traced.lineage } := by
  cases delivered with
  | false =>
      have stored := followed.tracked.runs.unnumbered openRun agrees.symm
      exact ⟨followed.tracked.finishRun_unfollowed stored idle, followed.statuses,
        followed.lineage⟩
  | true =>
      obtain ⟨n, stored⟩ := followed.tracked.runs.numbered openRun agrees.symm
      have pending := (followed.tracked.pending n).mpr (.inl ⟨run, stored⟩)
      have active := (followed.tracked.runs.active run.runId n).mpr ⟨run, stored, rfl⟩
      simp only [stored, if_true, OtelAdapter.finishRun, active]
      exact ⟨followed.tracked.finishRun stored idle error, followed.statuses_exit pending error,
        followed.lineage.finishRun active pending error⟩

/-- Ending a step, however its event is delivered. -/
theorem finishStep (followed : traced.Followed publisher) {step : StepRef} {delivered : Bool}
    (openStep : step ∈ traced.source.steps.keys)
    (agrees : delivered = publisher.follows step.run.runId) (error : Option Raised)
    : TracedRuns.Followed publisher
        { source :=
            { traced.source.closed delivered (traced.source.steps.get? step) error with
              steps := traced.source.steps.erase step }
          otel := if delivered then traced.otel.finishStep step error else traced.otel
          lineage :=
            if delivered then traced.lineage.finishStep step error else traced.lineage } := by
  cases delivered with
  | false =>
      have stored := followed.tracked.steps.unnumbered openStep agrees.symm
      exact ⟨followed.tracked.finishStep_unfollowed stored, followed.statuses, followed.lineage⟩
  | true =>
      obtain ⟨n, stored⟩ := followed.tracked.steps.numbered openStep agrees.symm
      have pending := (followed.tracked.pending n).mpr (.inr ⟨step, stored⟩)
      have active := (followed.tracked.steps.active step.key n).mpr ⟨step, stored, rfl⟩
      simp only [stored, if_true, OtelAdapter.finishStep, active]
      exact ⟨followed.tracked.finishStep stored error, followed.statuses_exit pending error,
        followed.lineage.finishStep active pending error⟩

/-- Every allowed event keeps both adapters in step with the runs. -/
theorem step (followed : traced.Followed publisher) {event : TelemetryEvent}
    (allowed : traced.source.Allows event) (met : publisher.Matches traced.source event)
    : (traced.step publisher event).Followed publisher := by
  have agrees := TelemetryPublisher.delivers_eq_follows met.heard
  cases event with
  | runStarted run => exact followed.startRun allowed met
  | runCompleted run => exact followed.finishRun allowed.1 allowed.2 agrees none
  | runFailed run error => exact followed.finishRun allowed.1 allowed.2 agrees (some error)
  | stepStarted step => exact followed.startStep allowed met
  | stepCompleted step => exact followed.finishStep allowed agrees none
  | stepFailed step error => exact followed.finishStep allowed agrees (some error)

theorem new (publisher : TelemetryPublisher) : TracedRuns.new.Followed publisher :=
  ⟨.new publisher, rfl, .new⟩

/-- When no run is open, every outcome is known. -/
theorem settled (followed : traced.Followed publisher)
    (idle : traced.source.runs.keys = [])
    : (∀ n, ¬HasNumber traced.source.runs n) ∧ (∀ n, ¬HasNumber traced.source.steps n)
      ∧ none ∉ traced.source.outcomes := by
  have noRun : ∀ n, ¬HasNumber traced.source.runs n := by
    intro n given
    obtain ⟨run, stored⟩ := given
    have openRun : run ∈ traced.source.runs.keys := Py.Dict.mem_keys.mpr ⟨_, stored⟩
    simp [idle] at openRun
  have noStep : ∀ n, ¬HasNumber traced.source.steps n := by
    intro n given
    obtain ⟨step, stored⟩ := given
    have openRun := followed.tracked.belongs step (Py.Dict.mem_keys.mpr ⟨_, stored⟩)
    simp [idle] at openRun
  refine ⟨noRun, noStep, ?_⟩
  intro member
  obtain ⟨n, pending⟩ := List.getElem?_of_mem member
  rcases (followed.tracked.pending n).mp pending with numbered | numbered
  · exact noRun n numbered
  · exact noStep n numbered

/-- What follows the outcomes accounts for the runs. -/
theorem accounts (followed : traced.Followed publisher) {ended : List (List (Option Raised))}
    {active : Bool} (statuses : ended = traced.source.outcomes.map Option.toList)
    (inactive : traced.source.runs.keys = [] → active = false)
    : Accounts traced.source ended active where
  statuses := statuses
  idle := by
    intro idle
    refine ⟨inactive idle, ?_⟩
    intro errors member
    rw [statuses] at member
    obtain ⟨outcome, known, rfl⟩ := List.mem_map.mp member
    cases outcome with
    | none => exact absurd known (followed.settled idle).2.2
    | some error => rfl
  failures := by
    intro error member
    rw [statuses]
    exact ⟨_, List.mem_map_of_mem (followed.tracked.failures error member), by simp⟩

/-- When no run is open, no span is active. -/
theorem inactive (followed : traced.Followed publisher)
    (idle : traced.source.runs.keys = [])
    : traced.otel.runs.keys = [] ∧ traced.otel.steps.keys = [] := by
  obtain ⟨noRun, noStep, -⟩ := followed.settled idle
  constructor <;> refine List.eq_nil_iff_forall_not_mem.mpr ?_
  · intro runId member
    obtain ⟨n, stored⟩ := Py.Dict.mem_keys.mp member
    obtain ⟨run, numbered, -⟩ := (followed.tracked.runs.active runId n).mp stored
    exact noRun n ⟨run, numbered⟩
  · intro key member
    obtain ⟨n, stored⟩ := Py.Dict.mem_keys.mp member
    obtain ⟨step, numbered, -⟩ := (followed.tracked.steps.active key n).mp stored
    exact noStep n ⟨step, numbered⟩

/-- The lineage adapter is inactive when the span adapter is. -/
theorem inactive_lineage (followed : traced.Followed publisher)
    (idle : traced.source.runs.keys = [])
    : traced.lineage.runs = [] ∧ traced.lineage.steps.keys = [] := by
  obtain ⟨noRuns, noSteps⟩ := followed.inactive idle
  constructor <;> refine List.eq_nil_iff_forall_not_mem.mpr ?_
  · intro runId member
    have active := (followed.lineage.activeRuns runId).mp member
    simp [noRuns] at active
  · intro key member
    obtain ⟨drawn, stored⟩ := Py.Dict.mem_keys.mp member
    have related := followed.lineage.activeSteps key
    rw [stored, Py.Dict.get?_eq_none.mpr (by simp [noSteps])] at related
    cases related

end TracedRuns.Followed

namespace TracedRuns

variable {publisher : TelemetryPublisher} {traced : TracedRuns}

/-- The adapters follow every run of matched events, by induction on its events. -/
theorem Reached.followed (reached : Reached publisher publisher.Matches traced)
    : traced.Followed publisher := by
  induction reached with
  | new => exact .new publisher
  | step reached allowed met followed => exact followed.step allowed met

/-- Both adapters account for the runs in every state that matched events lead to, however the
runs interleave.
-/
theorem Reached.accounted (reached : Reached publisher publisher.Matches traced)
    : traced.Accounted := by
  have followed := reached.followed
  refine ⟨followed.accounts followed.statuses ?_, followed.accounts followed.lineage.statuses ?_⟩
  · intro idle
    obtain ⟨noRuns, noSteps⟩ := followed.inactive idle
    simp [noRuns, noSteps]
  · intro idle
    obtain ⟨noRuns, noSteps⟩ := followed.inactive_lineage idle
    simp [noRuns, noSteps]

end TracedRuns

instance (source : TelemetrySource) : DecidablePred source.Allows
  | .runStarted run => inferInstanceAs (Decidable (run ∉ source.runs.keys))
  | .runCompleted run | .runFailed run _ => inferInstanceAs
      (Decidable (run ∈ source.runs.keys ∧ ∀ step ∈ source.steps.keys, step.run ≠ run))
  | .stepStarted step => inferInstanceAs
      (Decidable (step.run ∈ source.runs.keys ∧ step ∉ source.steps.keys))
  | .stepCompleted step | .stepFailed step _ => inferInstanceAs
      (Decidable (step ∈ source.steps.keys))

instance (source : TelemetrySource) : DecidablePred source.Apart
  | .runStarted run => inferInstanceAs
      (Decidable (∀ other ∈ source.runs.keys, other.runId ≠ run.runId))
  | .runCompleted _ | .runFailed .. | .stepStarted _ | .stepCompleted _ | .stepFailed .. =>
      isTrue trivial

instance (publisher : TelemetryPublisher) (source : TelemetrySource)
    : DecidablePred (publisher.Matches source) :=
  fun event => decidable_of_iff
    ((publisher.mode = .errors → publisher.delivers event = false)
      ∧ (publisher.delivers event = true → source.Apart event))
    ⟨fun both => ⟨both.1, both.2⟩, fun met => ⟨met.heard, met.apart⟩⟩

/-- The events of a list can occur one after the other. -/
def TracedRuns.Admits (publisher : TelemetryPublisher)
    (meets : TelemetrySource → TelemetryEvent → Prop) : TracedRuns → List TelemetryEvent → Prop
  | _, [] => True
  | traced, event :: rest =>
      traced.source.Allows event ∧ meets traced.source event
        ∧ TracedRuns.Admits publisher meets (traced.step publisher event) rest

instance TracedRuns.decidableAdmits (publisher : TelemetryPublisher)
    (meets : TelemetrySource → TelemetryEvent → Prop) [∀ source, DecidablePred (meets source)]
    : (traced : TracedRuns) → (events : List TelemetryEvent) →
      Decidable (traced.Admits publisher meets events)
  | _, [] => isTrue trivial
  | traced, event :: rest =>
      have := decidableAdmits publisher meets (traced.step publisher event) rest
      inferInstanceAs (Decidable (traced.source.Allows event ∧ meets traced.source event
        ∧ TracedRuns.Admits publisher meets (traced.step publisher event) rest))

/-- A list of events that can occur leads to a reached state. -/
theorem TracedRuns.Reached.replay {publisher : TelemetryPublisher}
    {meets : TelemetrySource → TelemetryEvent → Prop} {traced : TracedRuns}
    (reached : Reached publisher meets traced) (events : List TelemetryEvent)
    (admits : traced.Admits publisher meets events)
    : Reached publisher meets (events.foldl (TracedRuns.step publisher) traced) := by
  induction events generalizing traced with
  | nil => exact reached
  | cons event rest ih => exact ih (reached.step admits.1 admits.2.1) admits.2.2

/-- A publisher to one adapter that raises nothing. -/
def quietPublisher (mode : TelemetryMode) : TelemetryPublisher :=
  ⟨[fun _ => none], mode, 1, fun _ => 0⟩

/-- Two runs that overlap under two run ids; the second run has a step that is tried twice and
fails.
-/
def overlappingEvents (one two : String) : List TelemetryEvent :=
  let first : RunRef := ⟨0, one⟩
  let second : RunRef := ⟨1, two⟩
  let step : StepRef := ⟨second, [], 0⟩
  let error : Raised := .exception "ValueError"
  [.runStarted first, .runStarted second, .stepStarted step, .stepFailed step error,
    .stepStarted step, .runCompleted first, .stepFailed step error, .runFailed second error]

def overlappingRuns (mode : TelemetryMode) (one two : String) : TracedRuns :=
  (overlappingEvents one two).foldl (TracedRuns.step (quietPublisher mode)) .new

/-- Witness: runs under two run ids overlap, and one of them fails. -/
theorem accounted_overlappingRuns
    : (overlappingRuns .all "first" "second").source.failures.length = 3
      ∧ (overlappingRuns .all "first" "second").Accounted :=
  ⟨by decide +kernel,
    TracedRuns.Reached.accounted (TracedRuns.Reached.new.replay _ (by decide +kernel))⟩

/-- Counterexample: of two runs under one run id, the first ends with the span of the second, whose
own end finds no span; and in mode `errors` no failure finds the span of its start.
-/
theorem not_accounted_overlappingRuns
    : let anything := fun (_ : TelemetrySource) (_ : TelemetryEvent) => True
      TracedRuns.Reached (quietPublisher .all) anything (overlappingRuns .all "same" "same")
        ∧ (overlappingRuns .all "same" "same").source.runs.keys = []
        ∧ (overlappingRuns .all "same" "same").otel.spans.head? = some ⟨[]⟩
        ∧ ¬(overlappingRuns .all "same" "same").Accounted
        ∧ TracedRuns.Reached (quietPublisher .errors) anything
            (overlappingRuns .errors "first" "second")
        ∧ (overlappingRuns .errors "first" "second").source.failures.length = 3
        ∧ (overlappingRuns .errors "first" "second").otel.spans = []
        ∧ ¬(overlappingRuns .errors "first" "second").Accounted := by
  have idle : (overlappingRuns .all "same" "same").source.runs.keys = [] := by decide +kernel
  have lost : (overlappingRuns .all "same" "same").otel.spans.head? = some ⟨[]⟩ := by
    decide +kernel
  have failed : (overlappingRuns .errors "first" "second").source.failures.length = 3 := by
    decide +kernel
  have dropped : (overlappingRuns .errors "first" "second").otel.spans = [] := by decide +kernel
  refine ⟨TracedRuns.Reached.new.replay _ (by decide +kernel), idle, lost, ?_,
    TracedRuns.Reached.new.replay _ (by decide +kernel), failed, dropped, ?_⟩
  · intro accounted
    have ended := (accounted.otel.idle idle).2 [] (List.mem_map_of_mem (List.mem_of_head? lost))
    cases ended
  · intro accounted
    have some : 0 < (overlappingRuns .errors "first" "second").source.failures.length := by omega
    obtain ⟨error, member⟩ := List.exists_mem_of_length_pos some
    obtain ⟨errors, ended, -⟩ := accounted.otel.failures error member
    simp [dropped] at ended

end Pyverge
