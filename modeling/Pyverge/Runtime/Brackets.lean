import Pyverge.Runtime.RunEvents

/-! The telemetry of a run is well bracketed.
An adapter that raises an `Exception` is not noticed. One that raises anything else gets past the
publisher, and the start of a run or step is published outside of the handler that reports its end.
-/

namespace Pyverge

open Py (Json)

variable {V F H : Type}

-----------------------------------------------------------------------------------------
-- What the adapters receive
-----------------------------------------------------------------------------------------

namespace TelemetryPublisher

/-- Adapters that raise only `Exception`s each receive the event. -/
theorem fanOut_contained {event : TelemetryEvent} {adapters : List TelemetryAdapter}
    (contained : ∀ adapter ∈ adapters, ∀ received error,
      adapter received = some error → error.isException = true)
    (inboxes : Inboxes)
    : ∃ later, fanOut event adapters inboxes = .ok ⟨⟩ later
      ∧ (inboxes.length = adapters.length → later = inboxes.map (· ++ [event])) := by
  induction adapters generalizing inboxes with
  | nil =>
      refine ⟨inboxes, rfl, ?_⟩
      intro empty
      simp [List.eq_nil_of_length_eq_zero empty]
  | cons adapter rest ih =>
      obtain ⟨later, ran, received⟩ :=
        ih (fun other member => contained other (List.mem_cons_of_mem _ member)) inboxes.tail
      have logged : (adapter (inboxes.headD [] ++ [event])).filter (fun error => !error.isException)
          = none := by
        rw [Option.filter_eq_none_iff]
        intro error raised
        simp [contained adapter List.mem_cons_self _ error raised]
      refine ⟨(inboxes.headD [] ++ [event]) :: later, ?_, ?_⟩
      · simp only [fanOut, logged, ran]
      · intro same
        cases inboxes with
        | nil => cases same
        | cons inbox others => simp [received (Nat.succ.inj same)]

variable {publisher : TelemetryPublisher}

theorem publish_contained (contained : publisher.Contained) (event : TelemetryEvent)
    (inboxes : Inboxes)
    : ∃ later, publisher.publish event inboxes = .ok ⟨⟩ later
      ∧ (inboxes.length = publisher.adapters.length →
        later = if publisher.constructs event && publisher.delivers event
          then inboxes.map (· ++ [event]) else inboxes) := by
  unfold publish emit
  cases publisher.constructs event with
  | false => exact ⟨inboxes, rfl, fun _ => rfl⟩
  | true =>
      cases publisher.delivers event with
      | false => exact ⟨inboxes, rfl, fun _ => rfl⟩
      | true =>
          obtain ⟨later, ran, received⟩ := fanOut_contained contained inboxes
          exact ⟨later, ran, received⟩

/-- Nothing gets past a publisher whose adapters raise only `Exception`s. -/
theorem not_escapes (contained : publisher.Contained) (event : TelemetryEvent) (error : Raised)
    : ¬publisher.Escapes event error := by
  intro escapes
  obtain ⟨inboxes, later, raised⟩ := escapes
  obtain ⟨other, ran, -⟩ := publish_contained contained event inboxes
  rw [ran] at raised
  cases raised

theorem publishAll_contained (contained : publisher.Contained) (events : List TelemetryEvent)
    (inboxes : Inboxes) (same : inboxes.length = publisher.adapters.length)
    : publisher.publishAll events inboxes = .ok ⟨⟩ (inboxes.map (· ++ events.filter
        (fun event => publisher.constructs event && publisher.delivers event))) := by
  induction events generalizing inboxes with
  | nil => simp [publishAll, Py.pure_apply]
  | cons event rest ih =>
      obtain ⟨later, ran, received⟩ := publish_contained contained event inboxes
      have first : publisher.publishAll (event :: rest) inboxes
          = publisher.publishAll rest later := by
        unfold publishAll
        exact Py.bind_eq_of_ok ran
      rw [first, received same]
      cases taken : publisher.constructs event && publisher.delivers event with
      | false => simp [ih inboxes same, taken]
      | true => simp [ih (inboxes.map (· ++ [event])) (by simpa using same), taken]

/-- In mode `all` every event is delivered. -/
theorem delivers_all (mode : publisher.mode = .all) (some : publisher.adapters ≠ [])
    (event : TelemetryEvent)
    : (publisher.constructs event && publisher.delivers event) = true := by
  simp [constructs, emitsFailure, emitsSuccess, delivers, enabled, mode, some]

/-- In mode `sampled` delivery is decided by the run. -/
theorem delivers_sampled (mode : publisher.mode = .sampled) (event : TelemetryEvent)
    : (publisher.constructs event && publisher.delivers event)
      = (publisher.enabled && decide (0 < publisher.sampleRate)
          && (decide (1 ≤ publisher.sampleRate)
            || decide (publisher.fraction event.runId < publisher.sampleRate))) := by
  cases enabled : publisher.enabled with
  | false => simp [delivers, enabled]
  | true =>
      by_cases positive : 0 < publisher.sampleRate
      · cases failure : event.isFailure <;>
          by_cases full : 1 ≤ publisher.sampleRate <;>
            simp [constructs, emitsFailure, emitsSuccess, delivers, isSampled, enabled, mode,
              positive, not_le.mpr positive, failure, full]
      · simp [delivers, isSampled, mode, positive, not_lt.mp positive]

end TelemetryPublisher

-----------------------------------------------------------------------------------------
-- Brackets
-----------------------------------------------------------------------------------------

/-- The step that an event is about. -/
def TelemetryEvent.step? : TelemetryEvent → Option StepRef
  | .stepStarted step | .stepCompleted step | .stepFailed step _ => some step
  | .runStarted _ | .runCompleted _ | .runFailed .. => none

/-- The start of a step and its end. -/
inductive Bracket (step : StepRef) : List TelemetryEvent → Prop where
  | completed : Bracket step [.stepStarted step, .stepCompleted step]
  | failed (error : Raised) : Bracket step [.stepStarted step, .stepFailed step error]

/-- Tags can be given to the events such that each tag is on a start and on its end. -/
def Paired (events : List TelemetryEvent) : Prop :=
  ∃ (ι : Type) (_ : DecidableEq ι) (pairs : List (ι × TelemetryEvent)),
    pairs.map Prod.snd = events
      ∧ ∀ tag, tagged tag pairs = [] ∨ ∃ step, Bracket step (tagged tag pairs)

/-- Brackets of one step, one after the other. -/
inductive Alternates (step : StepRef) : List TelemetryEvent → Prop where
  | nil : Alternates step []
  | bracket {events rest : List TelemetryEvent} (first : Bracket step events)
      (later : Alternates step rest) : Alternates step (events ++ rest)

/-- What one step has to do with the events. -/
def ofStep (step : StepRef) (events : List TelemetryEvent) : List TelemetryEvent :=
  events.filter (·.step? = some step)

/-- No step starts again before it has ended. -/
def Alternating (events : List TelemetryEvent) : Prop := ∀ step, Alternates step (ofStep step events)

/-- The events of the steps of a run, each start with its own end. -/
structure Bracketed (run : RunRef) (events : List TelemetryEvent) : Prop where
  own : ∀ event ∈ events, ∃ step, event.step? = some step ∧ step.run = run
  paired : Paired events

theorem tagged_append {ι : Type} [DecidableEq ι] (tag : ι) (first later : List (ι × TelemetryEvent))
    : tagged tag (first ++ later) = tagged tag first ++ tagged tag later := by
  simp [tagged]

/-- Retagging by an injective map keeps what a tag is on. -/
theorem tagged_map {ι κ : Type} [DecidableEq ι] [DecidableEq κ] {retag : ι → κ}
    (injective : Function.Injective retag) (tag : ι) (pairs : List (ι × TelemetryEvent))
    : tagged (retag tag) (pairs.map (fun pair => (retag pair.1, pair.2))) = tagged tag pairs := by
  induction pairs with
  | nil => rfl
  | cons pair rest ih =>
      by_cases here : pair.1 = tag
      · simpa [tagged, here] using ih
      · have there : retag pair.1 ≠ retag tag := fun same => here (injective same)
        simpa [tagged, here, there] using ih

/-- A tag that is on no event. -/
theorem tagged_eq_nil {ι : Type} [DecidableEq ι] {tag : ι} {pairs : List (ι × TelemetryEvent)}
    (absent : ∀ pair ∈ pairs, pair.1 ≠ tag)
    : tagged tag pairs = [] := by
  simp only [tagged, List.map_eq_nil_iff, List.filter_eq_nil_iff, decide_eq_true_eq]
  exact absent

theorem Paired.nil : Paired [] := ⟨Nat, inferInstance, [], rfl, fun _ => .inl rfl⟩

/-- Two runs after each other are paired by the tags of both. -/
theorem Paired.append {first later : List TelemetryEvent} (left : Paired first)
    (right : Paired later)
    : Paired (first ++ later) := by
  obtain ⟨ι, decidable, one, rfl, brackets⟩ := left
  obtain ⟨κ, decidable', two, rfl, brackets'⟩ := right
  refine ⟨ι ⊕ κ, inferInstance, one.map (fun pair => (.inl pair.1, pair.2))
    ++ two.map (fun pair => (.inr pair.1, pair.2)), ?_, ?_⟩
  · simp [List.map_map, Function.comp_def]
  · intro tag
    rw [tagged_append]
    cases tag with
    | inl tag =>
        have absent : tagged (.inl tag) (two.map (fun pair => ((.inr pair.1 : ι ⊕ κ), pair.2)))
            = [] :=
          tagged_eq_nil (by simp)
        rw [tagged_map Sum.inl_injective, absent, List.append_nil]
        exact brackets tag
    | inr tag =>
        have absent : tagged (.inr tag) (one.map (fun pair => ((.inl pair.1 : ι ⊕ κ), pair.2)))
            = [] :=
          tagged_eq_nil (by simp)
        rw [tagged_map Sum.inr_injective, absent, List.nil_append]
        exact brackets' tag

theorem Bracketed.nil (run : RunRef) : Bracketed run [] := ⟨by simp, .nil⟩

theorem Bracketed.append {run : RunRef} {first later : List TelemetryEvent}
    (left : Bracketed run first) (right : Bracketed run later)
    : Bracketed run (first ++ later) := by
  refine ⟨?_, left.paired.append right.paired⟩
  intro event member
  rcases List.mem_append.mp member with early | late
  · exact left.own event early
  · exact right.own event late

theorem Alternates.append {step : StepRef} {first later : List TelemetryEvent}
    (left : Alternates step first) (right : Alternates step later)
    : Alternates step (first ++ later) := by
  induction left with
  | nil => exact right
  | bracket bracket _ ih =>
      rw [List.append_assoc]
      exact .bracket bracket ih

theorem Alternating.nil : Alternating [] := fun _ => .nil

theorem Alternating.append {first later : List TelemetryEvent} (left : Alternating first)
    (right : Alternating later)
    : Alternating (first ++ later) := by
  intro step
  rw [ofStep, List.filter_append]
  exact (left step).append (right step)

/-- Each step has at most one bracket. -/
def Once (events : List TelemetryEvent) : Prop :=
  ∀ step, ofStep step events = [] ∨ Bracket step (ofStep step events)

theorem Once.alternating {events : List TelemetryEvent} (once : Once events)
    : Alternating events := by
  intro step
  rcases once step with empty | bracket
  · rw [empty]
    exact .nil
  · rw [← List.append_nil (ofStep step events)]
    exact .bracket bracket .nil

-----------------------------------------------------------------------------------------
-- Steps and entries are bracketed
-----------------------------------------------------------------------------------------

section Runs

variable [VersionValue V] {publisher : TelemetryPublisher} {mode : Mode} {property : String}
  {run : RunRef}

/-- A step is one bracket, whatever it returns or raises. -/
theorem StepEvents.bracket (contained : publisher.Contained) {ends : EntryEnds V}
    {step : BoundStep V F H} {data : Json} {events : List TelemetryEvent}
    {out : Except Raised Json} (ran : StepEvents publisher mode run ends step data events out)
    : Bracket (step.ref run) events := by
  cases ran with
  | refused escapes => exact absurd escapes (publisher.not_escapes contained _ _)
  | failed => exact .failed _
  | completed => exact .completed

theorem Bracket.ofStep_self {step : StepRef} {events : List TelemetryEvent}
    (bracket : Bracket step events)
    : ofStep step events = events := by
  cases bracket <;> simp [ofStep, TelemetryEvent.step?]

theorem Bracket.ofStep_ne {step other : StepRef} {events : List TelemetryEvent}
    (bracket : Bracket step events) (ne : step ≠ other)
    : ofStep other events = [] := by
  cases bracket <;> simp [ofStep, TelemetryEvent.step?, ne]

theorem Bracket.step? {step : StepRef} {events : List TelemetryEvent}
    (bracket : Bracket step events)
    : ∀ event ∈ events, event.step? = some step := by
  cases bracket <;> simp [TelemetryEvent.step?]

/-- The events of an entry are about its steps, and each step has at most one bracket. -/
theorem StepsEvents.once (contained : publisher.Contained) {ends : EntryEnds V}
    {steps : List (BoundStep V F H)} (nodup : (steps.map (BoundStep.ref run)).Nodup)
    {current : Json} {events : List TelemetryEvent} {out : Except Raised Json}
    (ran : StepsEvents publisher mode property run ends steps current events out)
    : (∀ event ∈ events, ∃ step ∈ steps, event.step? = some (step.ref run)) ∧ Once events := by
  induction ran with
  | done => exact ⟨by simp, fun _ => .inl rfl⟩
  | @raise step rest _ events _ ran =>
      have bracket := ran.bracket contained
      refine ⟨fun event member => ⟨step, List.mem_cons_self, bracket.step? event member⟩, ?_⟩
      intro other
      by_cases same : step.ref run = other
      · subst same
        exact .inr (by rwa [bracket.ofStep_self])
      · exact .inl (bracket.ofStep_ne same)
  | @next step rest _ _ events later _ ran _ ih =>
      have bracket := ran.bracket contained
      obtain ⟨fresh, others⟩ := List.nodup_cons.mp nodup
      obtain ⟨about, once⟩ := ih others
      refine ⟨?_, ?_⟩
      · intro event member
        rcases List.mem_append.mp member with early | late
        · exact ⟨step, List.mem_cons_self, bracket.step? event early⟩
        · obtain ⟨other, inside, same⟩ := about event late
          exact ⟨other, List.mem_cons_of_mem _ inside, same⟩
      · intro other
        rw [ofStep, List.filter_append]
        by_cases same : step.ref run = other
        · subst same
          have away : later.filter (·.step? = some (step.ref run)) = [] := by
            rw [List.filter_eq_nil_iff]
            intro event member hit
            obtain ⟨next, inside, at_⟩ := about event member
            apply fresh
            rw [List.mem_map]
            refine ⟨next, inside, ?_⟩
            rw [decide_eq_true_eq, at_] at hit
            exact Option.some.inj hit
          rw [away, List.append_nil]
          exact .inr (by rwa [← ofStep, bracket.ofStep_self])
        · have empty := bracket.ofStep_ne same
          rw [ofStep] at empty
          rw [empty, List.nil_append]
          exact once other

omit [VersionValue V] in
/-- Steps that are bound from an index on have that path, and indexes from there on. -/
theorem mem_bindSteps {path : Path} {index : Nat} {steps : List (Comparable V × Comparable V)}
    {edges : List (EdgeId V)} {migrations : List (MigrationBinding F)}
    {hooks : List (List (HookBinding H))} {step : BoundStep V F H}
    (member : step ∈ ExecutionEntry.bindSteps path index steps edges migrations hooks)
    : step.context.path = path ∧ index ≤ step.context.index := by
  induction steps generalizing index edges migrations hooks with
  | nil => simp [ExecutionEntry.bindSteps] at member
  | cons ends rest ih =>
      cases edges <;> cases migrations <;> cases hooks <;>
        simp only [ExecutionEntry.bindSteps, List.not_mem_nil, List.mem_cons] at member
      rcases member with rfl | later
      · exact ⟨rfl, le_rfl⟩
      · obtain ⟨same, above⟩ := ih later
        exact ⟨same, (Nat.le_succ index).trans above⟩

omit [VersionValue V] in
theorem nodup_bindSteps (run : RunRef) {path : Path} {index : Nat}
    {steps : List (Comparable V × Comparable V)} {edges : List (EdgeId V)}
    {migrations : List (MigrationBinding F)} {hooks : List (List (HookBinding H))}
    : ((ExecutionEntry.bindSteps path index steps edges migrations hooks).map
        (BoundStep.ref run)).Nodup := by
  induction steps generalizing index edges migrations hooks with
  | nil => simp [ExecutionEntry.bindSteps]
  | cons ends rest ih =>
      cases edges <;> cases migrations <;> cases hooks <;>
        simp only [ExecutionEntry.bindSteps, List.map_nil, List.nodup_nil, List.map_cons,
          List.nodup_cons]
      refine ⟨?_, ih⟩
      intro member
      obtain ⟨step, inside, same⟩ := List.mem_map.mp member
      have above := (mem_bindSteps inside).2
      have equal : step.context.index = index := congrArg StepRef.index same
      omega

/-- The events of an entry are about steps at its path. -/
theorem EntryEvents.once (contained : publisher.Contained) {entry : ExecutionEntry V F H}
    {events : List TelemetryEvent} {out : Except Raised (Path × Json)}
    (ran : EntryEvents publisher mode property run entry events out)
    : (∀ event ∈ events, ∃ step, event.step? = some step ∧ step.run = run
        ∧ step.path = entry.path)
      ∧ Once events := by
  cases ran with
  | unread => exact ⟨by simp, fun _ => .inl rfl⟩
  | ran steps =>
      obtain ⟨about, once⟩ := steps.once contained (nodup_bindSteps run)
      refine ⟨?_, once⟩
      intro event member
      obtain ⟨step, inside, same⟩ := about event member
      exact ⟨step.ref run, same, rfl, (mem_bindSteps inside).1⟩

theorem EntryEvents.bracketed (contained : publisher.Contained) {entry : ExecutionEntry V F H}
    {events : List TelemetryEvent} {out : Except Raised (Path × Json)}
    (ran : EntryEvents publisher mode property run entry events out)
    : Bracketed run events := by
  obtain ⟨about, once⟩ := ran.once contained
  refine ⟨?_, ?_⟩
  · intro event member
    obtain ⟨step, same, own, -⟩ := about event member
    exact ⟨step, same, own⟩
  · refine ⟨Option StepRef, inferInstance, events.map (fun event => (event.step?, event)), ?_, ?_⟩
    · simp [List.map_map, Function.comp_def]
    · intro tag
      have same : tagged tag (events.map (fun event => (event.step?, event)))
          = events.filter (·.step? = tag) := by
        simp [tagged, List.filter_map, List.map_map, Function.comp_def]
      rw [same]
      cases tag with
      | none =>
          refine .inl (List.filter_eq_nil_iff.mpr ?_)
          intro event member
          obtain ⟨step, at_, -⟩ := about event member
          simp [at_]
      | some step => exact (once step).imp_right (fun bracket => ⟨step, bracket⟩)

theorem SerialEvents.bracketed (contained : publisher.Contained)
    {level : List (ExecutionEntry V F H)} {events : List TelemetryEvent}
    {out : Except Raised (List (Path × Json))}
    (ran : SerialEvents publisher mode property run level events out)
    : Bracketed run events ∧ Alternating events := by
  induction ran with
  | nil => exact ⟨.nil run, .nil⟩
  | raise ran => exact ⟨ran.bracketed contained, (ran.once contained).2.alternating⟩
  | next ran _ ih =>
      exact ⟨(ran.bracketed contained).append ih.1, (ran.once contained).2.alternating.append ih.2⟩

/-- The tasks of a pool, whether it returns or raises. -/
theorem PooledEvents.tasks {level : List (ExecutionEntry V F H)} {events : List TelemetryEvent}
    {out : Except Raised (List (Path × Json))}
    (ran : PooledEvents publisher mode property run level events out)
    : ∃ pairs : List (Nat × TelemetryEvent), pairs.map Prod.snd = events
      ∧ ∀ pair ∈ pairs, ∃ entry, level[pair.1]? = some entry
        ∧ ∃ out, EntryEvents publisher mode property run entry (tagged pair.1 pairs) out := by
  cases ran with
  | @returned pairs results ran inside =>
      refine ⟨pairs, rfl, ?_⟩
      intro pair member
      have found := List.getElem?_eq_getElem (inside pair member)
      obtain ⟨result, -, ran⟩ := ran pair.1 _ found
      exact ⟨_, found, _, ran⟩
  | @raised pairs error ran inside =>
      refine ⟨pairs, rfl, ?_⟩
      intro pair member
      have found := List.getElem?_eq_getElem (inside pair member)
      exact ⟨_, found, ran pair.1 _ found⟩

theorem mem_tagged {pairs : List (Nat × TelemetryEvent)} {pair : Nat × TelemetryEvent}
    (member : pair ∈ pairs)
    : pair.2 ∈ tagged pair.1 pairs :=
  List.mem_map_of_mem (List.mem_filter.mpr ⟨member, by simp⟩)

/-- The tasks of a pool are bracketed together, by place and step. -/
theorem PooledEvents.bracketed (contained : publisher.Contained)
    {level : List (ExecutionEntry V F H)} {events : List TelemetryEvent}
    {out : Except Raised (List (Path × Json))}
    (ran : PooledEvents publisher mode property run level events out)
    : Bracketed run events := by
  obtain ⟨pairs, rfl, tasks⟩ := ran.tasks
  refine ⟨?_, ?_⟩
  · intro event member
    obtain ⟨pair, inside, rfl⟩ := List.mem_map.mp member
    obtain ⟨entry, -, out, ran⟩ := tasks pair inside
    exact (ran.bracketed contained).own pair.2 (mem_tagged inside)
  · refine ⟨Nat × Option StepRef, inferInstance,
      pairs.map (fun pair => ((pair.1, pair.2.step?), pair.2)), ?_, ?_⟩
    · simp [List.map_map, Function.comp_def]
    · intro tag
      have same : tagged tag (pairs.map (fun pair => ((pair.1, pair.2.step?), pair.2)))
          = (tagged tag.1 pairs).filter (·.step? = tag.2) := by
        simp only [tagged, List.filter_map, List.map_map, List.filter_filter, Prod.ext_iff]
        congr 1
        apply List.filter_congr
        intro pair _
        simp [Bool.and_comm]
      rw [same]
      by_cases empty : tagged tag.1 pairs = []
      · simp [empty]
      · obtain ⟨event, member⟩ := List.exists_mem_of_ne_nil _ empty
        obtain ⟨pair, inside, rfl⟩ := List.mem_map.mp member
        obtain ⟨inside, here⟩ := List.mem_filter.mp inside
        obtain ⟨entry, -, out, ran⟩ := tasks pair inside
        rw [of_decide_eq_true here] at ran
        obtain ⟨about, once⟩ := ran.once contained
        cases wanted : tag.2 with
        | none =>
            refine .inl (List.filter_eq_nil_iff.mpr ?_)
            intro event member
            obtain ⟨step, at_, -⟩ := about event member
            simp [at_]
        | some step => exact (once step).imp_right (fun bracket => ⟨step, bracket⟩)

/-- Tasks at different paths never share a step. -/
theorem PooledEvents.alternating (contained : publisher.Contained)
    {level : List (ExecutionEntry V F H)} (distinct : (level.map ExecutionEntry.path).Nodup)
    {events : List TelemetryEvent} {out : Except Raised (List (Path × Json))}
    (ran : PooledEvents publisher mode property run level events out)
    : Alternating events := by
  obtain ⟨pairs, rfl, tasks⟩ := ran.tasks
  have located : ∀ pair ∈ pairs, ∀ step, pair.2.step? = some step →
      (level.map ExecutionEntry.path)[pair.1]? = some step.path := by
    intro pair inside step at_
    obtain ⟨entry, found, out, ran⟩ := tasks pair inside
    obtain ⟨other, same, -, path⟩ := (ran.once contained).1 pair.2 (mem_tagged inside)
    obtain rfl : other = step := Option.some.inj (same.symm.trans at_)
    simp [found, path]
  intro step
  by_cases empty : ofStep step (pairs.map Prod.snd) = []
  · rw [empty]
    exact .nil
  · obtain ⟨event, member⟩ := List.exists_mem_of_ne_nil _ empty
    obtain ⟨shown, hit⟩ := List.mem_filter.mp member
    obtain ⟨pair, inside, rfl⟩ := List.mem_map.mp shown
    have here := located pair inside step (of_decide_eq_true hit)
    -- every event of the step is in the task of that pair
    have same : ofStep step (pairs.map Prod.snd) = ofStep step (tagged pair.1 pairs) := by
      simp only [ofStep, tagged, List.filter_map, List.filter_filter]
      congr 1
      apply List.filter_congr
      intro other member
      by_cases at_ : other.2.step? = some step
      · have there := located other member step at_
        have place : other.1 = pair.1 := by
          obtain ⟨bound, value⟩ := List.getElem?_eq_some_iff.mp here
          obtain ⟨bound', value'⟩ := List.getElem?_eq_some_iff.mp there
          exact (distinct.getElem_inj_iff).mp (value'.trans value.symm)
        simp [at_, place]
      · simp [at_]
    obtain ⟨entry, -, out, ran⟩ := tasks pair inside
    rw [same]
    exact (ran.once contained).2.alternating step

/-- How a run ends, as its last event tells it. -/
def terminal (run : RunRef) : Except Raised Json → TelemetryEvent
  | .ok _ => .runCompleted run
  | .error error => .runFailed run error

theorem LevelsEvents.bracketed (contained : publisher.Contained) {pooled : Bool}
    {levels : List (List (ExecutionEntry V F H))} {events : List TelemetryEvent}
    {out : Except Raised Json}
    (ran : LevelsEvents publisher mode property run pooled levels events out)
    : Bracketed run events
      ∧ ((∀ level ∈ levels, (level.map ExecutionEntry.path).Nodup) → Alternating events) := by
  have level : ∀ {level : List (ExecutionEntry V F H)} {events : List TelemetryEvent}
      {out : Except Raised (List (Path × Json))},
      LevelEvents publisher mode property run pooled level events out →
      Bracketed run events
        ∧ ((level.map ExecutionEntry.path).Nodup → Alternating events) := by
    intro level events out ran
    cases pooled with
    | false =>
        obtain ⟨bracketed, alternating⟩ := SerialEvents.bracketed contained ran
        exact ⟨bracketed, fun _ => alternating⟩
    | true =>
        exact ⟨PooledEvents.bracketed contained ran,
          fun distinct => PooledEvents.alternating contained distinct ran⟩
  induction ran with
  | nil => exact ⟨.nil run, fun _ => .nil⟩
  | raise ran | unapplied _ ran =>
      exact ⟨(level ran).1, fun distinct => (level ran).2 (distinct _ List.mem_cons_self)⟩
  | next ran _ ih =>
      refine ⟨(level ran).1.append ih.1, ?_⟩
      intro distinct
      have first := (level ran).2 (distinct _ List.mem_cons_self)
      exact first.append (ih.2 (fun other member => distinct other (List.mem_cons_of_mem _ member)))

theorem LayeredEvents.bracketed (contained : publisher.Contained) {backend : Backend}
    {plan : ExecutionPlan V F H} {wrapped : Bool} {events : List TelemetryEvent}
    {out : Except Raised Json}
    (ran : LayeredEvents publisher property run backend plan wrapped events out)
    : Bracketed run events
      ∧ ((∀ level ∈ plan.levels, (level.map ExecutionEntry.path).Nodup) → Alternating events) := by
  cases ran with
  | plain ran => exact ran.bracketed contained
  | @layered attempts _ ran =>
      induction attempts with
      | nil => exact ⟨.nil run, fun _ => .nil⟩
      | cons attempt rest ih =>
          obtain ⟨ended, first⟩ := ran attempt List.mem_cons_self
          obtain ⟨bracketed, alternating⟩ := first.bracketed contained
          have later := ih (fun other member => ran other (List.mem_cons_of_mem _ member))
          refine ⟨bracketed.append later.1, ?_⟩
          intro distinct
          exact (alternating distinct).append (later.2 distinct)

-----------------------------------------------------------------------------------------
-- Adapters do not interfere
-----------------------------------------------------------------------------------------

/-- Whatever gets past one publisher gets past the other. -/
def TelemetryPublisher.Within (publisher other : TelemetryPublisher) : Prop :=
  ∀ event error, publisher.Escapes event error → other.Escapes event error

theorem Published.mono {other : TelemetryPublisher} (within : publisher.Within other)
    {event : TelemetryEvent} {escaped : Option Raised}
    (published : Published publisher event escaped)
    : Published other event escaped := by
  cases published with
  | quiet => exact .quiet
  | escaped escapes => exact .escaped (within _ _ escapes)

theorem StepEvents.mono {other : TelemetryPublisher} (within : publisher.Within other)
    {ends : EntryEnds V} {step : BoundStep V F H} {data : Json} {events : List TelemetryEvent}
    {out : Except Raised Json} (ran : StepEvents publisher mode run ends step data events out)
    : StepEvents other mode run ends step data events out := by
  cases ran with
  | refused escapes => exact .refused (within _ _ escapes)
  | failed body published => exact .failed body (published.mono within)
  | completed body published => exact .completed body (published.mono within)

theorem StepsEvents.mono {other : TelemetryPublisher} (within : publisher.Within other)
    {ends : EntryEnds V} {steps : List (BoundStep V F H)} {current : Json}
    {events : List TelemetryEvent} {out : Except Raised Json}
    (ran : StepsEvents publisher mode property run ends steps current events out)
    : StepsEvents other mode property run ends steps current events out := by
  induction ran with
  | done current => exact .done current
  | raise ran => exact .raise (ran.mono within)
  | next ran _ ih => exact .next (ran.mono within) ih

theorem EntryEvents.mono {other : TelemetryPublisher} (within : publisher.Within other)
    {entry : ExecutionEntry V F H} {events : List TelemetryEvent}
    {out : Except Raised (Path × Json)}
    (ran : EntryEvents publisher mode property run entry events out)
    : EntryEvents other mode property run entry events out := by
  cases ran with
  | unread error => exact .unread error
  | ran steps => exact .ran (steps.mono within)

theorem LevelEvents.mono {other : TelemetryPublisher} (within : publisher.Within other)
    {pooled : Bool} {level : List (ExecutionEntry V F H)} {events : List TelemetryEvent}
    {out : Except Raised (List (Path × Json))}
    (ran : LevelEvents publisher mode property run pooled level events out)
    : LevelEvents other mode property run pooled level events out := by
  cases pooled with
  | false =>
      show SerialEvents other mode property run level events out
      replace ran : SerialEvents publisher mode property run level events out := ran
      induction ran with
      | nil => exact .nil
      | raise ran => exact .raise (ran.mono within)
      | next ran _ ih => exact .next (ran.mono within) ih
  | true =>
      show PooledEvents other mode property run level events out
      replace ran : PooledEvents publisher mode property run level events out := ran
      cases ran with
      | returned ran inside =>
          refine .returned ?_ inside
          intro place entry found
          obtain ⟨result, member, ran⟩ := ran place entry found
          exact ⟨result, member, ran.mono within⟩
      | raised ran inside =>
          refine .raised ?_ inside
          intro place entry found
          obtain ⟨out, ran⟩ := ran place entry found
          exact ⟨out, ran.mono within⟩

theorem LevelsEvents.mono {other : TelemetryPublisher} (within : publisher.Within other)
    {pooled : Bool} {levels : List (List (ExecutionEntry V F H))} {events : List TelemetryEvent}
    {out : Except Raised Json}
    (ran : LevelsEvents publisher mode property run pooled levels events out)
    : LevelsEvents other mode property run pooled levels events out := by
  induction ran with
  | nil data => exact .nil data
  | raise ran => exact .raise (ran.mono within)
  | unapplied error ran => exact .unapplied error (ran.mono within)
  | next ran _ ih => exact .next (ran.mono within) ih

theorem LayeredEvents.mono {other : TelemetryPublisher} (within : publisher.Within other)
    {backend : Backend} {plan : ExecutionPlan V F H} {wrapped : Bool}
    {events : List TelemetryEvent} {out : Except Raised Json}
    (ran : LayeredEvents publisher property run backend plan wrapped events out)
    : LayeredEvents other property run backend plan wrapped events out := by
  cases ran with
  | plain ran => exact .plain (ran.mono within)
  | layered ran =>
      refine .layered ?_
      intro events member
      obtain ⟨ended, ran⟩ := ran events member
      exact ⟨ended, ran.mono within⟩

/-- The events and the outcome of a run are possible with every publisher that lets through as
much.
-/
theorem ExecuteEvents.mono {other : TelemetryPublisher} (within : publisher.Within other)
    {backend : Backend} {plan : ExecutionPlan V F H} {wrapped : Bool}
    {events : List TelemetryEvent} {out : Except Raised Json}
    (ran : ExecuteEvents publisher property run backend plan wrapped events out)
    : ExecuteEvents other property run backend plan wrapped events out := by
  cases ran with
  | refused escapes => exact .refused (within _ _ escapes)
  | failed ran published => exact .failed (ran.mono within) (published.mono within)
  | completed ran published => exact .completed (ran.mono within) (published.mono within)

/-- The events of a run: its start, its steps and its end. -/
structure WellBracketed (plan : ExecutionPlan V F H) (run : RunRef) (out : Except Raised Json)
    (trace steps : List TelemetryEvent) : Prop where
  ends : trace = .runStarted run :: steps ++ [terminal run out]
  inside : Bracketed run steps
  alternate : (∀ level ∈ plan.levels, (level.map ExecutionEntry.path).Nodup) → Alternating steps

theorem ExecuteEvents.bracketed (contained : publisher.Contained) {backend : Backend}
    {plan : ExecutionPlan V F H} {wrapped : Bool} {trace : List TelemetryEvent}
    {out : Except Raised Json}
    (ran : ExecuteEvents publisher property run backend plan wrapped trace out)
    : ∃ steps, WellBracketed plan run out trace steps := by
  cases ran with
  | refused escapes => exact absurd escapes (publisher.not_escapes contained _ _)
  | failed ran published =>
      obtain ⟨bracketed, alternating⟩ := ran.bracketed contained
      cases published with
      | quiet => exact ⟨_, rfl, bracketed, alternating⟩
      | escaped escapes => exact absurd escapes (publisher.not_escapes contained _ _)
  | completed ran published =>
      obtain ⟨bracketed, alternating⟩ := ran.bracketed contained
      cases published with
      | quiet => exact ⟨_, rfl, bracketed, alternating⟩
      | escaped escapes => exact absurd escapes (publisher.not_escapes contained _ _)

omit [VersionValue V] in
/-- Every event of a run carries its run id. -/
theorem WellBracketed.runId {plan : ExecutionPlan V F H} {out : Except Raised Json}
    {trace steps : List TelemetryEvent} (bracketed : WellBracketed plan run out trace steps)
    : ∀ event ∈ trace, event.runId = run.runId := by
  intro event member
  rw [bracketed.ends] at member
  simp only [List.cons_append, List.mem_cons, List.mem_append, List.not_mem_nil, or_false]
    at member
  rcases member with rfl | inside | rfl
  · rfl
  · obtain ⟨step, about, rfl⟩ := bracketed.inside.own event inside
    cases event <;> simp_all [TelemetryEvent.step?, TelemetryEvent.runId]
  · cases out <;> rfl

/-- A serial backend without middleware is a run with the events of its steps. -/
theorem ExecuteEvents.of_executeLevels (publisher : TelemetryPublisher) (property : String)
    (run : RunRef) {backend : Backend} (serial : backend.pooled = false) (calls : Calls V F H)
    (plan : ExecutionPlan V F H)
    : let program := executeLevels backend.mode ⟨⟨true, true⟩, calls, property⟩ plan.levels
        plan.payload
      ExecuteEvents publisher property run backend plan false
        (.runStarted run :: telemetryEvents run (Py.after program [])
          ++ [terminal run (Py.outcome program [])])
        (Py.outcome program []) := by
  intro program
  obtain ⟨events, ran, added⟩ :=
    executeLevels_reports run publisher property plan.levels plan.payload []
  rw [← serial] at ran
  rw [show telemetryEvents run (Py.after program []) = events from added]
  change LevelsEvents publisher backend.mode property run backend.pooled plan.levels events
    (Py.outcome program []) at ran
  cases ended : Py.outcome program [] with
  | ok value =>
      rw [ended] at ran
      exact .completed (.plain ran) .quiet
  | error error =>
      rw [ended] at ran
      exact .failed (.plain ran) .quiet

end Runs

/-- A publisher in mode `all` to one adapter, which raises at every event. -/
def loudPublisher (error : Raised) : TelemetryPublisher := ⟨[fun _ => some error], .all, 1, fun _ => 0⟩

end Pyverge
