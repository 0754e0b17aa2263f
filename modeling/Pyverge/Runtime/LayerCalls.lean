import Pyverge.Runtime.Middleware
import Mathlib.Algebra.Order.Group.Nat
import Mathlib.Data.List.Basic

/-! Layer calls and what one layer adds to the run it wraps.
Numbers of layer calls only grow, so the events of a call are settled when it ends and a run is
judged part by part.
-/

namespace Pyverge.Middleware

open Py (Json outcome after)

variable {S α : Type}

/-- The events of one layer call. -/
def group (trace : List Event) (call : Nat) : List Event :=
  trace.filter (fun event => event.call = call)

/-- What the events of a layer call may be: nothing, or a begin and an end that fits how the
wrapped execution ended.
-/
inductive Finished : List Event → Prop where
  | untouched : Finished []
  | committed (call : Nat) : Finished [.begin call, .ended call true, .commit call]
  | rolledBack (call : Nat) (error : Raised)
      : Finished [.begin call, .ended call false, .rollback call error]
  | completed (call : Nat) {first last : AuditEvent} (started : first.status = .started)
      (completed : last.status = .completed)
      : Finished [.audit call first, .ended call true, .audit call last]
  | failed (call : Nat) {first last : AuditEvent} (started : first.status = .started)
      (failed : last.status = .failed)
      : Finished [.audit call first, .ended call false, .audit call last]

/-- Every layer call from a number on is finished. -/
def SettledFrom (first : Nat) (trace : List Event) : Prop :=
  ∀ call, first ≤ call → Finished (group trace call)

/-- Every layer call of a trace is finished. -/
def Settled (trace : List Event) : Prop := ∀ call, Finished (group trace call)

/-- Only calls that were opened have noted anything. -/
def State.Numbered (state : State S) : Prop := ∀ event ∈ state.trace, event.call < state.calls

/-- What was noted since belongs to calls opened since. -/
structure Grows (before after : State S) : Prop where
  calls : before.calls ≤ after.calls
  trace : ∃ added, after.trace = before.trace ++ added
    ∧ ∀ event ∈ added, before.calls ≤ event.call ∧ event.call < after.calls

theorem Grows.of_eq {before after : State S} (calls : after.calls = before.calls)
    (trace : after.trace = before.trace)
    : Grows before after :=
  ⟨calls.ge, [], by simp [trace], by simp⟩

theorem Grows.trans {first second third : State S} (left : Grows first second)
    (right : Grows second third)
    : Grows first third := by
  obtain ⟨added, same, own⟩ := left.trace
  obtain ⟨more, next, later⟩ := right.trace
  refine ⟨left.calls.trans right.calls, added ++ more, by simp [next, same], ?_⟩
  intro event member
  rcases List.mem_append.mp member with earlier | after
  · exact ⟨(own event earlier).1, (own event earlier).2.trans_le right.calls⟩
  · exact ⟨left.calls.trans (later event after).1, (later event after).2⟩

theorem State.Numbered.grows {before after : State S} (numbered : before.Numbered)
    (grows : Grows before after)
    : after.Numbered := by
  obtain ⟨added, same, own⟩ := grows.trace
  intro event member
  rw [same] at member
  rcases List.mem_append.mp member with earlier | later
  · exact (numbered event earlier).trans_le grows.calls
  · exact (own event later).2

theorem group_append (first later : List Event) (call : Nat)
    : group (first ++ later) call = group first call ++ group later call :=
  List.filter_append ..

theorem group_eq_nil {trace : List Event} {call : Nat}
    (other : ∀ event ∈ trace, event.call ≠ call)
    : group trace call = [] := by
  rw [group, List.filter_eq_nil_iff]
  intro event member
  simp [other event member]

theorem group_eq_self {trace : List Event} {call : Nat}
    (own : ∀ event ∈ trace, event.call = call)
    : group trace call = trace := by
  rw [group, List.filter_eq_self]
  intro event member
  simp [own event member]

/-- A run settles iff its two halves do. -/
theorem Grows.settledFrom_iff {middle final : State S} (grows : Grows middle final)
    (numbered : middle.Numbered) {first : Nat} (le : first ≤ middle.calls)
    : SettledFrom first final.trace
      ↔ SettledFrom first middle.trace ∧ SettledFrom middle.calls final.trace := by
  obtain ⟨added, same, own⟩ := grows.trace
  have old : ∀ call, call < middle.calls → group final.trace call = group middle.trace call := by
    intro call before
    have quiet : group added call = [] := by
      refine group_eq_nil (fun event member => ?_)
      have := (own event member).1
      omega
    rw [same, group_append, quiet, List.append_nil]
  constructor
  · intro settled
    refine ⟨?_, fun call after => settled call (le.trans after)⟩
    intro call after
    rcases Nat.lt_or_ge call middle.calls with before | beyond
    · rw [← old call before]
      exact settled call after
    · rw [group_eq_nil]
      · exact .untouched
      · intro event member
        have := numbered event member
        omega
  · rintro ⟨left, right⟩ call after
    rcases Nat.lt_or_ge call middle.calls with before | beyond
    · rw [old call before]
      exact left call after
    · exact right call beyond

/-- Which two kinds of events make a bracketing layer. -/
structure Brackets (opening : Nat → Event) (closing : Nat → Option Raised → Event) : Prop where
  openingCall : ∀ call, (opening call).call = call
  closingCall : ∀ call error, (closing call error).call = call
  returned : ∀ call, Finished [opening call, .ended call true, closing call none]
  raised : ∀ call error, Finished [opening call, .ended call false, closing call (some error)]
  unended : ∀ call, ¬ Finished [opening call]
  unclosed : ∀ call produced, ¬ Finished [opening call, .ended call produced]

theorem transaction_brackets : Brackets .begin endTransaction where
  openingCall _ := rfl
  closingCall _ error := by cases error <;> rfl
  returned call := .committed call
  raised call error := .rolledBack call error
  unended call finished := by cases finished
  unclosed call produced finished := by cases finished

theorem audit_brackets (info : RunInfo) (backend : String)
    : Brackets (startAudit info backend) (endAudit info backend) where
  openingCall _ := rfl
  closingCall _ error := by cases error <;> rfl
  returned call := .completed call rfl rfl
  raised call error := .failed call rfl rfl
  unended call finished := by cases finished
  unclosed call produced finished := by cases finished

section Bracketing

variable {opening : Nat → Event} {closing : Nat → Option Raised → Event}

theorem closingEvents_call (brackets : Brackets opening closing) (call : Nat)
    (result : Except Raised Json)
    : ∀ event ∈ closingEvents closing call result, event.call = call := by
  intro event member
  cases result with
  | ok value =>
      simp only [closingEvents, List.mem_cons, List.not_mem_nil, or_false] at member
      rcases member with rfl | rfl
      · rfl
      · exact brackets.closingCall call none
  | error error =>
      simp only [closingEvents] at member
      split at member <;> simp only [List.mem_cons, List.not_mem_nil, or_false] at member
      · rcases member with rfl | rfl
        · rfl
        · exact brackets.closingCall call (some error)
      · rw [member]
        rfl

/-- The group of a bracketing call is finished unless the wrapped execution ended with an
error that is no exception.
-/
theorem finished_closingEvents (brackets : Brackets opening closing) (call : Nat)
    (result : Except Raised Json)
    : Finished (opening call :: closingEvents closing call result)
      ↔ ∀ error, result = .error error → error.isException = true := by
  cases result with
  | ok value => simp [closingEvents, brackets.returned]
  | error error =>
      cases caught : error.isException with
      | true => simp [closingEvents, caught, brackets.raised]
      | false => simp [closingEvents, caught, brackets.unclosed]

theorem State.Numbered.opened (brackets : Brackets opening closing) {state : State S}
    (numbered : state.Numbered)
    : (state.opened opening).Numbered := by
  intro event member
  simp only [State.opened, State.noted, List.mem_append, List.mem_singleton] at member
  rcases member with earlier | rfl
  · exact (numbered event earlier).trans (Nat.lt_succ_self _)
  · rw [brackets.openingCall]
    exact Nat.lt_succ_self _

/-- A call that opens, runs something and notes its own events at the end. -/
theorem Grows.bracket (brackets : Brackets opening closing) {state reached : State S}
    (numbered : state.Numbered) (inner : Grows (state.opened opening) reached)
    {events : List Event} (own : ∀ event ∈ events, event.call = state.calls)
    : Grows state (reached.noted events)
      ∧ (SettledFrom state.calls (reached.noted events).trace
        ↔ Finished (opening state.calls :: events)
          ∧ SettledFrom (state.opened opening).calls reached.trace) := by
  obtain ⟨added, same, later⟩ := inner.trace
  have more : (state.opened opening).calls = state.calls + 1 := rfl
  have le := inner.calls
  have openedTrace : (state.opened opening).trace = state.trace ++ [opening state.calls] := rfl
  have noted : (reached.noted events).trace
      = state.trace ++ ([opening state.calls] ++ added ++ events) := by
    simp [State.noted, same, openedTrace]
  have ownGroup : group (reached.noted events).trace state.calls
      = opening state.calls :: events := by
    have earlier : group state.trace state.calls = [] := by
      refine group_eq_nil (fun event member => ?_)
      have := numbered event member
      omega
    have between : group added state.calls = [] := by
      refine group_eq_nil (fun event member => ?_)
      have := (later event member).1
      omega
    have first : group [opening state.calls] state.calls = [opening state.calls] :=
      group_eq_self (by simp [brackets.openingCall])
    rw [noted, group_append, group_append, group_append, earlier, between, group_eq_self own, first]
    rfl
  have otherGroup : ∀ call, state.calls + 1 ≤ call →
      group (reached.noted events).trace call = group reached.trace call := by
    intro call beyond
    have quiet : group events call = [] := by
      refine group_eq_nil (fun event member => ?_)
      have := own event member
      omega
    rw [State.noted, group_append, quiet, List.append_nil]
  refine ⟨⟨by simp only [State.noted]; omega, _, noted, ?_⟩, ?_⟩
  · intro event member
    simp only [List.append_assoc, List.mem_append, List.mem_singleton] at member
    simp only [State.noted]
    rcases member with rfl | inside | last
    · rw [brackets.openingCall]
      omega
    · have := later event inside
      omega
    · have := own event last
      omega
  · constructor
    · intro settled
      refine ⟨ownGroup ▸ settled state.calls (Nat.le_refl _), fun call beyond => ?_⟩
      rw [← otherGroup call (by omega)]
      exact settled call (by omega)
    · rintro ⟨finished, settled⟩ call beyond
      rcases Nat.eq_or_lt_of_le beyond with rfl | further
      · rw [ownGroup]
        exact finished
      · rw [otherGroup call further]
        exact settled call further

end Bracketing

section Answers

/-- A layer call that changes nothing but its own events, all finished. -/
structure Undisturbed (state reached : State S) : Prop where
  grows : Grows state reached
  keys : reached.keys = state.keys
  attempts : reached.attempts = state.attempts
  settled : SettledFrom state.calls reached.trace

/-- The program raises because a key is claimed. -/
def Refuses (program : StackM S α) (state : State S) : Prop :=
  ∃ reached, program state = .error claimedError reached ∧ Undisturbed state reached

/-- The program returns a value without asking the backend. -/
def Answers (program : StackM S α) (state : State S) (value : α) : Prop :=
  ∃ reached, program state = .ok value reached ∧ Grows state reached
    ∧ SettledFrom state.calls reached.trace

theorem settledFrom_calls {state : State S} (numbered : state.Numbered)
    : SettledFrom state.calls state.trace := by
  intro call beyond
  rw [group_eq_nil]
  · exact .untouched
  · intro event member
    have := numbered event member
    omega

theorem Undisturbed.refl {state : State S} (numbered : state.Numbered) : Undisturbed state state :=
  ⟨.of_eq rfl rfl, rfl, rfl, settledFrom_calls numbered⟩

theorem Undisturbed.trans {first second third : State S} (numbered : first.Numbered)
    (left : Undisturbed first second) (right : Undisturbed second third)
    : Undisturbed first third where
  grows := left.grows.trans right.grows
  keys := right.keys.trans left.keys
  attempts := right.attempts.trans left.attempts
  settled := (right.grows.settledFrom_iff (numbered.grows left.grows) left.grows.calls).mpr
    ⟨left.settled, right.settled⟩

theorem Refuses.bind {β : Type} {program : StackM S α} {state : State S}
    (refuses : Refuses program state) (next : α → StackM S β)
    : Refuses (program >>= next) state := by
  obtain ⟨reached, run, undisturbed⟩ := refuses
  exact ⟨reached, by rw [Py.bind_apply, run], undisturbed⟩

theorem Answers.finish {execute : StackM S (Reply S)} {state : State S} {result : Json}
    (answers : Answers execute state (.value result))
    : Answers (execute >>= finishReply) state result := by
  obtain ⟨reached, run, grows, settled⟩ := answers
  refine ⟨reached, ?_, grows, settled⟩
  rw [Py.bind_apply, run]
  rfl

section Bracketing

variable {opening : Nat → Event} {closing : Nat → Option Raised → Event}

theorem Refuses.bracket (brackets : Brackets opening closing) {execute : StackM S (Reply S)}
    {state : State S} (numbered : state.Numbered)
    (refuses : Refuses execute (state.opened opening))
    : Refuses (bracket opening closing execute) state := by
  obtain ⟨reached, run, undisturbed⟩ := refuses
  have own := closingEvents_call brackets state.calls (.error claimedError)
  obtain ⟨grows, settled⟩ := Grows.bracket brackets numbered undisturbed.grows own
  have finished : Finished (opening state.calls
      :: closingEvents closing state.calls (.error claimedError)) := by
    refine (finished_closingEvents brackets _ _).mpr (fun error same => ?_)
    obtain rfl := Except.error.inj same
    rfl
  exact ⟨_, by rw [bracket_apply, run], grows, undisturbed.keys, undisturbed.attempts,
    settled.mpr ⟨finished, undisturbed.settled⟩⟩

theorem Answers.bracket (brackets : Brackets opening closing) {execute : StackM S (Reply S)}
    {state : State S} (numbered : state.Numbered) {result : Json}
    (answers : Answers execute (state.opened opening) (.value result))
    : Answers (bracket opening closing execute) state (.value result) := by
  obtain ⟨reached, run, inner, innerSettled⟩ := answers
  have own := closingEvents_call brackets state.calls (.ok result)
  obtain ⟨grows, settled⟩ := Grows.bracket brackets numbered inner own
  have finished := (finished_closingEvents brackets state.calls (.ok result)).mpr (by simp)
  exact ⟨_, by rw [bracket_apply, run], grows, settled.mpr ⟨finished, innerSettled⟩⟩

end Bracketing

/-- A loop around a program that always refuses, by induction on the attempts. -/
theorem Refuses.retrying {program : StackM S α} {state : State S} (numbered : state.Numbered)
    (each : ∀ next : State S, next.Numbered → next.keys = state.keys → Refuses program next)
    (retries : Nat)
    : Refuses (retrying program retries) state := by
  induction retries generalizing state with
  | zero => exact each state numbered rfl
  | succ retries ih =>
      obtain ⟨reached, run, undisturbed⟩ := each state numbered rfl
      have later := numbered.grows undisturbed.grows
      obtain ⟨final, loop, rest⟩ := ih later
        (fun next nextNumbered same => each next nextNumbered (same.trans undisturbed.keys))
      refine ⟨final, ?_, undisturbed.trans numbered rest⟩
      rw [Middleware.retrying, exceptException_apply, run]
      exact loop

theorem retrying_of_ok {program : StackM S α} {state reached : State S} {value : α}
    (run : program state = .ok value reached) (retries : Nat)
    : retrying program retries state = .ok value reached := by
  cases retries with
  | zero => exact run
  | succ retries => rw [retrying, exceptException_apply, run]

theorem Answers.retry {inner : Executor S} {state : State S} {result : Json}
    (answers : Answers inner.execute state (.value result)) (attempts : Nat)
    : Answers (retryExecute attempts inner) state (.value result) := by
  obtain ⟨reached, run, grows, settled⟩ := answers
  refine ⟨reached, retrying_of_ok ?_ _, grows, settled⟩
  rw [Py.bind_apply, run]
  rfl

variable [DecidableEq S]

theorem State.Numbered.setKey {state : State S} (numbered : state.Numbered) (key : S) (value : KeyState)
    : (state.setKey key value).Numbered := numbered

theorem Refuses.idempotency {key : S} {inner : Executor S} {state : State S}
    (free : state.keys key = .free)
    (refuses : Refuses inner.execute (state.setKey key .claimed))
    : Refuses (idempotencyExecute key inner) state := by
  obtain ⟨reached, run, undisturbed⟩ := refuses
  refine ⟨reached.setKey key .free, ?_, ?_⟩
  · rw [idempotencyExecute_free inner free, run]
    rfl
  · refine ⟨⟨undisturbed.grows.calls, undisturbed.grows.trace⟩, ?_, undisturbed.attempts,
      undisturbed.settled⟩
    rw [State.setKey, undisturbed.keys, State.setKey, Function.update_idem, ← free,
      Function.update_eq_self]

theorem Answers.idempotency {key : S} {inner : Executor S} {state : State S} {result : Json}
    (free : state.keys key = .free)
    (answers : Answers inner.execute (state.setKey key .claimed) (.value result))
    : Answers (idempotencyExecute key inner) state (.value result) := by
  obtain ⟨reached, run, grows, settled⟩ := answers
  refine ⟨reached.setKey key (.completed result), ?_, ⟨grows.calls, grows.trace⟩, settled⟩
  rw [idempotencyExecute_free inner free, run]

/-- How far a call comes: an idempotency layer answers it from its store or refuses it, or it
goes through to the backend.
-/
inductive Answer where
  | cached (result : Json)
  | refused
  | backend
  deriving DecidableEq

def answer (keys : S → KeyState) : List (Layer S) → Answer
  | [] => .backend
  | .idempotency key :: rest =>
      match (keys key).get with
      | some result => .cached result
      | none =>
          if keys key = .free then answer (Function.update keys key .claimed) rest else .refused
  | .retry _ _ :: rest | .transaction :: rest | .audit :: rest => answer keys rest

theorem answer_idempotency {keys : S → KeyState} {key : S} {rest : List (Layer S)} {outcome : Answer}
    (answered : answer keys (.idempotency key :: rest) = outcome)
    : (∃ result, (keys key).get = some result ∧ outcome = .cached result)
      ∨ ((keys key).get = none ∧ keys key ≠ .free ∧ outcome = .refused)
      ∨ (keys key = .free ∧ answer (Function.update keys key .claimed) rest = outcome) := by
  simp only [answer] at answered
  cases found : (keys key).get with
  | some result =>
      rw [found] at answered
      exact .inl ⟨result, rfl, answered.symm⟩
  | none =>
      rw [found] at answered
      by_cases free : keys key = .free
      · rw [if_pos free] at answered
        exact .inr (.inr ⟨free, answered⟩)
      · rw [if_neg free] at answered
        exact .inr (.inl ⟨rfl, free, answered.symm⟩)

variable (info : RunInfo) (backend : Executor S)

/-- A refused call closes everything it opened, by induction over the stack. -/
theorem execute_refused (layers : List (Layer S)) {state : State S} (numbered : state.Numbered)
    (refused : answer state.keys layers = .refused)
    : Refuses (wrapAll info backend layers).execute state := by
  induction layers generalizing state with
  | nil => simp [answer] at refused
  | cons layer rest ih =>
      cases layer with
      | retry attempts positive =>
          refine .retrying numbered (fun next nextNumbered same => ?_) (attempts - 1)
          exact (ih nextNumbered (same ▸ refused)).bind _
      | idempotency key =>
          rcases answer_idempotency refused with ⟨_, _, impossible⟩ | ⟨missing, taken, _⟩ | ⟨free, inner⟩
          · cases impossible
          · exact ⟨state, idempotencyExecute_refused _ missing taken, .refl numbered⟩
          · exact (@ih (state.setKey key .claimed) numbered inner).idempotency free
      | transaction =>
          exact (ih (numbered.opened transaction_brackets) refused).bracket transaction_brackets numbered
      | audit =>
          have brackets := audit_brackets info (wrapAll info backend rest).name
          exact (ih (numbered.opened brackets) refused).bracket brackets numbered

/-- A cached result passes every layer above, by induction over the stack. -/
theorem execute_cached (layers : List (Layer S)) {state : State S} (numbered : state.Numbered)
    {result : Json} (cached : answer state.keys layers = .cached result)
    : Answers (wrapAll info backend layers).execute state (.value result) := by
  induction layers generalizing state with
  | nil => simp [answer] at cached
  | cons layer rest ih =>
      cases layer with
      | retry attempts positive =>
          exact (ih numbered cached).retry attempts
      | idempotency key =>
          rcases answer_idempotency cached with ⟨stored, found, same⟩ | ⟨_, _, impossible⟩ | ⟨free, inner⟩
          · obtain rfl := Answer.cached.inj same
            exact ⟨state, idempotencyExecute_cached _ found, .of_eq rfl rfl,
              settledFrom_calls numbered⟩
          · cases impossible
          · exact (@ih (state.setKey key .claimed) numbered inner).idempotency free
      | transaction =>
          exact (ih (numbered.opened transaction_brackets) cached).bracket transaction_brackets numbered
      | audit =>
          have brackets := audit_brackets info (wrapAll info backend rest).name
          exact (ih (numbered.opened brackets) cached).bracket brackets numbered

end Answers

section Attempts

variable (outcomes : Nat → Except Raised Json)

/-- Whether an attempt ends every retrying loop. -/
def settles : Except Raised Json → Bool
  | .ok _ => true
  | .error error => !error.isException

/-- The first of some attempts that does not end with an exception. -/
def decisive : Nat → Nat → Option (Except Raised Json)
  | _, 0 => none
  | first, budget + 1 =>
      if settles (outcomes first) then some (outcomes first) else decisive (first + 1) budget

theorem decisive_add (first budget more : Nat)
    : decisive outcomes first (budget + more)
      = (decisive outcomes first budget).or (decisive outcomes (first + budget) more) := by
  induction budget generalizing first with
  | zero => simp [decisive]
  | succ budget ih =>
      rw [Nat.add_right_comm, decisive, decisive]
      split
      · rfl
      · rw [ih, Nat.add_assoc, Nat.add_comm 1 budget]

theorem isException_of_decisive {first budget : Nat} {error : Raised}
    (decided : decisive outcomes first budget = some (.error error))
    : error.isException = false := by
  induction budget generalizing first with
  | zero => cases decided
  | succ budget ih =>
      rw [decisive] at decided
      split at decided
      · rename_i settled
        rw [Option.some.injEq] at decided
        simpa [settles, decided] using settled
      · exact ih decided

/-- The result of a computation and the state it stops in. -/
def stop (result : Except Raised α) (reached : State S) : EStateM.Result Raised (State S) α :=
  match result with
  | .ok value => .ok value reached
  | .error error => .error error reached

/-- A run that spends attempts until one of them settles it. It finishes all its layer calls iff
it is safe and none of them watches an error that is no exception.
-/
structure Decides (state : State S) (budget : Nat) (safe watched : Prop)
    (result : Except Raised Json) (reached : State S) : Prop where
  grows : Grows state reached
  decided : ∀ first, decisive outcomes state.attempts budget = some first → result = first
  exhausted : decisive outcomes state.attempts budget = none →
    (∃ error, result = .error error ∧ error.isException = true)
      ∧ reached.keys = state.keys ∧ reached.attempts = state.attempts + budget
  settled : SettledFrom state.calls reached.trace
    ↔ safe ∧ (watched → ∀ error, decisive outcomes state.attempts budget ≠ some (.error error))

def Reaches (program : StackM S Json) (state : State S) (budget : Nat) (safe watched : Prop)
    : Prop :=
  ∃ result reached, program state = stop result reached
    ∧ Decides outcomes state budget safe watched result reached

variable {outcomes}

/-- Whether a result is an error that is no exception can be read off the attempts. -/
theorem Decides.exception_iff {state reached : State S} {budget : Nat} {safe watched : Prop}
    {result : Except Raised Json}
    (decides : Decides outcomes state budget safe watched result reached)
    : (∀ error, result = .error error → error.isException = true)
      ↔ ∀ error, decisive outcomes state.attempts budget ≠ some (.error error) := by
  cases found : decisive outcomes state.attempts budget with
  | none =>
      obtain ⟨⟨error, rfl, caught⟩, _⟩ := decides.exhausted found
      simp [caught]
  | some first =>
      obtain rfl := decides.decided first found
      constructor
      · intro caught error same
        rw [Option.some.injEq] at same
        have missed := isException_of_decisive outcomes (same ▸ found)
        simp [caught error same] at missed
      · intro never error same
        exact (never error (by rw [same])).elim

theorem reaches_attempt {state : State S} (numbered : state.Numbered)
    : Reaches outcomes (attempt outcomes) state 1 True False := by
  refine ⟨outcomes state.attempts, { state with attempts := state.attempts + 1 }, ?_, ?_⟩
  · unfold attempt stop
    cases outcomes state.attempts <;> rfl
  · refine ⟨.of_eq rfl rfl, ?_, ?_, ?_⟩
    · intro first decided
      simp only [decisive] at decided
      split at decided
      · exact Option.some.inj decided
      · cases decided
    · intro missed
      simp only [decisive] at missed
      split at missed
      · cases missed
      · rename_i unsettled
        refine ⟨?_, rfl, rfl⟩
        cases ran : outcomes state.attempts with
        | ok result => simp [settles, ran] at unsettled
        | error error => exact ⟨error, rfl, by simpa [settles, ran] using unsettled⟩
    · have settled := settledFrom_calls numbered
      simpa using settled

theorem Reaches.bracket {opening : Nat → Event} {closing : Nat → Option Raised → Event}
    (brackets : Brackets opening closing) {execute : StackM S (Reply S)} {state : State S}
    (numbered : state.Numbered) {budget : Nat} {safe watched : Prop}
    (inner : Reaches outcomes (execute >>= finishReply) (state.opened opening) budget safe watched)
    : Reaches outcomes (bracket opening closing execute >>= finishReply) state budget safe True := by
  obtain ⟨result, reached, run, decides⟩ := inner
  have own := closingEvents_call brackets state.calls result
  obtain ⟨grows, settled⟩ := Grows.bracket brackets numbered decides.grows own
  refine ⟨result, reached.noted (closingEvents closing state.calls result), ?_, grows,
    decides.decided, decides.exhausted, ?_⟩
  · rw [finish_bracket, run]
    cases result <;> rfl
  · rw [settled, finished_closingEvents brackets, decides.settled, decides.exception_iff]
    constructor
    · rintro ⟨never, isSafe, _⟩
      exact ⟨isSafe, fun _ => never⟩
    · rintro ⟨isSafe, never⟩
      exact ⟨never trivial, isSafe, fun _ => never trivial⟩

/-- A loop spends the attempts of its rounds one after the other, by induction on the rounds. -/
theorem Reaches.retrying {program : StackM S Json} {state : State S} (numbered : state.Numbered)
    {budget : Nat} {safe watched : Prop}
    (each : ∀ next : State S, next.Numbered → next.keys = state.keys →
      Reaches outcomes program next budget safe watched) (retries : Nat)
    : Reaches outcomes (retrying program retries) state ((retries + 1) * budget) safe watched := by
  induction retries generalizing state with
  | zero => simpa [Middleware.retrying] using each state numbered rfl
  | succ retries ih =>
      obtain ⟨result, reached, run, decides⟩ := each state numbered rfl
      have split : (retries + 1 + 1) * budget = budget + (retries + 1) * budget := by
        rw [Nat.succ_mul, Nat.add_comm]
      have whole := decisive_add outcomes state.attempts budget ((retries + 1) * budget)
      rw [split]
      cases found : decisive outcomes state.attempts budget with
      | some first =>
          rw [found, Option.some_or] at whole
          have same := decides.decided first found
          refine ⟨result, reached, ?_, decides.grows, ?_, ?_, ?_⟩
          · rw [Middleware.retrying, exceptException_apply, run]
            cases result with
            | ok value => rfl
            | error error =>
                have missed := isException_of_decisive outcomes (same ▸ found)
                simp [stop, missed]
          · rintro other decided
            rw [whole, Option.some.injEq] at decided
            exact same.trans decided
          · intro missed
            simp [whole] at missed
          · rw [whole, decides.settled, found]
      | none =>
          rw [found, Option.none_or] at whole
          obtain ⟨⟨error, rfl, caught⟩, keys, attempts⟩ := decides.exhausted found
          have later := numbered.grows decides.grows
          obtain ⟨final, stopped, loop, rest⟩ := ih later
            (fun next nextNumbered same => each next nextNumbered (same.trans keys))
          have restAttempts := rest.settled
          rw [attempts, ← whole] at restAttempts
          refine ⟨final, stopped, ?_, decides.grows.trans rest.grows, ?_, ?_, ?_⟩
          · rw [Middleware.retrying, exceptException_apply, run]
            simpa [stop, caught] using loop
          · rw [whole, ← attempts]
            exact rest.decided
          · intro missed
            rw [whole, ← attempts] at missed
            obtain ⟨raised, restKeys, restCount⟩ := rest.exhausted missed
            exact ⟨raised, restKeys.trans keys, by rw [restCount, attempts, Nat.add_assoc]⟩
          · rw [rest.grows.settledFrom_iff later decides.grows.calls, decides.settled, found,
              restAttempts]
            simp only [ne_eq, reduceCtorEq, not_false_eq_true, implies_true, and_true]
            constructor
            · exact fun both => both.2
            · exact fun both => ⟨both.1, both⟩

variable [DecidableEq S]

theorem Reaches.idempotency {key : S} {inner : Executor S} {state : State S}
    (free : state.keys key = .free) {budget : Nat} {safe watched : Prop}
    (reaches : Reaches outcomes (runStack inner) (state.setKey key .claimed) budget safe watched)
    : Reaches outcomes (idempotencyExecute key inner >>= finishReply) state budget safe
        watched := by
  obtain ⟨result, reached, run, decides⟩ := reaches
  rw [Reaches, finish_idempotency_free inner free, completeCoroutine_apply, run]
  cases result with
  | ok value =>
      refine ⟨.ok value, reached.setKey key (.completed value), rfl,
        ⟨decides.grows.calls, decides.grows.trace⟩, decides.decided, ?_, decides.settled⟩
      intro missed
      obtain ⟨⟨error, impossible, _⟩, _⟩ := decides.exhausted missed
      cases impossible
  | error error =>
      cases caught : error.isException with
      | true =>
          refine ⟨.error error, reached.setKey key .free, by simp [stop, caught],
            ⟨decides.grows.calls, decides.grows.trace⟩, decides.decided, ?_, decides.settled⟩
          intro missed
          obtain ⟨raised, keys, attempts⟩ := decides.exhausted missed
          refine ⟨raised, ?_, attempts⟩
          rw [State.setKey, keys, State.setKey, Function.update_idem, ← free,
            Function.update_eq_self]
      | false =>
          refine ⟨.error error, reached, by simp [stop, caught],
            ⟨decides.grows.calls, decides.grows.trace⟩, decides.decided, ?_, decides.settled⟩
          intro missed
          obtain ⟨⟨raised, same, wasCaught⟩, _⟩ := decides.exhausted missed
          obtain rfl := Except.error.inj same
          simp [caught] at wasCaught

end Attempts

end Pyverge.Middleware
