import Pyverge.Reflection.Descriptions
import Mathlib.Data.Fintype.EquivFin
import Mathlib.Order.WellFounded

/-! When the descriptions of classes come to an end and references are complete.
Describing a class describes the classes that its fields mention, and those that theirs mention,
so that a class which leads back to itself is described without end.
-/

namespace Pyverge.Identity

variable {V C : Type}

namespace Adapter

variable {adapter : Adapter C}

-----------------------------------------------------------------------------------------
-- Classes that are described
-----------------------------------------------------------------------------------------

section Sound

variable [VersionValue V]

variable (V adapter) in
/-- The versions of the nested classes that have a kind can be read. -/
def Readable (model : C) : Prop :=
  ∀ nested, adapter.Refers model nested → adapter.kindOf nested ≠ "" →
    adapter.identity V nested ≠ none

variable (V adapter) in
/-- What keeps the description of a class from raising and from describing it anew. -/
structure Sound (model : C) : Prop where
  complete : none ∉ adapter.visitsOf model
  apart : some model ∉ adapter.visitsOf model
  readable : ∀ nested, adapter.Refers model nested → adapter.identity V nested ≠ none →
    adapter.Readable V nested

variable (V adapter) in
/-- A class from which all ways end, through sound classes only. -/
inductive Good : C → Prop where
  | intro {model : C} (sound : adapter.Sound V model)
      (nested : ∀ handle, adapter.Refers model handle → Good handle)
      : Good model

variable (V adapter) in
/-- A class whose references are collected through good classes. -/
structure Citable (model : C) : Prop where
  readable : adapter.Readable V model
  nested : ∀ handle, adapter.Refers model handle → adapter.Good V handle
  further : ∀ handle, adapter.Refers model handle → adapter.identity V handle ≠ none →
    adapter.Readable V handle

theorem Good.citable {model : C} (good : adapter.Good V model)
    (readable : adapter.Readable V model)
    : adapter.Citable V model := by
  cases good with
  | intro sound nested => exact ⟨readable, nested, sound.readable⟩

variable (adapter) in
/-- All ways from a class end within so many calls. -/
def Within : Nat → C → Prop
  | 0, _ => False
  | depth + 1, model => ∀ nested, adapter.Refers model nested → Within depth nested

theorem Within.mono {depth other : Nat} {model : C} (within : adapter.Within depth model)
    (le : depth ≤ other)
    : adapter.Within other model := by
  induction depth generalizing other model with
  | zero => exact within.elim
  | succ depth ih =>
      cases other with
      | zero => exact absurd le (Nat.not_succ_le_zero depth)
      | succ other =>
          exact fun nested refers => ih (within nested refers) (Nat.le_of_succ_le_succ le)

/-- If all ways from the nested classes end, they end within one number of calls. -/
theorem exists_within {model : C}
    (each : ∀ nested, adapter.Refers model nested → ∃ depth, adapter.Within depth nested)
    : ∃ depth, adapter.Within depth model := by
  have together : ∀ handles : List C, (∀ nested ∈ handles, adapter.Refers model nested) →
      ∃ depth, ∀ nested ∈ handles, adapter.Within depth nested := by
    intro handles refers
    induction handles with
    | nil => exact ⟨0, fun _ member => absurd member List.not_mem_nil⟩
    | cons handle rest ih =>
        have both := List.forall_mem_cons.mp refers
        obtain ⟨first, within⟩ := each handle both.1
        obtain ⟨later, others⟩ := ih both.2
        refine ⟨max first later, List.forall_mem_cons.mpr ⟨?_, fun nested member => ?_⟩⟩
        · exact within.mono (Nat.le_max_left _ _)
        · exact (others nested member).mono (Nat.le_max_right _ _)
  classical
  obtain ⟨depth, all⟩ := together ((adapter.mentioned model).filter (· ≠ model))
    (fun nested member => by simpa [Refers, and_comm] using member)
  refine ⟨depth + 1, fun nested refers => all nested ?_⟩
  simpa [Refers, and_comm] using refers

theorem Good.exists_within {model : C} (good : adapter.Good V model)
    : ∃ depth, adapter.Within depth model := by
  induction good with
  | intro sound nested ih => exact Adapter.exists_within ih

variable [DecidableEq V] [DecidableEq C]

theorem stops_collectReferences {calls : Calls V C} {may : Prop} {model : C}
    (faithful : adapter.Faithful calls) (readable : adapter.Readable V model)
    (nested : ∀ handle, adapter.Refers model handle →
      Py.Stops recursionError may (calls.describeFields handle))
    (cites : ∀ handle, adapter.Refers model handle → adapter.identity V handle ≠ none →
      ∀ collected, Py.Stops recursionError may (calls.collectReferences handle collected))
    (collected : Collected V C)
    : Py.Stops recursionError may (adapter.collectReferences calls model collected) := by
  unfold collectReferences
  by_cases been : model ∈ collected.seen
  · rw [if_pos been]
    exact .pure _
  · rw [if_neg been]
    refine .foldlM (fun handle member found => ?_) _
    unfold collectModel
    by_cases same : handle = model
    · rw [if_pos same]
      exact .pure _
    · rw [if_neg same]
      have refers : adapter.Refers model handle := ⟨same, member⟩
      refine (stops_readNested (nested handle refers)).bind (fun label before after run => ?_)
      have read := readNested_ok faithful ((nested handle refers).imp (fun _ => trivial)) run
      cases label with
      | none => exact .pure _
      | some label =>
          obtain ⟨kind, version⟩ := label
          have own := identity_of_labels (V := V) read.symm
          have kinds : adapter.kindOf handle ≠ "" := by
            intro bare
            rw [labels, if_pos bare] at read
            cases read
          have known := readable handle refers kinds
          dsimp only
          cases parsed : adapter.parseId (V := V) kind version with
          | error raised =>
              rw [own, parsed] at known
              exact (known rfl).elim
          | ok id => exact (Py.Stops.const rfl).bind (fun _ _ _ _ => cites handle refers known _)

/-- Good classes are described, and the references of citable ones collected, if the stack is deep
enough; else they run out of it and raise nothing else.
-/
theorem stops_calls (depth : Nat)
    : (∀ model, adapter.Good V model → Py.Stops recursionError (¬ adapter.Within depth model)
        ((adapter.calls (V := V) depth).describeFields model))
      ∧ ∀ model, adapter.Citable V model → ∀ collected,
        Py.Stops recursionError (¬ adapter.Within depth model)
          ((adapter.calls (V := V) depth).collectReferences model collected) := by
  induction depth with
  | zero => exact ⟨fun _ _ => .throw id, fun _ _ _ => .throw id⟩
  | succ depth ih =>
      obtain ⟨describes, collects⟩ := ih
      have deeper : ∀ {model nested : C}, adapter.Refers model nested →
          ¬ adapter.Within depth nested → ¬ adapter.Within (depth + 1) model :=
        fun refers short within => short (within _ refers)
      refine ⟨fun model good => ?_, fun model citable collected => ?_⟩
      · cases good with
        | intro sound nested =>
            refine stops_describeFields (faithful_calls depth) sound.complete
              (fun handle visited => ?_) (fun handle refers => ?_) (fun handle refers versioned => ?_)
            · have other : handle ≠ model := fun same => sound.apart (same ▸ visited)
              have refers : adapter.Refers model handle := ⟨other, mem_mentioned_of_visits visited⟩
              exact (describes handle (nested handle refers)).imp (deeper refers)
            · exact (describes handle (nested handle refers)).imp (deeper refers)
            · have citable :=
                (nested handle refers).citable (sound.readable handle refers versioned)
              exact ((collects handle citable {}).imp (deeper refers)).bind (fun _ _ _ _ => .pure _)
      · refine stops_collectReferences (faithful_calls depth) citable.readable
          (fun handle refers => ?_) (fun handle refers versioned => ?_) collected
        · exact (describes handle (citable.nested handle refers)).imp (deeper refers)
        · have further := (citable.nested handle refers).citable
            (citable.further handle refers versioned)
          exact fun collected => (collects handle further collected).imp (deeper refers)

-----------------------------------------------------------------------------------------
-- What has been collected
-----------------------------------------------------------------------------------------

variable (adapter) in
omit [DecidableEq V] [DecidableEq C] in
/-- The nested classes of a class that have a kind are found and have been at. -/
def Closed (collected : Collected V C) (model : C) : Prop :=
  ∀ nested, adapter.Refers model nested → adapter.labels nested ≠ none →
    ∃ id, adapter.identity V nested = some id ∧ id ∈ collected.found ∧ nested ∈ collected.seen

omit [DecidableEq V] [DecidableEq C] in
theorem Closed.readable {collected : Collected V C} {model : C}
    (closed : adapter.Closed collected model)
    : adapter.Readable V model := by
  intro nested refers kind unknown
  have labelled : adapter.labels nested ≠ none := by
    rw [labels, if_neg kind]
    exact Option.some_ne_none _
  obtain ⟨id, known, _⟩ := closed nested refers labelled
  rw [known] at unknown
  cases unknown

variable (adapter) in
omit [DecidableEq V] [DecidableEq C] in
/-- Nothing found is lost, and the classes that were added are closed. -/
structure Covers (before after : Collected V C) : Prop where
  seen : before.seen ⊆ after.seen
  found : before.found ⊆ after.found
  closed : ∀ model ∈ after.seen, model ∈ before.seen ∨ adapter.Closed after model

omit [DecidableEq V] [DecidableEq C] in
theorem Closed.mono {collected other : Collected V C} {model : C}
    (closed : adapter.Closed collected model) (seen : collected.seen ⊆ other.seen)
    (found : collected.found ⊆ other.found)
    : adapter.Closed other model := by
  intro nested refers labelled
  obtain ⟨id, known, listed, been⟩ := closed nested refers labelled
  exact ⟨id, known, found listed, seen been⟩

omit [DecidableEq V] [DecidableEq C] in
theorem Covers.refl (collected : Collected V C) : adapter.Covers collected collected :=
  ⟨List.Subset.refl _, List.Subset.refl _, fun _ => Or.inl⟩

omit [DecidableEq V] [DecidableEq C] in
theorem Covers.trans {first second third : Collected V C} (left : adapter.Covers first second)
    (right : adapter.Covers second third)
    : adapter.Covers first third := by
  refine ⟨List.Subset.trans left.seen right.seen, List.Subset.trans left.found right.found, ?_⟩
  intro model been
  rcases right.closed model been with earlier | closed
  · rcases left.closed model earlier with first | closed
    · exact Or.inl first
    · exact Or.inr (closed.mono right.seen right.found)
  · exact Or.inr closed

/-- Both methods, as they collect: what they add is closed, and the class itself is among it. -/
def Collects (adapter : Adapter C)
    (collect : C → Collected V C → Reading V C (Collected V C)) : Prop :=
  ∀ model collected before result after, collect model collected before = .ok result after →
    adapter.Covers collected result ∧ model ∈ result.seen

/-- Descriptions that return raise nothing else than for want of stack. -/
def Steady (calls : Calls V C) : Prop :=
  ∀ model before fields after, calls.describeFields model before = .ok fields after →
    Py.Stops recursionError True (calls.describeFields model)

variable {calls : Calls V C}

theorem collectModel_covers (faithful : adapter.Faithful calls) (steady : Steady calls)
    (collects : adapter.Collects calls.collectReferences) {model nested : C}
    {collected result : Collected V C} {before after : Py.Dict ModelRef C}
    (run : adapter.collectModel calls model collected nested before = .ok result after)
    : adapter.Covers collected result
      ∧ (nested ≠ model → adapter.labels nested ≠ none → ∃ id, adapter.identity V nested = some id
        ∧ id ∈ result.found ∧ nested ∈ result.seen) := by
  unfold collectModel at run
  by_cases same : nested = model
  · rw [if_pos same] at run
    obtain ⟨rfl, _⟩ := EStateM.Result.ok.inj run
    exact ⟨.refl _, fun other => (other same).elim⟩
  · rw [if_neg same] at run
    obtain ⟨label, middle, read, later⟩ := Py.bind_ok.mp run
    obtain ⟨fields, reached, described, _⟩ := Py.bind_ok.mp read
    have told := readNested_ok faithful (steady _ _ _ _ described) read
    cases label with
    | none =>
        obtain ⟨rfl, _⟩ := EStateM.Result.ok.inj later
        exact ⟨.refl _, fun _ labelled => (labelled told.symm).elim⟩
    | some label =>
        obtain ⟨kind, version⟩ := label
        obtain ⟨id, parsed, ran⟩ := Py.query_bind_ok.mp later
        have own := identity_of_labels (V := V) told.symm
        rw [parsed] at own
        obtain ⟨covers, been⟩ := collects _ _ _ _ _ ran
        refine ⟨⟨covers.seen, ?_, covers.closed⟩, fun _ _ => ⟨id, own, ?_, been⟩⟩
        · exact List.Subset.trans (fun _ => List.mem_insert_of_mem) covers.found
        · exact covers.found List.mem_insert_self

theorem collectLoop_covers (faithful : adapter.Faithful calls) (steady : Steady calls)
    (collects : adapter.Collects calls.collectReferences) {model : C} {handles : List C}
    {collected result : Collected V C} {before after : Py.Dict ModelRef C}
    (run : handles.foldlM (adapter.collectModel calls model) collected before = .ok result after)
    : adapter.Covers collected result
      ∧ ∀ nested ∈ handles, nested ≠ model → adapter.labels nested ≠ none →
        ∃ id, adapter.identity V nested = some id ∧ id ∈ result.found ∧ nested ∈ result.seen := by
  induction handles generalizing collected before with
  | nil =>
      obtain ⟨rfl, _⟩ := EStateM.Result.ok.inj run
      exact ⟨.refl _, fun _ member => absurd member List.not_mem_nil⟩
  | cons handle rest ih =>
      rw [List.foldlM_cons] at run
      obtain ⟨next, middle, first, later⟩ := Py.bind_ok.mp run
      obtain ⟨covers, own⟩ := collectModel_covers faithful steady collects first
      obtain ⟨others, all⟩ := ih later
      refine ⟨covers.trans others, List.forall_mem_cons.mpr ⟨fun other labelled => ?_, all⟩⟩
      obtain ⟨id, known, listed, been⟩ := own other labelled
      exact ⟨id, known, others.found listed, others.seen been⟩

theorem collectReferences_covers (faithful : adapter.Faithful calls) (steady : Steady calls)
    (collects : adapter.Collects calls.collectReferences)
    : adapter.Collects (adapter.collectReferences calls) := by
  intro model collected before result after run
  unfold collectReferences at run
  by_cases been : model ∈ collected.seen
  · rw [if_pos been] at run
    obtain ⟨rfl, _⟩ := EStateM.Result.ok.inj run
    exact ⟨.refl _, been⟩
  · rw [if_neg been] at run
    obtain ⟨covers, own⟩ := collectLoop_covers faithful steady collects run
    refine ⟨⟨?_, covers.found, fun other member => ?_⟩, covers.seen List.mem_cons_self⟩
    · exact List.Subset.trans (List.subset_cons_self _ _) covers.seen
    · rcases covers.closed other member with earlier | closed
      · rcases List.mem_cons.mp earlier with rfl | first
        · exact Or.inr (fun nested refers => own nested refers.2 refers.1)
        · exact Or.inl first
      · exact Or.inr closed

/-- A class is described only if it is good. -/
theorem good_of_describeFields (faithful : adapter.Faithful calls) (steady : Steady calls)
    (collects : adapter.Collects calls.collectReferences)
    (goods : ∀ model before fields after, calls.describeFields model before = .ok fields after →
      adapter.Good V model)
    {model : C} {before after : Py.Dict ModelRef C} {fields : Py.Dict String (FieldDescriptor V)}
    (run : adapter.describeFields calls model before = .ok fields after)
    : adapter.Good V model := by
  have ran : Py.effect (adapter.describeFields calls model) before = .ok ⟨⟩ after :=
    Py.effect_ok.mpr ⟨fields, run⟩
  rw [effect_describeFields] at ran
  obtain ⟨_, middle, typed, cited⟩ := Py.bind_ok.mp ran
  have visited : ∀ handle, some handle ∈ adapter.visitsOf model → adapter.Good V handle := by
    intro handle member
    obtain ⟨_, _, met⟩ := Py.forM_ok typed (some handle) member
    obtain ⟨_, _, _, described⟩ := Py.bind_ok.mp met
    rw [Py.effect_map] at described
    obtain ⟨found, described⟩ := Py.effect_ok.mp described
    exact goods _ _ _ _ described
  have nested : ∀ handle, adapter.Refers model handle → adapter.Good V handle
      ∧ (adapter.identity V handle ≠ none → adapter.Readable V handle) := by
    intro handle refers
    obtain ⟨start, final, done⟩ := Py.forM_ok cited handle refers.2
    unfold cite at done
    rw [if_neg refers.1] at done
    obtain ⟨label, _, read, later⟩ := Py.bind_ok.mp done
    obtain ⟨found, _, described, _⟩ := Py.bind_ok.mp read
    refine ⟨goods _ _ _ _ described, fun versioned => ?_⟩
    have told := readNested_ok faithful (steady _ _ _ _ described) read
    cases label with
    | none => exact (versioned (identity_of_no_labels told.symm)).elim
    | some label =>
        obtain ⟨kind, version⟩ := label
        have own := identity_of_labels (V := V) told.symm
        dsimp only at later
        cases parsed : adapter.parseId (V := V) kind version with
        | error raised =>
            rw [parsed] at own
            exact (versioned own).elim
        | ok id =>
            rw [parsed] at later
            obtain ⟨references, ran⟩ := Py.effect_ok.mp later
            obtain ⟨collected, _, collect, _⟩ := Py.bind_ok.mp ran
            obtain ⟨covers, been⟩ := collects _ _ _ _ _ collect
            rcases covers.closed handle been with never | closed
            · cases never
            · exact closed.readable
  refine .intro ⟨fun missing => ?_, fun again => ?_, fun handle refers => (nested handle refers).2⟩
    (fun handle refers => (nested handle refers).1)
  · obtain ⟨_, _, met⟩ := Py.forM_ok typed none missing
    cases met
  · cases visited model again with
    | intro sound _ => exact sound.apart again

theorem good_calls (depth : Nat)
    : (∀ model before fields after,
        (adapter.calls (V := V) depth).describeFields model before = .ok fields after →
          adapter.Good V model)
      ∧ adapter.Collects (adapter.calls (V := V) depth).collectReferences := by
  induction depth with
  | zero =>
      refine ⟨fun _ _ _ _ run => ?_, fun _ _ _ _ _ run => ?_⟩
      · cases run
      · cases run
  | succ depth ih =>
      obtain ⟨goods, collects⟩ := ih
      have steady : Steady (adapter.calls (V := V) depth) := fun model before fields after run =>
        ((stops_calls depth).1 model (goods model before fields after run)).imp (fun _ => trivial)
      have faithful : adapter.Faithful (adapter.calls (V := V) depth) := faithful_calls depth
      exact ⟨fun _ _ _ _ => good_of_describeFields faithful steady collects goods,
        collectReferences_covers faithful steady collects⟩

-----------------------------------------------------------------------------------------
-- Answers
-----------------------------------------------------------------------------------------

/-- With a stack deep enough, the program comes to an end, whichever handles are remembered. -/
def Ends {α : Type} (program : Nat → Reading V C α) : Prop :=
  ∃ depth, Py.Avoids recursionError (program depth)

variable (V adapter) in
omit [DecidableEq V] [DecidableEq C] in
/-- The classes that a class reaches by fields, through versioned models only. -/
inductive Reaches (model : C) : C → Prop where
  | field {nested : C} (member : nested ∈ adapter.mentioned model) : Reaches model nested
  | next {handle nested : C} (before : Reaches model handle)
      (versioned : adapter.identity V handle ≠ none) (member : nested ∈ adapter.mentioned handle)
      : Reaches model nested

variable (V adapter) in
/-- Fields and annotations of the class are described, and its references are those of all other
versioned models that it reaches.
-/
structure Answers (model : C) : Prop where
  described : Ends (fun depth => (adapter.calls (V := V) depth).describeFields model)
  typed : ∀ field ∈ (adapter.fields model).values,
    Ends (fun depth => adapter.typeRef (adapter.calls (V := V) depth) field.annotation)
  referred : ∃ depth, ∀ handles, ∃ found after,
    (adapter.calls depth).references model handles = .ok found after
    ∧ ∀ nested, adapter.Reaches V model nested → nested ≠ model →
      ∀ id, adapter.identity V nested = some id → id ∈ found

variable (adapter) in
omit [VersionValue V] [DecidableEq V] [DecidableEq C] in
/-- The classes that the type references of a class come by before they miss an argument. -/
def consulted (model : C) : List (Option C) := (adapter.visitsOf model).takeWhile Option.isSome

variable (V adapter) in
omit [DecidableEq V] [DecidableEq C] in
/-- A class that does not come by itself, nor do the classes below it lead back to themselves; these
have all their arguments, and their versions can be read where the references are collected.
-/
structure Grounded (model : C) : Prop where
  ahead : some model ∉ adapter.consulted model
  sound : ∀ nested, Relation.TransGen adapter.Refers model nested →
    none ∉ adapter.visitsOf nested ∧ some nested ∉ adapter.visitsOf nested
  acyclic : ∀ nested, Relation.TransGen adapter.Refers model nested →
    ¬ Relation.TransGen adapter.Refers nested nested
  readable : ∀ handle, handle = model ∨ Relation.TransGen adapter.Refers model handle
      ∧ adapter.identity V handle ≠ none →
    adapter.Readable V handle

omit [DecidableEq V] [DecidableEq C] in
theorem Good.of_below {model nested : C} (good : adapter.Good V model)
    (below : Relation.TransGen adapter.Refers model nested)
    : adapter.Good V nested := by
  induction below with
  | single refers =>
      cases good with
      | intro _ each => exact each _ refers
  | tail _ refers ih =>
      cases ih with
      | intro _ each => exact each _ refers

omit [DecidableEq V] [DecidableEq C] in
theorem Good.acyclic {model : C} (good : adapter.Good V model)
    : ¬ Relation.TransGen adapter.Refers model model := by
  induction good with
  | intro sound nested ih =>
      intro cycle
      obtain ⟨handle, refers, back⟩ := Relation.TransGen.head'_iff.mp cycle
      exact ih handle refers (Relation.TransGen.tail' back refers)

omit [DecidableEq V] [DecidableEq C] in
/-- Among finitely many classes, those below a grounded one are good. -/
theorem Grounded.good [Finite C] {model nested : C} (grounded : adapter.Grounded V model)
    (below : Relation.TransGen adapter.Refers model nested)
    : adapter.Good V nested := by
  have order : WellFounded (fun left right :
      { handle // Relation.TransGen adapter.Refers model handle } =>
        Relation.TransGen adapter.Refers right.1 left.1) := by
    have trans : IsTrans { handle // Relation.TransGen adapter.Refers model handle }
        (fun left right => Relation.TransGen adapter.Refers right.1 left.1) :=
      ⟨fun _ _ _ first second => second.trans first⟩
    have irrefl : Std.Irrefl (fun left right :
        { handle // Relation.TransGen adapter.Refers model handle } =>
          Relation.TransGen adapter.Refers right.1 left.1) :=
      ⟨fun handle => grounded.acyclic handle.1 handle.2⟩
    exact Finite.wellFounded_of_trans_of_irrefl _
  have each := order.induction (C := fun handle => adapter.Good V handle.1) ⟨nested, below⟩
  apply each
  intro handle ih
  obtain ⟨complete, apart⟩ := grounded.sound handle.1 handle.2
  refine .intro ⟨complete, apart, fun other refers versioned => ?_⟩ (fun other refers => ?_)
  · exact grounded.readable other (Or.inr ⟨handle.2.tail refers, versioned⟩)
  · exact ih ⟨other, handle.2.tail refers⟩ (.single refers)

omit [VersionValue V] [DecidableEq V] [DecidableEq C] in
/-- A class that is consulted stands behind others that are consulted. -/
theorem exists_consulted {model handle : C} (consulted : some handle ∈ adapter.consulted model)
    : ∃ earlier later, adapter.visitsOf model = earlier ++ some handle :: later
        ∧ some handle ∉ earlier ∧ none ∉ earlier := by
  obtain ⟨earlier, rest, split, first⟩ := List.eq_append_cons_of_mem consulted
  refine ⟨earlier, rest ++ (adapter.visitsOf model).dropWhile Option.isSome, ?_, first, ?_⟩
  · rw [← List.cons_append, ← List.append_assoc, ← split]
    exact List.takeWhile_append_dropWhile.symm
  · intro missing
    have inside : none ∈ adapter.consulted model := split ▸ List.mem_append_left _ missing
    cases List.mem_takeWhile_imp inside

/-- A class that comes by itself is described without end. -/
theorem exhausts_of_consulted {model : C}
    (nested : ∀ handle, adapter.Refers model handle → adapter.Good V handle)
    (again : some model ∈ adapter.consulted model) (depth : Nat)
    : Py.Exhausts recursionError ((adapter.calls (V := V) depth).describeFields model) := by
  obtain ⟨earlier, later, split, first, complete⟩ := exists_consulted again
  induction depth with
  | zero => exact fun handles => ⟨handles, rfl⟩
  | succ depth ih =>
      rw [← Py.exhausts_effect]
      change Py.Exhausts recursionError (Py.effect (adapter.describeFields _ model))
      rw [effect_describeFields, split]
      refine (Py.Exhausts.forM (fun item member => ?_) ?_).bind _
      · cases item with
        | none => exact (complete member).elim
        | some handle =>
            have other : handle ≠ model := fun same => first (same ▸ member)
            have visited : some handle ∈ adapter.visitsOf model :=
              split ▸ List.mem_append_left _ member
            have good := nested handle ⟨other, mem_mentioned_of_visits visited⟩
            exact stops_meet (((stops_calls depth).1 handle good).imp (fun _ => trivial))
      · have remembers : Py.Stops recursionError True (adapter.remember (V := V) model) :=
          (Py.Stops.modify _).bind (fun _ _ _ _ => .pure _)
        refine .bind_right remembers (fun _ => ?_)
        rw [Py.effect_map, Py.exhausts_effect]
        exact ih

omit [VersionValue V] [DecidableEq V] in
theorem indexError_ne : (indexError : Error V) ≠ recursionError := by
  simp [indexError, recursionError]

omit [VersionValue V] [DecidableEq V] [DecidableEq C] in
theorem avoids_meet {calls : Calls V C} {item : Option C}
    (avoids : ∀ handle, item = some handle →
      Py.Avoids recursionError (calls.describeFields handle))
    : Py.Avoids recursionError (adapter.meet calls item) := by
  cases item with
  | none =>
      intro before after raised
      exact indexError_ne (EStateM.Result.error.inj raised).1
  | some handle =>
      have remembers : Py.Stops recursionError False (adapter.remember (V := V) handle) :=
        (Py.Stops.modify _).bind (fun _ _ _ _ => .pure _)
      refine remembers.avoids.bind (fun _ => ?_)
      rw [Py.effect_map, Py.avoids_effect]
      exact avoids handle rfl

/-- Describing a class comes to an end if it does for the classes that are consulted and for the
nested ones.
-/
theorem avoids_describeFields {calls : Calls V C} {model : C} (faithful : adapter.Faithful calls)
    (ahead : some model ∉ adapter.consulted model)
    (nested : ∀ handle, adapter.Refers model handle →
      Py.Stops recursionError False (calls.describeFields handle))
    (cites : ∀ handle, adapter.Refers model handle → adapter.identity V handle ≠ none →
      Py.Stops recursionError False (calls.references handle))
    : Py.Avoids recursionError (adapter.describeFields calls model) := by
  have refers : ∀ handle, some handle ∈ adapter.consulted model → adapter.Refers model handle := by
    intro handle member
    refine ⟨fun same => ahead (same ▸ member), ?_⟩
    exact mem_mentioned_of_visits ((List.takeWhile_sublist _).subset member)
  by_cases missing : none ∈ adapter.visitsOf model
  · obtain ⟨earlier, later, split, complete⟩ := List.eq_append_cons_of_mem missing
    have consulted : adapter.consulted model = earlier := by
      have all : ∀ item ∈ earlier, item.isSome = true := by
        intro item member
        cases item with
        | none => exact (complete member).elim
        | some handle => rfl
      rw [Adapter.consulted, split, List.takeWhile_append_of_pos all]
      exact List.append_nil earlier
    rw [← Py.avoids_effect, effect_describeFields, split]
    have raises : Py.Exhausts indexError (adapter.meet calls none) := fun handles => ⟨handles, rfl⟩
    refine Py.Avoids.forM_before (adapter.meet calls)
      (fun item member => avoids_meet (fun handle own => ?_)) raises indexError_ne later _
    have inside : some handle ∈ adapter.consulted model := by
      rw [consulted, ← own]
      exact member
    exact (nested handle (refers handle inside)).avoids
  · have consulted : adapter.consulted model = adapter.visitsOf model := by
      rw [Adapter.consulted, List.takeWhile_eq_self_iff]
      intro item member
      cases item with
      | none => exact (missing member).elim
      | some handle => rfl
    refine (stops_describeFields faithful missing (fun handle member => ?_) nested cites).avoids
    exact nested handle (refers handle (consulted ▸ member))

/-- The references of a class that are returned are complete, and its nested classes are good. -/
theorem references_ok {model : C} {depth : Nat} {before after : Py.Dict ModelRef C}
    {found : List (NodeId V)}
    (run : (adapter.calls (V := V) depth).references model before = .ok found after)
    : adapter.Citable V model
      ∧ ∀ nested, adapter.Reaches V model nested → nested ≠ model →
        ∀ id, adapter.identity V nested = some id → id ∈ found := by
  obtain ⟨collected, middle, ran, ended⟩ := Py.bind_ok.mp run
  obtain ⟨rfl, _⟩ := EStateM.Result.ok.inj ended
  obtain ⟨covers, been⟩ := (good_calls depth).2 _ _ _ _ _ ran
  have closed : ∀ handle ∈ collected.seen, adapter.Closed collected handle := by
    intro handle member
    rcases covers.closed handle member with never | closed
    · cases never
    · exact closed
  have labelled : ∀ {handle : C} {id : NodeId V}, adapter.identity V handle = some id →
      adapter.labels handle ≠ none := by
    intro handle id known absent
    rw [identity_of_no_labels absent] at known
    cases known
  refine ⟨⟨(closed model been).readable, fun handle refers => ?_,
    fun handle refers versioned => ?_⟩, fun nested reaches => ?_⟩
  · cases depth with
    | zero => cases ran
    | succ depth =>
        change adapter.collectReferences _ model {} before = _ at ran
        rw [collectReferences, if_neg List.not_mem_nil] at ran
        obtain ⟨_, _, _, _, step⟩ := Py.foldlM_ok ran handle refers.2
        unfold collectModel at step
        rw [if_neg refers.1] at step
        obtain ⟨_, _, read, _⟩ := Py.bind_ok.mp step
        obtain ⟨_, _, described, _⟩ := Py.bind_ok.mp read
        exact (good_calls depth).1 _ _ _ _ described
  · obtain ⟨id, known⟩ := Option.ne_none_iff_exists'.mp versioned
    obtain ⟨_, _, _, seen⟩ := closed model been handle refers (labelled known)
    exact (closed handle seen).readable
  · have inside : ∀ id, adapter.identity V nested = some id →
        nested ∈ collected.seen ∧ (nested ≠ model → id ∈ collected.found) := by
      induction reaches with
      | @field nested member =>
          intro id known
          by_cases same : nested = model
          · exact ⟨same ▸ been, fun other => (other same).elim⟩
          · obtain ⟨other, told, listed, seen⟩ := closed model been nested ⟨same, member⟩
              (labelled known)
            obtain rfl := Option.some.inj (told.symm.trans known)
            exact ⟨seen, fun _ => listed⟩
      | @next handle nested before versioned member ih =>
          intro id known
          by_cases same : nested = handle
          · subst same
            exact ih id known
          · obtain ⟨own, versioned⟩ := Option.ne_none_iff_exists'.mp versioned
            obtain ⟨other, told, listed, seen⟩ := closed handle (ih own versioned).1 nested
              ⟨same, member⟩ (labelled known)
            obtain rfl := Option.some.inj (told.symm.trans known)
            exact ⟨seen, fun _ => listed⟩
    exact fun other id known => (inside id known).2 other

/-- The descriptions and references of a class come to an end and are complete exactly if the class
is grounded.
-/
theorem answers_iff [Finite C] (adapter : Adapter C) (model : C)
    : adapter.Answers V model ↔ adapter.Grounded V model := by
  constructor
  · intro answers
    obtain ⟨depth, returns⟩ := answers.referred
    obtain ⟨found, after, run, _⟩ := returns ∅
    obtain ⟨citable, _⟩ := references_ok run
    have good : ∀ nested, Relation.TransGen adapter.Refers model nested →
        adapter.Good V nested := by
      intro nested below
      rcases Relation.TransGen.head'_iff.mp below with ⟨handle, refers, rest⟩
      rcases Relation.reflTransGen_iff_eq_or_transGen.mp rest with rfl | further
      · exact citable.nested _ refers
      · exact (citable.nested handle refers).of_below further
    constructor
    · intro again
      obtain ⟨enough, avoids⟩ := answers.described
      obtain ⟨final, raised⟩ := exhausts_of_consulted citable.nested again enough ∅
      exact avoids ∅ final raised
    · intro nested below
      cases good nested below with
      | intro sound _ => exact ⟨sound.complete, sound.apart⟩
    · exact fun nested below => (good nested below).acyclic
    · intro handle given
      rcases given with rfl | ⟨below, versioned⟩
      · exact citable.readable
      · obtain ⟨parent, rest, refers⟩ := Relation.TransGen.tail'_iff.mp below
        rcases Relation.reflTransGen_iff_eq_or_transGen.mp rest with rfl | further
        · exact citable.further handle refers versioned
        · cases good parent further with
          | intro sound _ => exact sound.readable handle refers versioned
  · intro grounded
    have nested : ∀ handle, adapter.Refers model handle → adapter.Good V handle :=
      fun handle refers => grounded.good (.single refers)
    have citable : adapter.Citable V model := by
      refine ⟨grounded.readable model (Or.inl rfl), nested, fun handle refers versioned => ?_⟩
      exact grounded.readable handle (Or.inr ⟨.single refers, versioned⟩)
    obtain ⟨depth, within⟩ :=
      exists_within (fun handle refers => (nested handle refers).exists_within)
    have collects : Py.Stops recursionError False
        ((adapter.calls (V := V) depth).collectReferences model {}) :=
      ((stops_calls depth).2 model citable {}).imp (fun short => short within)
    cases depth with
    | zero => exact within.elim
    | succ depth =>
        have described : Py.Avoids recursionError
            ((adapter.calls (V := V) (depth + 1)).describeFields model) := by
          refine avoids_describeFields (faithful_calls depth) grounded.ahead
            (fun handle refers => ?_) (fun handle refers versioned => ?_)
          · exact ((stops_calls depth).1 handle (nested handle refers)).imp
              (fun short => short (within handle refers))
          · have further := (nested handle refers).citable (citable.further handle refers versioned)
            exact (((stops_calls depth).2 handle further {}).imp
              (fun short => short (within handle refers))).bind (fun _ _ _ _ => .pure _)
        refine ⟨⟨depth + 1, described⟩, fun field member => ⟨depth + 1, ?_⟩, depth + 1, ?_⟩
        · rw [← Py.avoids_effect, effect_typeRef]
          refine .forM (fun item visited => avoids_meet (fun handle own => ?_))
          by_cases same : handle = model
          · exact same ▸ described
          · have mentioned : handle ∈ adapter.mentioned model :=
              mem_mentioned_of_visits (List.mem_flatMap.mpr ⟨field, member, own ▸ visited⟩)
            have refers : adapter.Refers model handle := ⟨same, mentioned⟩
            exact (((stops_calls (depth + 1)).1 handle (nested handle refers)).imp (fun short =>
              short ((within handle refers).mono (Nat.le_succ depth)))).avoids
        · intro handles
          have returns : Py.Stops recursionError False
              ((adapter.calls (V := V) (depth + 1)).references model) :=
            collects.bind (fun _ _ _ _ => .pure _)
          rcases returns handles with ⟨found, after, run⟩ | never
          · exact ⟨found, after, run, (references_ok run).2⟩
          · exact never.1.elim

end Sound

end Adapter

-----------------------------------------------------------------------------------------
-- Linked models
-----------------------------------------------------------------------------------------

/-- The fields of a versioned model class next to one more. -/
def versionedFields (kind : String) (more : List (String × Field (Fin 3)))
    : Py.Dict String (Field (Fin 3)) :=
  .ofItems ([("version", ⟨.simple .str, .value (.str "1.0.0")⟩),
    ("kind", ⟨.simple .str, .value (.str kind)⟩)] ++ more)

/-- A node with an optional next node, and a post with a list of accounts. -/
def linkedModels : Adapter (Fin 3) where
  provider := .pydantic
  codec := plainCodec
  printable := fun _ => true
  fields
    | 0 => versionedFields "Node"
        [("next", ⟨.generic .union "Optional[Node]" [.model 0, .none], .value .null⟩)]
    | 1 => versionedFields "Post"
        [("authors", ⟨.generic .list "list[Account]" [.model 2], .required⟩)]
    | 2 => versionedFields "Account" []
  modelId
    | 0 => "app.Node"
    | 1 => "app.Post"
    | 2 => "app.Account"
  produced := fun _ => .null

theorem mentioned_linkedModels
    : linkedModels.mentioned 0 = [0] ∧ linkedModels.mentioned 1 = [2]
      ∧ linkedModels.mentioned 2 = [] := by
  decide +kernel

/-- The post and its accounts are described, and the references of the post are the accounts. -/
theorem answers_post : linkedModels.Answers Release 1 := by
  obtain ⟨_, post, account⟩ := mentioned_linkedModels
  have below : ∀ nested, Relation.TransGen linkedModels.Refers 1 nested → nested = 2 := by
    intro nested below
    induction below with
    | single refers => simpa [Adapter.Refers, post] using refers.2
    | tail _ refers ih =>
        rw [ih, Adapter.Refers, account] at refers
        exact absurd refers.2 List.not_mem_nil
  refine (Adapter.answers_iff linkedModels 1).mpr ⟨?_, fun nested reached => ?_,
    fun nested reached cycle => ?_, fun handle given nested refers kind => ?_⟩
  · decide +kernel
  · rw [below nested reached]
    decide +kernel
  · obtain ⟨other, refers, _⟩ := Relation.TransGen.head'_iff.mp cycle
    rw [below nested reached, Adapter.Refers, account] at refers
    exact absurd refers.2 List.not_mem_nil
  · rcases given with rfl | ⟨reached, _⟩
    · rw [below nested (.single refers)]
      decide +kernel
    · rw [below handle reached, Adapter.Refers, account] at refers
      exact absurd refers.2 List.not_mem_nil

/-- Counterexample: a node is described without end, since it has a field for the next one. -/
theorem not_answers_node
    : (∀ depth handles, ∃ after, (linkedModels.calls (V := Release) depth).describeFields 0 handles
        = .error recursionError after)
      ∧ ¬ linkedModels.Answers Release 0 := by
  obtain ⟨node, _, _⟩ := mentioned_linkedModels
  have exhausts : ∀ depth, Py.Exhausts recursionError
      ((linkedModels.calls (V := Release) depth).describeFields 0) := by
    refine Adapter.exhausts_of_consulted (fun handle refers => ?_) (by decide +kernel)
    exact absurd (by simpa [Adapter.Refers, node] using refers.2) refers.1
  refine ⟨fun depth => exhausts depth, fun answers => ?_⟩
  obtain ⟨depth, avoids⟩ := answers.described
  obtain ⟨after, raised⟩ := exhausts depth ∅
  exact avoids ∅ after raised

end Pyverge.Identity
