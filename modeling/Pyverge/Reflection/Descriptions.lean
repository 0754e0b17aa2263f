import Pyverge.Reflection.Annotations
import Pyverge.Py.Exhaustion

/-! What describing a class does for the classes that its fields mention.
Whatever is returned, a type reference does what it does at the classes it comes by, and the
references of a field what they do at those it mentions, so that both are loops over classes.
-/

namespace Pyverge.Identity

variable {V C : Type}

-----------------------------------------------------------------------------------------
-- Classes that an annotation leads to
-----------------------------------------------------------------------------------------

mutual
/-- What `annotation_type_ref` comes by, in its order: a class that it resolves, or a generic type
without the argument that is read.
-/
def visits (provider : Provider) : AnnotationExpr C → List (Option C)
  | .annotated inner _ => visits provider inner
  | .generic .union _ args => visitsEach provider args
  | .generic .tuple _ args => visitsEach provider args
  | .generic .list _ (item :: _) => visits provider item
  | .generic .collection _ (item :: _) => visits provider item
  | .generic .mapping _ (key :: value :: _) => visits provider key ++ visits provider value
  | .generic .mapping _ [key] => visits provider key ++ [none]
  | .generic .list _ [] => [none]
  | .generic .collection _ [] => [none]
  | .generic .mapping _ [] => [none]
  | .generic .other text args =>
      ((resolveModel provider (.generic .other text args)).map some).toList
  | .callable text parameters result =>
      ((resolveModel provider (.callable text parameters result)).map some).toList
  | .model handle => [some handle]
  | .none | .any | .simple _ | .literal _ | .type _ | .ellipsis | .other _ => []

def visitsEach (provider : Provider) : List (AnnotationExpr C) → List (Option C)
  | [] => []
  | arg :: rest => visits provider arg ++ visitsEach provider rest
end

mutual
/-- The class that an annotation resolves to is one of those that it mentions. -/
theorem mem_iterModels_of_resolve (provider : Provider) (declared : AnnotationExpr C) {handle : C}
    (resolved : resolveModel provider declared = some handle)
    : handle ∈ iterModels provider declared := by
  cases declared with
  | model own =>
      obtain rfl := Option.some.inj resolved
      exact List.mem_singleton_self _
  | annotated inner metadata =>
      cases provider with
      | pydantic => exact mem_iterModels_of_resolve .pydantic inner resolved
      | dataclass =>
          rcases Option.or_eq_some_iff.mp resolved with first | later
          · exact List.mem_append_left _ (mem_iterModels_of_resolve .dataclass inner first)
          · exact List.mem_append_right _ (mem_iterEach_of_resolve .dataclass metadata later.2)
  | callable text parameters result =>
      cases provider with
      | pydantic =>
          rcases Option.or_eq_some_iff.mp resolved with first | later
          · exact List.mem_append_left _ (mem_iterEach_of_resolve .pydantic parameters first)
          · exact List.mem_append_right _ (mem_iterModels_of_resolve .pydantic result later.2)
      | dataclass => exact mem_iterModels_of_resolve .dataclass result resolved
  | generic origin text args =>
      have each : resolveFirst provider args = some handle → handle ∈ iterEach provider args :=
        mem_iterEach_of_resolve provider args
      cases origin with
      | list =>
          cases args with
          | nil => exact each resolved
          | cons item rest =>
              exact List.mem_append_left _ (mem_iterModels_of_resolve provider item resolved)
      | union => exact each resolved
      | tuple => exact each resolved
      | collection => exact each resolved
      | mapping => exact each resolved
      | other => exact each resolved
  | none => cases resolved
  | any => cases resolved
  | simple type => cases resolved
  | type name => cases resolved
  | ellipsis => cases resolved
  | other text => cases resolved
  | literal values => cases resolved
termination_by sizeOf declared

theorem mem_iterEach_of_resolve (provider : Provider) (args : List (AnnotationExpr C)) {handle : C}
    (resolved : resolveFirst provider args = some handle)
    : handle ∈ iterEach provider args := by
  cases args with
  | nil => cases resolved
  | cons arg rest =>
      rcases Option.or_eq_some_iff.mp resolved with first | later
      · exact List.mem_append_left _ (mem_iterModels_of_resolve provider arg first)
      · exact List.mem_append_right _ (mem_iterEach_of_resolve provider rest later.2)
termination_by sizeOf args
end

mutual
theorem mem_iterModels_of_visits (provider : Provider) (declared : AnnotationExpr C) {handle : C}
    (visited : some handle ∈ visits provider declared)
    : handle ∈ iterModels provider declared := by
  have resolves : some handle ∈ ((resolveModel provider declared).map some).toList →
      handle ∈ iterModels provider declared := by
    intro member
    apply mem_iterModels_of_resolve
    simpa using member
  cases declared with
  | model own =>
      obtain rfl := Option.some.inj (List.mem_singleton.mp visited)
      exact List.mem_singleton_self _
  | annotated inner metadata =>
      cases provider with
      | pydantic => exact mem_iterModels_of_visits .pydantic inner visited
      | dataclass =>
          exact List.mem_append_left _ (mem_iterModels_of_visits .dataclass inner visited)
  | callable text parameters result => exact resolves visited
  | generic origin text args =>
      cases origin with
      | union => exact mem_iterEach_of_visits provider args visited
      | tuple => exact mem_iterEach_of_visits provider args visited
      | other => exact resolves visited
      | list =>
          cases args with
          | nil => cases List.mem_singleton.mp visited
          | cons item rest =>
              exact List.mem_append_left _ (mem_iterModels_of_visits provider item visited)
      | collection =>
          cases args with
          | nil => cases List.mem_singleton.mp visited
          | cons item rest =>
              exact List.mem_append_left _ (mem_iterModels_of_visits provider item visited)
      | mapping =>
          cases args with
          | nil => cases List.mem_singleton.mp visited
          | cons key rest =>
              cases rest with
              | nil =>
                  rcases List.mem_append.mp visited with first | missing
                  · exact List.mem_append_left _ (mem_iterModels_of_visits provider key first)
                  · cases List.mem_singleton.mp missing
              | cons value more =>
                  rcases List.mem_append.mp visited with first | later
                  · exact List.mem_append_left _ (mem_iterModels_of_visits provider key first)
                  · exact List.mem_append_right _
                      (List.mem_append_left _ (mem_iterModels_of_visits provider value later))
  | none => cases visited
  | any => cases visited
  | simple type => cases visited
  | type name => cases visited
  | ellipsis => cases visited
  | other text => cases visited
  | literal values => cases visited
termination_by sizeOf declared

theorem mem_iterEach_of_visits (provider : Provider) (args : List (AnnotationExpr C)) {handle : C}
    (visited : some handle ∈ visitsEach provider args)
    : handle ∈ iterEach provider args := by
  cases args with
  | nil => cases visited
  | cons arg rest =>
      rcases List.mem_append.mp visited with first | later
      · exact List.mem_append_left _ (mem_iterModels_of_visits provider arg first)
      · exact List.mem_append_right _ (mem_iterEach_of_visits provider rest later)
termination_by sizeOf args
end

section TypeRefs

variable {modelRef : C → Reading V C ModelRef} {version : C → Reading V C String}

/-- What a type reference does where it comes by a class or misses an argument. -/
def visit (modelRef : C → Reading V C ModelRef) (version : C → Reading V C String)
    : Option C → Reading V C PUnit
  | some handle => do
      let _ ← modelRef handle
      Py.effect (version handle)
  | none => throw indexError

theorem effect_resolvedTypeRef (resolve : AnnotationExpr C → Option C) (declared : AnnotationExpr C)
    : Py.effect (resolvedTypeRef resolve modelRef version declared)
      = ((resolve declared).map some).toList.forM (visit modelRef version) := by
  unfold resolvedTypeRef
  cases resolve declared with
  | none => rfl
  | some handle =>
      have both : Py.effect (modelRef handle >>= fun ref => version handle >>= fun version =>
          pure (TypeRef.model ref (if version = "" then none else some version)))
          = visit modelRef version (some handle) := by
        rw [Py.effect_bind (fun _ => Py.effect_map _ _), Py.effect]
        simp [visit]
      change _ = visit modelRef version (some handle) >>= fun _ => pure PUnit.unit
      rw [bind_pure]
      exact both

mutual
/-- A type reference does what it does at the classes that it comes by, one after the other. -/
theorem effect_annotationTypeRef (provider : Provider) (declared : AnnotationExpr C)
    : Py.effect (annotationTypeRef (resolveModel provider) modelRef version declared)
      = (visits provider declared).forM (visit modelRef version) := by
  cases declared with
  | model handle => exact effect_resolvedTypeRef _ _
  | annotated inner metadata => exact effect_annotationTypeRef provider inner
  | callable text parameters result => exact effect_resolvedTypeRef _ _
  | generic origin text args =>
      cases origin with
      | union =>
          exact (Py.effect_map _ _).trans (effect_argTypeRefs provider args)
      | tuple =>
          have each := effect_argTypeRefs provider args
          by_cases pair : ∃ item, args = [item, .ellipsis]
          · obtain ⟨item, rfl⟩ := pair
            have one := effect_annotationTypeRef provider item
            rw [visits, visitsEach, visitsEach, visitsEach, visits, List.append_nil,
              List.append_nil, annotationTypeRef]
            exact (Py.effect_map _ _).trans one
          · rw [annotationTypeRef]
            · exact (Py.effect_map _ _).trans each
            · intro item same
              exact pair ⟨item, same⟩
      | other => exact effect_resolvedTypeRef _ _
      | list =>
          cases args with
          | nil => rfl
          | cons item rest =>
              exact (Py.effect_map _ _).trans (effect_annotationTypeRef provider item)
      | collection =>
          cases args with
          | nil => rfl
          | cons item rest =>
              exact (Py.effect_map _ _).trans (effect_annotationTypeRef provider item)
      | mapping =>
          cases args with
          | nil => rfl
          | cons key rest =>
              cases rest with
              | nil =>
                  rw [visits, Py.forM_concat, ← effect_annotationTypeRef provider key]
                  exact Py.effect_bind (fun _ => rfl)
              | cons value more =>
                  rw [visits, Py.forM_concat, ← effect_annotationTypeRef provider key,
                    ← effect_annotationTypeRef provider value]
                  exact Py.effect_bind (fun _ => Py.effect_map _ _)
  | none => rfl
  | any => rfl
  | simple type => rfl
  | type name => rfl
  | ellipsis => rfl
  | other text => rfl
  | literal values => rfl
termination_by sizeOf declared

theorem effect_argTypeRefs (provider : Provider) (args : List (AnnotationExpr C))
    : Py.effect (argTypeRefs (resolveModel provider) modelRef version args)
      = (visitsEach provider args).forM (visit modelRef version) := by
  cases args with
  | nil => rfl
  | cons arg rest =>
      rw [visitsEach, Py.forM_concat, ← effect_annotationTypeRef provider arg,
        ← effect_argTypeRefs provider rest]
      exact Py.effect_bind (fun _ => Py.effect_map _ _)
termination_by sizeOf args
end

end TypeRefs

namespace Adapter

variable (adapter : Adapter C)

-----------------------------------------------------------------------------------------
-- What a class says of itself
-----------------------------------------------------------------------------------------

/-- The text of the default of an identity property of a class. -/
def ownText (model : C) (property : String) : String :=
  adapter.defaultText (((adapter.fields model).get? property).bind
    (fun field => adapter.encoded field.default))

def kindOf (model : C) : String := adapter.ownText model adapter.codec.kindProperty

def versionOf (model : C) : String := adapter.ownText model adapter.codec.versionProperty

/-- The identity of a versioned model: it has a kind and a version that can be read. -/
def identity (V : Type) [VersionValue V] (model : C) : Option (NodeId V) :=
  if adapter.kindOf model = "" then none
  else (adapter.parseId (adapter.kindOf model) (adapter.versionOf model)).toOption

/-- The descriptors have the names and the defaults of the fields of the class. -/
def Describes (model : C) (fields : Py.Dict String (FieldDescriptor V)) : Prop :=
  fields.mapValues FieldDescriptor.default
    = (adapter.fields model).mapValues (fun field => adapter.encoded field.default)

variable {adapter}

theorem Describes.codecText {model : C} {fields : Py.Dict String (FieldDescriptor V)}
    (describes : adapter.Describes model fields) (property : String)
    : adapter.codecText fields property = adapter.ownText model property := by
  have same := congrArg (fun dict => dict.get? property) describes
  simp only [Py.Dict.get?_mapValues] at same
  rw [Adapter.codecText, ownText]
  congr 1
  cases read : fields.get? property with
  | none =>
      rw [read] at same
      cases own : (adapter.fields model).get? property with
      | none => rfl
      | some field => simp [own] at same
  | some descriptor =>
      rw [read] at same
      cases own : (adapter.fields model).get? property with
      | none => simp [own] at same
      | some field => simpa [own] using same

section Reading

variable [VersionValue V] [DecidableEq V] [DecidableEq C] {calls : Calls V C}

omit [VersionValue V] [DecidableEq V] [DecidableEq C] in
theorem zipWith_left {α β γ : Type} {left : List α} {right : List β}
    (same : left.length = right.length) (result : α → γ)
    : left.zipWith (fun item _ => result item) right = left.map result := by
  induction left generalizing right with
  | nil => rfl
  | cons item rest ih =>
      cases right with
      | nil => cases same
      | cons other others => rw [List.zipWith_cons_cons, ih (Nat.succ.inj same), List.map_cons]

/-- A class is described with the names and the defaults of its fields. -/
theorem describes_of_ok {model : C} {before after : Py.Dict ModelRef C}
    {fields : Py.Dict String (FieldDescriptor V)}
    (run : adapter.describeFields calls model before = .ok fields after)
    : adapter.Describes model fields := by
  obtain ⟨described, first, typed, later⟩ := Py.bind_ok.mp run
  obtain ⟨references, second, referring, ended⟩ := Py.bind_ok.mp later
  obtain ⟨rfl, _⟩ := EStateM.Result.ok.inj ended
  have defaults : described.map (fun field => (field.1, field.2.default))
      = (adapter.fields model).items.map
        (fun field => (field.1, adapter.encoded field.2.default)) := by
    refine Py.map_of_mapM (fun field value before after ran => ?_) typed
    obtain ⟨type, middle, _, made⟩ := Py.bind_ok.mp ran
    obtain ⟨rfl, _⟩ := EStateM.Result.ok.inj made
    rfl
  have counted : references.map (fun _ => ()) = (adapter.fields model).items.map (fun _ => ()) :=
    Py.map_of_mapM (fun _ _ _ _ _ => rfl) referring
  have listed : described.length = references.length := by
    have lengths := congrArg List.length counted
    have other := congrArg List.length defaults
    rw [List.length_map, List.length_map] at lengths other
    rw [other, lengths]
  have kept : (described.zipWith (fun field references =>
        (field.1, { field.2 with references })) references).map
          (fun field => (field.1, field.2.default))
      = described.map (fun field => (field.1, field.2.default)) := by
    rw [List.map_zipWith]
    exact zipWith_left listed (fun field => (field.1, field.2.default))
  have nodup : ((described.zipWith (fun field references =>
      (field.1, ({ field.2 with references } : FieldDescriptor V))) references).map
        Prod.fst).Nodup := by
    have names := congrArg (List.map Prod.fst) (kept.trans defaults)
    rw [List.map_map, List.map_map] at names
    have same : (described.zipWith (fun field references =>
      (field.1, ({ field.2 with references } : FieldDescriptor V))) references).map Prod.fst
        = (adapter.fields model).items.map Prod.fst := names
    rw [same]
    exact (adapter.fields model).nodup
  apply Py.Dict.ext
  change List.map _ (Py.Dict.ofItems _).items = _
  rw [Py.Dict.items_ofItems nodup]
  exact kept.trans defaults

end Reading

variable (adapter)

/-- Another class that a class mentions in one of its fields. -/
def Refers (model nested : C) : Prop := nested ≠ model ∧ nested ∈ adapter.mentioned model

/-- What the type references of a class come by, field by field. -/
def visitsOf (model : C) : List (Option C) :=
  (adapter.fields model).values.flatMap (fun field => visits adapter.provider field.annotation)

variable {adapter}

theorem mem_mentioned_of_visits {model nested : C} (visited : some nested ∈ adapter.visitsOf model)
    : nested ∈ adapter.mentioned model := by
  obtain ⟨field, member, inside⟩ := List.mem_flatMap.mp visited
  exact List.mem_flatMap.mpr ⟨field, member, mem_iterModels_of_visits _ _ inside⟩

-----------------------------------------------------------------------------------------
-- The calls on nested classes
-----------------------------------------------------------------------------------------

section Nested

variable {calls : Calls V C}

variable (adapter) in
/-- What describing a class does for a class that its type references come by. -/
def meet (calls : Calls V C) : Option C → Reading V C PUnit :=
  visit adapter.remember (fun handle => return adapter.codecVersion (← calls.describeFields handle))

theorem effect_typeRef (declared : AnnotationExpr C)
    : Py.effect (adapter.typeRef calls declared)
      = (visits adapter.provider declared).forM (adapter.meet calls) :=
  effect_annotationTypeRef _ _

variable (adapter) in
/-- What both loops read of a nested class that is described. -/
def labels (nested : C) : Option (String × String) :=
  if adapter.kindOf nested = "" then none
  else some (adapter.kindOf nested, adapter.versionOf nested)

variable (adapter) in
/-- Whatever a call of `describe_fields` returns describes the class. -/
def Faithful (calls : Calls V C) : Prop :=
  ∀ model before fields after, calls.describeFields model before = .ok fields after →
    adapter.Describes model fields

variable {may : Prop}

theorem stops_meet {handle : C} (stops : Py.Stops recursionError may (calls.describeFields handle))
    : Py.Stops recursionError may (adapter.meet calls (some handle)) := by
  have remembers : Py.Stops recursionError may (adapter.remember (V := V) handle) :=
    (Py.Stops.modify _).bind (fun _ _ _ _ => .pure _)
  refine remembers.bind (fun _ _ _ _ => ?_)
  rw [Py.effect_map, Py.stops_effect]
  exact stops

theorem stops_nestedVersion {nested : C} {fields : Py.Dict String (FieldDescriptor V)}
    (stops : Py.Stops recursionError may (calls.describeFields nested))
    : Py.Stops recursionError may (adapter.nestedVersion calls nested fields) := by
  unfold nestedVersion
  cases adapter.provider with
  | pydantic => exact .pure _
  | dataclass =>
      refine Py.Stops.tryCatch (stops.bind (fun _ _ _ _ => .pure _)) ?_
      exact if_neg Bool.false_ne_true

theorem stops_readNested {nested : C}
    (stops : Py.Stops recursionError may (calls.describeFields nested))
    : Py.Stops recursionError may (adapter.readNested calls nested) := by
  refine stops.bind (fun fields _ _ _ => ?_)
  by_cases bare : adapter.codecKind fields = ""
  · rw [if_pos bare]
    exact .pure _
  · rw [if_neg bare]
    exact (stops_nestedVersion stops).bind (fun _ _ _ _ => .pure _)

/-- A nested class whose description raises nothing of its own is read as it says of itself. -/
theorem readNested_ok {nested : C} {before after : Py.Dict ModelRef C}
    {result : Option (String × String)} (faithful : adapter.Faithful calls)
    (stops : Py.Stops recursionError True (calls.describeFields nested))
    (run : adapter.readNested calls nested before = .ok result after)
    : result = adapter.labels nested := by
  obtain ⟨fields, middle, described, later⟩ := Py.bind_ok.mp run
  have texts := faithful nested before fields middle described
  have kind : adapter.codecKind fields = adapter.kindOf nested := texts.codecText _
  rw [kind] at later
  unfold labels
  by_cases bare : adapter.kindOf nested = ""
  · rw [if_pos bare] at later ⊢
    exact (EStateM.Result.ok.inj later).1.symm
  · rw [if_neg bare] at later ⊢
    obtain ⟨version, reached, read, ended⟩ := Py.bind_ok.mp later
    obtain ⟨rfl, _⟩ := EStateM.Result.ok.inj ended
    have told : version = some (adapter.versionOf nested) := by
      unfold nestedVersion at read
      cases own : adapter.provider with
      | pydantic =>
          rw [own] at read
          rw [← (EStateM.Result.ok.inj read).1]
          exact congrArg some (texts.codecText _)
      | dataclass =>
          rw [own] at read
          dsimp only at read
          rw [Py.tryCatch_apply] at read
          rcases stops middle with returned | raised
          · obtain ⟨again, final, ran⟩ := returned
            rw [Py.bind_eq_of_ok ran, Py.pure_apply] at read
            rw [← (EStateM.Result.ok.inj read).1]
            exact congrArg some ((faithful nested middle again final ran).codecText _)
          · obtain ⟨_, final, ran⟩ := raised
            rw [Py.bind_eq_of_error ran] at read
            cases read
    rw [told]
    rfl

variable [VersionValue V]

theorem identity_of_labels {nested : C} {kind version : String}
    (read : adapter.labels nested = some (kind, version))
    : adapter.identity V nested = (adapter.parseId kind version).toOption := by
  unfold labels at read
  by_cases bare : adapter.kindOf nested = ""
  · rw [if_pos bare] at read
    cases read
  · rw [if_neg bare] at read
    obtain ⟨rfl, rfl⟩ := Prod.mk.inj (Option.some.inj read)
    rw [identity, if_neg bare]

theorem identity_of_no_labels {nested : C} (read : adapter.labels nested = none)
    : adapter.identity V nested = none := by
  unfold labels at read
  by_cases bare : adapter.kindOf nested = ""
  · rw [identity, if_pos bare]
  · rw [if_neg bare] at read
    cases read

end Nested

section Reading

variable [VersionValue V] [DecidableEq V] [DecidableEq C]

variable (adapter) in
/-- What describing a class does for a class that its fields mention. -/
def cite (calls : Calls V C) (model nested : C) : Reading V C PUnit :=
  if nested = model then pure ⟨⟩ else do
    match ← adapter.readNested calls nested with
    | none => pure ⟨⟩
    | some (kind, version) =>
        match adapter.parseId (V := V) kind version with
        | .error _ => pure ⟨⟩
        | .ok _ => Py.effect (calls.references nested)

variable {calls : Calls V C}

theorem effect_citeModel (model nested : C) (found : List (NodeId V))
    : Py.effect (adapter.citeModel calls model found nested) = adapter.cite calls model nested := by
  unfold citeModel cite
  by_cases same : nested = model
  · rw [if_pos same, if_pos same, Py.effect_pure]
  · rw [if_neg same, if_neg same]
    unfold Py.effect
    rw [bind_assoc]
    congr 1
    funext label
    cases label with
    | none => rfl
    | some label =>
        obtain ⟨kind, version⟩ := label
        dsimp only
        cases adapter.parseId (V := V) kind version with
        | error raised => rfl
        | ok id => exact Py.effect_map _ _

theorem effect_describeFields (model : C)
    : Py.effect (adapter.describeFields calls model)
      = (adapter.visitsOf model).forM (adapter.meet calls) >>= fun _ =>
          (adapter.mentioned model).forM (adapter.cite calls model) := by
  have typed : ∀ (name : String) (field : Field C),
      Py.effect (adapter.typeRef calls field.annotation >>= fun typeRef =>
        pure (name, ({
          name, typeRef
          required := field.default == .required, default := adapter.encoded field.default
        } : FieldDescriptor V)))
      = (visits adapter.provider field.annotation).forM (adapter.meet calls) :=
    fun _ field => (Py.effect_map _ _).trans (effect_typeRef field.annotation)
  have referring : ∀ field : Field C,
      Py.effect (adapter.fieldReferences calls model field.annotation)
      = (iterModels adapter.provider field.annotation).forM (adapter.cite calls model) :=
    fun field => (Py.effect_map _ _).trans
      (Py.effect_foldlM (fun found nested => effect_citeModel model nested found) _ _)
  rw [visitsOf, mentioned, Py.Dict.values, List.flatMap_map, List.flatMap_map, Py.forM_flatMap,
    Py.forM_flatMap, ← Py.effect_mapM (fun (item : String × Field C) => typed item.1 item.2),
    ← Py.effect_mapM (fun (item : String × Field C) => referring item.2)]
  exact Py.effect_bind (fun _ => Py.effect_map _ _)

theorem faithful_calls (depth : Nat) : adapter.Faithful (adapter.calls (V := V) depth) := by
  intro model before fields after run
  cases depth with
  | zero => cases run
  | succ depth => exact describes_of_ok run

variable {may : Prop}

omit [DecidableEq V] in
theorem stops_cite {model nested : C} (faithful : adapter.Faithful calls)
    (stops : nested ≠ model → Py.Stops recursionError may (calls.describeFields nested))
    (cites : nested ≠ model → adapter.identity V nested ≠ none →
      Py.Stops recursionError may (calls.references nested))
    : Py.Stops recursionError may (adapter.cite calls model nested) := by
  unfold cite
  by_cases same : nested = model
  · rw [if_pos same]
    exact .pure _
  · rw [if_neg same]
    refine (stops_readNested (stops same)).bind (fun label before after run => ?_)
    have read := readNested_ok faithful ((stops same).imp (fun _ => trivial)) run
    cases label with
    | none => exact .pure _
    | some label =>
        obtain ⟨kind, version⟩ := label
        have own := identity_of_labels (V := V) read.symm
        dsimp only
        cases parsed : adapter.parseId (V := V) kind version with
        | error raised => exact .pure _
        | ok id =>
            rw [parsed] at own
            exact Py.stops_effect.mpr (cites same (by rw [own]; exact Option.some_ne_none id))

theorem stops_describeFields {model : C} (faithful : adapter.Faithful calls)
    (complete : none ∉ adapter.visitsOf model)
    (visited : ∀ handle, some handle ∈ adapter.visitsOf model →
      Py.Stops recursionError may (calls.describeFields handle))
    (nested : ∀ handle, adapter.Refers model handle →
      Py.Stops recursionError may (calls.describeFields handle))
    (cites : ∀ handle, adapter.Refers model handle → adapter.identity V handle ≠ none →
      Py.Stops recursionError may (calls.references handle))
    : Py.Stops recursionError may (adapter.describeFields calls model) := by
  rw [← Py.stops_effect, effect_describeFields]
  refine Py.Stops.bind (.forM (fun item member => ?_))
    (fun _ _ _ _ => .forM (fun handle member => ?_))
  · cases item with
    | none => exact (complete member).elim
    | some handle => exact stops_meet (visited handle member)
  · exact stops_cite faithful (fun other => nested handle ⟨other, member⟩)
      (fun other => cites handle ⟨other, member⟩)

end Reading

end Adapter

end Pyverge.Identity
