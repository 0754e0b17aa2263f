import Mathlib.Data.List.Dedup
import Pyverge.Versioning.CanonicalForms
import Pyverge.Versioning.Parsing

/-! Nodes are restored from their canonical forms, which no two different descriptors share.
Types are read and compared part by part; the order of mappings and the absent members are settled
at each level on its own.
-/

namespace Pyverge.Identity

open Py (Json)

variable {V : Type}

-----------------------------------------------------------------------------------------
-- Induction over types
-----------------------------------------------------------------------------------------

/-- A property that a type has if its parts have it. -/
def TypeRef.FromParts (motive : TypeRef → Prop) : Prop :=
  ∀ type : TypeRef, (∀ item, type.item = some item → motive item) →
    (∀ arg ∈ type.args, motive arg) →
    (∀ fields, type.fields = some fields → ∀ field ∈ fields, motive field.2) → motive type

section Induction

variable {motive : TypeRef → Prop}

mutual
/-- What holds of a type if it holds of its parts holds of every type. -/
theorem TypeRef.FromParts.all (step : FromParts motive) : ∀ type : TypeRef, motive type
  | ⟨_, item, args, fields, _, _, _, _⟩ =>
      step _ (step.item item) (step.args args) (step.optionalFields fields)

theorem TypeRef.FromParts.item (step : FromParts motive)
    : ∀ (item : Option TypeRef) (type : TypeRef), item = some type → motive type
  | some item, _, same => Option.some.inj same ▸ step.all item

theorem TypeRef.FromParts.args (step : FromParts motive)
    : ∀ (args : List TypeRef), ∀ arg ∈ args, motive arg
  | [], _, member => (List.not_mem_nil member).elim
  | first :: rest, arg, member => by
      rcases List.mem_cons.mp member with same | later
      · exact same ▸ step.all first
      · exact step.args rest arg later

theorem TypeRef.FromParts.optionalFields (step : FromParts motive)
    : ∀ (fields : Option (List (String × TypeRef))) (given : List (String × TypeRef)),
        fields = some given → ∀ field ∈ given, motive field.2
  | some fields, _, same => Option.some.inj same ▸ step.fields fields

theorem TypeRef.FromParts.fields (step : FromParts motive)
    : ∀ (fields : List (String × TypeRef)), ∀ field ∈ fields, motive field.2
  | [], _, member => (List.not_mem_nil member).elim
  | (key, value) :: rest, field, member => by
      rcases List.mem_cons.mp member with same | later
      · subst same
        exact step.all value
      · exact step.fields rest field later
end

end Induction

-----------------------------------------------------------------------------------------
-- Forms of parts
-----------------------------------------------------------------------------------------

theorem TypeRef.itemForm_eq (item : Option TypeRef) : itemForm item = item.map toCanonical := by
  cases item <;> rfl

theorem TypeRef.argForms_eq (args : List TypeRef) : argForms args = args.map toCanonical := by
  induction args with
  | nil => rfl
  | cons arg rest ih => rw [argForms, ih, List.map_cons]

theorem TypeRef.fieldForms_eq (fields : List (String × TypeRef))
    : fieldForms fields = fields.map (fun field => (field.1, field.2.toCanonical)) := by
  induction fields with
  | nil => rfl
  | cons field rest ih => rw [fieldForms, ih, List.map_cons]

theorem TypeRef.fieldsForm_eq (fields : Option (List (String × TypeRef)))
    : fieldsForm fields = fields.map (fun fields => .obj (Json.sortMembers
        (fields.map (fun field => (field.1, field.2.toCanonical))))) := by
  cases fields with
  | none => rfl
  | some fields => rw [fieldsForm, fieldForms_eq, Option.map_some]

/-- The members of the canonical form of a type. -/
def TypeRef.members (type : TypeRef) : List (String × Json) :=
  [("kind", .str type.kind.value)]
  ++ entry "name" (type.name.map .str)
  ++ entry "item" (type.item.map toCanonical)
  ++ entry "args" (nonEmpty (type.args.map toCanonical))
  ++ entry "fields" (type.fields.map (fun fields => .obj (Json.sortMembers
      (fields.map (fun field => (field.1, field.2.toCanonical))))))
  ++ entry "ref" (type.ref.map ModelRef.toCanonical)
  ++ entry "version" (type.version.map .str)
  ++ entry "values" (nonEmpty type.values)

theorem TypeRef.toCanonical_eq (type : TypeRef) : type.toCanonical = .obj type.members := by
  obtain ⟨kind, item, args, fields, ref, version, values, name⟩ := type
  rw [toCanonical, itemForm_eq, argForms_eq, fieldsForm_eq]
  rfl

-----------------------------------------------------------------------------------------
-- Reading members
-----------------------------------------------------------------------------------------

theorem getMember_entry (key other : String) (value : Option Json)
    : Json.getMember (entry key value) other = if key = other then value else none := by
  cases value with
  | none => exact (ite_self none).symm
  | some value => rfl

theorem iterate_nonEmpty (items : List Json)
    : iterate (V := V) ((nonEmpty items).getD (.arr [])) = .ok items := by
  cases items <;> rfl

theorem ofItems_metadata (metadata : Py.Dict String Json)
    : dictOf (V := V) ((if metadata.items.isEmpty then none
        else some (.obj metadata.items)).getD (.obj [])) = .ok metadata := by
  cases empty : metadata.items.isEmpty with
  | true =>
      have none : metadata.items = [] := List.isEmpty_iff.mp empty
      exact congrArg Except.ok (Py.Dict.ext none.symm)
  | false => exact congrArg Except.ok (Py.Dict.ofItems_items metadata)

theorem TypeKind.ofValue_value (kind : TypeKind)
    : ofValue (V := V) (.str kind.value) = .ok kind := by
  cases kind <;> rfl

variable {printable : Char → Bool} {parseVersion : String → Except (Error V) V}

/-- A reference is read back with its metadata. -/
theorem ModelRef.fromCanonical_toCanonical (ref : ModelRef)
    : fromCanonical (V := V) printable ref.toCanonical = .ok ref := by
  have metadata := ofItems_metadata (V := V) ref.metadata
  simp [fromCanonical, toCanonical, getKey, getMember_entry, Json.getMember, Bind.bind,
    Except.bind, Pure.pure, Except.pure, metadata, Json.pyStr, -List.isEmpty_iff]

theorem getSome_eq {members : List (String × Json)} {key : String} {value : Option Json}
    (member : Json.getMember members key = value) (given : value ≠ some .null)
    : getSome (V := V) (.obj members) key = .ok value := by
  rw [getSome, getKey, member]
  rcases value with _ | value
  · rfl
  · cases value
    case null => exact (given rfl).elim
    all_goals rfl

theorem map_ne_null {α : Type} {form : α → Json} (given : ∀ value, form value ≠ .null)
    (value : Option α)
    : value.map form ≠ some .null := by
  intro same
  obtain ⟨value, _, null⟩ := Option.map_eq_some_iff.mp same
  exact given value null

section Lookups

variable (key : String) (members : List (String × Json))

theorem TypeRef.itemAt_eq
    : itemAt (V := V) printable key members
      = match Json.getMember members key with
        | none => .ok none
        | some value =>
            if value = .null then .ok none else (fromCanonical printable value).map some := by
  induction members with
  | nil => rfl
  | cons member rest ih =>
      obtain ⟨name, value⟩ := member
      rw [itemAt, Json.getMember]
      split
      · rfl
      · exact ih

theorem TypeRef.argsAt_eq
    : argsAt (V := V) printable key members
      = argsOf printable ((Json.getMember members key).getD (.arr [])) := by
  induction members with
  | nil => rfl
  | cons member rest ih =>
      obtain ⟨name, value⟩ := member
      rw [argsAt, Json.getMember]
      split
      · rfl
      · exact ih

theorem TypeRef.fieldsAt_eq
    : fieldsAt (V := V) printable key members
      = fieldsOf printable ((Json.getMember members key).getD .null) := by
  induction members with
  | nil => rfl
  | cons member rest ih =>
      obtain ⟨name, value⟩ := member
      rw [fieldsAt, Json.getMember]
      split
      · rfl
      · exact ih

end Lookups

-----------------------------------------------------------------------------------------
-- Types are restored
-----------------------------------------------------------------------------------------

/-- Reading a value as a type and writing the type gives the value again. -/
def Restores (V : Type) (printable : Char → Bool) (value : Json) : Prop :=
  ∃ type, TypeRef.fromCanonical (V := V) printable value = .ok type ∧ type.toCanonical = value

theorem eachOf_restores {items : List Json}
    (each : ∀ item ∈ items, Restores V printable item)
    : ∃ types, TypeRef.eachOf (V := V) printable items = .ok types
        ∧ types.map TypeRef.toCanonical = items := by
  induction items with
  | nil => exact ⟨[], rfl, rfl⟩
  | cons item rest ih =>
      obtain ⟨type, read, wrote⟩ := each item (List.mem_cons_self ..)
      obtain ⟨types, reads, writes⟩ := ih
        (fun item later => each item (List.mem_cons_of_mem _ later))
      refine ⟨type :: types, ?_, ?_⟩
      · rw [TypeRef.eachOf, read, reads]
        rfl
      · rw [List.map_cons, wrote, writes]

theorem valuesOf_restores {members : List (String × Json)}
    (each : ∀ member ∈ members, Restores V printable member.2)
    : ∃ fields, TypeRef.valuesOf (V := V) printable members = .ok fields
        ∧ fields.map (fun field => (field.1, field.2.toCanonical)) = members := by
  induction members with
  | nil => exact ⟨[], rfl, rfl⟩
  | cons member rest ih =>
      obtain ⟨key, value⟩ := member
      obtain ⟨type, read, wrote⟩ := each (key, value) (List.mem_cons_self ..)
      obtain ⟨fields, reads, writes⟩ := ih
        (fun member later => each member (List.mem_cons_of_mem _ later))
      refine ⟨(key, type) :: fields, ?_, ?_⟩
      · rw [TypeRef.valuesOf, read, reads]
        rfl
      · rw [List.map_cons, wrote, writes]

theorem toCanonical_ne_null (type : TypeRef) : type.toCanonical ≠ .null := by
  rw [TypeRef.toCanonical_eq]
  exact Json.noConfusion

section Parts

variable {type : TypeRef}

theorem restores_item (item : ∀ part, type.item = some part → Restores V printable part.toCanonical)
    : ∃ given, TypeRef.itemAt (V := V) printable "item" type.members = .ok given
        ∧ given.map TypeRef.toCanonical = type.item.map TypeRef.toCanonical := by
  have member : Json.getMember type.members "item" = type.item.map TypeRef.toCanonical := by
    simp [TypeRef.members, Json.getMember_append, getMember_entry, Json.getMember]
  rw [TypeRef.itemAt_eq, member]
  cases found : type.item with
  | none => exact ⟨none, rfl, rfl⟩
  | some part =>
      obtain ⟨given, read, wrote⟩ := item part found
      refine ⟨some given, ?_, congrArg some wrote⟩
      simp only [Option.map_some, if_neg (toCanonical_ne_null part), read]
      rfl

theorem restores_args (args : ∀ arg ∈ type.args, Restores V printable arg.toCanonical)
    : ∃ given, TypeRef.argsAt (V := V) printable "args" type.members = .ok given
        ∧ given.map TypeRef.toCanonical = type.args.map TypeRef.toCanonical := by
  have member : (Json.getMember type.members "args").getD (.arr [])
      = .arr (type.args.map TypeRef.toCanonical) := by
    simp only [TypeRef.members, Json.getMember_append, getMember_entry, Json.getMember, nonEmpty]
    cases type.args <;> simp
  obtain ⟨given, read, wrote⟩ := eachOf_restores (List.forall_mem_map.mpr args)
  refine ⟨given, ?_, wrote⟩
  rw [TypeRef.argsAt_eq, member, TypeRef.argsOf, read]

/-- Fields are read in the order of their names, in which they are written. -/
theorem restores_fields
    (fields : ∀ items, type.fields = some items → ∀ field ∈ items,
      Restores V printable field.2.toCanonical)
    : ∃ given, TypeRef.fieldsAt (V := V) printable "fields" type.members = .ok given
        ∧ TypeRef.fieldsForm given = TypeRef.fieldsForm type.fields := by
  have member : Json.getMember type.members "fields" = TypeRef.fieldsForm type.fields := by
    rw [TypeRef.fieldsForm_eq]
    simp [TypeRef.members, Json.getMember_append, getMember_entry, Json.getMember]
  rw [TypeRef.fieldsAt_eq, member]
  cases found : type.fields with
  | none => exact ⟨none, rfl, rfl⟩
  | some items =>
      have each : ∀ member ∈ Json.sortMembers (TypeRef.fieldForms items),
          Restores V printable member.2 := by
        intro member listed
        rw [Json.sortMembers, List.mem_insertionSort, TypeRef.fieldForms_eq] at listed
        obtain ⟨field, inItems, rfl⟩ := List.mem_map.mp listed
        exact fields items found field inItems
      obtain ⟨given, read, wrote⟩ := valuesOf_restores each
      refine ⟨some given, ?_, ?_⟩
      · rw [TypeRef.fieldsForm, Option.getD_some, TypeRef.fieldsOf, read]
        rfl
      · rw [TypeRef.fieldsForm, TypeRef.fieldsForm, TypeRef.fieldForms_eq given, wrote,
          Json.sortMembers_sortMembers]

end Parts

/-- Every type is restored, by induction on its parts. -/
theorem TypeRef.restores (type : TypeRef) : Restores V printable type.toCanonical := by
  have step : FromParts (fun type => Restores V printable type.toCanonical) := by
    intro type item args fields
    obtain ⟨item, readItem, wroteItem⟩ := restores_item item
    obtain ⟨args, readArgs, wroteArgs⟩ := restores_args args
    obtain ⟨fields, readFields, wroteFields⟩ := restores_fields fields
    refine ⟨{ type with item, args, fields }, ?_, ?_⟩
    · have kind : Json.getMember type.members "kind" = some (.str type.kind.value) := rfl
      have name : getSome (V := V) (.obj type.members) "name" = .ok (type.name.map .str) :=
        getSome_eq (by simp [members, Json.getMember_append, getMember_entry, Json.getMember])
          (map_ne_null (fun _ => Json.noConfusion) _)
      have ref : getSome (V := V) (.obj type.members) "ref"
          = .ok (type.ref.map ModelRef.toCanonical) :=
        getSome_eq (by simp [members, Json.getMember_append, getMember_entry, Json.getMember])
          (map_ne_null (fun _ => Json.noConfusion) _)
      have refs : (type.ref.map ModelRef.toCanonical).mapM
          (ModelRef.fromCanonical (V := V) printable) = .ok type.ref := by
        cases type.ref with
        | none => rfl
        | some ref => simp [ModelRef.fromCanonical_toCanonical]
      have version : getSome (V := V) (.obj type.members) "version"
          = .ok (type.version.map .str) :=
        getSome_eq (by simp [members, Json.getMember_append, getMember_entry, Json.getMember])
          (map_ne_null (fun _ => Json.noConfusion) _)
      have values : Json.getMember type.members "values" = nonEmpty type.values := by
        simp [members, Json.getMember_append, getMember_entry, Json.getMember]
      have texts : ∀ text : Option String,
          (text.map Json.str).map (Json.pyStr printable) = text := by
        intro text
        cases text <;> rfl
      rw [toCanonical_eq, fromCanonical]
      simp only [getItem, getKey, kind, name, ref, refs, version, values, readItem, readArgs,
        readFields, Bind.bind, Except.bind, Option.elim, TypeKind.ofValue_value, iterate_nonEmpty,
        texts, Pure.pure, Except.pure]
    · rw [toCanonical_eq, toCanonical_eq, members, members]
      simp only [← fieldsForm_eq, wroteItem, wroteArgs, wroteFields]
  exact step.all type

-----------------------------------------------------------------------------------------
-- Types with one canonical form are equal
-----------------------------------------------------------------------------------------

theorem keys_entry (key : String) (value : Option Json)
    : ((entry key value).map Prod.fst).Sublist [key] := by
  cases value with
  | none => exact List.nil_sublist _
  | some value => exact List.Sublist.refl _

theorem TypeRef.nodup_members (type : TypeRef) : (type.members.map Prod.fst).Nodup := by
  have listed : (type.members.map Prod.fst).Sublist
      (["kind"] ++ ["name"] ++ ["item"] ++ ["args"] ++ ["fields"] ++ ["ref"] ++ ["version"]
        ++ ["values"]) := by
    simp only [members, List.map_append]
    repeat apply List.Sublist.append _ (keys_entry _ _)
    exact List.Sublist.refl _
  exact listed.nodup (by decide)

theorem ModelRef.eq_of_canonical {left right : ModelRef}
    (same : left.toCanonical.canonical = right.toCanonical.canonical)
    : left.eq right = true := by
  have nodup : ∀ ref : ModelRef,
      (([("provider_id", Json.str ref.providerId), ("entity_id", Json.str ref.entityId)]
        ++ entry "metadata" (if ref.metadata.items.isEmpty then none
          else some (.obj ref.metadata.items))).map Prod.fst).Nodup := by
    intro ref
    have listed := List.Sublist.append (List.Sublist.refl ["provider_id", "entity_id"])
      (keys_entry "metadata" (if ref.metadata.items.isEmpty then none
        else some (.obj ref.metadata.items)))
    rw [List.map_append]
    exact listed.nodup (by decide)
  have provider := Json.getMember_canonical (nodup left) (nodup right) same "provider_id"
  have entity := Json.getMember_canonical (nodup left) (nodup right) same "entity_id"
  simp [Json.getMember, Json.canonical] at provider entity
  simp [eq, provider, entity]

theorem TypeKind.value_inj {left right : TypeKind} (same : left.value = right.value)
    : left = right := by
  have read := ofValue_value (V := Release) left
  rw [same, ofValue_value] at read
  exact (Except.ok.inj read).symm

theorem texts_eq {left right : Option String}
    (same : (left.map Json.str).map Json.canonical = (right.map Json.str).map Json.canonical)
    : left = right := by
  cases left <;> cases right <;> simp [Json.canonical] at same ⊢
  exact same

theorem nonEmpty_eq {left right : List Json}
    (same : (nonEmpty left).map Json.canonical = (nonEmpty right).map Json.canonical)
    : left.map Json.canonical = right.map Json.canonical := by
  cases left <;> cases right <;> simp [nonEmpty] at same ⊢
  exact same

theorem refs_eq {left right : Option ModelRef}
    (same : (left.map ModelRef.toCanonical).map Json.canonical
      = (right.map ModelRef.toCanonical).map Json.canonical)
    : optionEq ModelRef.eq left right = true := by
  cases left <;> cases right <;> simp only [Option.map_some, Option.map_none, reduceCtorEq] at same
  · rfl
  · exact ModelRef.eq_of_canonical (Option.some.inj same)

theorem TypeRef.itemEq_of {item other : Option TypeRef}
    (part : ∀ type, item = some type → ∀ other : TypeRef,
      type.toCanonical.canonical = other.toCanonical.canonical → type.eq other = true)
    (same : (item.map toCanonical).map Json.canonical = (other.map toCanonical).map Json.canonical)
    : itemEq item other = true := by
  cases item <;> cases other <;> simp only [Option.map_some, Option.map_none, reduceCtorEq] at same
  · rfl
  · exact part _ rfl _ (Option.some.inj same)

theorem TypeRef.argsEq_of {args others : List TypeRef}
    (part : ∀ arg ∈ args, ∀ other : TypeRef,
      arg.toCanonical.canonical = other.toCanonical.canonical → arg.eq other = true)
    (same : (args.map toCanonical).map Json.canonical = (others.map toCanonical).map Json.canonical)
    : argsEq args others = true := by
  induction args generalizing others with
  | nil =>
      cases others with
      | nil => rfl
      | cons other others => cases same
  | cons arg args ih =>
      cases others with
      | nil => cases same
      | cons other others =>
          obtain ⟨first, later⟩ := List.cons.inj same
          rw [argsEq, part arg (List.mem_cons_self ..) other first, Bool.true_and]
          exact ih (fun arg inArgs => part arg (List.mem_cons_of_mem _ inArgs)) later

theorem TypeRef.fieldsWithin_iff {fields others : List (String × TypeRef)}
    : fieldsWithin fields others = true
      ↔ ∀ field ∈ fields, ∃ other ∈ others, other.1 = field.1 ∧ field.2.eq other.2 = true := by
  induction fields with
  | nil => simp [fieldsWithin]
  | cons field fields ih =>
      rw [fieldsWithin, Bool.and_eq_true, ih, List.any_eq_true, List.forall_mem_cons]
      simp

/-- Mappings with one canonical form correspond, item by item. -/
theorem sorted_forms_perm {α : Type} (form : α → Json) {left right : List (String × α)}
    (same : (Json.obj (Json.sortMembers (left.map (fun item => (item.1, form item.2))))).canonical
      = (Json.obj (Json.sortMembers (right.map (fun item => (item.1, form item.2))))).canonical)
    : (left.map (fun item => (item.1, (form item.2).canonical))).Perm
        (right.map (fun item => (item.1, (form item.2).canonical))) := by
  have formed : ∀ items : List (String × α),
      ((Json.sortMembers (items.map (fun item => (item.1, form item.2)))).map
        (fun member => (member.1, member.2.canonical))).Perm
        (items.map (fun item => (item.1, (form item.2).canonical))) := by
    intro items
    have sorted := (List.perm_insertionSort (fun l r : String × Json => l.1 ≤ r.1)
      (items.map (fun item => (item.1, form item.2)))).map
      (fun member => (member.1, member.2.canonical))
    rwa [List.map_map] at sorted
  exact (formed left).symm.trans ((Json.perm_of_canonical_obj same).trans (formed right))

theorem TypeRef.fieldsEq_of {fields others : Option (List (String × TypeRef))}
    (part : ∀ items, fields = some items → ∀ field ∈ items, ∀ other : TypeRef,
      field.2.toCanonical.canonical = other.toCanonical.canonical → field.2.eq other = true)
    (same : (fieldsForm fields).map Json.canonical = (fieldsForm others).map Json.canonical)
    : fieldsEq fields others = true := by
  cases given : fields with
  | none =>
      cases other : others with
      | none => rfl
      | some items =>
          rw [given, other] at same
          cases same
  | some items =>
      cases other : others with
      | none =>
          rw [given, other] at same
          cases same
      | some more =>
          rw [given, other, fieldsForm, fieldsForm, Option.map_some, Option.map_some,
            Option.some.injEq] at same
          rw [fieldForms_eq, fieldForms_eq] at same
          have perm := sorted_forms_perm toCanonical same
          have lengths : items.length = more.length := by
            simpa using perm.length_eq
          rw [fieldsEq, Bool.and_eq_true, decide_eq_true_eq, fieldsWithin_iff]
          refine ⟨lengths, ?_⟩
          intro field inItems
          have listed := perm.mem_iff.mp (List.mem_map.mpr ⟨field, inItems, rfl⟩)
          obtain ⟨matching, inMore, pairs⟩ := List.mem_map.mp listed
          obtain ⟨names, forms⟩ := Prod.mk.inj pairs
          exact ⟨matching, inMore, names, part items given field inItems _ forms.symm⟩

/-- Types with one canonical form are equal, by induction on the parts of one of them. -/
theorem TypeRef.eq_of_canonical {left right : TypeRef}
    (same : left.toCanonical.canonical = right.toCanonical.canonical)
    : left.eq right = true := by
  have step : FromParts (fun left => ∀ right : TypeRef,
      left.toCanonical.canonical = right.toCanonical.canonical → left.eq right = true) := by
    intro left item args fields right same
    rw [toCanonical_eq, toCanonical_eq] at same
    have agree := Json.getMember_canonical left.nodup_members right.nodup_members same
    have kinds : left.kind = right.kind := by
      have values := agree "kind"
      apply TypeKind.value_inj
      simpa [members, Json.getMember, Json.canonical] using values
    have names : left.name = right.name := by
      apply texts_eq
      simpa [members, Json.getMember_append, getMember_entry, Json.getMember] using agree "name"
    have items : itemEq left.item right.item = true := by
      apply itemEq_of item
      simpa [members, Json.getMember_append, getMember_entry, Json.getMember] using agree "item"
    have arguments : argsEq left.args right.args = true := by
      apply argsEq_of args
      apply nonEmpty_eq
      simpa [members, Json.getMember_append, getMember_entry, Json.getMember] using agree "args"
    have mappings : fieldsEq left.fields right.fields = true := by
      apply fieldsEq_of fields
      rw [fieldsForm_eq, fieldsForm_eq]
      simpa [members, Json.getMember_append, getMember_entry, Json.getMember] using agree "fields"
    have refs : optionEq ModelRef.eq left.ref right.ref = true := by
      apply refs_eq
      simpa [members, Json.getMember_append, getMember_entry, Json.getMember] using agree "ref"
    have versions : left.version = right.version := by
      apply texts_eq
      simpa [members, Json.getMember_append, getMember_entry, Json.getMember] using agree "version"
    have values : left.values.map Json.canonical = right.values.map Json.canonical := by
      apply nonEmpty_eq
      simpa [members, Json.getMember_append, getMember_entry, Json.getMember] using agree "values"
    obtain ⟨kind, item, args, fields, ref, version, values', name⟩ := left
    simp only [eq, Bool.and_eq_true, decide_eq_true_eq]
    exact ⟨⟨⟨⟨⟨⟨⟨kinds, items⟩, arguments⟩, mappings⟩, refs⟩, versions⟩, values⟩, names⟩
  exact step.all left right same

-----------------------------------------------------------------------------------------
-- Fields and models
-----------------------------------------------------------------------------------------

section Models

variable [VersionValue V]

/-- Version texts are parsed to the versions they are texts of. -/
def ParsesBack (parseVersion : String → Except (Error V) V) : Prop :=
  ∀ version, parseVersion (VersionValue.str version) = .ok version

theorem ParsesBack.texts (parses : ParsesBack parseVersion) {left right : V}
    (same : VersionValue.str left = VersionValue.str right)
    : left = right := by
  have read := parses left
  rw [same, parses right] at read
  exact (Except.ok.inj read).symm

theorem referenceFrom_referenceForm (parses : ParsesBack parseVersion) (reference : NodeId V)
    : referenceFrom printable parseVersion (referenceForm reference) = .ok reference := by
  simp [referenceFrom, referenceForm, referenceMembers, getItem, Json.getMember, Json.pyStr,
    Bind.bind, Except.bind, Pure.pure, Except.pure, parses reference.version, reference.named]

theorem referenceForm_inj (parses : ParsesBack parseVersion) {left right : NodeId V}
    (same : (referenceForm left).canonical = (referenceForm right).canonical)
    : left = right := by
  have nodup : ∀ reference : NodeId V, ((referenceMembers reference).map Prod.fst).Nodup := by
    intro reference
    have keys : ["namespace", "kind", "version"].Nodup := by decide
    exact keys
  have agree := Json.getMember_canonical (nodup left) (nodup right) same
  have spaces : left.nameSpace = right.nameSpace := by
    simpa [referenceMembers, Json.getMember] using agree "namespace"
  have kinds : left.kind = right.kind := by
    simpa [referenceMembers, Json.getMember] using agree "kind"
  have versions : VersionValue.str left.version = VersionValue.str right.version := by
    simpa [referenceMembers, Json.getMember] using agree "version"
  cases left
  cases right
  rw [NodeId.mk.injEq]
  exact ⟨spaces, kinds, parses.texts versions⟩

theorem mapM_referenceForm (parses : ParsesBack parseVersion) (references : List (NodeId V))
    : (references.map referenceForm).mapM (referenceFrom printable parseVersion)
      = .ok references := by
  induction references with
  | nil => rfl
  | cons reference rest ih =>
      rw [List.map_cons, List.mapM_cons, referenceFrom_referenceForm parses, ih]
      rfl

/-- The members of the canonical form of a field. -/
def FieldDescriptor.members (field : FieldDescriptor V) : List (String × Json) :=
  [("name", .str field.name), ("required", .bool field.required),
    ("type_ref", field.typeRef.toCanonical)]
  ++ entry "references" (nonEmpty (field.references.map referenceForm))
  ++ entry "default" field.default

theorem FieldDescriptor.nodup_members (field : FieldDescriptor V)
    : (field.members.map Prod.fst).Nodup := by
  have listed : (field.members.map Prod.fst).Sublist
      (["name", "required", "type_ref"] ++ ["references"] ++ ["default"]) := by
    simp only [members, List.map_append]
    repeat apply List.Sublist.append _ (keys_entry _ _)
    exact List.Sublist.refl _
  exact listed.nodup (by decide)

variable (printable) in
/-- What is read of a field has the references of the field and is written the same. -/
theorem FieldDescriptor.restores (parses : ParsesBack parseVersion) (field : FieldDescriptor V)
    : ∃ restored, fromCanonical printable parseVersion field.toCanonical = .ok restored
        ∧ restored.toCanonical = field.toCanonical ∧ restored.references = field.references := by
  have restored : Restores V printable field.typeRef.toCanonical := field.typeRef.restores
  obtain ⟨type, read, wrote⟩ := restored
  have references : Json.getMember field.members "references"
      = nonEmpty (field.references.map referenceForm) := by
    simp [members, Json.getMember_append, getMember_entry, Json.getMember]
  have default : Json.getMember field.members "default" = field.default := by
    simp [members, Json.getMember_append, getMember_entry, Json.getMember]
  refine ⟨⟨field.name, type, field.required, field.default, field.references, .null⟩, ?_, ?_, rfl⟩
  · have form : field.toCanonical = .obj field.members := rfl
    have name : Json.getMember field.members "name" = some (.str field.name) := rfl
    have required : Json.getMember field.members "required" = some (.bool field.required) := rfl
    have typed : Json.getMember field.members "type_ref" = some field.typeRef.toCanonical := rfl
    rw [form]
    simp only [fromCanonical, getItem, getKey, references, default, name, required, typed, read,
      Bind.bind, Except.bind, iterate_nonEmpty, mapM_referenceForm parses, Option.elim,
      Option.getD_some, Pure.pure, Except.pure, Json.truthy, Json.pyStr]
  · rw [toCanonical, toCanonical, wrote]

theorem FieldDescriptor.eq_of_canonical [DecidableEq V] (parses : ParsesBack parseVersion)
    {left right : FieldDescriptor V}
    (same : left.toCanonical.canonical = right.toCanonical.canonical)
    : left.eq right = true := by
  have agree := Json.getMember_canonical left.nodup_members right.nodup_members same
  have names : left.name = right.name := by
    simpa [members, Json.getMember] using agree "name"
  have flags : left.required = right.required := by
    simpa [members, Json.getMember] using agree "required"
  have types : left.typeRef.toCanonical.canonical = right.typeRef.toCanonical.canonical := by
    simpa [members, Json.getMember] using agree "type_ref"
  have references : (nonEmpty (left.references.map referenceForm)).map Json.canonical
      = (nonEmpty (right.references.map referenceForm)).map Json.canonical := by
    simpa [members, Json.getMember_append, getMember_entry, Json.getMember]
      using agree "references"
  have defaults : left.default.map Json.canonical = right.default.map Json.canonical := by
    simpa [members, Json.getMember_append, getMember_entry, Json.getMember] using agree "default"
  have listed : left.references = right.references := by
    have forms := nonEmpty_eq references
    rw [List.map_map, List.map_map] at forms
    exact List.map_injective_iff.mpr (fun _ _ form => referenceForm_inj parses form) forms
  have given : optionEq sameValue left.default right.default = true := by
    cases before : left.default <;> cases after : right.default <;>
      simp [before, after, optionEq, sameValue] at defaults ⊢
    exact defaults
  simp [eq, names, flags, TypeRef.eq_of_canonical types, given, listed]

-----------------------------------------------------------------------------------------
-- Models
-----------------------------------------------------------------------------------------

/-- The references of one set are listed alike, in whatever order it yields them. -/
theorem insertionSort_references (parses : ParsesBack parseVersion) {left right : List (NodeId V)}
    (perm : left.Perm right)
    : left.insertionSort (fun left right => referenceOrder left right)
      = right.insertionSort (fun left right => referenceOrder left right) := by
  have total : Std.Total (fun left right : NodeId V => referenceOrder left right = true) := by
    constructor
    intro left right
    by_cases below : referenceOrder left right = true
    · exact Or.inl below
    · exact Or.inr (Ordering.isLE_of_eq_lt (Std.OrientedCmp.lt_of_not_isLE below))
  have trans : IsTrans (NodeId V) (fun left right => referenceOrder left right = true) :=
    ⟨fun _ _ _ => Std.TransCmp.isLE_trans⟩
  refine List.Perm.eq_of_pairwise (fun left right _ _ below above => ?_)
    (List.pairwise_insertionSort _ _) (List.pairwise_insertionSort _ _)
    ((List.perm_insertionSort _ _).trans (perm.trans (List.perm_insertionSort _ _).symm))
  have same := Std.OrientedCmp.isLE_antisymm below above
  simp only [compareLex_eq_eq, compareOn, Std.LawfulEqCmp.compare_eq_iff_eq] at same
  obtain ⟨spaces, kinds, versions⟩ := same
  cases left
  cases right
  rw [NodeId.mk.injEq]
  exact ⟨spaces, kinds, parses.texts versions⟩

/-- The fields in the order of their names. -/
def ModelDescriptor.sortedFields (descriptor : ModelDescriptor V)
    : List (String × FieldDescriptor V) :=
  descriptor.fields.items.insertionSort (fun left right => left.1 ≤ right.1)

theorem ModelDescriptor.sortedFields_forms (descriptor : ModelDescriptor V)
    : descriptor.sortedFields.map (fun field => (field.1, field.2.toCanonical))
      = Json.sortMembers (descriptor.fields.items.map
          (fun field => (field.1, field.2.toCanonical))) := by
  rw [sortedFields, Json.sortMembers]
  apply List.map_insertionSort
  intro left _ right _
  rfl

variable (printable) in
theorem fields_restore (parses : ParsesBack parseVersion)
    (fields : List (String × FieldDescriptor V))
    : ∃ restored, (fields.map (fun field => (field.1, field.2.toCanonical))).mapM
          (fun member => return (member.1,
            ← FieldDescriptor.fromCanonical printable parseVersion member.2)) = .ok restored
        ∧ restored.map (fun field => (field.1, field.2.toCanonical))
          = fields.map (fun field => (field.1, field.2.toCanonical))
        ∧ restored.flatMap (fun field => field.2.references)
          = fields.flatMap (fun field => field.2.references) := by
  induction fields with
  | nil => exact ⟨[], rfl, rfl, rfl⟩
  | cons field rest ih =>
      obtain ⟨first, read, wrote, kept⟩ := field.2.restores printable parses
      obtain ⟨others, reads, writes, keeps⟩ := ih
      refine ⟨(field.1, first) :: others, ?_, ?_, ?_⟩
      · simp only [List.map_cons, List.mapM_cons, read, reads]
        rfl
      · rw [List.map_cons, List.map_cons, wrote, writes]
      · rw [List.flatMap_cons, List.flatMap_cons, kept, keeps]

variable (printable) in
theorem ModelDescriptor.restores [DecidableEq V] (parses : ParsesBack parseVersion)
    (descriptor : ModelDescriptor V)
    : ∃ restored, fromCanonical printable parseVersion descriptor.toCanonical = .ok restored
        ∧ restored.toCanonical = descriptor.toCanonical := by
  obtain ⟨fields, read, wrote, kept⟩ := fields_restore printable parses
    descriptor.sortedFields
  have sorted := List.perm_insertionSort
    (fun left right : String × FieldDescriptor V => left.1 ≤ right.1) descriptor.fields.items
  have keys : fields.map Prod.fst = descriptor.sortedFields.map Prod.fst := by
    have names := congrArg (List.map Prod.fst) wrote
    simpa only [List.map_map, Function.comp_def] using names
  have nodup : (fields.map Prod.fst).Nodup := by
    rw [keys]
    exact (sorted.map Prod.fst).nodup_iff.mpr descriptor.fields.nodup
  have items := Py.Dict.items_ofItems nodup
  have references : (ModelDescriptor.mk descriptor.ref (.ofItems fields)).references.Perm
      descriptor.references := by
    unfold ModelDescriptor.references Py.Dict.values
    rw [items, List.flatMap_map, List.flatMap_map, kept]
    exact (sorted.flatMap_right _).dedup
  refine ⟨⟨descriptor.ref, .ofItems fields⟩, ?_, ?_⟩
  · simp only [fromCanonical, toCanonical, members, getItem, getKey, Json.getMember, if_true,
      Option.elim, ModelRef.fromCanonical_toCanonical, ← sortedFields_forms, Bind.bind,
      Except.bind, itemsOf]
    exact congrArg (Except.map (fun fields => ModelDescriptor.mk descriptor.ref (.ofItems fields)))
      read
  · have members : Json.sortMembers (fields.map (fun field => (field.1, field.2.toCanonical)))
        = Json.sortMembers (descriptor.fields.items.map
            (fun field => (field.1, field.2.toCanonical))) := by
      rw [wrote, sortedFields_forms, Json.sortMembers_sortMembers]
    rw [toCanonical, toCanonical, ModelDescriptor.members, ModelDescriptor.members,
      insertionSort_references parses references, items, members]

/-- Models with one canonical form are equal. -/
theorem ModelDescriptor.eq_of_canonical [DecidableEq V] (parses : ParsesBack parseVersion)
    {left right : ModelDescriptor V}
    (same : left.toCanonical.canonical = right.toCanonical.canonical)
    : left.eq right = true := by
  have nodup : ∀ descriptor : ModelDescriptor V, (descriptor.members.map Prod.fst).Nodup := by
    intro descriptor
    have keys : ["ref", "fields", "references"].Nodup := by decide
    exact keys
  have agree := Json.getMember_canonical (nodup left) (nodup right) same
  have refs : left.ref.toCanonical.canonical = right.ref.toCanonical.canonical := by
    simpa [members, Json.getMember] using agree "ref"
  have forms : (Json.obj (Json.sortMembers (left.fields.items.map
        (fun field => (field.1, field.2.toCanonical))))).canonical
      = (Json.obj (Json.sortMembers (right.fields.items.map
        (fun field => (field.1, field.2.toCanonical))))).canonical := by
    simpa [members, Json.getMember] using agree "fields"
  have perm := sorted_forms_perm (fun field : FieldDescriptor V => field.toCanonical) forms
  have lengths : left.fields.items.length = right.fields.items.length := by
    simpa using perm.length_eq
  simp only [eq, Bool.and_eq_true, decide_eq_true_eq, List.all_eq_true, Option.any_eq_true]
  refine ⟨⟨ModelRef.eq_of_canonical refs, lengths⟩, ?_⟩
  intro field inFields
  have listed := perm.mem_iff.mp (List.mem_map.mpr ⟨field, inFields, rfl⟩)
  obtain ⟨other, inOthers, pairs⟩ := List.mem_map.mp listed
  obtain ⟨names, same⟩ := Prod.mk.inj pairs
  refine ⟨other.2, ?_, FieldDescriptor.eq_of_canonical parses same.symm⟩
  exact Py.Dict.get?_eq_some.mpr (names ▸ inOthers)

-----------------------------------------------------------------------------------------
-- Nodes
-----------------------------------------------------------------------------------------

/-- What a node is restored as: its identity, its reference with the metadata, a descriptor equal
to its own, and its canonical form.
-/
structure VersionNode.RestoredAs [DecidableEq V] (node restored : VersionNode V) : Prop where
  id : restored.id = node.id
  ref : restored.ref = node.ref
  descriptor : restored.descriptor.eq node.descriptor = true
  canonical : restored.toCanonical = node.toCanonical

variable (printable) in
theorem VersionNode.restores [DecidableEq V] (parses : ParsesBack parseVersion)
    (node : VersionNode V)
    : ∃ restored, fromCanonical printable parseVersion node.toCanonical = .ok restored
        ∧ node.RestoredAs restored := by
  obtain ⟨descriptor, read, wrote⟩ := node.descriptor.restores printable parses
  have equal := ModelDescriptor.eq_of_canonical parses (congrArg Json.canonical wrote)
  refine ⟨⟨node.id, node.ref, descriptor⟩, ?_, rfl, rfl, equal, ?_⟩
  · have id : referenceFrom printable parseVersion node.toCanonical = .ok node.id :=
      referenceFrom_referenceForm parses node.id
    have ref : getSome (V := V) node.toCanonical "ref" = .ok (some node.ref.toCanonical) :=
      getSome_eq rfl (fun null => Json.noConfusion (Option.some.inj null))
    have model : getItem (V := V) node.toCanonical "model" = .ok node.descriptor.toCanonical := rfl
    simp only [fromCanonical, model, read, ref, id, ModelRef.fromCanonical_toCanonical, Bind.bind,
      Except.bind, Pure.pure, Except.pure]
  · rw [toCanonical, toCanonical, wrote]

-----------------------------------------------------------------------------------------
-- Nodes of the catalog
-----------------------------------------------------------------------------------------

/-- A field as the catalog holds it, its type by the canonical form. -/
def FieldDescriptor.catalogued (field : FieldDescriptor V) : Pyverge.FieldDescriptor V :=
  {
    name := field.name
    typeRef := field.typeRef.toCanonical
    required := field.required
    default := field.default
    references := field.references
    annotation := field.annotation
  }

/-- A node as the catalog holds it, without metadata. -/
def VersionNode.catalogued (node : VersionNode V) : Pyverge.VersionNode V where
  id := node.id
  descriptor :=
    {
      ref := ⟨node.descriptor.ref.providerId, node.descriptor.ref.entityId⟩
      fields := node.descriptor.fields.mapValues FieldDescriptor.catalogued
    }

omit [VersionValue V] in
theorem ModelDescriptor.catalogued_references [DecidableEq V] (descriptor : ModelDescriptor V)
    (ref : Pyverge.ModelRef)
    : (Pyverge.ModelDescriptor.mk ref
        (descriptor.fields.mapValues FieldDescriptor.catalogued)).references
      = descriptor.references := by
  have values : (descriptor.fields.mapValues FieldDescriptor.catalogued).values
      = descriptor.fields.values.map FieldDescriptor.catalogued := by
    simp only [Py.Dict.values, Py.Dict.mapValues, List.map_map]
    rfl
  rw [Pyverge.ModelDescriptor.references, values, List.flatMap_map]
  rfl

/-- A restored node has the content of the node it was written from, so it has the same digest. -/
theorem VersionNode.RestoredAs.sameContent [DecidableEq V] (parses : ParsesBack parseVersion)
    {node restored : VersionNode V} (restores : node.RestoredAs restored)
    : restored.catalogued.SameContent node.catalogued := by
  have model : restored.descriptor.members = node.descriptor.members := by
    have forms := restores.canonical
    simp only [toCanonical, ModelDescriptor.toCanonical, Json.obj.injEq, List.cons.injEq,
      Prod.mk.injEq] at forms
    exact forms.2.2.2.2.1.2
  simp only [ModelDescriptor.members, List.cons.injEq, Prod.mk.injEq, Json.obj.injEq,
    Json.arr.injEq, true_and, and_true] at model
  obtain ⟨_, fields, references⟩ := model
  have equal := restores.descriptor
  simp only [ModelDescriptor.eq, ModelRef.eq, Bool.and_eq_true, decide_eq_true_eq] at equal
  refine ⟨congrArg NodeId.str restores.id, equal.1.1.2, ?_, ?_⟩
  · have forms := (List.perm_insertionSort _ _).symm.trans
      ((List.Perm.of_eq fields).trans (List.perm_insertionSort _ _))
    have keys := forms.map Prod.fst
    rw [List.map_map, List.map_map] at keys
    simp only [Pyverge.VersionNode.fields, catalogued, Py.Dict.keys_mapValues]
    exact keys
  · have listed : restored.descriptor.references.Perm node.descriptor.references := by
      have sorted := List.map_injective_iff.mpr
        (fun _ _ form => referenceForm_inj parses (congrArg Json.canonical form)) references
      exact (List.perm_insertionSort _ _).symm.trans
        ((List.Perm.of_eq sorted).trans (List.perm_insertionSort _ _))
    simp only [Pyverge.VersionNode.references, catalogued,
      ModelDescriptor.catalogued_references]
    exact listed.map NodeId.str

/-- Reading what is written of a node restores it, and no two different descriptors are written
the same, where version texts are parsed to the versions they are texts of.
-/
theorem canonical_forms_restore [DecidableEq V] (printable : Char → Bool)
    (parses : ParsesBack parseVersion)
    : (∀ node : VersionNode V, ∃ restored,
        VersionNode.fromCanonical printable parseVersion node.toCanonical = .ok restored
          ∧ node.RestoredAs restored)
      ∧ ∀ left right : ModelDescriptor V,
          left.toCanonical.canonical = right.toCanonical.canonical → left.eq right = true := by
  constructor
  · intro node
    exact node.restores printable parses
  · intro left right same
    exact ModelDescriptor.eq_of_canonical parses same

end Models

-----------------------------------------------------------------------------------------
-- Versions of both strategies
-----------------------------------------------------------------------------------------

/-- `parse_version` of the texts of semantic versions and dates; of an error its name is kept. -/
def readVersion (text : String) : Except (Error Version) Version :=
  (VersionValue.parse text).elim (.error (.raised "ValueError")) .ok

theorem parsesBack_readVersion : ParsesBack readVersion := by
  intro version
  rw [readVersion, Version.parse_str]
  rfl

/-- Witness: nodes of semantic versions and dates. -/
theorem canonical_forms_restore_versions
    : (∀ node : VersionNode Version, ∃ restored,
        VersionNode.fromCanonical (fun _ => true) readVersion node.toCanonical = .ok restored
          ∧ node.RestoredAs restored)
      ∧ ∀ left right : ModelDescriptor Version,
          left.toCanonical.canonical = right.toCanonical.canonical → left.eq right = true :=
  canonical_forms_restore (fun _ => true) parsesBack_readVersion

end Pyverge.Identity
