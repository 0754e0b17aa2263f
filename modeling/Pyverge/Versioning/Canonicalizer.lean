import Pyverge.Py.JsonText
import Pyverge.Py.Lists

/-! The default canonicalizer: what it makes of nested values, and their canonical text.
Values are those that JSON shows, with tuples, sets and mappings by any keys.
-/

namespace Pyverge

open Py (Json)

-----------------------------------------------------------------------------------------
-- Values
-----------------------------------------------------------------------------------------

/-- A Python value. A mapping lists its items in insertion order and a set its items in the order
it yields them; a finite float is kept as the text of its literal.
-/
inductive Value where
  | none
  | bool (value : Bool)
  | int (value : Int)
  | float (literal : String)
  | str (value : String)
  | list (items : List Value)
  | tuple (items : List Value)
  | dict (items : List (Value × Value))
  | set (items : List Value)

namespace Value

/-- `type(value).__name__`, where a set is a frozen one, as keys are. -/
def typeName : Value → String
  | .none => "NoneType"
  | .bool _ => "bool"
  | .int _ => "int"
  | .float _ => "float"
  | .str _ => "str"
  | .list _ => "list"
  | .tuple _ => "tuple"
  | .dict _ => "dict"
  | .set _ => "frozenset"

end Value

-----------------------------------------------------------------------------------------
-- Encoding
-----------------------------------------------------------------------------------------

/-- `json.dumps` with sorted keys and compact separators -/
def jsonDumps (value : Json) : String := String.ofList value.canonical.text

/-- `sorted(items, key=canonicalizer.dumps)`, for items that are encoded already. -/
def sortByText (items : List Json) : List Json :=
  items.insertionSort (fun left right => jsonDumps left ≤ jsonDumps right)

mutual
/-- `Canonicalizer.encode` by the default encoders; an error is the message of the `TypeError`. -/
def encode : Value → Except String Json
  | .none => .ok .null
  | .bool value => .ok (.bool value)
  | .int value => .ok (.int value)
  | .float literal => .ok (.float literal)
  | .str value => .ok (.str value)
  | .list items => (encodeItems items).map .arr
  | .tuple items => (encodeItems items).map .arr
  | .dict items => (encodeMembers items).map (fun members => .obj (Json.sortMembers members))
  | .set items => (encodeItems items).map (fun items => .arr (sortByText items))

def encodeItems : List Value → Except String (List Json)
  | [] => .ok []
  | item :: rest => return (← encode item) :: (← encodeItems rest)

def encodeMembers : List (Value × Value) → Except String (List (String × Json))
  | [] => .ok []
  | (.str key, value) :: rest => return (key, ← encode value) :: (← encodeMembers rest)
  | (key, _) :: _ => .error ("Canonical mappings require string keys; got " ++ key.typeName)
end

/-- `Canonicalizer.dumps` -/
def dumps (value : Value) : Except String String := (encode value).map jsonDumps

mutual
/-- A canonical value as an input of the canonicalizer again -/
def Value.ofJson : Json → Value
  | .null => .none
  | .bool value => .bool value
  | .int value => .int value
  | .float literal => .float literal
  | .str value => .str value
  | .arr items => .list (ofJsonItems items)
  | .obj members => .dict (ofJsonMembers members)

def Value.ofJsonItems : List Json → List Value
  | [] => []
  | item :: rest => ofJson item :: ofJsonItems rest

def Value.ofJsonMembers : List (String × Json) → List (Value × Value)
  | [] => []
  | (key, value) :: rest => (.str key, ofJson value) :: ofJsonMembers rest
end

example : dumps (.dict [(.str "b", .int 2), (.str "a", .list [.int 1, .int 3])])
    = .ok "\x7b\"a\":[1,3],\"b\":2\x7d" := by
  decide +kernel

-----------------------------------------------------------------------------------------
-- Parts of values
-----------------------------------------------------------------------------------------

namespace Value

/-- The values directly inside a value, keys apart. -/
def parts : Value → List Value
  | .list items => items
  | .tuple items => items
  | .dict items => items.map Prod.snd
  | .set items => items
  | .none | .bool _ | .int _ | .float _ | .str _ => []

/-- A property that a value has if its parts have it. -/
def FromParts (motive : Value → Prop) : Prop :=
  ∀ value : Value, (∀ part ∈ value.parts, motive part) → motive value

variable {motive : Value → Prop}

mutual
/-- What holds of a value if it holds of its parts holds of every value. -/
theorem FromParts.all (step : FromParts motive) : ∀ value : Value, motive value
  | .none => step _ (fun _ member => (List.not_mem_nil member).elim)
  | .bool _ => step _ (fun _ member => (List.not_mem_nil member).elim)
  | .int _ => step _ (fun _ member => (List.not_mem_nil member).elim)
  | .float _ => step _ (fun _ member => (List.not_mem_nil member).elim)
  | .str _ => step _ (fun _ member => (List.not_mem_nil member).elim)
  | .list items => step _ (step.items items)
  | .tuple items => step _ (step.items items)
  | .dict items => step _ (step.values items)
  | .set items => step _ (step.items items)

theorem FromParts.items (step : FromParts motive)
    : ∀ (items : List Value), ∀ part ∈ items, motive part
  | [], _, member => (List.not_mem_nil member).elim
  | item :: rest, part, member => by
      rcases List.mem_cons.mp member with same | later
      · exact same ▸ step.all item
      · exact step.items rest part later

theorem FromParts.values (step : FromParts motive)
    : ∀ (items : List (Value × Value)), ∀ part ∈ items.map Prod.snd, motive part
  | [], _, member => (List.not_mem_nil member).elim
  | (key, value) :: rest, part, member => by
      rcases List.mem_cons.mp member with same | later
      · exact same ▸ step.all value
      · exact step.values rest part later
end

/-- A value occurs in another, at any depth. -/
inductive Inside (part : Value) : Value → Prop
  | here : Inside part part
  | deeper {inner outer : Value} (member : inner ∈ outer.parts) (inside : Inside part inner)
    : Inside part outer

/-- A property of a value and of all that occurs in it. -/
def Everywhere (property : Value → Prop) (value : Value) : Prop :=
  ∀ part, Inside part value → property part

theorem everywhere_iff {property : Value → Prop} {value : Value}
    : value.Everywhere property
      ↔ property value ∧ ∀ part ∈ value.parts, part.Everywhere property := by
  constructor
  · intro holds
    exact ⟨holds value .here,
      fun part member inner inside => holds inner (.deeper member inside)⟩
  · intro holds part inside
    cases inside with
    | here => exact holds.1
    | deeper member inside => exact holds.2 _ member part inside

/-- The keys of a mapping are strings. -/
def StringKeys : Value → Prop
  | .dict items => ∀ item ∈ items, ∃ name, item.1 = .str name
  | .none | .bool _ | .int _ | .float _ | .str _ | .list _ | .tuple _ | .set _ => True

/-- No float, and a mapping has distinct strings as keys. -/
def Admissible : Value → Prop
  | .float _ => False
  | .dict items => (∀ item ∈ items, ∃ name, item.1 = .str name) ∧ (items.map Prod.fst).Nodup
  | .none | .bool _ | .int _ | .str _ | .list _ | .tuple _ | .set _ => True

/-- What JSON has: admissible values that are neither sets nor tuples. -/
def Plain : Value → Prop
  | .tuple _ | .set _ => False
  | value => value.Admissible

/-- Values that differ in the order of mappings and sets only, at any depth. -/
inductive Reordered : Value → Value → Prop
  | refl (value : Value) : Reordered value value
  | trans {left middle right : Value} (first : Reordered left middle)
    (second : Reordered middle right) : Reordered left right
  | mapping {left right : List (Value × Value)} (perm : left.Perm right)
    : Reordered (.dict left) (.dict right)
  | set {left right : List Value} (perm : left.Perm right) : Reordered (.set left) (.set right)
  | inList (before after : List Value) {left right : Value} (inner : Reordered left right)
    : Reordered (.list (before ++ left :: after)) (.list (before ++ right :: after))
  | inTuple (before after : List Value) {left right : Value} (inner : Reordered left right)
    : Reordered (.tuple (before ++ left :: after)) (.tuple (before ++ right :: after))
  | inSet (before after : List Value) {left right : Value} (inner : Reordered left right)
    : Reordered (.set (before ++ left :: after)) (.set (before ++ right :: after))
  | inMapping (before after : List (Value × Value)) (key : Value) {left right : Value}
    (inner : Reordered left right)
    : Reordered (.dict (before ++ (key, left) :: after)) (.dict (before ++ (key, right) :: after))

theorem Reordered.symm {left right : Value} (reordered : Reordered left right)
    : Reordered right left := by
  induction reordered with
  | refl value => exact .refl value
  | trans _ _ first second => exact .trans second first
  | mapping perm => exact .mapping perm.symm
  | set perm => exact .set perm.symm
  | inList before after _ ih => exact .inList before after ih
  | inTuple before after _ ih => exact .inTuple before after ih
  | inSet before after _ ih => exact .inSet before after ih
  | inMapping before after key _ ih => exact .inMapping before after key ih

theorem everywhere_replaced {property : Value → Prop} {before after : List Value}
    {left right : Value} (inner : left.Everywhere property → right.Everywhere property)
    (each : ∀ part ∈ before ++ left :: after, part.Everywhere property)
    : ∀ part ∈ before ++ right :: after, part.Everywhere property := by
  intro part member
  rcases List.mem_append.mp member with first | rest
  · exact each part (List.mem_append_left _ first)
  · rcases List.mem_cons.mp rest with same | later
    · exact same ▸ inner (each left (by simp))
    · exact each part (by simp [later])

/-- Reordering keeps a value admissible. -/
theorem Reordered.admissible {left right : Value} (reordered : Reordered left right)
    : left.Everywhere Admissible → right.Everywhere Admissible := by
  induction reordered with
  | refl value => exact id
  | trans _ _ first second => exact second ∘ first
  | mapping perm =>
      intro holds
      obtain ⟨⟨names, nodup⟩, each⟩ := everywhere_iff.mp holds
      refine everywhere_iff.mpr ⟨⟨?_, (perm.map Prod.fst).nodup_iff.mp nodup⟩, ?_⟩
      · intro item member
        exact names item (perm.mem_iff.mpr member)
      · intro part member
        exact each part ((perm.map Prod.snd).mem_iff.mpr member)
  | set perm =>
      intro holds
      obtain ⟨_, each⟩ := everywhere_iff.mp holds
      exact everywhere_iff.mpr ⟨trivial, fun part member => each part (perm.mem_iff.mpr member)⟩
  | inList before after _ ih =>
      intro holds
      obtain ⟨_, each⟩ := everywhere_iff.mp holds
      exact everywhere_iff.mpr ⟨trivial, everywhere_replaced ih each⟩
  | inTuple before after _ ih =>
      intro holds
      obtain ⟨_, each⟩ := everywhere_iff.mp holds
      exact everywhere_iff.mpr ⟨trivial, everywhere_replaced ih each⟩
  | inSet before after _ ih =>
      intro holds
      obtain ⟨_, each⟩ := everywhere_iff.mp holds
      exact everywhere_iff.mpr ⟨trivial, everywhere_replaced ih each⟩
  | @inMapping before after key left right _ ih =>
      intro holds
      obtain ⟨⟨names, nodup⟩, each⟩ := everywhere_iff.mp holds
      refine everywhere_iff.mpr ⟨⟨?_, ?_⟩, ?_⟩
      · intro item member
        rcases List.mem_append.mp member with first | rest
        · exact names item (List.mem_append_left _ first)
        · rcases List.mem_cons.mp rest with same | later
          · subst same
            exact names (key, left) (by simp)
          · exact names item (by simp [later])
      · simpa using nodup
      · have replaced := @everywhere_replaced Admissible (before.map Prod.snd)
          (after.map Prod.snd) _ _ ih
        simp only [parts, List.map_append, List.map_cons] at each ⊢
        exact replaced each

end Value

-----------------------------------------------------------------------------------------
-- Encoding part by part
-----------------------------------------------------------------------------------------

/-- A member is the encoded form of an item: its key is a string, its value is encoded. -/
def EncodedAs (item : Value × Value) (member : String × Json) : Prop :=
  item.1 = .str member.1 ∧ encode item.2 = .ok member.2

theorem encodeItems_eq_ok {items : List Value} {forms : List Json}
    : encodeItems items = .ok forms
      ↔ List.Forall₂ (fun item form => encode item = .ok form) items forms := by
  induction items generalizing forms with
  | nil =>
      rw [encodeItems, List.forall₂_nil_left_iff, Except.ok.injEq, eq_comm]
  | cons item rest ih =>
      rw [encodeItems, List.forall₂_cons_left_iff]
      constructor
      · intro encoded
        cases first : encode item with
        | error message => simp [first, bind, Except.bind] at encoded
        | ok form =>
            cases later : encodeItems rest with
            | error message => simp [first, later, bind, Except.bind] at encoded
            | ok others =>
                simp only [first, later, bind, Except.bind, pure, Except.pure, Except.ok.injEq]
                  at encoded
                exact ⟨form, others, rfl, ih.mp later, encoded.symm⟩
      · intro given
        obtain ⟨form, others, first, later, rfl⟩ := given
        simp only [first, ih.mpr later, bind, Except.bind, pure, Except.pure]

theorem encodeMembers_eq_ok {items : List (Value × Value)} {members : List (String × Json)}
    : encodeMembers items = .ok members ↔ List.Forall₂ EncodedAs items members := by
  induction items generalizing members with
  | nil =>
      rw [encodeMembers, List.forall₂_nil_left_iff, Except.ok.injEq, eq_comm]
  | cons item rest ih =>
      rw [List.forall₂_cons_left_iff]
      obtain ⟨key, value⟩ := item
      constructor
      · intro encoded
        cases key
        case str name =>
          rw [encodeMembers] at encoded
          cases first : encode value with
          | error message => simp [first, bind, Except.bind] at encoded
          | ok form =>
              cases later : encodeMembers rest with
              | error message => simp [first, later, bind, Except.bind] at encoded
              | ok others =>
                  simp only [first, later, bind, Except.bind, pure, Except.pure, Except.ok.injEq]
                    at encoded
                  exact ⟨(name, form), others, ⟨rfl, first⟩, ih.mp later, encoded.symm⟩
        all_goals cases encoded
      · intro given
        obtain ⟨⟨name, form⟩, others, ⟨named, first⟩, later, rfl⟩ := given
        obtain rfl : key = .str name := named
        have value : encode value = .ok form := first
        rw [encodeMembers]
        simp only [value, ih.mpr later, bind, Except.bind, pure, Except.pure]

theorem map_eq_ok {α β : Type} {result : Except String α} {change : α → β} {value : β}
    : result.map change = .ok value ↔ ∃ given, result = .ok given ∧ change given = value := by
  cases result <;> simp [Except.map]

/-- Each form in a list of forms is that of an item. -/
theorem forms_of {items : List Value} {forms : List Json} {holds : Json → Prop}
    (parts : ∀ part ∈ items, ∀ form, encode part = .ok form → holds form)
    (encoded : List.Forall₂ (fun item form => encode item = .ok form) items forms)
    : ∀ form ∈ forms, holds form := by
  intro form member
  obtain ⟨item, inItems, same⟩ := Py.exists_of_forall₂_right encoded member
  exact parts item inItems form same

theorem forms_of_members {items : List (Value × Value)} {members : List (String × Json)}
    {holds : Json → Prop}
    (parts : ∀ part ∈ items.map Prod.snd, ∀ form, encode part = .ok form → holds form)
    (encoded : List.Forall₂ EncodedAs items members)
    : ∀ member ∈ members, holds member.2 := by
  intro member listed
  obtain ⟨item, inItems, same⟩ := Py.exists_of_forall₂_right encoded listed
  exact parts item.2 (List.mem_map.mpr ⟨item, inItems, rfl⟩) member.2 same.2

/-- What holds of canonical forms by their parts holds of everything encoded. -/
theorem encode_induction {holds : Json → Prop}
    (scalar : ∀ form, (∀ items, form ≠ .arr items) → (∀ members, form ≠ .obj members) → holds form)
    (array : ∀ items : List Json, (∀ item ∈ items, holds item) → holds (.arr items))
    (object : ∀ members : List (String × Json), (∀ member ∈ members, holds member.2) →
      holds (.obj (Json.sortMembers members)))
    (value : Value)
    : ∀ form, encode value = .ok form → holds form := by
  have step : Value.FromParts (fun value => ∀ form, encode value = .ok form → holds form) := by
    intro value parts form encoded
    cases value with
    | none | bool | int | float | str =>
        obtain rfl := Except.ok.inj encoded
        exact scalar _ (fun _ => Json.noConfusion) (fun _ => Json.noConfusion)
    | list items | tuple items =>
        obtain ⟨forms, read, rfl⟩ := map_eq_ok.mp encoded
        exact array forms (forms_of parts (encodeItems_eq_ok.mp read))
    | dict items =>
        obtain ⟨members, read, rfl⟩ := map_eq_ok.mp encoded
        exact object members (forms_of_members parts (encodeMembers_eq_ok.mp read))
    | set items =>
        obtain ⟨forms, read, rfl⟩ := map_eq_ok.mp encoded
        apply array
        intro form member
        exact forms_of parts (encodeItems_eq_ok.mp read) form ((List.mem_insertionSort _).mp member)
  exact step.all value

/-- What is encoded is sorted already, at any depth. -/
theorem encode_canonical {value : Value} {form : Json} (encoded : encode value = .ok form)
    : form.canonical = form := by
  refine @encode_induction (fun form => form.canonical = form) ?_ ?_ ?_ value form encoded
  · intro form noArray noObject
    cases form with
    | arr items => exact (noArray items rfl).elim
    | obj members => exact (noObject members rfl).elim
    | _ => rfl
  · intro items each
    rw [Json.canonical, Json.canonicalItems_eq_map, List.map_congr_left each, List.map_id']
  · intro members each
    have sorted : ∀ member ∈ Json.sortMembers members,
        (member.1, member.2.canonical) = id member := by
      intro member listed
      have known := each member ((List.mem_insertionSort _).mp listed)
      rw [known]
      rfl
    rw [Json.canonical, Json.canonicalMembers_eq_map, List.map_congr_left sorted, List.map_id,
      Json.sortMembers_sortMembers]

/-- What is encoded of admissible values has no floats. -/
theorem encode_floatFree {value : Value} {form : Json}
    (admissible : value.Everywhere Value.Admissible) (encoded : encode value = .ok form)
    : form.FloatFree := by
  have step : Value.FromParts (fun value => value.Everywhere Value.Admissible →
      ∀ form, encode value = .ok form → form.FloatFree) := by
    intro value parts admissible form encoded
    obtain ⟨own, each⟩ := Value.everywhere_iff.mp admissible
    have known := fun part member => parts part member (each part member)
    cases value with
    | none | bool | int | str =>
        obtain rfl := Except.ok.inj encoded
        trivial
    | float => exact own.elim
    | list items | tuple items =>
        obtain ⟨forms, read, rfl⟩ := map_eq_ok.mp encoded
        exact Json.itemsFloatFree_iff.mpr (forms_of known (encodeItems_eq_ok.mp read))
    | dict items =>
        obtain ⟨members, read, rfl⟩ := map_eq_ok.mp encoded
        apply Json.membersFloatFree_iff.mpr
        intro member listed
        exact forms_of_members known (encodeMembers_eq_ok.mp read) member
          ((List.mem_insertionSort _).mp listed)
    | set items =>
        obtain ⟨forms, read, rfl⟩ := map_eq_ok.mp encoded
        apply Json.itemsFloatFree_iff.mpr
        intro form member
        exact forms_of known (encodeItems_eq_ok.mp read) form ((List.mem_insertionSort _).mp member)
  exact step.all value admissible form encoded

-----------------------------------------------------------------------------------------
-- What is encoded at all
-----------------------------------------------------------------------------------------

/-- The message about a key that is no string. -/
def KeyMessage (message : String) : Prop :=
  ∃ key : Value, (∀ name, key ≠ .str name)
    ∧ message = "Canonical mappings require string keys; got " ++ key.typeName

theorem encodeItems_exists {items : List Value}
    (each : ∀ item ∈ items, ∃ form, encode item = .ok form)
    : ∃ forms, encodeItems items = .ok forms := by
  induction items with
  | nil => exact ⟨[], rfl⟩
  | cons item rest ih =>
      obtain ⟨form, first⟩ := each item (List.mem_cons_self ..)
      obtain ⟨forms, later⟩ := ih (fun item inRest => each item (List.mem_cons_of_mem _ inRest))
      refine ⟨form :: forms, ?_⟩
      rw [encodeItems, first, later]
      rfl

theorem encodeMembers_exists {items : List (Value × Value)}
    (names : ∀ item ∈ items, ∃ name, item.1 = .str name)
    (each : ∀ part ∈ items.map Prod.snd, ∃ form, encode part = .ok form)
    : ∃ members, encodeMembers items = .ok members := by
  induction items with
  | nil => exact ⟨[], rfl⟩
  | cons item rest ih =>
      obtain ⟨key, value⟩ := item
      obtain ⟨name, rfl⟩ : ∃ name, key = .str name := names _ (List.mem_cons_self ..)
      obtain ⟨form, first⟩ := each value (List.mem_cons_self ..)
      obtain ⟨members, later⟩ := ih (fun item inRest => names item (List.mem_cons_of_mem _ inRest))
        (fun part inRest => each part (List.mem_cons_of_mem _ inRest))
      refine ⟨(name, form) :: members, ?_⟩
      rw [encodeMembers, first, later]
      rfl

/-- A value with strings as keys everywhere is encoded, by induction on its parts. -/
theorem encode_exists {value : Value} (keyed : value.Everywhere Value.StringKeys)
    : ∃ form, encode value = .ok form := by
  have step : Value.FromParts (fun value => value.Everywhere Value.StringKeys →
      ∃ form, encode value = .ok form) := by
    intro value parts keyed
    obtain ⟨own, each⟩ := Value.everywhere_iff.mp keyed
    have known := fun part member => parts part member (each part member)
    cases value with
    | none | bool | int | float | str => exact ⟨_, rfl⟩
    | list items | tuple items | set items =>
        obtain ⟨forms, read⟩ := encodeItems_exists known
        exact ⟨_, map_eq_ok.mpr ⟨forms, read, rfl⟩⟩
    | dict items =>
        obtain ⟨members, read⟩ := encodeMembers_exists own known
        exact ⟨_, map_eq_ok.mpr ⟨members, read, rfl⟩⟩
  exact step.all value keyed

/-- A value that is encoded has strings as keys everywhere. -/
theorem stringKeys_of_encode {value : Value} {form : Json} (encoded : encode value = .ok form)
    : value.Everywhere Value.StringKeys := by
  have step : Value.FromParts (fun value => ∀ form, encode value = .ok form →
      value.Everywhere Value.StringKeys) := by
    intro value parts form encoded
    apply (@Value.everywhere_iff Value.StringKeys value).mpr
    cases value with
    | none | bool | int | float | str =>
        exact ⟨trivial, fun _ member => (List.not_mem_nil member).elim⟩
    | list items | tuple items | set items =>
        obtain ⟨forms, read, _⟩ := map_eq_ok.mp encoded
        refine ⟨trivial, fun part member => ?_⟩
        obtain ⟨inner, _, own⟩ := Py.exists_of_forall₂_left (encodeItems_eq_ok.mp read) member
        exact parts part member inner own
    | dict items =>
        obtain ⟨members, read, _⟩ := map_eq_ok.mp encoded
        have related := encodeMembers_eq_ok.mp read
        constructor
        · intro item member
          obtain ⟨named, _, own⟩ := Py.exists_of_forall₂_left related member
          exact ⟨named.1, own.1⟩
        · intro part member
          obtain ⟨item, inItems, rfl⟩ := List.mem_map.mp member
          obtain ⟨inner, _, own⟩ := Py.exists_of_forall₂_left related inItems
          exact parts item.2 member inner.2 own.2
  exact step.all value form encoded

theorem encodeItems_error {items : List Value} {message : String}
    (parts : ∀ part ∈ items, ∀ message, encode part = .error message → KeyMessage message)
    (failed : encodeItems items = .error message)
    : KeyMessage message := by
  induction items with
  | nil => cases failed
  | cons item rest ih =>
      rw [encodeItems] at failed
      cases first : encode item with
      | error other =>
          simp only [first, bind, Except.bind, Except.error.injEq] at failed
          exact failed ▸ parts item (List.mem_cons_self ..) other first
      | ok form =>
          cases later : encodeItems rest with
          | error other =>
              simp only [first, later, bind, Except.bind, Except.error.injEq] at failed
              subst failed
              exact ih (fun part inRest => parts part (List.mem_cons_of_mem _ inRest)) later
          | ok forms => simp [first, later, bind, Except.bind, pure, Except.pure] at failed

theorem encodeMembers_error {items : List (Value × Value)} {message : String}
    (parts : ∀ part ∈ items.map Prod.snd, ∀ message,
      encode part = .error message → KeyMessage message)
    (failed : encodeMembers items = .error message)
    : KeyMessage message := by
  induction items with
  | nil => cases failed
  | cons item rest ih =>
      obtain ⟨key, value⟩ := item
      by_cases named : ∃ name, key = .str name
      · obtain ⟨name, rfl⟩ := named
        rw [encodeMembers] at failed
        cases first : encode value with
        | error other =>
            simp only [first, bind, Except.bind, Except.error.injEq] at failed
            exact failed ▸ parts value (List.mem_cons_self ..) other first
        | ok form =>
            cases later : encodeMembers rest with
            | error other =>
                simp only [first, later, bind, Except.bind, Except.error.injEq] at failed
                subst failed
                exact ih (fun part inRest => parts part (List.mem_cons_of_mem _ inRest)) later
            | ok forms => simp [first, later, bind, Except.bind, pure, Except.pure] at failed
      · have unnamed := not_exists.mp named
        rw [encodeMembers] at failed
        · exact ⟨key, unnamed, (Except.error.inj failed).symm⟩
        · exact unnamed

/-- Encoding fails for nothing but a key. -/
theorem encode_error {value : Value} {message : String} (failed : encode value = .error message)
    : KeyMessage message := by
  have mapped : ∀ {α β : Type} {result : Except String α} {change : α → β} {message : String},
      result.map change = .error message → result = .error message := by
    intro α β result change message failed
    cases result with
    | error other =>
        cases failed
        rfl
    | ok given => cases failed
  have step : Value.FromParts (fun value => ∀ message, encode value = .error message →
      KeyMessage message) := by
    intro value parts message failed
    cases value with
    | none | bool | int | float | str => cases failed
    | list items | tuple items | set items => exact encodeItems_error parts (mapped failed)
    | dict items => exact encodeMembers_error parts (mapped failed)
  exact step.all value message failed

-----------------------------------------------------------------------------------------
-- Reordered values
-----------------------------------------------------------------------------------------

theorem Value.Everywhere.imp {property other : Value → Prop} {value : Value}
    (holds : value.Everywhere property) (weaker : ∀ value, property value → other value)
    : value.Everywhere other :=
  fun part inside => weaker part (holds part inside)

theorem Value.Admissible.stringKeys : ∀ value : Value, value.Admissible → value.StringKeys
  | .dict _, admissible => admissible.1
  | .none, _ | .bool _, _ | .int _, _ | .str _, _ | .list _, _ | .tuple _, _ | .set _, _ => trivial

/-- The names of encoded members are as distinct as the keys. -/
theorem nodup_names {items : List (Value × Value)} {members : List (String × Json)}
    (related : List.Forall₂ EncodedAs items members) (nodup : (items.map Prod.fst).Nodup)
    : (members.map Prod.fst).Nodup := by
  have keys : items.map Prod.fst = (members.map Prod.fst).map Value.str := by
    rw [List.map_map]
    exact Py.map_eq_map_iff.mpr (related.imp (fun item member own => own.1))
  rw [keys] at nodup
  exact nodup.of_map _

/-- One text for one canonical form. -/
theorem jsonDumps_inj {left right : Json} (leftFree : left.FloatFree) (rightFree : right.FloatFree)
    (leftSorted : left.canonical = left) (rightSorted : right.canonical = right)
    (same : jsonDumps left = jsonDumps right)
    : left = right := by
  have texts := String.ofList_inj.mp same
  rw [leftSorted, rightSorted] at texts
  exact Json.text_inj leftFree rightFree texts

theorem sortByText_eq {left right : List Json} (free : ∀ item ∈ left, item.FloatFree)
    (sorted : ∀ item ∈ left, item.canonical = item) (perm : left.Perm right)
    : sortByText left = sortByText right := by
  have total : Std.Total (fun l r : Json => jsonDumps l ≤ jsonDumps r) := ⟨fun _ _ => le_total _ _⟩
  have trans : IsTrans Json (fun l r => jsonDumps l ≤ jsonDumps r) := ⟨fun _ _ _ => le_trans⟩
  have first := List.perm_insertionSort (fun l r : Json => jsonDumps l ≤ jsonDumps r) left
  have second := List.perm_insertionSort (fun l r : Json => jsonDumps l ≤ jsonDumps r) right
  refine List.Perm.eq_of_pairwise (fun one other inLeft inRight below above => ?_)
    (List.pairwise_insertionSort _ _) (List.pairwise_insertionSort _ _)
    (first.trans (perm.trans second.symm))
  have oneIn := first.mem_iff.mp inLeft
  have otherIn := perm.mem_iff.mpr (second.mem_iff.mp inRight)
  exact jsonDumps_inj (free one oneIn) (free other otherIn) (sorted one oneIn)
    (sorted other otherIn) (le_antisymm below above)

theorem encodeItems_replaced {before after : List Value} {left right : Value}
    (same : encode left = encode right)
    : encodeItems (before ++ left :: after) = encodeItems (before ++ right :: after) := by
  induction before with
  | nil => rw [List.nil_append, List.nil_append, encodeItems, encodeItems, same]
  | cons item rest ih => rw [List.cons_append, List.cons_append, encodeItems, encodeItems, ih]

theorem encodeMembers_replaced {before after : List (Value × Value)} {key left right : Value}
    (same : encode left = encode right)
    : encodeMembers (before ++ (key, left) :: after)
      = encodeMembers (before ++ (key, right) :: after) := by
  induction before with
  | nil =>
      rw [List.nil_append, List.nil_append]
      cases key <;> simp only [encodeMembers, same]
  | cons item rest ih =>
      obtain ⟨key, value⟩ := item
      rw [List.cons_append, List.cons_append]
      cases key <;> simp only [encodeMembers, ih]

/-- Admissible values that are reordered are encoded the same, by induction on the reordering. -/
theorem encode_reordered {left right : Value} (reordered : left.Reordered right)
    : left.Everywhere Value.Admissible → encode left = encode right := by
  induction reordered with
  | refl value => exact fun _ => rfl
  | trans first _ firstSame secondSame =>
      intro admissible
      exact (firstSame admissible).trans (secondSame (first.admissible admissible))
  | @mapping left right perm =>
      intro admissible
      obtain ⟨form, encoded⟩ := encode_exists (admissible.imp Value.Admissible.stringKeys)
      obtain ⟨members, read, _⟩ := map_eq_ok.mp encoded
      have related := encodeMembers_eq_ok.mp read
      obtain ⟨others, relatedToo, permToo⟩ := List.perm_comp_forall₂ perm.symm related
      have readToo := encodeMembers_eq_ok.mpr relatedToo
      have nodup := nodup_names related (Value.everywhere_iff.mp admissible).1.2
      rw [encode, encode, read, readToo]
      exact congrArg (fun members => Except.ok (Json.obj members))
        ((Json.sortMembers_eq_iff nodup).mpr permToo.symm)
  | @set left right perm =>
      intro admissible
      obtain ⟨form, encoded⟩ := encode_exists (admissible.imp Value.Admissible.stringKeys)
      obtain ⟨forms, read, _⟩ := map_eq_ok.mp encoded
      have related := encodeItems_eq_ok.mp read
      obtain ⟨others, relatedToo, permToo⟩ := List.perm_comp_forall₂ perm.symm related
      have readToo := encodeItems_eq_ok.mpr relatedToo
      have each := (Value.everywhere_iff.mp admissible).2
      have free := forms_of (fun part member _ => encode_floatFree (each part member)) related
      have sorted := forms_of (fun part _ _ => encode_canonical) related
      rw [encode, encode, read, readToo]
      exact congrArg (fun forms => Except.ok (Json.arr forms))
        (sortByText_eq free sorted permToo.symm)
  | @inList before after left right _ ih =>
      intro admissible
      have inner := (Value.everywhere_iff.mp admissible).2 left (by simp [Value.parts])
      rw [encode, encode, encodeItems_replaced (ih inner)]
  | @inTuple before after left right _ ih =>
      intro admissible
      have inner := (Value.everywhere_iff.mp admissible).2 left (by simp [Value.parts])
      rw [encode, encode, encodeItems_replaced (ih inner)]
  | @inSet before after left right _ ih =>
      intro admissible
      have inner := (Value.everywhere_iff.mp admissible).2 left (by simp [Value.parts])
      rw [encode, encode, encodeItems_replaced (ih inner)]
  | @inMapping before after key left right _ ih =>
      intro admissible
      have inner := (Value.everywhere_iff.mp admissible).2 left (by simp [Value.parts])
      rw [encode, encode, encodeMembers_replaced (ih inner)]

-----------------------------------------------------------------------------------------
-- Encoding again
-----------------------------------------------------------------------------------------

mutual
/-- A value that JSON shows is encoded as its canonical form. -/
theorem encode_ofJson : ∀ value : Json, encode (.ofJson value) = .ok value.canonical
  | .null | .bool _ | .int _ | .float _ | .str _ => rfl
  | .arr items => by
      rw [Value.ofJson, encode, encodeItems_ofJson items]
      rfl
  | .obj members => by
      rw [Value.ofJson, encode, encodeMembers_ofJson members]
      rfl

theorem encodeItems_ofJson
    : ∀ items : List Json, encodeItems (Value.ofJsonItems items) = .ok (Json.canonicalItems items)
  | [] => rfl
  | item :: rest => by
      rw [Value.ofJsonItems, encodeItems, encode_ofJson item, encodeItems_ofJson rest]
      rfl

theorem encodeMembers_ofJson : ∀ members : List (String × Json),
    encodeMembers (Value.ofJsonMembers members) = .ok (Json.canonicalMembers members)
  | [] => rfl
  | (name, value) :: rest => by
      rw [Value.ofJsonMembers, encodeMembers, encode_ofJson value, encodeMembers_ofJson rest]
      rfl
end

/-- What is encoded is encoded as itself. -/
theorem encode_encode {value : Value} {form : Json} (encoded : encode value = .ok form)
    : encode (.ofJson form) = .ok form := by
  rw [encode_ofJson, encode_canonical encoded]

mutual
theorem canonical_floatFree : ∀ {value : Json}, value.FloatFree → value.canonical.FloatFree
  | .null, _ | .bool _, _ | .int _, _ | .str _, _ => trivial
  | .float _, free => free.elim
  | .arr items, free => canonicalItems_floatFree free
  | .obj members, free => by
      have values := Json.membersFloatFree_iff.mp (canonicalMembers_floatFree free)
      apply Json.membersFloatFree_iff.mpr
      intro member listed
      exact values member ((List.mem_insertionSort _).mp listed)

theorem canonicalItems_floatFree : ∀ {items : List Json}, Json.ItemsFloatFree items →
    Json.ItemsFloatFree (Json.canonicalItems items)
  | [], _ => trivial
  | _ :: _, free => ⟨canonical_floatFree free.1, canonicalItems_floatFree free.2⟩

theorem canonicalMembers_floatFree : ∀ {members : List (String × Json)},
    Json.MembersFloatFree members → Json.MembersFloatFree (Json.canonicalMembers members)
  | [], _ => trivial
  | (_, _) :: _, free => ⟨canonical_floatFree free.1, canonicalMembers_floatFree free.2⟩
end

-----------------------------------------------------------------------------------------
-- Plain values and their canonical forms
-----------------------------------------------------------------------------------------

namespace Value

theorem Plain.admissible : ∀ value : Value, value.Plain → value.Admissible
  | .none, plain | .bool _, plain | .int _, plain | .float _, plain | .str _, plain
  | .list _, plain | .dict _, plain => plain

theorem ofJsonItems_eq (forms : List Json) : ofJsonItems forms = forms.map ofJson := by
  induction forms with
  | nil => rfl
  | cons form rest ih => rw [ofJsonItems, ih, List.map_cons]

theorem ofJsonMembers_eq (members : List (String × Json))
    : ofJsonMembers members = members.map (fun member => (.str member.1, ofJson member.2)) := by
  induction members with
  | nil => rfl
  | cons member rest ih => rw [ofJsonMembers, ih, List.map_cons]

/-- Lists of values that are reordered one by one. -/
theorem Reordered.list {left right : List Value} (related : List.Forall₂ Reordered left right)
    (before : List Value)
    : Reordered (.list (before ++ left)) (.list (before ++ right)) := by
  induction related generalizing before with
  | nil => exact .refl _
  | @cons first second left right own _ ih =>
      have later := ih (before ++ [second])
      rw [List.append_assoc, List.append_assoc] at later
      exact (Reordered.inList before left own).trans later

theorem Reordered.dict {left right : List (Value × Value)}
    (related : List.Forall₂ (fun item other => item.1 = other.1 ∧ Reordered item.2 other.2)
      left right) (before : List (Value × Value))
    : Reordered (.dict (before ++ left)) (.dict (before ++ right)) := by
  induction related generalizing before with
  | nil => exact .refl _
  | @cons first second left right own _ ih =>
      obtain ⟨key, value⟩ := first
      obtain ⟨other, changed⟩ := second
      obtain rfl : key = other := own.1
      have later := ih (before ++ [(key, changed)])
      rw [List.append_assoc, List.append_assoc] at later
      exact (Reordered.inMapping before left key own.2).trans later

/-- A plain value is its canonical form up to the order of mappings, by induction on its parts. -/
theorem reordered_ofJson {value : Value} {form : Json} (plain : value.Everywhere Plain)
    (encoded : encode value = .ok form)
    : Reordered value (.ofJson form) := by
  have step : FromParts (fun value => value.Everywhere Plain →
      ∀ form, encode value = .ok form → Reordered value (.ofJson form)) := by
    intro value parts plain form encoded
    obtain ⟨own, each⟩ := everywhere_iff.mp plain
    cases value with
    | none | bool | int | str =>
        obtain rfl := Except.ok.inj encoded
        exact .refl _
    | float | tuple | set => exact own.elim
    | list items =>
        obtain ⟨forms, read, rfl⟩ := map_eq_ok.mp encoded
        have known : ∀ part ∈ items, ∀ form, encode part = .ok form →
            Reordered part (.ofJson form) :=
          fun part member => parts part member (each part member)
        have related := (List.forall₂_and_left _ _).mpr ⟨known, encodeItems_eq_ok.mp read⟩
        rw [ofJson, ofJsonItems_eq]
        exact Reordered.list (List.forall₂_map_right_iff.mpr
          (related.imp (fun item form both => both.1 form both.2))) []
    | dict items =>
        obtain ⟨members, read, rfl⟩ := map_eq_ok.mp encoded
        have known : ∀ item ∈ items, ∀ form, encode item.2 = .ok form →
            Reordered item.2 (.ofJson form) := by
          intro item member
          have listed : item.2 ∈ (Value.dict items).parts := List.mem_map.mpr ⟨item, member, rfl⟩
          exact parts item.2 listed (each item.2 listed)
        have related := (List.forall₂_and_left _ _).mpr ⟨known, encodeMembers_eq_ok.mp read⟩
        have values : Reordered (.dict items)
            (.dict (members.map (fun member => (.str member.1, ofJson member.2)))) :=
          Reordered.dict (List.forall₂_map_right_iff.mpr (related.imp
            (fun item member both => ⟨both.2.1, both.1 member.2 both.2.2⟩))) []
        rw [ofJson, ofJsonMembers_eq]
        exact values.trans (.mapping ((List.perm_insertionSort _ members).symm.map _))
  exact step.all value plain form encoded

end Value

/-- Plain values with one text are the same up to the order of mappings. -/
theorem reordered_of_dumps {left right : Value} (leftPlain : left.Everywhere Value.Plain)
    (rightPlain : right.Everywhere Value.Plain) (same : dumps left = dumps right)
    : left.Reordered right := by
  have leftAdmissible := leftPlain.imp Value.Plain.admissible
  have rightAdmissible := rightPlain.imp Value.Plain.admissible
  obtain ⟨form, encoded⟩ := encode_exists (leftAdmissible.imp Value.Admissible.stringKeys)
  obtain ⟨other, encodedToo⟩ := encode_exists (rightAdmissible.imp Value.Admissible.stringKeys)
  rw [dumps, dumps, encoded, encodedToo] at same
  obtain rfl := jsonDumps_inj (encode_floatFree leftAdmissible encoded)
    (encode_floatFree rightAdmissible encodedToo) (encode_canonical encoded)
    (encode_canonical encodedToo) (Except.ok.inj same)
  exact (Value.reordered_ofJson leftPlain encoded).trans
    (Value.reordered_ofJson rightPlain encodedToo).symm

/-- The canonical text of a value does not depend on the order of mappings and sets, what is encoded
is encoded as itself, one text stands for one plain value up to the order of mappings, and a key
that is no string is refused at any depth.
-/
theorem canonicalizer_laws
    : (∀ left right : Value, left.Everywhere Value.Admissible → left.Reordered right →
        dumps left = dumps right ∧ ∃ text, dumps left = .ok text)
      ∧ (∀ value form, encode value = .ok form → encode (.ofJson form) = .ok form)
      ∧ (∀ left right : Value, left.Everywhere Value.Plain → right.Everywhere Value.Plain →
        dumps left = dumps right → left.Reordered right)
      ∧ ∀ value : Value, ¬ value.Everywhere Value.StringKeys →
        ∃ message, dumps value = .error message ∧ KeyMessage message := by
  refine ⟨?_, ?_, ?_, ?_⟩
  · intro left right admissible reordered
    have same := encode_reordered reordered admissible
    obtain ⟨form, encoded⟩ := encode_exists (admissible.imp Value.Admissible.stringKeys)
    refine ⟨by rw [dumps, dumps, same], jsonDumps form, ?_⟩
    rw [dumps, encoded]
    rfl
  · intro value form encoded
    exact encode_encode encoded
  · intro left right leftPlain rightPlain same
    exact reordered_of_dumps leftPlain rightPlain same
  · intro value refused
    cases encoded : encode value with
    | ok form => exact (refused (stringKeys_of_encode encoded)).elim
    | error message =>
        refine ⟨message, ?_, encode_error encoded⟩
        rw [dumps, encoded]
        rfl

end Pyverge
