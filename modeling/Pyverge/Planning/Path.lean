import Pyverge.Py.Repr
import Mathlib.Data.List.Basic

/-! Containment paths into a payload: reading at a path and replacing at a path.
Replacing clones every container on the way, so values off the path are shared unchanged.
-/

namespace Pyverge

open Py (Json)

/-- Exceptions that escape from reading a payload or from running a plan; that of a missing key has
the key as it is shown.
-/
inductive Raised where
  | keyError (key : String)
  | indexError (message : String)
  | typeError (message : String)
  | valueError (message : String)
  | unboundLocalError
  | asyncExecutionRequired (message : String)
  | migrationApplication (kind source target reason : String)
  | exception (name : String)
  | baseException (name : String)
  deriving DecidableEq

/-- Whether an `except Exception` clause catches it. -/
def Raised.isException : Raised → Bool
  | .baseException _ => false
  | _ => true

/-- The text of an exception, as a message that wraps it shows it. -/
def Raised.text : Raised → String
  | .keyError key => key
  | .indexError message | .typeError message | .valueError message => message
  | .asyncExecutionRequired message => message
  | .unboundLocalError =>
      "cannot access local variable 'migrated' where it is not associated with a value"
  | .migrationApplication _ source target reason =>
      "Migration failed: " ++ source ++ " → " ++ target ++ ": " ++ reason
  | .exception name | .baseException name => name

/-- One step of a path. Indices come from enumerating a list, so they are not negative. -/
inductive PathStep where
  | key (name : String)
  | index (place : Nat)
  deriving DecidableEq

abbrev Path := List PathStep

/-- A missing key is shown by its `repr`; characters beyond ASCII are shown as they are. -/
def missingKey : PathStep → Raised
  | .key name => .keyError (Py.reprStr (fun _ => true) name)
  | .index place => .keyError (toString place)

def listIndexError : Raised := .indexError "list index out of range"

def textIndexError : Raised := .indexError "string index out of range"

/-- `current[step]` -/
def getItem : Json → PathStep → Except Raised Json
  | .arr items, .index place =>
      match items[place]? with
      | some item => .ok item
      | none => .error listIndexError
  | .obj members, .key name =>
      match Json.getMember members name with
      | some value => .ok value
      | none => .error (missingKey (.key name))
  | .obj _, .index place => .error (missingKey (.index place))
  | .str text, .index place =>
      match text.toList[place]? with
      | some letter => .ok (.str (String.singleton letter))
      | none => .error textIndexError
  | .arr _, .key _ => .error (.typeError "list indices must be integers or slices, not str")
  | .str _, .key _ => .error (.typeError "string indices must be integers, not 'str'")
  | value, _ => .error (.typeError ("'" ++ value.typeName ++ "' object is not subscriptable"))

/-- `Path.get` -/
def Path.get : Path → Json → Except Raised Json
  | [], data => .ok data
  | step :: rest, data => do
      let child ← getItem data step
      Path.get rest child

/-- `Path.is_descendant_of` -/
def Path.isDescendantOf (path parent : Path) : Bool :=
  decide (parent.length < path.length) && decide (path.take parent.length = parent)

/-- A list is asked for a text; characters beyond ASCII are shown as they are. -/
def listPathError (name : String) : Raised :=
  .typeError ("List path requires an integer index, got " ++ Py.reprStr (fun _ => true) name)

def mappingPathError (place : Int) : Raised :=
  .typeError ("Mapping path requires a string key, got " ++ toString place)

/-- `dict(value)[name]` for what is no container: an empty text makes an empty mapping, so only the
lookup in the text itself raises.
-/
def scalarPathError : Json → Raised
  | .str "" => .typeError "string indices must be integers, not 'str'"
  | .str _ => .valueError "dictionary update sequence element #0 has length 1; 2 is required"
  | value => .typeError ("'" ++ value.typeName ++ "' object is not iterable")

/-- `_replace_at` -/
def replaceAt (value : Json) (path : Path) (replacement : Json) : Except Raised Json :=
  match path with
  | [] => .ok replacement
  | head :: tail =>
      match value, head with
      | .arr items, .index place =>
          match items[place]? with
          | some item => do
              let child ← replaceAt item tail replacement
              return .arr (items.set place child)
          | none => .error listIndexError
      | .arr _, .key name => .error (listPathError name)
      | .obj members, .key name =>
          match Json.getMember members name with
          | some item => do
              let child ← replaceAt item tail replacement
              return .obj (Json.setMember members name child)
          | none => .error (missingKey (.key name))
      | value, .key _ => .error (scalarPathError value)
      | _, .index place => .error (mappingPathError place)

theorem Path.isDescendantOf_iff {path parent : Path}
    : path.isDescendantOf parent = true ↔ parent <+: path ∧ parent ≠ path := by
  simp only [isDescendantOf, Bool.and_eq_true, decide_eq_true_eq]
  constructor
  · rintro ⟨shorter, same⟩
    refine ⟨same ▸ List.take_prefix _ _, ?_⟩
    rintro rfl
    omega
  · rintro ⟨initial, ne⟩
    refine ⟨?_, (List.prefix_iff_eq_take.mp initial).symm⟩
    rcases Nat.lt_or_ge parent.length path.length with lt | ge
    · exact lt
    · exact (ne (initial.eq_of_length_le ge)).elim

/-- Neither path leads through the other. -/
def Path.Apart (left right : Path) : Prop := ¬ left <+: right ∧ ¬ right <+: left

theorem Path.Apart.symm {left right : Path} (apart : left.Apart right) : right.Apart left :=
  ⟨apart.2, apart.1⟩

/-- Paths are apart at the first step already, or after a common one. -/
theorem Path.Apart.cons_cases {left right : Path} (apart : left.Apart right)
    : ∃ step other leftRest rightRest, left = step :: leftRest ∧ right = other :: rightRest
        ∧ (step ≠ other ∨ step = other ∧ Path.Apart leftRest rightRest) := by
  cases left with
  | nil => exact (apart.1 List.nil_prefix).elim
  | cons step leftRest =>
      cases right with
      | nil => exact (apart.2 List.nil_prefix).elim
      | cons other rightRest =>
          refine ⟨step, other, leftRest, rightRest, rfl, rfl, ?_⟩
          by_cases same : step = other
          · subst same
            right
            refine ⟨rfl, fun initial => apart.1 ?_, fun initial => apart.2 ?_⟩
            · exact (List.prefix_cons_inj step).mpr initial
            · exact (List.prefix_cons_inj step).mpr initial
          · exact .inl same

-----------------------------------------------------------------------------------------
-- One step of a container
-----------------------------------------------------------------------------------------

/-- The item of a list or an object, the only values that a replacement can pass. -/
def item? : Json → PathStep → Option Json
  | .arr items, .index place => items[place]?
  | .obj members, .key name => Json.getMember members name
  | _, _ => none

/-- `clone[step] = child` -/
def setItem : Json → PathStep → Json → Json
  | .arr items, .index place, child => .arr (items.set place child)
  | .obj members, .key name, child => .obj (Json.setMember members name child)
  | value, _, _ => value

theorem getItem_of_item? {value child : Json} {step : PathStep}
    (found : item? value step = some child)
    : getItem value step = .ok child := by
  cases value <;> cases step <;> simp_all [item?, getItem]

theorem replaceAt_cons {value : Json} {step : PathStep} {rest : Path} {replacement updated : Json}
    : replaceAt value (step :: rest) replacement = .ok updated
      ↔ ∃ child next, item? value step = some child
          ∧ replaceAt child rest replacement = .ok next ∧ updated = setItem value step next := by
  cases value <;> cases step <;> simp [replaceAt, item?]
  case arr.index items place =>
    cases items[place]? with
    | none => simp
    | some item =>
        cases run : replaceAt item rest replacement <;>
          simp [Functor.map, Except.map, setItem, run, eq_comm]
  case obj.key members name =>
    cases Json.getMember members name with
    | none => simp
    | some item =>
        cases run : replaceAt item rest replacement <;>
          simp [Functor.map, Except.map, setItem, run, eq_comm]

theorem item?_setItem_self {value child next : Json} {step : PathStep}
    (found : item? value step = some child)
    : item? (setItem value step next) step = some next := by
  cases value <;> cases step <;> simp_all [item?, setItem, Json.getMember_setMember]
  case arr.index items place =>
    have inside := (List.getElem?_eq_some_iff.mp found).1
    exact List.getElem?_set_self inside

theorem getItem_setItem_ne {value child : Json} {step other : PathStep}
    (found : item? value step = some child) (ne : step ≠ other) (next : Json)
    : getItem (setItem value step next) other = getItem value other := by
  cases value <;> cases step <;> simp [item?] at found <;> cases other <;>
    simp_all [getItem, setItem, Json.getMember_setMember, List.getElem?_set_ne]

theorem item?_setItem_ne {value child : Json} {step other : PathStep}
    (found : item? value step = some child) (ne : step ≠ other) (next : Json)
    : item? (setItem value step next) other = item? value other := by
  cases value <;> cases step <;> simp [item?] at found <;> cases other <;>
    simp_all [item?, setItem, Json.getMember_setMember, List.getElem?_set_ne]

theorem setItem_item? {value child : Json} {step : PathStep}
    (found : item? value step = some child)
    : setItem value step child = value := by
  cases value <;> cases step <;> simp_all [item?, setItem, Json.setMember_getMember]
  case arr.index items place =>
    obtain ⟨inside, rfl⟩ := List.getElem?_eq_some_iff.mp found
    exact List.set_getElem_self inside

theorem setItem_setItem (value : Json) (step : PathStep) (next later : Json)
    : setItem (setItem value step next) step later = setItem value step later := by
  cases value <;> cases step <;> simp [setItem, Json.setMember_setMember]

theorem setItem_comm {value child : Json} {step other : PathStep}
    (found : item? value step = some child) (ne : step ≠ other) (next later : Json)
    : setItem (setItem value step next) other later
      = setItem (setItem value other later) step next := by
  cases value <;> cases step <;> simp [item?] at found <;> cases other <;> simp_all [setItem]
  case arr.index.index items place other =>
    exact List.set_comm next later ne
  case obj.key.key members name other =>
    exact Json.setMember_comm ne (by simp [found]) next later

-----------------------------------------------------------------------------------------
-- Reading after replacing
-----------------------------------------------------------------------------------------

theorem Path.get_cons {step : PathStep} {rest : Path} {value child : Json}
    (found : getItem value step = .ok child)
    : Path.get (step :: rest) value = Path.get rest child := by
  simp [Path.get, found, bind, Except.bind]

theorem Path.get_replaceAt_self {value updated replacement : Json} {path : Path}
    (replaced : replaceAt value path replacement = .ok updated)
    : path.get updated = .ok replacement := by
  induction path generalizing value updated with
  | nil =>
      simp only [replaceAt, Except.ok.injEq] at replaced
      simp [Path.get, replaced]
  | cons step rest ih =>
      obtain ⟨child, next, found, inner, rfl⟩ := replaceAt_cons.mp replaced
      rw [Path.get_cons (getItem_of_item? (item?_setItem_self found))]
      exact ih inner

/-- A replacement is invisible at every path apart from its own. -/
theorem Path.get_replaceAt_apart {value updated replacement : Json} {path other : Path}
    (replaced : replaceAt value path replacement = .ok updated) (apart : path.Apart other)
    : other.get updated = other.get value := by
  induction path generalizing value updated other with
  | nil => exact (apart.1 List.nil_prefix).elim
  | cons step rest ih =>
      obtain ⟨child, next, found, inner, rfl⟩ := replaceAt_cons.mp replaced
      obtain ⟨first, second, pathRest, otherRest, same, rfl, differ⟩ := apart.cons_cases
      obtain ⟨rfl, rfl⟩ := List.cons.inj same
      rcases differ with ne | ⟨rfl, restApart⟩
      · simp only [Path.get, getItem_setItem_ne found ne]
      · rw [Path.get_cons (getItem_of_item? (item?_setItem_self found)),
          Path.get_cons (getItem_of_item? found)]
        exact ih inner restApart

/-- Whether a replacement succeeds at a path does not depend on values apart from it. -/
theorem replaceAt_apart_isOk {value updated replacement : Json} {path other : Path}
    (replaced : replaceAt value path replacement = .ok updated) (apart : path.Apart other)
    {later result : Json} (second : replaceAt value other later = .ok result)
    : ∃ final, replaceAt updated other later = .ok final
        ∧ replaceAt result path replacement = .ok final := by
  induction path generalizing value updated other result with
  | nil => exact (apart.1 List.nil_prefix).elim
  | cons step rest ih =>
      obtain ⟨child, next, found, inner, rfl⟩ := replaceAt_cons.mp replaced
      obtain ⟨first, otherStep, pathRest, otherRest, same, rfl, differ⟩ := apart.cons_cases
      obtain ⟨rfl, rfl⟩ := List.cons.inj same
      obtain ⟨otherChild, otherNext, otherFound, otherInner, rfl⟩ := replaceAt_cons.mp second
      rcases differ with ne | ⟨rfl, restApart⟩
      · refine ⟨setItem (setItem value step next) otherStep otherNext, ?_, ?_⟩
        · exact replaceAt_cons.mpr ⟨otherChild, otherNext,
            (item?_setItem_ne found ne next).trans otherFound, otherInner, rfl⟩
        · rw [setItem_comm found ne]
          exact replaceAt_cons.mpr ⟨child, next,
            (item?_setItem_ne otherFound ne.symm otherNext).trans found, inner, rfl⟩
      · obtain rfl := Option.some.inj (found.symm.trans otherFound)
        obtain ⟨final, left, right⟩ := ih inner restApart otherInner
        refine ⟨setItem value step final, ?_, ?_⟩
        · exact replaceAt_cons.mpr
            ⟨next, final, item?_setItem_self found, left, (setItem_setItem _ _ _ _).symm⟩
        · exact replaceAt_cons.mpr
            ⟨otherNext, final, item?_setItem_self found, right, (setItem_setItem _ _ _ _).symm⟩

/-- A second replacement at a path hides the first. -/
theorem replaceAt_replaceAt {value updated replacement : Json} {path : Path}
    (replaced : replaceAt value path replacement = .ok updated) (later : Json)
    : replaceAt updated path later = replaceAt value path later := by
  induction path generalizing value updated with
  | nil => rfl
  | cons step rest ih =>
      obtain ⟨child, next, found, inner, rfl⟩ := replaceAt_cons.mp replaced
      have same := ih inner
      cases value <;> cases step <;> simp [item?] at found
      case arr.index items place =>
        obtain ⟨inside, rfl⟩ := List.getElem?_eq_some_iff.mp found
        simp [replaceAt, setItem, inside, same]
      case obj.key members name =>
        simp [replaceAt, setItem, found, Json.getMember_setMember, same,
          Json.setMember_setMember]

/-- What a replacement overwrote can be put back. -/
theorem replaceAt_restore {value updated replacement : Json} {path : Path}
    (replaced : replaceAt value path replacement = .ok updated)
    : ∃ old, replaceAt updated path old = .ok value := by
  induction path generalizing value updated with
  | nil => exact ⟨value, rfl⟩
  | cons step rest ih =>
      obtain ⟨child, next, found, inner, rfl⟩ := replaceAt_cons.mp replaced
      obtain ⟨old, restored⟩ := ih inner
      refine ⟨old, replaceAt_cons.mpr ⟨next, child, item?_setItem_self found, restored, ?_⟩⟩
      rw [setItem_setItem, setItem_item? found]

/-- Replacements at paths apart commute, also in whether they succeed. -/
theorem replaceAt_comm (value : Json) {path other : Path} (apart : path.Apart other)
    (replacement later : Json)
    : (replaceAt value path replacement).toOption.bind
        (fun updated => (replaceAt updated other later).toOption)
      = (replaceAt value other later).toOption.bind
          (fun updated => (replaceAt updated path replacement).toOption) := by
  cases first : replaceAt value path replacement with
  | ok updated =>
      cases second : replaceAt value other later with
      | ok result =>
          obtain ⟨final, left, right⟩ := replaceAt_apart_isOk first apart second
          simp [Except.toOption, left, right]
      | error raised =>
          cases both : replaceAt updated other later with
          | error _ => simp [Except.toOption, both]
          | ok final =>
              obtain ⟨old, restored⟩ := replaceAt_restore first
              obtain ⟨_, right, _⟩ := replaceAt_apart_isOk restored apart both
              rw [second] at right
              cases right
  | error raised =>
      cases second : replaceAt value other later with
      | error _ => rfl
      | ok result =>
          cases both : replaceAt result path replacement with
          | error _ => simp [Except.toOption, both]
          | ok final =>
              obtain ⟨old, restored⟩ := replaceAt_restore second
              obtain ⟨_, right, _⟩ := replaceAt_apart_isOk restored apart.symm both
              rw [first] at right
              cases right

end Pyverge
