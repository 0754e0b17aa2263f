import Pyverge.Planning.Positions

/-! The lens laws of reading and replacing at a path.
A path may hold any integers, and a list counts a negative index from its end. What a path leads
to is a position, and the laws hold for positions; two spellings of one position are not apart.
-/

namespace Pyverge

open Py (Json)

/-- One step of a path as it is given: `str | int`. -/
inductive SignedStep where
  | key (name : String)
  | index (place : Int)
  deriving DecidableEq

abbrev SignedPath := List SignedStep

/-- The item that a list of this length has at an index. -/
def listIndex (length : Nat) (place : Int) : Option Nat :=
  if 0 ≤ place then if place < length then some place.toNat else none
  else if 0 ≤ length + place then some (length + place).toNat
  else none

namespace SignedPath

/-- `current[step]` -/
def getItem : Json → SignedStep → Except Raised Json
  | value, .key name => Pyverge.getItem value (.key name)
  | .arr items, .index place =>
      match listIndex items.length place with
      | some index => Pyverge.getItem (.arr items) (.index index)
      | none => .error listIndexError
  | .str text, .index place =>
      match listIndex text.toList.length place with
      | some index => Pyverge.getItem (.str text) (.index index)
      | none => .error textIndexError
  | value, .index place => Pyverge.getItem value (.index place.toNat)

/-- `Path.get` -/
def get : SignedPath → Json → Except Raised Json
  | [], data => .ok data
  | step :: rest, data => do
      let child ← getItem data step
      get rest child

/-- `_replace_at` -/
def replaceAt (value : Json) (path : SignedPath) (replacement : Json) : Except Raised Json :=
  match path with
  | [] => .ok replacement
  | head :: tail =>
      match value, head with
      | .arr items, .index place =>
          match (listIndex items.length place).bind (fun index => items[index]?.map (index, ·)) with
          | some (index, item) => do
              let child ← replaceAt item tail replacement
              return .arr (items.set index child)
          | none => .error listIndexError
      | .arr _, .key name => .error (listPathError name)
      | .obj members, .key name =>
          match Json.getMember members name with
          | some item => do
              let child ← replaceAt item tail replacement
              return .obj (Json.setMember members name child)
          | none => .error (missingKey (.key name))
      | value, .key _ => .error (scalarPathError value)
      | _, .index place => .error (mappingPathError place)

/-- The step that leads to the same place from the start of a list; `none` without a place. -/
def settle : Json → SignedStep → Option PathStep
  | .arr items, .index place => (listIndex items.length place).map .index
  | .obj _, .key name => some (.key name)
  | _, _ => none

/-- The position that a path leads to through lists and objects. -/
def position : SignedPath → Json → Option Path
  | [], _ => some []
  | step :: rest, value => (settle value step).bind (fun place =>
      (item? value place).bind (fun child => (position rest child).map (place :: ·)))

/-- String keys lead through objects, indices in range through lists. -/
def Resolves (path : SignedPath) (value : Json) : Prop := (path.position value).isSome

-----------------------------------------------------------------------------------------
-- Positions
-----------------------------------------------------------------------------------------

theorem position_cons {step : SignedStep} {rest : SignedPath} {value : Json} {place : Path}
    : position (step :: rest) value = some place
      ↔ ∃ head child tail, settle value step = some head ∧ item? value head = some child
          ∧ position rest child = some tail ∧ place = head :: tail := by
  simp only [position, Option.bind_eq_some_iff, Option.map_eq_some_iff]
  constructor
  · intro given
    obtain ⟨head, settled, child, found, tail, below, rfl⟩ := given
    exact ⟨head, child, tail, settled, found, below, rfl⟩
  · intro given
    obtain ⟨head, child, tail, settled, found, below, rfl⟩ := given
    exact ⟨head, settled, child, found, tail, below, rfl⟩

theorem getItem_of_settle {value child : Json} {step : SignedStep} {head : PathStep}
    (settled : settle value step = some head) (found : item? value head = some child)
    : getItem value step = .ok child := by
  have direct := getItem_of_item? found
  cases value <;> cases step <;> simp [settle] at settled
  case arr.index items place =>
    obtain ⟨index, inside, rfl⟩ := settled
    simp only [getItem, inside]
    exact direct
  case obj.key members name =>
    subst settled
    exact direct

theorem get_of_position {path : SignedPath} {value : Json} {place : Path}
    (leads : path.position value = some place)
    : path.get value = place.get value := by
  induction path generalizing value place with
  | nil =>
      obtain rfl := Option.some.inj leads
      rfl
  | cons step rest ih =>
      obtain ⟨head, child, tail, settled, found, below, rfl⟩ := position_cons.mp leads
      rw [Path.get_cons (getItem_of_item? found), ← ih below, get,
        getItem_of_settle settled found]
      rfl

/-- A replacement goes through exactly the steps that lead somewhere. -/
theorem replaceAt_cons {value : Json} {step : SignedStep} {rest : SignedPath}
    {replacement updated : Json}
    : replaceAt value (step :: rest) replacement = .ok updated
      ↔ ∃ head child next, settle value step = some head ∧ item? value head = some child
          ∧ replaceAt child rest replacement = .ok next ∧ updated = setItem value head next := by
  cases value <;> cases step <;> simp [replaceAt, settle]
  case arr.index items place =>
    cases listIndex items.length place with
    | none => simp
    | some index =>
        cases found : items[index]? with
        | none => simp [item?, found]
        | some item =>
            cases run : replaceAt item rest replacement <;>
              simp [Functor.map, Except.map, setItem, run, item?, found, eq_comm]
  case obj.key members name =>
    cases found : Json.getMember members name with
    | none => simp [item?, found]
    | some item =>
        cases run : replaceAt item rest replacement <;>
          simp [Functor.map, Except.map, setItem, run, item?, found, eq_comm]

/-- A replacement is one at the position that the path leads to. -/
theorem replaceAt_iff {path : SignedPath} {value replacement updated : Json}
    : replaceAt value path replacement = .ok updated
      ↔ ∃ place, path.position value = some place
          ∧ Pyverge.replaceAt value place replacement = .ok updated := by
  induction path generalizing value updated with
  | nil => simp [replaceAt, position, Pyverge.replaceAt]
  | cons step rest ih =>
      rw [replaceAt_cons]
      constructor
      · intro given
        obtain ⟨head, child, next, settled, found, below, rfl⟩ := given
        obtain ⟨tail, leads, inner⟩ := ih.mp below
        exact ⟨head :: tail, position_cons.mpr ⟨head, child, tail, settled, found, leads, rfl⟩,
          Pyverge.replaceAt_cons.mpr ⟨child, next, found, inner, rfl⟩⟩
      · intro given
        obtain ⟨place, leads, replaced⟩ := given
        obtain ⟨head, child, tail, settled, found, below, rfl⟩ := position_cons.mp leads
        obtain ⟨other, next, same, inner, rfl⟩ := Pyverge.replaceAt_cons.mp replaced
        obtain rfl := Option.some.inj (found.symm.trans same)
        exact ⟨head, child, next, settled, found, ih.mpr ⟨tail, below, inner⟩, rfl⟩

theorem isPosition_of_position {path : SignedPath} {value : Json} {place : Path}
    (leads : path.position value = some place)
    : IsPosition place value := by
  induction path generalizing value place with
  | nil =>
      obtain rfl := Option.some.inj leads
      trivial
  | cons step rest ih =>
      obtain ⟨head, child, tail, _, found, below, rfl⟩ := position_cons.mp leads
      exact ⟨child, found, ih below⟩

theorem exists_replaceAt {path : SignedPath} {value : Json} {place : Path}
    (leads : path.position value = some place) (replacement : Json)
    : ∃ updated, replaceAt value path replacement = .ok updated := by
  induction path generalizing value place with
  | nil => exact ⟨replacement, rfl⟩
  | cons step rest ih =>
      obtain ⟨head, child, tail, settled, found, below, rfl⟩ := position_cons.mp leads
      obtain ⟨next, inner⟩ := ih below
      exact ⟨setItem value head next,
        replaceAt_cons.mpr ⟨head, child, next, settled, found, inner, rfl⟩⟩

/-- Setting an item changes neither the kind of a container nor the length of a list. -/
theorem settle_setItem {value child : Json} {head : PathStep}
    (found : item? value head = some child) (next : Json) (step : SignedStep)
    : settle (setItem value head next) step = settle value step := by
  cases value <;> cases head <;> simp [item?] at found <;> cases step <;> simp [setItem, settle]

/-- A replacement moves no position but those below its own. -/
theorem position_replaceAt {path : Path} {value replacement updated : Json}
    (replaced : Pyverge.replaceAt value path replacement = .ok updated)
    {other : SignedPath} {place : Path} (leads : other.position value = some place)
    (outside : path <+: place → path = place)
    : other.position updated = some place := by
  induction path generalizing value updated other place with
  | nil =>
      obtain rfl := outside List.nil_prefix
      cases other with
      | nil => rfl
      | cons step rest =>
          obtain ⟨_, _, _, _, _, _, same⟩ := position_cons.mp leads
          cases same
  | cons head rest ih =>
      obtain ⟨child, next, found, inner, rfl⟩ := Pyverge.replaceAt_cons.mp replaced
      cases other with
      | nil => exact leads
      | cons step more =>
          obtain ⟨otherHead, otherChild, tail, settled, otherFound, below, rfl⟩ :=
            position_cons.mp leads
          rw [position_cons]
          by_cases same : head = otherHead
          · subst same
            obtain rfl := Option.some.inj (found.symm.trans otherFound)
            refine ⟨head, next, tail, (settle_setItem found next step).trans settled,
              item?_setItem_self found, ih inner below (fun initial => ?_), rfl⟩
            exact (List.cons.inj (outside ((List.prefix_cons_inj head).mpr initial))).2
          · exact ⟨otherHead, otherChild, tail, (settle_setItem found next step).trans settled,
              (item?_setItem_ne found same next).trans otherFound, below, rfl⟩

end SignedPath

-----------------------------------------------------------------------------------------
-- The laws
-----------------------------------------------------------------------------------------

/-- The lens laws for the paths that resolve in a value, with a notion of apart paths. -/
structure LensLaws (Resolves : SignedPath → Json → Prop)
    (Apart : Json → SignedPath → SignedPath → Prop) : Prop where
  readBack : ∀ value path replacement, Resolves path value →
    (SignedPath.replaceAt value path replacement >>= path.get) = .ok replacement
  putBack : ∀ value path, Resolves path value →
    (path.get value >>= SignedPath.replaceAt value path) = .ok value
  overwrite : ∀ value path replacement later, Resolves path value →
    (SignedPath.replaceAt value path replacement >>= fun updated =>
      SignedPath.replaceAt updated path later) = SignedPath.replaceAt value path later
  elsewhere : ∀ value path other replacement, Resolves path value → Resolves other value →
    Apart value path other →
      (SignedPath.replaceAt value path replacement >>= other.get) = other.get value
  commute : ∀ value path other replacement later, Resolves path value → Resolves other value →
    Apart value path other →
      (SignedPath.replaceAt value path replacement >>= fun updated =>
        SignedPath.replaceAt updated other later)
      = (SignedPath.replaceAt value other later >>= fun updated =>
        SignedPath.replaceAt updated path replacement)
  fails : ∀ value path replacement,
    (∃ error, SignedPath.replaceAt value path replacement = .error error) ↔ ¬ Resolves path value

/-- Neither path is a prefix of the other as they are spelled. -/
def SignedPath.SpelledApart (_ : Json) (left right : SignedPath) : Prop :=
  ¬ left <+: right ∧ ¬ right <+: left

/-- The positions that the paths lead to are apart. -/
def SignedPath.PositionsApart (value : Json) (left right : SignedPath) : Prop :=
  ∃ first second, left.position value = some first ∧ right.position value = some second
    ∧ first.Apart second

theorem lensLaws : LensLaws SignedPath.Resolves SignedPath.PositionsApart where
  readBack value path replacement resolves := by
    obtain ⟨place, leads⟩ := Option.isSome_iff_exists.mp resolves
    obtain ⟨updated, replaced⟩ := SignedPath.exists_replaceAt leads replacement
    obtain ⟨own, same, direct⟩ := SignedPath.replaceAt_iff.mp replaced
    obtain rfl := Option.some.inj (leads.symm.trans same)
    have stays := SignedPath.position_replaceAt direct leads (fun _ => rfl)
    rw [replaced]
    exact (SignedPath.get_of_position stays).trans (Path.get_replaceAt_self direct)
  putBack value path resolves := by
    obtain ⟨place, leads⟩ := Option.isSome_iff_exists.mp resolves
    obtain ⟨found, at_⟩ := isPosition_iff.mp (SignedPath.isPosition_of_position leads)
    rw [SignedPath.get_of_position leads, get_of_at? at_]
    exact SignedPath.replaceAt_iff.mpr ⟨place, leads, replaceAt_self at_⟩
  overwrite value path replacement later resolves := by
    obtain ⟨place, leads⟩ := Option.isSome_iff_exists.mp resolves
    obtain ⟨updated, replaced⟩ := SignedPath.exists_replaceAt leads replacement
    obtain ⟨final, last⟩ := SignedPath.exists_replaceAt leads later
    obtain ⟨own, same, direct⟩ := SignedPath.replaceAt_iff.mp replaced
    obtain rfl := Option.some.inj (leads.symm.trans same)
    obtain ⟨own, same, directLast⟩ := SignedPath.replaceAt_iff.mp last
    obtain rfl := Option.some.inj (leads.symm.trans same)
    have stays := SignedPath.position_replaceAt direct leads (fun _ => rfl)
    rw [replaced, last]
    refine SignedPath.replaceAt_iff.mpr ⟨place, stays, ?_⟩
    rw [replaceAt_replaceAt direct]
    exact directLast
  elsewhere value path other replacement resolves _ apart := by
    obtain ⟨first, second, leads, otherLeads, apart⟩ := apart
    obtain ⟨updated, replaced⟩ := SignedPath.exists_replaceAt leads replacement
    obtain ⟨own, same, direct⟩ := SignedPath.replaceAt_iff.mp replaced
    obtain rfl := Option.some.inj (leads.symm.trans same)
    have stays := SignedPath.position_replaceAt direct otherLeads
      (fun initial => absurd initial apart.1)
    rw [replaced, SignedPath.get_of_position otherLeads, ← Path.get_replaceAt_apart direct apart]
    exact SignedPath.get_of_position stays
  commute value path other replacement later resolves _ apart := by
    obtain ⟨first, second, leads, otherLeads, apart⟩ := apart
    obtain ⟨updated, replaced⟩ := SignedPath.exists_replaceAt leads replacement
    obtain ⟨result, otherReplaced⟩ := SignedPath.exists_replaceAt otherLeads later
    obtain ⟨own, same, direct⟩ := SignedPath.replaceAt_iff.mp replaced
    obtain rfl := Option.some.inj (leads.symm.trans same)
    obtain ⟨own, same, otherDirect⟩ := SignedPath.replaceAt_iff.mp otherReplaced
    obtain rfl := Option.some.inj (otherLeads.symm.trans same)
    obtain ⟨final, left, right⟩ := replaceAt_apart_isOk direct apart otherDirect
    have otherStays := SignedPath.position_replaceAt direct otherLeads
      (fun initial => absurd initial apart.1)
    have stays := SignedPath.position_replaceAt otherDirect leads
      (fun initial => absurd initial apart.2)
    rw [replaced, otherReplaced]
    exact (SignedPath.replaceAt_iff.mpr ⟨_, otherStays, left⟩).trans
      (SignedPath.replaceAt_iff.mpr ⟨_, stays, right⟩).symm
  fails value path replacement := by
    constructor
    · intro raised resolves
      obtain ⟨error, run⟩ := raised
      obtain ⟨place, leads⟩ := Option.isSome_iff_exists.mp resolves
      obtain ⟨updated, replaced⟩ := SignedPath.exists_replaceAt leads replacement
      rw [run] at replaced
      cases replaced
    · intro lost
      cases run : SignedPath.replaceAt value path replacement with
      | error error => exact ⟨error, rfl⟩
      | ok updated =>
          obtain ⟨place, leads, _⟩ := SignedPath.replaceAt_iff.mp run
          exact absurd (Option.isSome_iff_exists.mpr ⟨place, leads⟩) lost

/-- No index is negative. -/
def SignedPath.Plain (path : SignedPath) : Prop := ∀ place, .index place ∈ path → 0 ≤ place

/-- Counterexample: `0` and `-1` lead to the same item of a list with one item, so the laws fail
for paths that are spelled apart if `-1` is in range, and replacing at `-1` does not fail if not.
-/
theorem not_lensLaws_spelled
    : ¬ LensLaws SignedPath.Resolves SignedPath.SpelledApart
      ∧ ¬ LensLaws (fun path value => path.Plain ∧ path.Resolves value)
          SignedPath.SpelledApart := by
  constructor
  · intro laws
    have law := laws.elsewhere (.arr [.int 1]) [.index 0] [.index (-1)] (.int 2)
      (rfl : Option.isSome _ = true) (rfl : Option.isSome _ = true)
      ⟨by decide, by decide⟩
    have same : (Except.ok (.int 2) : Except Raised Json) = .ok (.int 1) := law
    cases same
  · intro laws
    have lost : ¬ (SignedPath.Plain [.index (-1)]
        ∧ SignedPath.Resolves [.index (-1)] (.arr [.int 1])) := by
      intro resolves
      exact absurd (resolves.1 (-1) (by simp)) (by decide)
    obtain ⟨error, raised⟩ := (laws.fails (.arr [.int 1]) [.index (-1)] (.int 2)).mpr lost
    have run : SignedPath.replaceAt (.arr [.int 1]) [.index (-1)] (.int 2)
        = .ok (.arr [.int 2]) := rfl
    rw [run] at raised
    cases raised

end Pyverge
