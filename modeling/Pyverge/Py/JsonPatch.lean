import Pyverge.Py.Json
import Mathlib.Data.List.TakeWhile

/-! JSON Pointer (RFC 6901) and JSON Patch (RFC 6902) over JSON trees.
An operation that does not apply makes the whole patch fail. What a patch does to the top-level
keys of a document is told by the last operation that decides about a key.
-/

namespace Py

-----------------------------------------------------------------------------------------
-- Pointers
-----------------------------------------------------------------------------------------

namespace Pointer

/-- Undo the escapes of a reference token: `~1` stands for `/` and `~0` for `~`. -/
def unescape : List Char → Option (List Char)
  | [] => some []
  | char :: rest =>
      if char = '~' then
        match rest with
        | '0' :: rest => (unescape rest).map ('~' :: ·)
        | '1' :: rest => (unescape rest).map ('/' :: ·)
        | _ => none
      else (unescape rest).map (char :: ·)

/-- The reference tokens of a pointer; the empty text names the whole document. -/
def tokens (text : String) : Option (List String) :=
  if text = "" then some []
  else
    match text.toList.splitOn '/' with
    | [] :: parts => parts.mapM (fun part => (unescape part).map String.ofList)
    | _ => none

/-- Undoing escapes shortens a token that has some. -/
theorem length_of_unescape {text token : List Char} (plain : unescape text = some token)
    : token.length ≤ text.length ∧ ('~' ∈ text → token.length < text.length) := by
  fun_induction unescape text generalizing token with
  | case1 =>
      obtain rfl := Option.some.inj plain
      simp
  | case2 rest ih | case3 rest ih =>
      obtain ⟨rest, later, rfl⟩ := Option.map_eq_some_iff.mp plain
      have shorter := (ih later).1
      simp only [List.length_cons]
      exact ⟨by omega, fun _ => by omega⟩
  | case4 => cases plain
  | case5 char rest apart ih =>
      obtain ⟨rest, later, rfl⟩ := Option.map_eq_some_iff.mp plain
      obtain ⟨shorter, escaped⟩ := ih later
      simp only [List.length_cons, List.mem_cons]
      refine ⟨by omega, ?_⟩
      intro member
      rcases member with same | member
      · exact absurd same.symm apart
      · have strict := escaped member
        omega

theorem unescape_of_plain {text : List Char} (plain : '~' ∉ text)
    : unescape text = some text := by
  induction text with
  | nil => rfl
  | cons char rest ih =>
      obtain ⟨apart, later⟩ := not_or.mp (mt List.mem_cons.mpr plain)
      unfold unescape
      rw [if_neg (Ne.symm apart), ih later]
      rfl

/-- A token stands for itself exactly if it has no escape. -/
theorem unescape_eq_self_iff {text : List Char} : unescape text = some text ↔ '~' ∉ text := by
  refine ⟨?_, unescape_of_plain⟩
  intro same member
  exact Nat.lt_irrefl _ ((length_of_unescape same).2 member)

theorem head?_splitOn (separator : Char) (text : List Char)
    : (text.splitOn separator).head? = some (text.takeWhile (· ≠ separator)) := by
  induction text with
  | nil => rfl
  | cons char rest ih =>
      rw [List.splitOn_cons_eq_if_modifyHead]
      by_cases hit : char = separator
      · simp [hit]
      · simp [hit, ih]

/-- The text of a pointer to a location below the root starts with a slash, and its first token
is spelled between that slash and the next.
-/
theorem spelled_of_tokens {text token : String} {rest : List String}
    (parsed : tokens text = some (token :: rest))
    : ∃ spelled, text.toList = '/' :: spelled
        ∧ unescape (spelled.takeWhile (· ≠ '/')) = some token.toList := by
  rw [tokens] at parsed
  split at parsed
  case isTrue => cases parsed
  case isFalse nonempty =>
    split at parsed
    case h_2 => cases parsed
    case h_1 parts split =>
      cases chars : text.toList with
      | nil => exact absurd (String.toList_eq_nil_iff.mp chars) nonempty
      | cons char spelled =>
          rw [chars, List.splitOn_cons_eq_if_modifyHead] at split
          by_cases hit : char = '/'
          · subst hit
            simp only [beq_self_eq_true, if_true, List.cons.injEq, true_and] at split
            refine ⟨spelled, rfl, ?_⟩
            have first := head?_splitOn '/' spelled
            rw [split] at first
            cases parts with
            | nil => cases first
            | cons head others =>
                obtain rfl := Option.some.inj first
                rw [List.mapM_cons] at parsed
                obtain ⟨shown, unescaped, parsed⟩ := Option.bind_eq_some_iff.mp parsed
                obtain ⟨chars, plain, rfl⟩ := Option.map_eq_some_iff.mp unescaped
                obtain ⟨_, _, parsed⟩ := Option.bind_eq_some_iff.mp parsed
                obtain ⟨rfl, _⟩ := List.cons.inj (Option.some.inj parsed)
                rw [plain, String.toList_ofList]
          · have apart : (char == '/') = false := by simpa using hit
            rw [apart] at split
            have heads := congrArg List.head? split
            simp [head?_splitOn] at heads

/-- A token as an array index: digits without leading zeros. -/
def arrayIndex (token : String) : Option Nat :=
  let digits := token.toList
  if digits.all Char.isDigit ∧ digits ≠ [] ∧ (digits.length = 1 ∨ digits.head? ≠ some '0') then
    some (digits.foldl (fun number digit => 10 * number + (digit.toNat - '0'.toNat)) 0)
  else none

end Pointer

namespace Json

open Pointer

/-- The value that one token refers to. -/
def child? (token : String) : Json → Option Json
  | .obj members => getMember members token
  | .arr items => (arrayIndex token).bind (items[·]?)
  | _ => none

def resolve : List String → Json → Option Json
  | [], document => some document
  | token :: rest, document => (child? token document).bind (resolve rest)

/-- Put a value in the place that one token refers to. -/
def setChild (document : Json) (token : String) (value : Json) : Json :=
  match document with
  | .obj members => .obj (setMember members token value)
  | .arr items =>
      match arrayIndex token with
      | some index => .arr (items.set index value)
      | none => .arr items
  | _ => document

/-- Change the value that one token refers to. -/
def within (token : String) (change : Json → Option Json) (document : Json) : Option Json := do
  let child ← document.child? token
  return document.setChild token (← change child)

/-- Edit the container of the location that a pointer names. -/
def atParent (edit : String → Json → Option Json) : List String → Json → Option Json
  | [], _ => none
  | [token], document => edit token document
  | token :: next :: rest, document => document.within token (atParent edit (next :: rest))

def insertChild (value : Json) (token : String) : Json → Option Json
  | .obj members => some (.obj (setMember members token value))
  | .arr items =>
      if token = "-" then some (.arr (items ++ [value]))
      else do
        let index ← arrayIndex token
        if index ≤ items.length then some (.arr (items.insertIdx index value)) else none
  | _ => none

def removeChild (token : String) : Json → Option Json
  | .obj members =>
      if (getMember members token).isSome then
        some (.obj (members.filter (fun field => field.1 ≠ token)))
      else none
  | .arr items => do
      let index ← arrayIndex token
      if index < items.length then some (.arr (items.eraseIdx index)) else none
  | _ => none

def replaceChild (value : Json) (token : String) (document : Json) : Option Json :=
  (document.child? token).map (fun _ => document.setChild token value)

/-- Add a value at a location; at the root it replaces the document. -/
def addAt (path : List String) (value document : Json) : Option Json :=
  if path = [] then some value else atParent (insertChild value) path document

def removeAt (path : List String) (document : Json) : Option Json :=
  atParent removeChild path document

def replaceAt (path : List String) (value document : Json) : Option Json :=
  if path = [] then some value else atParent (replaceChild value) path document

/-- The top-level keys of a document; only an object has some. -/
def keys : Json → List String
  | .obj members => members.map Prod.fst
  | _ => []

def isObject : Json → Bool
  | .obj _ => true
  | _ => false

end Json

-----------------------------------------------------------------------------------------
-- Patches
-----------------------------------------------------------------------------------------

/-- A patch operation with pointers as text; a value may be missing from its object. -/
inductive PatchOperation where
  | add (path : String) (value : Option Json)
  | remove (path : String)
  | replace (path : String) (value : Option Json)
  | move (source path : String)
  | copy (source path : String)
  | test (path : String) (value : Option Json)
  deriving DecidableEq

def PatchOperation.path : PatchOperation → String
  | .add path _ | .remove path | .replace path _ | .move _ path | .copy _ path
  | .test path _ => path

/-- Apply one operation. Moving a value to where it is changes nothing, and a value cannot be
moved into itself. A test asks for equal values, in the sense of `equal`.
-/
def PatchOperation.apply (equal : Json → Json → Bool) (operation : PatchOperation)
    (document : Json) : Option Json :=
  match operation with
  | .add path value => do
      let path ← Pointer.tokens path
      Json.addAt path (← value) document
  | .remove path => do
      let path ← Pointer.tokens path
      Json.removeAt path document
  | .replace path value => do
      let path ← Pointer.tokens path
      Json.replaceAt path (← value) document
  | .move source path => do
      let source ← Pointer.tokens source
      let path ← Pointer.tokens path
      let value ← document.resolve source
      if source = path then some document
      else if source <+: path then none
      else Json.addAt path value (← Json.removeAt source document)
  | .copy source path => do
      let source ← Pointer.tokens source
      let path ← Pointer.tokens path
      Json.addAt path (← document.resolve source) document
  | .test path value => do
      let path ← Pointer.tokens path
      let found ← document.resolve path
      if equal found (← value) then some document else none

/-- Apply the operations of a patch in order. -/
def applyPatch (equal : Json → Json → Bool) : List PatchOperation → Json → Option Json
  | [], document => some document
  | operation :: rest, document => (operation.apply equal document).bind (applyPatch equal rest)

-----------------------------------------------------------------------------------------
-- Top-level keys
-----------------------------------------------------------------------------------------

namespace Json

theorem isSome_getMember {members : List (String × Json)} {key : String}
    : (getMember members key).isSome ↔ key ∈ members.map Prod.fst := by
  induction members with
  | nil => simp [getMember]
  | cons head rest ih =>
      by_cases hit : head.1 = key
      · simp [getMember, hit]
      · simp [getMember, hit, Ne.symm hit, ih]

theorem keys_setMember_of_mem {members : List (String × Json)} {key : String} (value : Json)
    (present : key ∈ members.map Prod.fst)
    : (setMember members key value).map Prod.fst = members.map Prod.fst := by
  induction members with
  | nil => cases present
  | cons head rest ih =>
      by_cases hit : head.1 = key
      · simp [setMember, hit]
      · have later : key ∈ rest.map Prod.fst := by simpa [Ne.symm hit] using present
        simp [setMember, hit, ih later]

theorem mem_keys_setMember {members : List (String × Json)} {key other : String} {value : Json}
    : other ∈ (setMember members key value).map Prod.fst
      ↔ other = key ∨ other ∈ members.map Prod.fst := by
  induction members with
  | nil => simp [setMember]
  | cons head rest ih =>
      by_cases hit : head.1 = key
      · simp [setMember, hit]
      · simp only [setMember, if_neg hit, List.map_cons, List.mem_cons, ih]
        exact or_left_comm

/-- Changing the value of a key that an object has leaves its keys in place. -/
theorem keys_setChild {document child : Json} {token : String} (value : Json)
    (present : document.child? token = some child)
    : (document.setChild token value).keys = document.keys := by
  cases document with
  | obj members =>
      exact keys_setMember_of_mem value (isSome_getMember.mp (Option.isSome_of_mem present))
  | arr items => cases index : Pointer.arrayIndex token <;> simp [setChild, index, keys]
  | null | bool _ | int _ | float _ | str _ => rfl

theorem isObject_setChild (document value : Json) (token : String)
    : (document.setChild token value).isObject = document.isObject := by
  cases document with
  | arr items => cases index : Pointer.arrayIndex token <;> simp [setChild, index, isObject]
  | null | bool _ | int _ | float _ | str _ | obj _ => rfl

/-- An edit below the top level leaves the top-level keys in place. -/
theorem keys_within {document result : Json} {token : String} {change : Json → Option Json}
    (changed : document.within token change = some result)
    : result.keys = document.keys ∧ result.isObject = document.isObject := by
  obtain ⟨child, present, changed⟩ := Option.bind_eq_some_iff.mp changed
  obtain ⟨value, _, same⟩ := Option.bind_eq_some_iff.mp changed
  obtain rfl := Option.some.inj same
  exact ⟨keys_setChild value present, isObject_setChild document value token⟩

theorem mem_keys_insertChild {document result value : Json} {token key : String}
    (inserted : insertChild value token document = some result)
    : key ∈ result.keys ↔ document.isObject ∧ key = token ∨ key ∈ document.keys := by
  cases document with
  | obj members =>
      obtain rfl := Option.some.inj inserted
      simp only [isObject, true_and, keys]
      exact mem_keys_setMember
  | arr items =>
      have listed : ∃ others, result = .arr others := by
        rw [insertChild] at inserted
        split at inserted
        · exact ⟨_, (Option.some.inj inserted).symm⟩
        · obtain ⟨index, _, placed⟩ := Option.bind_eq_some_iff.mp inserted
          split at placed
          · exact ⟨_, (Option.some.inj placed).symm⟩
          · cases placed
      obtain ⟨others, rfl⟩ := listed
      simp [isObject, keys]
  | null | bool _ | int _ | float _ | str _ => cases inserted

theorem mem_keys_removeChild {document result : Json} {token key : String}
    (removed : removeChild token document = some result)
    : (key ∈ result.keys ↔ key ≠ token ∧ key ∈ document.keys)
      ∧ result.isObject = document.isObject := by
  cases document with
  | obj members =>
      rw [removeChild] at removed
      split at removed
      · obtain rfl := Option.some.inj removed
        refine ⟨?_, rfl⟩
        simp only [keys, List.mem_map, List.mem_filter, decide_eq_true_eq]
        constructor
        · intro given
          obtain ⟨field, ⟨member, ne⟩, rfl⟩ := given
          exact ⟨ne, field, member, rfl⟩
        · intro given
          obtain ⟨ne, field, member, rfl⟩ := given
          exact ⟨field, ⟨member, ne⟩, rfl⟩
      · cases removed
  | arr items =>
      have listed : ∃ others, result = .arr others := by
        obtain ⟨index, _, placed⟩ := Option.bind_eq_some_iff.mp removed
        split at placed
        · exact ⟨_, (Option.some.inj placed).symm⟩
        · cases placed
      obtain ⟨others, rfl⟩ := listed
      simp [isObject, keys]
  | null | bool _ | int _ | float _ | str _ => cases removed

theorem keys_replaceChild {document result value : Json} {token : String}
    (replaced : replaceChild value token document = some result)
    : result.keys = document.keys := by
  obtain ⟨child, present, rfl⟩ := Option.map_eq_some_iff.mp replaced
  exact keys_setChild value present

end Json

-----------------------------------------------------------------------------------------
-- What a patch decides about a key
-----------------------------------------------------------------------------------------

/-- What an operation does to the presence of a top-level key. -/
inductive Fate where
  | put
  | taken
  | kept
  deriving DecidableEq

namespace Fate

/-- A later decision overrides an earlier one. -/
def andThen (earlier later : Fate) : Fate :=
  match later with
  | .kept => earlier
  | .put | .taken => later

/-- Whether a key is present afterwards, given whether it was before. -/
def Stands (before : Prop) : Fate → Prop
  | .put => True
  | .taken => False
  | .kept => before

theorem stands_congr {before other : Prop} (same : before ↔ other) (fate : Fate)
    : fate.Stands before ↔ fate.Stands other := by
  cases fate
  case kept => exact same
  case put | taken => exact Iff.rfl

theorem stands_iff {before : Prop} {fate : Fate}
    : fate.Stands before ↔ fate ≠ .taken ∧ (fate = .kept → before) := by
  cases fate <;> simp [Stands]

theorem not_stands_iff {before : Prop} {fate : Fate}
    : ¬ fate.Stands before ↔ fate ≠ .put ∧ (fate = .kept → ¬ before) := by
  cases fate <;> simp [Stands]

/-- A key is present as before exactly if no decision says otherwise. -/
theorem stands_iff_before {before : Prop} {fate : Fate}
    : (fate.Stands before ↔ before) ↔ (fate = .put → before) ∧ (fate = .taken → ¬ before) := by
  cases fate <;> simp [Stands]

theorem stands_andThen (before : Prop) (earlier later : Fate)
    : (earlier.andThen later).Stands before ↔ later.Stands (earlier.Stands before) := by
  cases later <;> rfl

end Fate

/-- A value put at a location decides about its own key, and at the root about all keys. -/
def placedFate (path : List String) (value document : Json) (key : String) : Fate :=
  match path with
  | [] => if key ∈ value.keys then .put else .taken
  | [token] => if token = key ∧ document.isObject then .put else .kept
  | _ => .kept

def removedFate (path : List String) (key : String) : Fate :=
  if path = [key] then .taken else .kept

namespace PatchOperation

/-- What an operation decides about a key of the document that it is applied to. -/
def fate (document : Json) (key : String) (operation : PatchOperation) : Fate :=
  let decision : Option Fate :=
    match operation with
    | .add path value => do
        let path ← Pointer.tokens path
        return placedFate path (← value) document key
    | .remove path => do
        let path ← Pointer.tokens path
        return removedFate path key
    | .replace path value => do
        let path ← Pointer.tokens path
        let value ← value
        return if path = [] then placedFate path value document key else .kept
    | .move source path => do
        let source ← Pointer.tokens source
        let path ← Pointer.tokens path
        let value ← document.resolve source
        return if source = path then .kept
          else (removedFate source key).andThen (placedFate path value document key)
    | .copy source path => do
        let source ← Pointer.tokens source
        let path ← Pointer.tokens path
        return placedFate path (← document.resolve source) document key
    | .test _ _ => some .kept
  decision.getD .kept

end PatchOperation

/-- What the last operation that decides about a key decides. -/
def patchFate (equal : Json → Json → Bool) (key : String) : List PatchOperation → Json → Fate
  | [], _ => .kept
  | operation :: rest, document =>
      match operation.apply equal document with
      | none => .kept
      | some next => (operation.fate document key).andThen (patchFate equal key rest next)

namespace Json

variable {document result value : Json} {path : List String}

theorem mem_keys_addAt (added : addAt path value document = some result) (key : String)
    : key ∈ result.keys ↔ (placedFate path value document key).Stands (key ∈ document.keys) := by
  cases path with
  | nil =>
      obtain rfl := Option.some.inj added
      by_cases present : key ∈ value.keys <;> simp [placedFate, Fate.Stands, present]
  | cons token rest =>
      cases rest with
      | nil =>
          have inserted : insertChild value token document = some result := added
          rw [mem_keys_insertChild inserted]
          by_cases hit : token = key
          · cases object : document.isObject <;> simp [placedFate, Fate.Stands, hit, object]
          · simp [placedFate, Fate.Stands, hit, Ne.symm hit]
      | cons next rest =>
          have changed : document.within token (atParent (insertChild value) (next :: rest))
              = some result := added
          rw [(keys_within changed).1]
          rfl

theorem mem_keys_removeAt (removed : removeAt path document = some result) (key : String)
    : (key ∈ result.keys ↔ (removedFate path key).Stands (key ∈ document.keys))
      ∧ result.isObject = document.isObject := by
  cases path with
  | nil => cases removed
  | cons token rest =>
      cases rest with
      | nil =>
          have inserted : removeChild token document = some result := removed
          obtain ⟨kept, object⟩ := @mem_keys_removeChild _ _ _ key inserted
          refine ⟨kept.trans ?_, object⟩
          by_cases hit : token = key
          · simp [removedFate, Fate.Stands, hit]
          · simp [removedFate, Fate.Stands, hit, Ne.symm hit]
      | cons next rest =>
          have changed : document.within token (atParent removeChild (next :: rest))
              = some result := removed
          obtain ⟨kept, object⟩ := keys_within changed
          refine ⟨?_, object⟩
          rw [kept]
          simp [removedFate, Fate.Stands]

theorem mem_keys_replaceAt (replaced : replaceAt path value document = some result)
    (key : String)
    : key ∈ result.keys
      ↔ (if path = [] then placedFate path value document key else .kept : Fate).Stands
          (key ∈ document.keys) := by
  cases path with
  | nil =>
      obtain rfl := Option.some.inj replaced
      by_cases present : key ∈ value.keys <;> simp [placedFate, Fate.Stands, present]
  | cons token rest =>
      have same : result.keys = document.keys := by
        cases rest with
        | nil =>
            have swapped : replaceChild value token document = some result := replaced
            exact keys_replaceChild swapped
        | cons next rest =>
            have changed : document.within token (atParent (replaceChild value) (next :: rest))
                = some result := replaced
            exact (keys_within changed).1
      rw [same]
      simp [Fate.Stands]

theorem placedFate_congr {other : Json} (same : other.isObject = document.isObject)
    (path : List String) (value : Json) (key : String)
    : placedFate path value other key = placedFate path value document key := by
  cases path with
  | nil => rfl
  | cons token rest => cases rest <;> simp [placedFate, same]

end Json

/-- One operation that applies does to a key what it decides about it. -/
theorem PatchOperation.mem_keys_apply {equal : Json → Json → Bool} {operation : PatchOperation}
    {document result : Json} (applied : operation.apply equal document = some result)
    (key : String)
    : key ∈ result.keys ↔ (operation.fate document key).Stands (key ∈ document.keys) := by
  cases operation with
  | add path value =>
      obtain ⟨path, parsed, applied⟩ := Option.bind_eq_some_iff.mp applied
      obtain ⟨value, rfl, applied⟩ := Option.bind_eq_some_iff.mp applied
      rw [Json.mem_keys_addAt applied]
      simp [fate, parsed]
  | remove path =>
      obtain ⟨path, parsed, applied⟩ := Option.bind_eq_some_iff.mp applied
      rw [(Json.mem_keys_removeAt applied key).1]
      simp [fate, parsed]
  | replace path value =>
      obtain ⟨path, parsed, applied⟩ := Option.bind_eq_some_iff.mp applied
      obtain ⟨value, rfl, applied⟩ := Option.bind_eq_some_iff.mp applied
      rw [Json.mem_keys_replaceAt applied]
      simp [fate, parsed]
  | move sourceText pathText =>
      obtain ⟨source, parsedSource, applied⟩ := Option.bind_eq_some_iff.mp applied
      obtain ⟨path, parsed, applied⟩ := Option.bind_eq_some_iff.mp applied
      obtain ⟨value, found, applied⟩ := Option.bind_eq_some_iff.mp applied
      split at applied
      case isTrue same =>
        obtain rfl := Option.some.inj applied
        have decides : (move sourceText pathText).fate document key = .kept := by
          simp only [fate, parsedSource, parsed]
          rw [same] at found
          simp [found, same]
        rw [decides]
        rfl
      case isFalse apart =>
        split at applied
        case isTrue => cases applied
        case isFalse =>
          obtain ⟨left, removed, added⟩ := Option.bind_eq_some_iff.mp applied
          obtain ⟨kept, object⟩ := Json.mem_keys_removeAt removed key
          rw [Json.mem_keys_addAt added, Json.placedFate_congr object, Fate.stands_congr kept,
            ← Fate.stands_andThen]
          simp [fate, parsedSource, parsed, found, apart]
  | copy source path =>
      obtain ⟨source, parsedSource, applied⟩ := Option.bind_eq_some_iff.mp applied
      obtain ⟨path, parsed, applied⟩ := Option.bind_eq_some_iff.mp applied
      obtain ⟨value, found, applied⟩ := Option.bind_eq_some_iff.mp applied
      rw [Json.mem_keys_addAt applied]
      simp [fate, parsedSource, parsed, found]
  | test path value =>
      obtain ⟨path, parsed, applied⟩ := Option.bind_eq_some_iff.mp applied
      obtain ⟨found, _, applied⟩ := Option.bind_eq_some_iff.mp applied
      obtain ⟨value, rfl, applied⟩ := Option.bind_eq_some_iff.mp applied
      obtain ⟨_, same⟩ := Option.ite_none_right_eq_some.mp applied
      obtain rfl := Option.some.inj same
      rfl

/-- A patch that applies leaves a key present exactly if the last decision about it says so. -/
theorem mem_keys_applyPatch {equal : Json → Json → Bool} {patch : List PatchOperation}
    {document result : Json} (applied : applyPatch equal patch document = some result)
    (key : String)
    : key ∈ result.keys ↔ (patchFate equal key patch document).Stands (key ∈ document.keys) := by
  induction patch generalizing document with
  | nil =>
      obtain rfl := Option.some.inj applied
      rfl
  | cons operation rest ih =>
      obtain ⟨next, step, applied⟩ := Option.bind_eq_some_iff.mp applied
      rw [ih applied, patchFate, step, Fate.stands_congr (operation.mem_keys_apply step key),
        ← Fate.stands_andThen]

-----------------------------------------------------------------------------------------
-- Runs of patches
-----------------------------------------------------------------------------------------

section Runs

variable {equal : Json → Json → Bool} {patch : List PatchOperation} {document result : Json}

theorem applyPatch_append (patch later : List PatchOperation) (document : Json)
    : applyPatch equal (patch ++ later) document
      = (applyPatch equal patch document).bind (applyPatch equal later) := by
  induction patch generalizing document with
  | nil => rfl
  | cons operation rest ih =>
      rw [List.cons_append, applyPatch, applyPatch, Option.bind_assoc]
      congr 1
      funext next
      exact ih next

/-- Every operation of a patch that applies is applied to some document. -/
theorem applied_of_mem (applied : applyPatch equal patch document = some result)
    {operation : PatchOperation} (member : operation ∈ patch)
    : ∃ before after, operation.apply equal before = some after := by
  induction patch generalizing document with
  | nil => cases member
  | cons head rest ih =>
      obtain ⟨next, step, later⟩ := Option.bind_eq_some_iff.mp applied
      rcases List.mem_cons.mp member with rfl | inRest
      · exact ⟨document, next, step⟩
      · exact ih later inRest

/-- A decision of a patch is the decision of one of its operations. -/
theorem exists_of_patchFate {key : String} {fate : Fate}
    (decided : patchFate equal key patch document = fate) (decides : fate ≠ .kept)
    : ∃ operation ∈ patch, ∃ before, operation.fate before key = fate := by
  induction patch generalizing document with
  | nil => exact absurd decided.symm decides
  | cons operation rest ih =>
      rw [patchFate] at decided
      split at decided
      case h_1 => exact absurd decided.symm decides
      case h_2 next step =>
        by_cases later : patchFate equal key rest next = fate
        · obtain ⟨other, member, before, found⟩ := ih later
          exact ⟨other, List.mem_cons_of_mem _ member, before, found⟩
        · refine ⟨operation, List.mem_cons_self, document, ?_⟩
          cases last : patchFate equal key rest next with
          | kept => rwa [last] at decided
          | put | taken =>
              rw [last] at decided later
              exact absurd decided later

end Runs

-----------------------------------------------------------------------------------------
-- Members named by plain pointers
-----------------------------------------------------------------------------------------

namespace Pointer

/-- A slash and a name point to the tokens between the slashes of the name. -/
theorem tokens_slash (name : String)
    : tokens ("/" ++ name)
      = (name.toList.splitOn '/').mapM (fun part => (unescape part).map String.ofList) := by
  have chars : ("/" ++ name).toList = '/' :: name.toList := by simp
  have nonempty : "/" ++ name ≠ "" := by
    intro empty
    rw [empty] at chars
    cases chars
  rw [tokens, if_neg nonempty, chars, List.splitOn_cons_eq_if_modifyHead]
  simp only [beq_self_eq_true, if_true]

theorem tokens_slash_ne_nil (name : String) : tokens ("/" ++ name) ≠ some [] := by
  intro parsed
  rw [tokens_slash] at parsed
  cases split : name.toList.splitOn '/' with
  | nil => exact List.splitOn_ne_nil _ _ split
  | cons head rest =>
      rw [split, List.mapM_cons] at parsed
      obtain ⟨_, _, parsed⟩ := Option.bind_eq_some_iff.mp parsed
      obtain ⟨_, _, parsed⟩ := Option.bind_eq_some_iff.mp parsed
      cases parsed

/-- A name free of slashes and escapes is its own pointer. -/
def Clean (name : String) : Prop := '/' ∉ name.toList ∧ '~' ∉ name.toList

theorem tokens_of_clean {name : String} (clean : Clean name)
    : tokens ("/" ++ name) = some [name] := by
  rw [tokens_slash, List.splitOn_eq_singleton clean.1, List.mapM_cons, unescape_of_plain clean.2]
  simp

/-- A pointer to a single token spells it, with its escapes, after the slash. -/
theorem spelled_of_single {name token : String} (parsed : tokens ("/" ++ name) = some [token])
    : '/' ∉ name.toList ∧ unescape name.toList = some token.toList := by
  have first := head?_splitOn '/' name.toList
  have joined : ['/'].intercalate (name.toList.splitOn '/') = name.toList :=
    List.intercalate_splitOn '/'
  rw [tokens_slash] at parsed
  cases split : name.toList.splitOn '/' with
  | nil => exact absurd split (List.splitOn_ne_nil _ _)
  | cons head rest =>
      rw [split, List.mapM_cons] at parsed
      obtain ⟨shown, unescaped, parsed⟩ := Option.bind_eq_some_iff.mp parsed
      obtain ⟨others, later, parsed⟩ := Option.bind_eq_some_iff.mp parsed
      obtain ⟨rfl, rfl⟩ := List.cons.inj (Option.some.inj parsed)
      have none : rest = [] := by
        cases rest with
        | nil => rfl
        | cons next rest =>
            rw [List.mapM_cons] at later
            obtain ⟨_, _, later⟩ := Option.bind_eq_some_iff.mp later
            obtain ⟨_, _, later⟩ := Option.bind_eq_some_iff.mp later
            cases later
      subst none
      have whole : head = name.toList := by simpa [split] using joined
      subst whole
      rw [split] at first
      have kept := List.takeWhile_eq_self_iff.mp (Option.some.inj first).symm
      obtain ⟨token, plain, rfl⟩ := Option.map_eq_some_iff.mp unescaped
      refine ⟨fun member => by simpa using kept _ member, ?_⟩
      rw [plain, String.toList_ofList]

end Pointer

-----------------------------------------------------------------------------------------
-- Decisions of operations below the root
-----------------------------------------------------------------------------------------

namespace PatchOperation

variable {document : Json} {key name : String}

/-- An addition below the root decides about the key that its single token is. -/
theorem fate_add (value : Json)
    : (add ("/" ++ name) (some value)).fate document key = .kept
      ∨ (add ("/" ++ name) (some value)).fate document key = .put
        ∧ Pointer.tokens ("/" ++ name) = some [key] := by
  cases parsed : Pointer.tokens ("/" ++ name) with
  | none => exact .inl (by simp [fate, parsed])
  | some path =>
      have decision : (add ("/" ++ name) (some value)).fate document key
          = placedFate path value document key := by simp [fate, parsed]
      rw [decision]
      cases path with
      | nil => exact absurd parsed (Pointer.tokens_slash_ne_nil name)
      | cons token rest =>
          cases rest with
          | nil =>
              by_cases hit : token = key ∧ document.isObject
              · exact .inr ⟨if_pos hit, by rw [hit.1]⟩
              · exact .inl (if_neg hit)
          | cons next rest => exact .inl rfl

theorem fate_remove
    : (remove ("/" ++ name)).fate document key = .kept
      ∨ (remove ("/" ++ name)).fate document key = .taken
        ∧ Pointer.tokens ("/" ++ name) = some [key] := by
  cases parsed : Pointer.tokens ("/" ++ name) with
  | none => exact .inl (by simp [fate, parsed])
  | some path =>
      by_cases hit : path = [key]
      · exact .inr ⟨by simp [fate, parsed, removedFate, hit], by rw [hit]⟩
      · exact .inl (by simp [fate, parsed, removedFate, hit])

/-- A replacement below the root decides about no key. -/
theorem fate_replace (value : Option Json)
    : (replace ("/" ++ name) value).fate document key = .kept := by
  cases parsed : Pointer.tokens ("/" ++ name) with
  | none => simp [fate, parsed]
  | some path =>
      have below : path ≠ [] := fun root => Pointer.tokens_slash_ne_nil name (root ▸ parsed)
      cases value <;> simp [fate, parsed, below]

end PatchOperation

namespace Json

variable {members : List (String × Json)} {result value : Json}

theorem getMember_filter_ne (members : List (String × Json)) (key other : String)
    : getMember (members.filter (fun field => field.1 ≠ key)) other
      = if other = key then none else getMember members other := by
  induction members with
  | nil => simp [getMember]
  | cons head rest ih =>
      by_cases hit : head.1 = key
      · rw [List.filter_cons_of_neg (by simpa using hit), ih, getMember, hit]
        by_cases same : other = key
        · simp [same]
        · simp [same, Ne.symm same]
      · rw [List.filter_cons_of_pos (by simpa using hit), getMember, getMember, ih]
        by_cases same : head.1 = other
        · simp [← same, hit]
        · simp [same]

/-- A replacement in an object reaches the member that its first token names. -/
theorem replaceAt_obj (token : String) (rest : List String) (value : Json)
    : replaceAt (token :: rest) value (.obj members)
      = (getMember members token).bind (fun child =>
          (replaceAt rest value child).map (fun next => .obj (setMember members token next))) := by
  cases rest with
  | nil =>
      change (getMember members token).map _ = _
      cases getMember members token <;> rfl
  | cons next rest =>
      change (getMember members token).bind _ = _
      congr 1
      funext child
      cases replaced : atParent (replaceChild value) (next :: rest) child with
      | none => simp [replaceAt, replaced]
      | some result =>
          simp [replaceAt, replaced]
          rfl

/-- Nothing is replaced below a value that has no parts. -/
theorem replaceAt_scalar {scalar : Json} (bare : ∀ token, scalar.child? token = none)
    {path : List String} (replaced : replaceAt path value scalar = some result)
    : path = [] := by
  cases path with
  | nil => rfl
  | cons token rest =>
      cases rest with
      | nil =>
          have swapped : replaceChild value token scalar = some result := replaced
          rw [replaceChild, bare token] at swapped
          cases swapped
      | cons next rest =>
          have changed : scalar.within token (atParent (replaceChild value) (next :: rest))
              = some result := replaced
          rw [within, bare token] at changed
          cases changed

end Json

/-- Values added under plain names are found there, and all else is as it was. -/
theorem applyPatch_adds {equal : Json → Json → Bool} {names : List String}
    (clean : ∀ name ∈ names, Pointer.Clean name) (value : String → Json)
    (members : List (String × Json))
    : ∃ next, applyPatch equal
          (names.map (fun name => .add ("/" ++ name) (some (value name)))) (.obj members)
          = some (.obj next)
        ∧ ∀ key, Json.getMember next key
            = if key ∈ names then some (value key) else Json.getMember members key := by
  induction names generalizing members with
  | nil => exact ⟨members, rfl, fun _ => rfl⟩
  | cons name rest ih =>
      have step : (PatchOperation.add ("/" ++ name) (some (value name))).apply equal (.obj members)
          = some (.obj (Json.setMember members name (value name))) := by
        simp [PatchOperation.apply, Pointer.tokens_of_clean (clean name List.mem_cons_self),
          Json.addAt, Json.atParent, Json.insertChild]
      obtain ⟨next, run, found⟩ := ih (fun other member => clean other (List.mem_cons_of_mem _ member))
        (Json.setMember members name (value name))
      refine ⟨next, ?_, ?_⟩
      · rw [List.map_cons, applyPatch, step]
        exact run
      · intro key
        rw [found key, Json.getMember_setMember]
        by_cases later : key ∈ rest
        · simp [later]
        · by_cases same : name = key
          · simp [same]
          · simp [later, same, Ne.symm same]

/-- Members removed by plain names are gone, and all else is as it was. -/
theorem applyPatch_removes {equal : Json → Json → Bool} {names : List String}
    (clean : ∀ name ∈ names, Pointer.Clean name) (nodup : names.Nodup)
    {members : List (String × Json)}
    (present : ∀ name ∈ names, (Json.getMember members name).isSome)
    : ∃ next, applyPatch equal (names.map (fun name => .remove ("/" ++ name))) (.obj members)
          = some (.obj next)
        ∧ ∀ key, Json.getMember next key
            = if key ∈ names then none else Json.getMember members key := by
  induction names generalizing members with
  | nil => exact ⟨members, rfl, fun _ => rfl⟩
  | cons name rest ih =>
      obtain ⟨fresh, restNodup⟩ := List.nodup_cons.mp nodup
      have step : (PatchOperation.remove ("/" ++ name)).apply equal (.obj members)
          = some (.obj (members.filter (fun field => field.1 ≠ name))) := by
        simp [PatchOperation.apply, Pointer.tokens_of_clean (clean name List.mem_cons_self),
          Json.removeAt, Json.atParent, Json.removeChild, present name List.mem_cons_self]
      obtain ⟨next, run, found⟩ := @ih (fun other member => clean other (List.mem_cons_of_mem _ member))
        restNodup (members.filter (fun field => field.1 ≠ name)) (by
          intro other member
          have ne : other ≠ name := fun same => fresh (same ▸ member)
          rw [Json.getMember_filter_ne, if_neg ne]
          exact present other (List.mem_cons_of_mem _ member))
      refine ⟨next, ?_, ?_⟩
      · rw [List.map_cons, applyPatch, step]
        exact run
      · intro key
        rw [found key, Json.getMember_filter_ne]
        by_cases later : key ∈ rest
        · simp [later]
        · by_cases same : key = name
          · simp [same]
          · simp [later, same]

-----------------------------------------------------------------------------------------
-- Members replaced by null
-----------------------------------------------------------------------------------------

/-- Replace by null whatever each name, read as a pointer after a slash, leads to. -/
def nullings (names : List String) : List PatchOperation :=
  names.map (fun name => .replace ("/" ++ name) (some .null))

section Nullings

variable {equal : Json → Json → Bool} {name : String} {names : List String}
  {members known : List (String × Json)} {result : Json}

/-- One replacement in an object changes the member that its first token names. -/
theorem apply_nulling
    : (PatchOperation.replace ("/" ++ name) (some .null)).apply equal (.obj members) = some result
      ↔ ∃ token rest child next, Pointer.tokens ("/" ++ name) = some (token :: rest)
        ∧ Json.getMember members token = some child
        ∧ Json.replaceAt rest .null child = some next
        ∧ result = .obj (Json.setMember members token next) := by
  cases parsed : Pointer.tokens ("/" ++ name) with
  | none => simp [PatchOperation.apply, parsed]
  | some path =>
      cases path with
      | nil => exact absurd parsed (Pointer.tokens_slash_ne_nil name)
      | cons token rest =>
          have run : (PatchOperation.replace ("/" ++ name) (some .null)).apply equal (.obj members)
              = Json.replaceAt (token :: rest) .null (.obj members) := by
            simp [PatchOperation.apply, parsed]
          rw [run, Json.replaceAt_obj, Option.bind_eq_some_iff]
          constructor
          · intro given
            obtain ⟨child, found, replaced⟩ := given
            obtain ⟨next, changed, rfl⟩ := Option.map_eq_some_iff.mp replaced
            exact ⟨token, rest, child, next, rfl, found, changed, rfl⟩
          · intro given
            obtain ⟨other, others, child, next, same, found, changed, rfl⟩ := given
            obtain ⟨rfl, rfl⟩ := List.cons.inj (Option.some.inj same)
            exact ⟨child, found, by rw [changed, Option.map_some]⟩

theorem nulling_cases
    (applied : applyPatch equal (nullings (name :: names)) (.obj members) = some result)
    : ∃ token rest child next, Pointer.tokens ("/" ++ name) = some (token :: rest)
      ∧ Json.getMember members token = some child
      ∧ Json.replaceAt rest .null child = some next
      ∧ applyPatch equal (nullings names) (.obj (Json.setMember members token next))
        = some result := by
  obtain ⟨middle, step, applied⟩ := Option.bind_eq_some_iff.mp applied
  obtain ⟨token, rest, child, next, parsed, found, changed, rfl⟩ := apply_nulling.mp step
  exact ⟨token, rest, child, next, parsed, found, changed, applied⟩

theorem applyPatch_nulling {token : String} {rest : List String} {child next : Json}
    (parsed : Pointer.tokens ("/" ++ name) = some (token :: rest))
    (found : Json.getMember members token = some child)
    (changed : Json.replaceAt rest .null child = some next)
    : applyPatch equal (nullings (name :: names)) (.obj members)
      = applyPatch equal (nullings names) (.obj (Json.setMember members token next)) := by
  have step := (@apply_nulling equal _ _ _).mpr ⟨token, rest, child, next, parsed, found, changed, rfl⟩
  change Option.bind _ _ = _
  rw [step]
  rfl

/-- A member that is null stays null. -/
theorem null_of_nullings {final : List (String × Json)} {key : String}
    (applied : applyPatch equal (nullings names) (.obj members) = some (.obj final))
    (null : Json.getMember members key = some .null)
    : Json.getMember final key = some .null := by
  induction names generalizing members with
  | nil =>
      obtain rfl := Json.obj.inj (Option.some.inj applied)
      exact null
  | cons name names ih =>
      obtain ⟨token, rest, child, next, _, found, changed, later⟩ := nulling_cases applied
      refine ih later ?_
      rw [Json.getMember_setMember]
      by_cases same : token = key
      · rw [same, null] at found
        obtain rfl := Option.some.inj found
        obtain rfl := Json.replaceAt_scalar (fun _ => rfl) changed
        rw [if_pos same, ← changed]
        rfl
      · rw [if_neg same, null]

/-- What can be replaced in an object can be replaced in one that has more members, and other
values only where the first has null.
-/
theorem nullings_extend (applied : applyPatch equal (nullings names) (.obj known) = some result)
    (covers : ∀ key value, Json.getMember known key = some value →
      Json.getMember members key = some value
        ∨ value = .null ∧ (Json.getMember members key).isSome)
    : ∃ next, applyPatch equal (nullings names) (.obj members) = some (.obj next)
      ∧ (∀ key, Json.getMember known key = none →
          Json.getMember next key = Json.getMember members key)
      ∧ ∀ key, (Json.getMember next key).isSome = (Json.getMember members key).isSome := by
  induction names generalizing known members with
  | nil => exact ⟨members, rfl, fun _ _ => rfl, fun _ => rfl⟩
  | cons name names ih =>
      obtain ⟨token, rest, child, next, parsed, found, changed, later⟩ := nulling_cases applied
      -- The member that is reached has the same value, or both are replaced as a whole.
      obtain ⟨other, present, replaced⟩ : ∃ other, Json.getMember members token = some other
          ∧ Json.replaceAt rest .null other = some next := by
        rcases covers token child found with same | ⟨rfl, there⟩
        · exact ⟨child, same, changed⟩
        · obtain ⟨other, present⟩ := Option.isSome_iff_exists.mp there
          obtain rfl := Json.replaceAt_scalar (fun _ => rfl) changed
          exact ⟨other, present, changed⟩
      obtain ⟨final, run, apart, kept⟩ := @ih (Json.setMember members token next)
        (Json.setMember known token next) later (by
          intro key value read
          rw [Json.getMember_setMember] at read ⊢
          by_cases same : token = key
          · rw [if_pos same] at read ⊢
            exact .inl read
          · rw [if_neg same] at read ⊢
            exact covers key value read)
      refine ⟨final, ?_, ?_, ?_⟩
      · rw [applyPatch_nulling parsed present replaced]
        exact run
      · intro key unknown
        have ne : token ≠ key := by
          intro same
          rw [same, unknown] at found
          cases found
        rw [apart key (by rw [Json.getMember_setMember, if_neg ne, unknown]),
          Json.getMember_setMember, if_neg ne]
      · intro key
        rw [kept key, Json.getMember_setMember]
        by_cases same : token = key
        · rw [if_pos same, ← same, present]
          rfl
        · rw [if_neg same]

/-- If replacements do not touch the members that are true, they apply without them. -/
theorem nullings_restrict {final : List (String × Json)}
    (applied : applyPatch equal (nullings names) (.obj members) = some (.obj final))
    (restricts : ∀ key, Json.getMember known key = Json.getMember members key
      ∨ Json.getMember known key = none ∧ Json.getMember members key = some (.bool true))
    (untouched : ∀ key, Json.getMember known key = none →
      Json.getMember members key = some (.bool true) →
      Json.getMember final key = some (.bool true))
    : (applyPatch equal (nullings names) (.obj known)).isSome := by
  induction names generalizing known members with
  | nil => rfl
  | cons name names ih =>
      obtain ⟨token, rest, child, next, parsed, found, changed, later⟩ := nulling_cases applied
      rcases restricts token with same | ⟨unknown, whole⟩
      · rw [applyPatch_nulling parsed (same.trans found) changed]
        refine ih later ?_ ?_
        · intro key
          rw [Json.getMember_setMember, Json.getMember_setMember]
          by_cases hit : token = key
          · rw [if_pos hit, if_pos hit]
            exact .inl rfl
          · rw [if_neg hit, if_neg hit]
            exact restricts key
        · intro key unknown
          rw [Json.getMember_setMember] at unknown ⊢
          by_cases hit : token = key
          · rw [if_pos hit] at unknown
            cases unknown
          · rw [if_neg hit] at unknown ⊢
            exact untouched key unknown
      · -- A true member can only be replaced as a whole, and then it is null in the end.
        rw [whole] at found
        obtain rfl := Option.some.inj found
        obtain rfl := Json.replaceAt_scalar (fun _ => rfl) changed
        obtain rfl := Option.some.inj changed
        have gone := null_of_nullings later (by rw [Json.getMember_setMember, if_pos rfl])
        rw [untouched token unknown whole] at gone
        cases gone

end Nullings

end Py
