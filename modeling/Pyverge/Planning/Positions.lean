import Pyverge.Planning.BottomUp

/-! Positions of a payload and what is found there.
A matcher looks at one value at a time. Collecting what it finds everywhere and collecting only
the outermost finds differ by the finds that lie below another one.
-/

namespace Pyverge

open Py (Json)

variable {α : Type}

-----------------------------------------------------------------------------------------
-- Values at positions
-----------------------------------------------------------------------------------------

/-- The value at a position, which lists and objects lead to. -/
def at? : Path → Json → Option Json
  | [], value => some value
  | step :: rest, value => (item? value step).bind (at? rest)

theorem at?_append (path below : Path) (value : Json)
    : at? (path ++ below) value = (at? path value).bind (at? below) := by
  induction path generalizing value with
  | nil => rfl
  | cons step rest ih =>
      simp only [List.cons_append, at?]
      cases item? value step with
      | none => rfl
      | some child => exact ih child

theorem get_of_at? {path : Path} {value found : Json} (position : at? path value = some found)
    : path.get value = .ok found := by
  induction path generalizing value with
  | nil =>
      obtain rfl := Option.some.inj position
      rfl
  | cons step rest ih =>
      obtain ⟨child, here, below⟩ := Option.bind_eq_some_iff.mp position
      rw [Path.get_cons (getItem_of_item? here), ih below]

theorem isPosition_iff {path : Path} {value : Json}
    : IsPosition path value ↔ ∃ found, at? path value = some found := by
  induction path generalizing value with
  | nil => simp [IsPosition, at?]
  | cons step rest ih =>
      simp only [IsPosition, at?, ih, Option.bind_eq_some_iff]
      constructor
      · rintro ⟨child, here, found, below⟩
        exact ⟨found, child, here, below⟩
      · rintro ⟨found, child, here, below⟩
        exact ⟨child, here, found, below⟩

/-- A member of an object without repeated keys is the value of its key. -/
theorem getMember_of_mem {members : List (String × Json)} (nodup : (members.map Prod.fst).Nodup)
    {name : String} {value : Json} (member : (name, value) ∈ members)
    : Json.getMember members name = some value := by
  induction members with
  | nil => simp at member
  | cons head rest ih =>
      obtain ⟨fresh, others⟩ := List.nodup_cons.mp nodup
      rcases List.mem_cons.mp member with rfl | later
      · simp [Json.getMember]
      · have differ : head.1 ≠ name := by
          rintro rfl
          exact fresh (List.mem_map.mpr ⟨_, later, rfl⟩)
        simp [Json.getMember, differ, ih others later]

theorem mem_of_getMember {members : List (String × Json)} {name : String} {value : Json}
    (found : Json.getMember members name = some value)
    : (name, value) ∈ members := by
  induction members with
  | nil => simp [Json.getMember] at found
  | cons head rest ih =>
      obtain ⟨key, old⟩ := head
      by_cases hit : key = name
      · simp only [Json.getMember, if_pos hit, Option.some.injEq] at found
        simp [hit, found]
      · simp only [Json.getMember, if_neg hit] at found
        exact List.mem_cons_of_mem _ (ih found)

/-- A child of a well-formed value is well-formed. -/
theorem WellFormed.item {value child : Json} {step : PathStep} (wellFormed : WellFormed value)
    (found : item? value step = some child)
    : WellFormed child := by
  cases value <;> cases step <;> simp only [item?, reduceCtorEq] at found
  case arr.index items place => exact wellFormed_item wellFormed found
  case obj.key members name => exact wellFormed_member wellFormed.2 found

theorem WellFormed.at? {value found : Json} {path : Path} (wellFormed : WellFormed value)
    (position : at? path value = some found)
    : WellFormed found := by
  induction path generalizing value with
  | nil =>
      obtain rfl := Option.some.inj position
      exact wellFormed
  | cons step rest ih =>
      obtain ⟨child, here, below⟩ := Option.bind_eq_some_iff.mp position
      exact ih (wellFormed.item here) below

-----------------------------------------------------------------------------------------
-- Finds
-----------------------------------------------------------------------------------------

/-- A find below a step. -/
def under (step : PathStep) (find : Path × α) : Path × α := (step :: find.1, find.2)

section Finds

variable (deep : Bool) (matched : Json → Option α)

/-- What the matcher finds at the value itself. -/
def own (value : Json) : List (Path × α) := (matched value).toList.map (fun find => ([], find))

/-- Whether to look below a value. -/
def descends (value : Json) : Bool := deep || (matched value).isNone

mutual
/-- The finds in a value, each before those below it: all of them, or only those that do not lie
below another one.
-/
def finds : Json → List (Path × α)
  | .arr items =>
      own matched (.arr items) ++ if descends deep matched (.arr items) then findsItems 0 items else []
  | .obj members =>
      own matched (.obj members)
        ++ if descends deep matched (.obj members) then findsMembers members else []
  | .null => own matched .null
  | .bool value => own matched (.bool value)
  | .int value => own matched (.int value)
  | .float literal => own matched (.float literal)
  | .str value => own matched (.str value)

def findsItems (place : Nat) : List Json → List (Path × α)
  | [] => []
  | item :: rest => (finds item).map (under (.index place)) ++ findsItems (place + 1) rest

def findsMembers : List (String × Json) → List (Path × α)
  | [] => []
  | (name, value) :: rest => (finds value).map (under (.key name)) ++ findsMembers rest
end

end Finds

section Members

variable {deep : Bool} {matched : Json → Option α}

theorem mem_findsItems {place : Nat} {items : List Json} {path : Path} {find : α}
    : (path, find) ∈ findsItems deep matched place items
      ↔ ∃ offset item rest, items[offset]? = some item ∧ path = .index (place + offset) :: rest
          ∧ (rest, find) ∈ finds deep matched item := by
  induction items generalizing place with
  | nil => simp [findsItems]
  | cons head tail ih =>
      simp only [findsItems, List.mem_append, ih, List.mem_map, under]
      constructor
      · rintro (⟨⟨rest, hit⟩, inside, same⟩ | ⟨offset, item, rest, found, rfl, inside⟩)
        · obtain ⟨rfl, rfl⟩ := Prod.ext_iff.mp same
          exact ⟨0, head, rest, rfl, rfl, inside⟩
        · exact ⟨offset + 1, item, rest, found, by rw [Nat.add_assoc, Nat.add_comm 1], inside⟩
      · rintro ⟨offset, item, rest, found, rfl, inside⟩
        cases offset with
        | zero =>
            obtain rfl : head = item := by simpa using found
            exact .inl ⟨(rest, find), inside, rfl⟩
        | succ offset =>
            refine .inr ⟨offset, item, rest, by simpa using found, ?_, inside⟩
            rw [Nat.add_assoc, Nat.add_comm 1]

theorem mem_findsMembers {members : List (String × Json)} {path : Path} {find : α}
    : (path, find) ∈ findsMembers deep matched members
      ↔ ∃ name value rest, (name, value) ∈ members ∧ path = .key name :: rest
          ∧ (rest, find) ∈ finds deep matched value := by
  induction members with
  | nil => simp [findsMembers]
  | cons head tail ih =>
      obtain ⟨key, old⟩ := head
      simp only [findsMembers, List.mem_append, ih, List.mem_map, under]
      constructor
      · rintro (⟨⟨rest, hit⟩, inside, same⟩ | ⟨name, value, rest, member, rfl, inside⟩)
        · obtain ⟨rfl, rfl⟩ := Prod.ext_iff.mp same
          exact ⟨key, old, rest, List.mem_cons_self, rfl, inside⟩
        · exact ⟨name, value, rest, List.mem_cons_of_mem _ member, rfl, inside⟩
      · rintro ⟨name, value, rest, member, rfl, inside⟩
        rcases List.mem_cons.mp member with same | later
        · obtain ⟨rfl, rfl⟩ := Prod.ext_iff.mp same
          exact .inl ⟨(rest, find), inside, rfl⟩
        · exact .inr ⟨name, value, rest, later, rfl, inside⟩

theorem mem_own {value : Json} {path : Path} {find : α}
    : (path, find) ∈ own matched value ↔ path = [] ∧ matched value = some find := by
  simp [own, and_comm, eq_comm]

/-- A find is at the value itself, or below one of its steps. -/
theorem mem_finds_cons {value : Json} (wellFormed : WellFormed value) {step : PathStep}
    {rest : Path} {find : α}
    : (step :: rest, find) ∈ finds deep matched value
      ↔ descends deep matched value = true
        ∧ ∃ child, item? value step = some child ∧ (rest, find) ∈ finds deep matched child := by
  cases value with
  | arr items =>
      simp only [finds, List.mem_append, mem_own, reduceCtorEq, false_and, false_or]
      split
      case isTrue descend =>
        rw [mem_findsItems]
        simp only [descend, true_and, List.cons.injEq, Nat.zero_add]
        constructor
        · rintro ⟨offset, item, below, found, ⟨rfl, rfl⟩, inside⟩
          exact ⟨item, found, inside⟩
        · rintro ⟨child, found, inside⟩
          cases step with
          | key name => cases found
          | index place => exact ⟨place, child, rest, found, ⟨rfl, rfl⟩, inside⟩
      case isFalse stop => simp [stop]
  | obj members =>
      simp only [finds, List.mem_append, mem_own, reduceCtorEq, false_and, false_or]
      split
      case isTrue descend =>
        rw [mem_findsMembers]
        simp only [descend, true_and, List.cons.injEq]
        constructor
        · rintro ⟨name, value, below, member, ⟨rfl, rfl⟩, inside⟩
          exact ⟨value, getMember_of_mem wellFormed.1 member, inside⟩
        · rintro ⟨child, found, inside⟩
          cases step with
          | key name => exact ⟨name, child, rest, mem_of_getMember found, ⟨rfl, rfl⟩, inside⟩
          | index place => cases found
      case isFalse stop => simp [stop]
  | null | bool | int | float | str => simp [finds, mem_own, item?]

theorem mem_finds_nil {value : Json} {find : α}
    : ([], find) ∈ finds deep matched value ↔ matched value = some find := by
  cases value with
  | arr items =>
      simp only [finds, List.mem_append, mem_own, true_and, or_iff_left_iff_imp]
      split
      · intro inside
        obtain ⟨offset, item, rest, -, impossible, -⟩ := mem_findsItems.mp inside
        cases impossible
      · simp
  | obj members =>
      simp only [finds, List.mem_append, mem_own, true_and, or_iff_left_iff_imp]
      split
      · intro inside
        obtain ⟨name, value, rest, -, impossible, -⟩ := mem_findsMembers.mp inside
        cases impossible
      · simp
  | null | bool | int | float | str => simp [finds, mem_own]

/-- Whatever is found is what some value is matched to. -/
theorem matched_of_mem_finds {value : Json} {path : Path} {find : α}
    (member : (path, find) ∈ finds deep matched value)
    : ∃ found, matched found = some find := by
  induction path generalizing value with
  | nil => exact ⟨value, mem_finds_nil.mp member⟩
  | cons step rest ih =>
      cases value with
      | arr items =>
          simp only [finds, List.mem_append, mem_own, reduceCtorEq, false_and, false_or] at member
          split at member
          · obtain ⟨_, item, below, _, same, inside⟩ := mem_findsItems.mp member
            obtain rfl := (List.cons.inj same).2
            exact ih inside
          · cases member
      | obj members =>
          simp only [finds, List.mem_append, mem_own, reduceCtorEq, false_and, false_or] at member
          split at member
          · obtain ⟨_, nested, below, _, same, inside⟩ := mem_findsMembers.mp member
            obtain rfl := (List.cons.inj same).2
            exact ih inside
          · cases member
      | null | bool | int | float | str => simp [finds, mem_own] at member

/-- The finds are the positions whose values match; unless all are asked for, nothing above them
matches. The induction follows the path.
-/
theorem mem_finds {value : Json} (wellFormed : WellFormed value) {path : Path} {find : α}
    : (path, find) ∈ finds deep matched value
      ↔ (∃ found, at? path value = some found ∧ matched found = some find)
        ∧ (deep = true ∨ ∀ above below, path = above ++ below → below ≠ [] →
          ∀ found, at? above value = some found → matched found = none) := by
  induction path generalizing value with
  | nil =>
      rw [mem_finds_nil]
      simp only [at?, Option.some.injEq, exists_eq_left', List.nil_eq, List.append_eq_nil_iff]
      constructor
      · intro hit
        exact ⟨hit, .inr (fun above below both ne => absurd both.2 ne)⟩
      · intro given
        exact given.1
  | cons step rest ih =>
      rw [mem_finds_cons wellFormed]
      simp only [at?, Option.bind_eq_some_iff]
      constructor
      · rintro ⟨descend, child, here, inside⟩
        obtain ⟨⟨found, below, hit⟩, shallow⟩ := (ih (wellFormed.item here)).mp inside
        refine ⟨⟨found, ⟨child, here, below⟩, hit⟩, ?_⟩
        rcases shallow with all | clear
        · exact .inl all
        · cases deep with
          | true => exact .inl rfl
          | false =>
              refine .inr ?_
              intro above later split nonempty value' at_
              cases above with
              | nil =>
                  obtain rfl := Option.some.inj at_
                  simpa [descends] using descend
              | cons first others =>
                  obtain ⟨rfl, tail⟩ := List.cons.inj split
                  obtain ⟨other, here', deeper⟩ := Option.bind_eq_some_iff.mp at_
                  obtain rfl := Option.some.inj (here.symm.trans here')
                  exact clear others later tail nonempty value' deeper
      · rintro ⟨⟨found, ⟨child, here, below⟩, hit⟩, shallow⟩
        refine ⟨?_, child, here, (ih (wellFormed.item here)).mpr ⟨⟨found, below, hit⟩, ?_⟩⟩
        · rcases shallow with all | clear
          · simp [descends, all]
          · simp [descends, clear [] (step :: rest) rfl (by simp) value rfl]
        · rcases shallow with all | clear
          · exact .inl all
          · refine .inr ?_
            intro above later split nonempty value' at_
            refine clear (step :: above) later (by rw [split]; rfl) nonempty value' ?_
            simp [at?, here, at_]

-----------------------------------------------------------------------------------------
-- All finds and the outermost ones
-----------------------------------------------------------------------------------------

mutual
/-- The outermost finds are among all finds, in the same order. -/
theorem finds_sublist (value : Json)
    : (finds false matched value).Sublist (finds true matched value) := by
  cases value with
  | arr items =>
      simp only [finds, descends, Bool.true_or, if_true, Bool.false_or]
      apply (List.Sublist.refl _).append
      split
      · exact findsItems_sublist 0 items
      · exact List.nil_sublist _
  | obj members =>
      simp only [finds, descends, Bool.true_or, if_true, Bool.false_or]
      apply (List.Sublist.refl _).append
      split
      · exact findsMembers_sublist members
      · exact List.nil_sublist _
  | null | bool | int | float | str => exact List.Sublist.refl _

theorem findsItems_sublist (place : Nat) (items : List Json)
    : (findsItems false matched place items).Sublist (findsItems true matched place items) := by
  cases items with
  | nil => exact List.Sublist.refl _
  | cons item rest =>
      exact ((finds_sublist item).map _).append (findsItems_sublist (place + 1) rest)

theorem findsMembers_sublist (members : List (String × Json))
    : (findsMembers false matched members).Sublist (findsMembers true matched members) := by
  cases members with
  | nil => exact List.Sublist.refl _
  | cons member rest =>
      obtain ⟨name, value⟩ := member
      exact ((finds_sublist value).map _).append (findsMembers_sublist rest)
end

theorem map_fst_under (step : PathStep) (list : List (Path × α))
    : (list.map (under step)).map Prod.fst = (list.map Prod.fst).map (step :: ·) := by
  simp [under, List.map_map, Function.comp_def]

mutual
/-- No position is found twice. -/
theorem nodup_finds {value : Json} (wellFormed : WellFormed value)
    : ((finds deep matched value).map Prod.fst).Nodup := by
  have single : ∀ value, ((own matched value).map Prod.fst).Nodup := by
    intro value
    cases hit : matched value <;> simp [own, hit]
  have apart : ∀ (value : Json) (below : List (Path × α)),
      (∀ path ∈ below.map Prod.fst, path ≠ []) → (below.map Prod.fst).Nodup →
      ((own matched value ++ below).map Prod.fst).Nodup := by
    intro value below deeper nodup
    rw [List.map_append, List.nodup_append]
    refine ⟨single value, nodup, ?_⟩
    intro path inside other later
    obtain ⟨⟨path, find⟩, member, rfl⟩ := List.mem_map.mp inside
    obtain ⟨rfl, -⟩ := mem_own.mp member
    exact (deeper other later).symm
  cases value with
  | arr items =>
      apply apart
      · intro path inside
        obtain ⟨⟨path, find⟩, member, rfl⟩ := List.mem_map.mp inside
        split at member
        · obtain ⟨offset, item, rest, -, rfl, -⟩ := mem_findsItems.mp member
          simp
        · simp at member
      · split
        · exact nodup_findsItems 0 wellFormed
        · simp
  | obj members =>
      apply apart
      · intro path inside
        obtain ⟨⟨path, find⟩, member, rfl⟩ := List.mem_map.mp inside
        split at member
        · obtain ⟨name, value, rest, -, rfl, -⟩ := mem_findsMembers.mp member
          simp
        · simp at member
      · split
        · exact nodup_findsMembers wellFormed.1 wellFormed.2
        · simp
  | null | bool | int | float | str => exact single _

theorem nodup_findsItems (place : Nat) {items : List Json} (wellFormed : WellFormedItems items)
    : ((findsItems deep matched place items).map Prod.fst).Nodup := by
  cases items with
  | nil => simp [findsItems]
  | cons item rest =>
      rw [findsItems, List.map_append, map_fst_under, List.nodup_append]
      refine ⟨(nodup_finds wellFormed.1).map (List.cons_injective), ?_, ?_⟩
      · exact nodup_findsItems (place + 1) wellFormed.2
      · intro path inside other later same
        obtain ⟨tail, -, rfl⟩ := List.mem_map.mp inside
        obtain ⟨⟨other, find⟩, member, rfl⟩ := List.mem_map.mp later
        obtain ⟨offset, item, below, -, rfl, -⟩ := mem_findsItems.mp member
        simp at same
        omega

theorem nodup_findsMembers {members : List (String × Json)}
    (keys : (members.map Prod.fst).Nodup) (wellFormed : WellFormedMembers members)
    : ((findsMembers deep matched members).map Prod.fst).Nodup := by
  cases members with
  | nil => simp [findsMembers]
  | cons member rest =>
      obtain ⟨name, value⟩ := member
      obtain ⟨fresh, others⟩ := List.nodup_cons.mp keys
      rw [findsMembers, List.map_append, map_fst_under, List.nodup_append]
      refine ⟨(nodup_finds wellFormed.1).map (List.cons_injective), ?_, ?_⟩
      · exact nodup_findsMembers others wellFormed.2
      · intro path inside other later same
        obtain ⟨tail, -, rfl⟩ := List.mem_map.mp inside
        obtain ⟨⟨other, find⟩, member, rfl⟩ := List.mem_map.mp later
        obtain ⟨key, value, below, inside, rfl, -⟩ := mem_findsMembers.mp member
        obtain rfl : name = key := by simpa using (List.cons.inj same).1
        exact fresh (List.mem_map.mpr ⟨_, inside, rfl⟩)
end

/-- Some find lies below another one. -/
def HasNested (matched : Json → Option α) (value : Json) : Prop :=
  ∃ above below, below ≠ []
    ∧ (∃ outer, at? above value = some outer ∧ (matched outer).isSome = true)
    ∧ ∃ inner, at? (above ++ below) value = some inner ∧ (matched inner).isSome = true

/-- All finds are outermost exactly if none lies below another one. -/
theorem finds_eq_iff {value : Json} (wellFormed : WellFormed value)
    : finds false matched value = finds true matched value ↔ ¬HasNested matched value := by
  constructor
  · rintro same ⟨above, below, nonempty, ⟨outer, at_, hit⟩, inner, deeper, found⟩
    obtain ⟨find, hitInner⟩ := Option.isSome_iff_exists.mp found
    have all : (above ++ below, find) ∈ finds true matched value :=
      (mem_finds wellFormed).mpr ⟨⟨inner, deeper, hitInner⟩, .inl rfl⟩
    rw [← same] at all
    rcases ((mem_finds wellFormed).mp all).2 with wrong | clear
    · cases wrong
    · simp [clear above below rfl nonempty outer at_] at hit
  · intro flat
    have nodup : (finds true matched value).Nodup := (nodup_finds wellFormed).of_map
    apply (finds_sublist value).eq_of_length_le
    apply List.Subperm.length_le
    apply List.subperm_of_subset nodup
    rintro ⟨path, find⟩ member
    obtain ⟨⟨found, at_, hit⟩, -⟩ := (mem_finds wellFormed).mp member
    refine (mem_finds wellFormed).mpr ⟨⟨found, at_, hit⟩, .inr ?_⟩
    rintro above below rfl nonempty outer there
    by_contra some
    apply flat
    refine ⟨above, below, nonempty, ⟨outer, there, ?_⟩, found, at_, by simp [hit]⟩
    exact Option.isSome_iff_ne_none.mpr some

end Members

-----------------------------------------------------------------------------------------
-- Putting values back
-----------------------------------------------------------------------------------------

theorem isPosition_of_replaceAt {path : Path} {value replacement updated : Json}
    (replaced : replaceAt value path replacement = .ok updated)
    : IsPosition path value := by
  induction path generalizing value updated with
  | nil => trivial
  | cons step rest ih =>
      obtain ⟨child, next, found, inner, _⟩ := replaceAt_cons.mp replaced
      exact ⟨child, found, ih inner⟩

/-- Replacing the value at a position by itself changes nothing. -/
theorem replaceAt_self {path : Path} {value found : Json} (position : at? path value = some found)
    : replaceAt value path found = .ok value := by
  induction path generalizing value with
  | nil =>
      obtain rfl := Option.some.inj position
      rfl
  | cons step rest ih =>
      obtain ⟨child, here, below⟩ := Option.bind_eq_some_iff.mp position
      exact replaceAt_cons.mpr ⟨child, child, here, ih below, (setItem_item? here).symm⟩

/-- A read value can be put back exactly at positions, and that changes nothing. -/
theorem replaceAt_get_iff {path : Path} {value found updated : Json}
    (read : path.get value = .ok found)
    : replaceAt value path found = .ok updated ↔ IsPosition path value ∧ updated = value := by
  constructor
  · intro replaced
    have position := isPosition_of_replaceAt replaced
    obtain ⟨own, at_⟩ := isPosition_iff.mp position
    obtain rfl := Except.ok.inj ((get_of_at? at_).symm.trans read)
    exact ⟨position, Except.ok.inj (replaced.symm.trans (replaceAt_self at_))⟩
  · intro given
    obtain ⟨position, rfl⟩ := given
    obtain ⟨own, at_⟩ := isPosition_iff.mp position
    obtain rfl := Except.ok.inj ((get_of_at? at_).symm.trans read)
    exact replaceAt_self at_

section Unchanged

variable {E : Type} {path : E → Path} {act : E → Json → Option Json}

/-- A level that acts on nothing puts back what it has read. -/
theorem runLevel_unchanged_iff {level : List E} {data next : Json}
    (idle : ∀ entry ∈ level, ∀ value, act entry value = some value)
    : runLevel path act data level = some next
      ↔ (∀ entry ∈ level, IsPosition (path entry) data) ∧ next = data := by
  unfold runLevel
  induction level with
  | nil => simp [readLevel, applyAll, eq_comm]
  | cons entry rest ih =>
      cases read : (path entry).get data with
      | error raised =>
          simp only [readLevel, read, Except.toOption, Option.bind_none, reduceCtorEq, false_iff]
          intro given
          obtain ⟨found, at_⟩ := isPosition_iff.mp (given.1 entry List.mem_cons_self)
          cases read.symm.trans (get_of_at? at_)
      | ok found =>
          simp only [readLevel, read, Except.toOption, Option.bind_some,
            idle entry List.mem_cons_self, Option.bind_map, List.forall_mem_cons,
            Function.comp_def, applyAll, List.foldlM_cons]
          cases replaced : replaceAt data (path entry) found with
          | error raised =>
              refine iff_of_false (by simp [bind]) ?_
              intro given
              cases replaced.symm.trans ((replaceAt_get_iff read).mpr ⟨given.1.1, rfl⟩)
          | ok updated =>
              obtain ⟨position, rfl⟩ := (replaceAt_get_iff read).mp replaced
              simp only [Option.bind_eq_bind, Option.bind_some, position, true_and]
              exact ih (fun other member => idle other (List.mem_cons_of_mem _ member))

/-- Levels that act on nothing leave the payload as it is, if all entries are positions of it. -/
theorem runLevels_unchanged_iff {levels : List (List E)} {data next : Json}
    (idle : ∀ level ∈ levels, ∀ entry ∈ level, ∀ value, act entry value = some value)
    : runLevels path act data levels = some next
      ↔ (∀ level ∈ levels, ∀ entry ∈ level, IsPosition (path entry) data) ∧ next = data := by
  unfold runLevels
  induction levels with
  | nil => simp [eq_comm]
  | cons level rest ih =>
      have later := ih (fun other member => idle other (List.mem_cons_of_mem _ member))
      simp only [List.foldlM_cons, Option.bind_eq_bind, Option.bind_eq_some_iff,
        runLevel_unchanged_iff (idle level List.mem_cons_self), List.forall_mem_cons]
      constructor
      · intro given
        obtain ⟨middle, ⟨positions, rfl⟩, ran⟩ := given
        obtain ⟨others, same⟩ := later.mp ran
        exact ⟨⟨positions, others⟩, same⟩
      · intro given
        obtain ⟨⟨positions, others⟩, same⟩ := given
        exact ⟨data, ⟨positions, rfl⟩, later.mpr ⟨others, same⟩⟩

end Unchanged

end Pyverge
