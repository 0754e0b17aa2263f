import Pyverge.Planning.PathPlan

/-! Rewriting a payload from the leaves to the root.
The recursive definition says what migrating nested entries means; the level loop reaches the
same payload because each entry it takes finds everything below it rewritten already and
nothing above it.
-/

namespace Pyverge

open Py (Json)

variable {E : Type}

-----------------------------------------------------------------------------------------
-- The recursive rewriting
-----------------------------------------------------------------------------------------

/-- What is done at each position after its children have been rewritten. -/
abbrev Rewriting := Path → Json → Option Json

/-- The rewriting of the positions below a step. -/
def Rewriting.below (rewrite : Rewriting) (step : PathStep) : Rewriting :=
  fun path => rewrite (step :: path)

/-- The rewriting that leaves every position as it is. -/
def Rewriting.nothing : Rewriting := fun _ => some

def Rewriting.update (rewrite : Rewriting) (place : Path) (act : Json → Option Json) : Rewriting :=
  fun path => if path = place then act else rewrite path

mutual
/-- Rewrite the children of a value and then the value itself. -/
def bottomUp (rewrite : Rewriting) : Json → Option Json
  | .arr items => (bottomUpItems rewrite 0 items).bind (fun done => rewrite [] (.arr done))
  | .obj members => (bottomUpMembers rewrite members).bind (fun done => rewrite [] (.obj done))
  | .null => rewrite [] .null
  | .bool value => rewrite [] (.bool value)
  | .int value => rewrite [] (.int value)
  | .float literal => rewrite [] (.float literal)
  | .str value => rewrite [] (.str value)

def bottomUpItems (rewrite : Rewriting) (place : Nat) : List Json → Option (List Json)
  | [] => some []
  | item :: rest =>
      (bottomUp (rewrite.below (.index place)) item).bind (fun head =>
        (bottomUpItems rewrite (place + 1) rest).map (head :: ·))

def bottomUpMembers (rewrite : Rewriting)
    : List (String × Json) → Option (List (String × Json))
  | [] => some []
  | (name, value) :: rest =>
      (bottomUp (rewrite.below (.key name)) value).bind (fun head =>
        (bottomUpMembers rewrite rest).map ((name, head) :: ·))
end

/-- The path leads through lists and objects to a position of the value. -/
def IsPosition : Path → Json → Prop
  | [], _ => True
  | step :: rest, value => ∃ child, item? value step = some child ∧ IsPosition rest child

mutual
/-- No object has a key twice. -/
def WellFormed : Json → Prop
  | .arr items => WellFormedItems items
  | .obj members => (members.map Prod.fst).Nodup ∧ WellFormedMembers members
  | .null | .bool _ | .int _ | .float _ | .str _ => True

def WellFormedItems : List Json → Prop
  | [] => True
  | item :: rest => WellFormed item ∧ WellFormedItems rest

def WellFormedMembers : List (String × Json) → Prop
  | [] => True
  | (_, value) :: rest => WellFormed value ∧ WellFormedMembers rest
end

mutual
theorem bottomUp_nothing (value : Json) : bottomUp .nothing value = some value := by
  cases value with
  | arr items => simp [bottomUp, bottomUpItems_nothing, Rewriting.nothing]
  | obj members => simp [bottomUp, bottomUpMembers_nothing, Rewriting.nothing]
  | null | bool | int | float | str => simp [bottomUp, Rewriting.nothing]

theorem bottomUpItems_nothing (place : Nat) (items : List Json)
    : bottomUpItems .nothing place items = some items := by
  cases items with
  | nil => rfl
  | cons item rest =>
      have below : Rewriting.nothing.below (.index place) = .nothing := rfl
      simp [bottomUpItems, below, bottomUp_nothing item, bottomUpItems_nothing _ rest]

theorem bottomUpMembers_nothing (members : List (String × Json))
    : bottomUpMembers .nothing members = some members := by
  cases members with
  | nil => rfl
  | cons member rest =>
      obtain ⟨name, value⟩ := member
      have below : Rewriting.nothing.below (.key name) = .nothing := rfl
      simp [bottomUpMembers, below, bottomUp_nothing value, bottomUpMembers_nothing rest]
end

-----------------------------------------------------------------------------------------
-- Rewriting one more position
-----------------------------------------------------------------------------------------

/-- Rewrite one position of a payload: read it, act on it and put the result back. -/
def rewriteAt (place : Path) (act : Json → Option Json) (data : Json) : Option Json :=
  (place.get data).toOption.bind (fun value =>
    (act value).bind (fun result => (replaceAt data place result).toOption))

theorem rewriteAt_nil (act : Json → Option Json) (data : Json)
    : rewriteAt [] act data = act data := by
  simp [rewriteAt, Path.get, replaceAt, Except.toOption]

/-- Rewriting below a step rewrites the child and puts it back. -/
theorem rewriteAt_cons {data child : Json} {step : PathStep} (found : item? data step = some child)
    (rest : Path) (act : Json → Option Json)
    : rewriteAt (step :: rest) act data
      = (rewriteAt rest act child).map (setItem data step) := by
  have replaced : ∀ result, (replaceAt data (step :: rest) result).toOption
      = (replaceAt child rest result).toOption.map (setItem data step) := by
    intro result
    cases inner : replaceAt child rest result with
    | ok next => 
      rw [replaceAt_cons.mpr ⟨child, next, found, inner, rfl⟩]
      rfl
    | error raised =>
        cases outer : replaceAt data (step :: rest) result with
        | error _ => rfl
        | ok updated =>
            obtain ⟨other, next, same, run, _⟩ := replaceAt_cons.mp outer
            obtain rfl := Option.some.inj (found.symm.trans same)
            rw [inner] at run
            cases run
  simp only [rewriteAt, Path.get_cons (getItem_of_item? found), replaced]
  cases Path.get rest child with
  | error raised => rfl
  | ok value =>
      simp only [Except.toOption, Option.bind_some]
      cases act value <;> rfl

theorem below_update_self (rewrite : Rewriting) (step : PathStep) (rest : Path)
    (act : Json → Option Json)
    : (rewrite.update (step :: rest) act).below step = (rewrite.below step).update rest act := by
  funext path
  simp [Rewriting.below, Rewriting.update]

theorem below_update_ne (rewrite : Rewriting) {step other : PathStep} (ne : other ≠ step)
    (rest : Path) (act : Json → Option Json)
    : (rewrite.update (step :: rest) act).below other = rewrite.below other := by
  funext path
  simp [Rewriting.below, Rewriting.update, ne]

/-- Items before the updated one are rewritten as before. -/
theorem bottomUpItems_update_later (rewrite : Rewriting) {place : Nat} (rest : Path)
    (act : Json → Option Json) (items : List Json) (start : Nat) (later : place < start)
    : bottomUpItems (rewrite.update (.index place :: rest) act) start items
      = bottomUpItems rewrite start items := by
  induction items generalizing start with
  | nil => rfl
  | cons item more ih =>
      have ne : PathStep.index start ≠ .index place := by
        simp only [ne_eq, PathStep.index.injEq]
        omega
      simp only [bottomUpItems, below_update_ne rewrite ne, ih (start + 1) (by omega)]

/-- Change one item of a list by a partial function. -/
def changeItem (change : Json → Option Json) : List Json → Nat → Option (List Json)
  | [], _ => none
  | item :: rest, 0 => (change item).map (· :: rest)
  | item :: rest, place + 1 => (changeItem change rest place).map (item :: ·)

theorem changeItem_eq {items : List Json} {place : Nat} {item : Json}
    (found : items[place]? = some item) (change : Json → Option Json)
    : changeItem change items place = (change item).map (items.set place) := by
  induction items generalizing place with
  | nil => simp at found
  | cons head rest ih =>
      cases place with
      | zero =>
          obtain rfl : head = item := by simpa using found
          rfl
      | succ place =>
          simp only [changeItem, ih (by simpa using found), Option.map_map]
          rfl

/-- Updating the rewriting below one item only affects that item. -/
theorem bottomUpItems_update (rewrite : Rewriting) (rest : Path) (act : Json → Option Json)
    {items : List Json} {offset : Nat} {item : Json} (found : items[offset]? = some item)
    (start : Nat) {change : Json → Option Json}
    (child : bottomUp ((rewrite.below (.index (start + offset))).update rest act) item
      = (bottomUp (rewrite.below (.index (start + offset))) item).bind change)
    : bottomUpItems (rewrite.update (.index (start + offset) :: rest) act) start items
      = (bottomUpItems rewrite start items).bind (changeItem change · offset) := by
  induction items generalizing start offset with
  | nil => simp at found
  | cons head more ih =>
      cases offset with
      | zero =>
          obtain rfl : head = item := by simpa using found
          have others := bottomUpItems_update_later rewrite rest act more (start + 1)
            (Nat.lt_succ_self start)
          simp only [Nat.add_zero] at child ⊢
          simp only [bottomUpItems, below_update_self, child, others]
          cases bottomUp (rewrite.below (.index start)) head with
          | none => rfl
          | some done =>
              simp only [Option.bind_some]
              cases bottomUpItems rewrite (start + 1) more with
              | none => cases change done <;> rfl
              | some tail =>
                  simp only [Option.map_some, Option.bind_some, changeItem]
                  cases change done <;> rfl
      | succ offset =>
          have next : start + (offset + 1) = start + 1 + offset := by omega
          rw [next] at child ⊢
          have ne : PathStep.index start ≠ .index (start + 1 + offset) := by
            simp only [ne_eq, PathStep.index.injEq]
            omega
          have inner := ih (by simpa using found) (start + 1) child
          simp only [bottomUpItems, below_update_ne rewrite ne, inner]
          cases bottomUp (rewrite.below (.index start)) head with
          | none => rfl
          | some done =>
              cases bottomUpItems rewrite (start + 1) more <;> rfl

/-- Change the value of one key by a partial function. -/
def changeMember (change : Json → Option Json)
    : List (String × Json) → String → Option (List (String × Json))
  | [], _ => none
  | (name, value) :: rest, key =>
      if name = key then (change value).map (fun next => (name, next) :: rest)
      else (changeMember change rest key).map ((name, value) :: ·)

theorem changeMember_eq {members : List (String × Json)} {key : String} {value : Json}
    (found : Json.getMember members key = some value) (change : Json → Option Json)
    : changeMember change members key = (change value).map (Json.setMember members key) := by
  induction members with
  | nil => simp [Json.getMember] at found
  | cons head rest ih =>
      obtain ⟨name, old⟩ := head
      by_cases hit : name = key
      · subst hit
        simp only [Json.getMember, if_true, Option.some.injEq] at found
        subst found
        simp [changeMember, Json.setMember]
      · simp only [Json.getMember, if_neg hit] at found
        simp only [changeMember, if_neg hit, ih found, Option.map_map]
        congr 1
        funext next
        simp [Json.setMember, hit]

/-- Members with another key are rewritten as before. -/
theorem bottomUpMembers_update_absent (rewrite : Rewriting) {key : String} (rest : Path)
    (act : Json → Option Json) (members : List (String × Json))
    (absent : key ∉ members.map Prod.fst)
    : bottomUpMembers (rewrite.update (.key key :: rest) act) members
      = bottomUpMembers rewrite members := by
  induction members with
  | nil => rfl
  | cons head more ih =>
      obtain ⟨name, value⟩ := head
      simp only [List.map_cons, List.mem_cons, not_or] at absent
      have ne : PathStep.key name ≠ .key key := fun same => absent.1 (PathStep.key.inj same).symm
      simp only [bottomUpMembers, below_update_ne rewrite ne, ih absent.2]

/-- Updating the rewriting below one key only affects that key, since no other member has it. -/
theorem bottomUpMembers_update (rewrite : Rewriting) (rest : Path) (act : Json → Option Json)
    {members : List (String × Json)} {key : String} {value : Json}
    (distinct : (members.map Prod.fst).Nodup) (found : Json.getMember members key = some value)
    {change : Json → Option Json}
    (child : bottomUp ((rewrite.below (.key key)).update rest act) value
      = (bottomUp (rewrite.below (.key key)) value).bind change)
    : bottomUpMembers (rewrite.update (.key key :: rest) act) members
      = (bottomUpMembers rewrite members).bind (changeMember change · key) := by
  induction members with
  | nil => simp [Json.getMember] at found
  | cons head more ih =>
      obtain ⟨name, old⟩ := head
      obtain ⟨fresh, distinctMore⟩ := List.nodup_cons.mp distinct
      by_cases hit : name = key
      · subst hit
        simp only [Json.getMember, if_true, Option.some.injEq] at found
        subst found
        have others := bottomUpMembers_update_absent rewrite rest act more fresh
        simp only [bottomUpMembers, below_update_self, child, others]
        cases bottomUp (rewrite.below (.key name)) old with
        | none => rfl
        | some done =>
            simp only [Option.bind_some]
            cases bottomUpMembers rewrite more with
            | none => cases change done <;> rfl
            | some tail =>
                simp only [Option.map_some, Option.bind_some, changeMember, if_true]
                cases change done <;> rfl
      · have ne : PathStep.key name ≠ .key key := fun same => hit (PathStep.key.inj same)
        simp only [Json.getMember, if_neg hit] at found
        simp only [bottomUpMembers, below_update_ne rewrite ne, ih distinctMore found]
        cases bottomUp (rewrite.below (.key name)) old with
        | none => rfl
        | some done =>
            cases bottomUpMembers rewrite more with
            | none => rfl
            | some tail => simp [changeMember, hit]

theorem wellFormed_item {items : List Json} {place : Nat} {item : Json}
    (wellFormed : WellFormedItems items) (found : items[place]? = some item)
    : WellFormed item := by
  induction items generalizing place with
  | nil => simp at found
  | cons head rest ih =>
      cases place with
      | zero =>
          obtain rfl : head = item := by simpa using found
          exact wellFormed.1
      | succ place => exact ih wellFormed.2 (by simpa using found)

theorem wellFormed_member {members : List (String × Json)} {key : String} {value : Json}
    (wellFormed : WellFormedMembers members) (found : Json.getMember members key = some value)
    : WellFormed value := by
  induction members with
  | nil => simp [Json.getMember] at found
  | cons head rest ih =>
      obtain ⟨name, old⟩ := head
      by_cases hit : name = key
      · simp only [Json.getMember, if_pos hit, Option.some.injEq] at found
        exact found ▸ wellFormed.1
      · simp only [Json.getMember, if_neg hit] at found
        exact ih wellFormed.2 found

/-- The rewriting does nothing at the path and above it. -/
def Rewriting.ClearTo (rewrite : Rewriting) (path : Path) : Prop :=
  ∀ place, place <+: path → rewrite place = some

theorem Rewriting.ClearTo.below {rewrite : Rewriting} {step : PathStep} {rest : Path}
    (clear : rewrite.ClearTo (step :: rest))
    : (rewrite.below step).ClearTo rest :=
  fun place initial => clear (step :: place) ((List.prefix_cons_inj step).mpr initial)

theorem bottomUpItems_getElem? {rewrite : Rewriting} {items done : List Json} {start : Nat}
    (run : bottomUpItems rewrite start items = some done) {offset : Nat} {item : Json}
    (found : items[offset]? = some item)
    : ∃ next, done[offset]? = some next := by
  induction items generalizing done start offset with
  | nil => simp at found
  | cons head more ih =>
      obtain ⟨first, _, tail⟩ := Option.bind_eq_some_iff.mp run
      obtain ⟨others, inner, rfl⟩ := Option.map_eq_some_iff.mp tail
      cases offset with
      | zero => exact ⟨first, rfl⟩
      | succ offset =>
          obtain ⟨next, at_⟩ := ih inner (by simpa using found)
          exact ⟨next, by simpa using at_⟩

theorem bottomUpMembers_getMember {rewrite : Rewriting} {members done : List (String × Json)}
    (run : bottomUpMembers rewrite members = some done) {key : String} {value : Json}
    (found : Json.getMember members key = some value)
    : ∃ next, Json.getMember done key = some next := by
  induction members generalizing done with
  | nil => simp [Json.getMember] at found
  | cons head more ih =>
      obtain ⟨name, old⟩ := head
      obtain ⟨first, _, tail⟩ := Option.bind_eq_some_iff.mp run
      obtain ⟨others, inner, rfl⟩ := Option.map_eq_some_iff.mp tail
      by_cases hit : name = key
      · exact ⟨first, by simp [Json.getMember, hit]⟩
      · simp only [Json.getMember, if_neg hit] at found
        obtain ⟨next, held⟩ := ih inner found
        exact ⟨next, by simp [Json.getMember, hit, held]⟩

/-- Rewritings that agree below the root rewrite the children alike. -/
theorem bottomUpItems_congr {left right : Rewriting}
    (same : ∀ step path, left (step :: path) = right (step :: path)) (start : Nat)
    (items : List Json)
    : bottomUpItems left start items = bottomUpItems right start items := by
  have below : ∀ step, left.below step = right.below step := fun step => funext (same step)
  induction items generalizing start with
  | nil => rfl
  | cons item rest ih => simp only [bottomUpItems, below, ih]

theorem bottomUpMembers_congr {left right : Rewriting}
    (same : ∀ step path, left (step :: path) = right (step :: path))
    (members : List (String × Json))
    : bottomUpMembers left members = bottomUpMembers right members := by
  have below : ∀ step, left.below step = right.below step := fun step => funext (same step)
  induction members with
  | nil => rfl
  | cons member rest ih =>
      obtain ⟨name, value⟩ := member
      simp only [bottomUpMembers, below, ih]

/-- Updating the rewriting at a position that it leaves alone, as well as everything above,
rewrites that one position of the result. The induction follows the path.
-/
theorem bottomUp_update {rewrite : Rewriting} {place : Path} {value : Json}
    (clear : rewrite.ClearTo place) (position : IsPosition place value)
    (wellFormed : WellFormed value) (act : Json → Option Json)
    : bottomUp (rewrite.update place act) value
      = (bottomUp rewrite value).bind (rewriteAt place act) := by
  induction place generalizing rewrite value with
  | nil =>
      have root : (rewrite.update [] act) [] = act := by simp [Rewriting.update]
      have own : rewrite [] = some := clear [] List.nil_prefix
      have same : ∀ step path, rewrite.update [] act (step :: path) = rewrite (step :: path) := by
        intro step path
        simp [Rewriting.update]
      cases value with
      | arr items =>
          simp only [bottomUp, bottomUpItems_congr same, root, own]
          cases bottomUpItems rewrite 0 items <;> simp [rewriteAt_nil]
      | obj members =>
          simp only [bottomUp, bottomUpMembers_congr same, root, own]
          cases bottomUpMembers rewrite members <;> simp [rewriteAt_nil]
      | null | bool | int | float | str => simp [bottomUp, root, own, rewriteAt_nil]
  | cons step rest ih =>
      obtain ⟨child, found, inner⟩ := position
      have root : (rewrite.update (step :: rest) act) [] = some := by
        simp [Rewriting.update, clear [] List.nil_prefix]
      have own : rewrite [] = some := clear [] List.nil_prefix
      cases value <;> cases step <;> simp only [item?, reduceCtorEq] at found
      case arr.index items offset =>
        have below := ih (clear.below) inner (wellFormed_item wellFormed found)
        have changed := bottomUpItems_update rewrite rest act found 0
          (by simpa using below)
        simp only [Nat.zero_add] at changed
        simp only [bottomUp, root, own, changed]
        cases run : bottomUpItems rewrite 0 items with
        | none => rfl
        | some done =>
            obtain ⟨next, at_⟩ := bottomUpItems_getElem? run found
            have step : item? (.arr done) (.index offset) = some next := at_
            simp only [Option.bind_some, rewriteAt_cons step, changeItem_eq at_]
            cases rewriteAt rest act next <;> rfl
      case obj.key members key =>
        obtain ⟨distinct, values⟩ := wellFormed
        have below := ih clear.below inner (wellFormed_member values found)
        have changed := bottomUpMembers_update rewrite rest act distinct found below
        simp only [bottomUp, root, own, changed]
        cases run : bottomUpMembers rewrite members with
        | none => rfl
        | some done =>
            obtain ⟨next, held⟩ := bottomUpMembers_getMember run found
            have step : item? (.obj done) (.key key) = some next := held
            simp only [Option.bind_some, rewriteAt_cons step, changeMember_eq held]
            cases rewriteAt rest act next <;> rfl

-----------------------------------------------------------------------------------------
-- The level loop
-----------------------------------------------------------------------------------------

/-- Put results back at their paths, one after the other. -/
def applyAll (data : Json) (results : List (Path × Json)) : Option Json :=
  results.foldlM (fun data result => (replaceAt data result.1 result.2).toOption) data

/-- Read every entry of a level from the same payload and act on it. -/
def readLevel (path : E → Path) (act : E → Json → Option Json) (data : Json)
    : List E → Option (List (Path × Json))
  | [] => some []
  | entry :: rest =>
      (((path entry).get data).toOption.bind (act entry)).bind (fun result =>
        (readLevel path act data rest).map ((path entry, result) :: ·))

def runLevel (path : E → Path) (act : E → Json → Option Json) (data : Json) (level : List E)
    : Option Json :=
  (readLevel path act data level).bind (applyAll data)

def runLevels (path : E → Path) (act : E → Json → Option Json) (data : Json)
    (levels : List (List E)) : Option Json :=
  levels.foldlM (runLevel path act) data

/-- One failed entry fails the reading of its level. -/
theorem readLevel_of_none {path : E → Path} {act : E → Json → Option Json} {data : Json}
    {level : List E} {entry : E} (inside : entry ∈ level)
    (failed : ((path entry).get data).toOption.bind (act entry) = none)
    : readLevel path act data level = none := by
  induction level with
  | nil => cases inside
  | cons first rest ih =>
      rcases List.mem_cons.mp inside with rfl | later
      · rw [readLevel, failed]
        rfl
      · rw [readLevel, ih later]
        simp

/-- An entry that fails on every value fails the level loop. -/
theorem runLevels_of_refused {path : E → Path} {act : E → Json → Option Json} {entry : E}
    {level : List E} {levels : List (List E)} (member : level ∈ levels) (inside : entry ∈ level)
    (refused : ∀ value, act entry value = none) (data : Json)
    : runLevels path act data levels = none := by
  induction levels generalizing data with
  | nil => cases member
  | cons first rest ih =>
      rw [runLevels, List.foldlM_cons]
      rcases List.mem_cons.mp member with rfl | later
      · have failed : ((path entry).get data).toOption.bind (act entry) = none := by
          cases ((path entry).get data).toOption with
          | none => rfl
          | some value => exact refused value
        rw [runLevel, readLevel_of_none inside failed]
        rfl
      · cases runLevel path act data first with
        | none => rfl
        | some next => exact ih later next

/-- The rewriting that acts on the entry of each path, if there is one. -/
def rewriting (path : E → Path) (act : E → Json → Option Json) (entries : List E) : Rewriting :=
  fun place =>
    match entries.find? (fun entry => path entry = place) with
    | some entry => act entry
    | none => some

section Loop

variable (path : E → Path) (act : E → Json → Option Json)

theorem readLevel_congr {data other : Json} {level : List E}
    (same : ∀ entry ∈ level, (path entry).get other = (path entry).get data)
    : readLevel path act other level = readLevel path act data level := by
  induction level with
  | nil => rfl
  | cons entry rest ih =>
      have tail := ih (fun later member => same later (List.mem_cons_of_mem entry member))
      simp only [readLevel, same entry (by simp), tail]

/-- The entries of a level are apart, so the loop may as well take them one by one. -/
theorem runLevel_eq_foldlM (level : List E) (data : Json)
    (apart : level.Pairwise (fun left right => (path left).Apart (path right)))
    : runLevel path act data level
      = level.foldlM (fun data entry => rewriteAt (path entry) (act entry) data) data := by
  induction level generalizing data with
  | nil => rfl
  | cons entry rest ih =>
      obtain ⟨away, others⟩ := List.pairwise_cons.mp apart
      rw [List.foldlM_cons, rewriteAt, ← Option.bind_assoc, runLevel, readLevel]
      cases ((path entry).get data).toOption.bind (act entry) with
      | none => rfl
      | some result =>
          simp only [Option.bind_some, Option.bind_eq_bind]
          cases replaced : replaceAt data (path entry) result with
          | error raised =>
              cases readLevel path act data rest with
              | none => rfl
              | some results => simp [applyAll, replaced, Except.toOption]
          | ok updated =>
              have same := readLevel_congr path act (fun later member =>
                Path.get_replaceAt_apart replaced (away later member))
              simp only [Except.toOption, Option.bind_some, ← ih updated others, runLevel, same]
              cases readLevel path act data rest with
              | none => rfl
              | some results => simp [applyAll, replaced, Except.toOption]

theorem runLevels_eq_foldlM {levels : List (List E)} (data : Json)
    (apart : ∀ level ∈ levels,
      level.Pairwise (fun left right => (path left).Apart (path right)))
    : runLevels path act data levels
      = levels.flatten.foldlM (fun data entry => rewriteAt (path entry) (act entry) data) data := by
  induction levels generalizing data with
  | nil => rfl
  | cons level rest ih =>
      have first := runLevel_eq_foldlM path act level data (apart level (by simp))
      rw [runLevels, List.foldlM_cons, List.flatten_cons, List.foldlM_append, first]
      congr 1
      funext next
      exact ih next (fun later member => apart later (List.mem_cons_of_mem level member))

/-- Rewriting positions in an order in which nothing follows what lies above it computes the
recursive definition. The invariant of the induction: the rewriting of the entries taken so
far does nothing at or above the entries to come.
-/
theorem foldlM_rewriteAt {value : Json} (wellFormed : WellFormed value) (order : List E)
    (ordered : order.Pairwise (fun earlier later => ¬ path earlier <+: path later))
    (positions : ∀ entry ∈ order, IsPosition (path entry) value) (rewrite : Rewriting)
    (clear : ∀ entry ∈ order, rewrite.ClearTo (path entry))
    : (bottomUp rewrite value).bind
        (order.foldlM (fun data entry => rewriteAt (path entry) (act entry) data))
      = bottomUp (order.foldl (fun rewrite entry => rewrite.update (path entry) (act entry))
          rewrite) value := by
  induction order generalizing rewrite with
  | nil => cases run : bottomUp rewrite value <;> simp [run]
  | cons entry rest ih =>
      obtain ⟨above, others⟩ := List.pairwise_cons.mp ordered
      have step := bottomUp_update (clear entry (by simp)) (positions entry (by simp)) wellFormed
        (act entry)
      have later := ih others (fun other member => positions other (List.mem_cons_of_mem _ member))
        (rewrite.update (path entry) (act entry)) ?_
      · rw [List.foldl_cons, ← later, step, Option.bind_assoc]
        rfl
      · intro other member place initial
        have ne : place ≠ path entry := by
          rintro rfl
          exact above other member initial
        rw [Rewriting.update, if_neg ne]
        exact clear other (List.mem_cons_of_mem _ member) place initial

variable {path act}

/-- Entries at different places are each rewritten at their own. -/
theorem rewriting_of_mem {entries : List E} (distinct : (entries.map path).Nodup) {entry : E}
    (member : entry ∈ entries)
    : rewriting path act entries (path entry) = act entry := by
  unfold rewriting
  cases hit : entries.find? (fun other => path other = path entry) with
  | none =>
      have miss := List.find?_eq_none.mp hit entry member
      simp at miss
  | some chosen =>
      have same : path chosen = path entry := by simpa using List.find?_some hit
      have equal := List.inj_on_of_nodup_map distinct (List.mem_of_find?_eq_some hit) member same
      rw [equal]

theorem rewriting_of_absent {entries : List E} {place : Path}
    (absent : ∀ entry ∈ entries, path entry ≠ place)
    : rewriting path act entries place = some := by
  have none : entries.find? (fun entry => path entry = place) = none := by
    rw [List.find?_eq_none]
    intro entry member
    simpa using absent entry member
  rw [rewriting, none]

/-- Updates at different places are the rewriting of the list of them. -/
theorem foldl_update_eq_rewriting {order entries : List E} (same : order.Perm entries)
    (distinct : (entries.map path).Nodup)
    : order.foldl (fun rewrite entry => rewrite.update (path entry) (act entry)) .nothing
      = rewriting path act entries := by
  have orderDistinct : (order.map path).Nodup := ((same.map path).nodup_iff).mpr distinct
  have general : ∀ (rest : List E) (rewrite : Rewriting), (rest.map path).Nodup →
      ∀ place, rest.foldl (fun rewrite entry => rewrite.update (path entry) (act entry)) rewrite
          place
        = match rest.find? (fun entry => path entry = place) with
          | some entry => act entry
          | none => rewrite place := by
    intro rest
    induction rest with
    | nil => intro rewrite _ place; rfl
    | cons entry rest ih =>
        intro rewrite nodup place
        obtain ⟨fresh, nodupRest⟩ := List.nodup_cons.mp nodup
        rw [List.foldl_cons, ih _ nodupRest, List.find?_cons]
        by_cases hit : path entry = place
        · have none : rest.find? (fun entry => path entry = place) = none := by
            rw [List.find?_eq_none]
            intro other member
            simp only [decide_eq_true_eq]
            rintro equal
            exact fresh (hit.trans equal.symm ▸ List.mem_map_of_mem member)
          simp [none, hit, Rewriting.update]
        · have ne : ¬ place = path entry := fun equal => hit equal.symm
          simp [hit, Rewriting.update, ne]
  funext place
  rw [general order .nothing orderDistinct place, rewriting]
  have found : order.find? (fun entry => path entry = place)
      = entries.find? (fun entry => path entry = place) := by
    cases hit : entries.find? (fun entry => path entry = place) with
    | none =>
        rw [List.find?_eq_none] at hit ⊢
        exact fun entry member => hit entry (same.mem_iff.mp member)
    | some entry =>
        have member := same.mem_iff.mpr (List.mem_of_find?_eq_some hit)
        have at_ : path entry = place := by simpa using List.find?_some hit
        cases other : order.find? (fun entry => path entry = place) with
        | none =>
            have miss := List.find?_eq_none.mp other entry member
            simp [at_] at miss
        | some chosen =>
            have chosenAt : path chosen = place := by simpa using List.find?_some other
            exact congrArg some (List.inj_on_of_nodup_map orderDistinct
              (List.mem_of_find?_eq_some other) member (chosenAt.trans at_.symm))
  rw [found]
  rfl

/-- The level loop computes the recursive rewriting. -/
theorem runLevels_eq_bottomUp {value : Json} (wellFormed : WellFormed value) {entries : List E}
    (distinct : (entries.map path).Nodup)
    (positions : ∀ entry ∈ entries, IsPosition (path entry) value)
    : runLevels path act value (levelsFrom path entries.length entries)
      = bottomUp (rewriting path act entries) value := by
  have perm := levelsFrom_flatten_perm path entries.length entries (Nat.le_refl _)
  have loop := runLevels_eq_foldlM path act value (levelsFrom_apart distinct entries.length)
  have whole := foldlM_rewriteAt path act wellFormed _
    (levelsFrom_ordered distinct entries.length (Nat.le_refl _))
    (fun entry member => positions entry (perm.mem_iff.mp member)) .nothing
    (fun _ _ _ _ => rfl)
  rw [bottomUp_nothing, Option.bind_some, foldl_update_eq_rewriting perm distinct] at whole
  exact loop.trans whole

/-- Rewriting a position changes nothing apart from it. -/
theorem get_rewriteAt_apart {place other : Path} {change : Json → Option Json}
    {data updated : Json} (run : rewriteAt place change data = some updated)
    (apart : place.Apart other)
    : other.get updated = other.get data := by
  obtain ⟨value, _, rest⟩ := Option.bind_eq_some_iff.mp run
  obtain ⟨result, _, replaced⟩ := Option.bind_eq_some_iff.mp rest
  cases done : replaceAt data place result with
  | error raised => simp [done, Except.toOption] at replaced
  | ok next =>
      obtain rfl : next = updated := by simpa [done, Except.toOption] using replaced
      exact Path.get_replaceAt_apart done apart

/-- The loop changes nothing at a place apart from all entries. -/
theorem get_foldlM_rewriteAt {order : List E} {data result : Json} {place : Path}
    (run : order.foldlM (fun data entry => rewriteAt (path entry) (act entry) data) data
      = some result)
    (apart : ∀ entry ∈ order, (path entry).Apart place)
    : place.get result = place.get data := by
  induction order generalizing data with
  | nil =>
      obtain rfl : data = result := by simpa using run
      rfl
  | cons entry rest ih =>
      rw [List.foldlM_cons] at run
      obtain ⟨next, first, later⟩ := Option.bind_eq_some_iff.mp run
      rw [ih later (fun other member => apart other (List.mem_cons_of_mem entry member))]
      exact get_rewriteAt_apart first (apart entry (by simp))

end Loop

end Pyverge
