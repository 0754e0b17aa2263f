import Pyverge.Runtime.NoOps

/-! The table of path plans.
Its keys show the target, the source model and the entries of a request. They tell everything of
them, except for the classes behind qualified names, what a node holds besides its identity, and
the callables inside of dictionaries.
-/

namespace Pyverge

open Py (Json)

variable {V M F H U : Type}

-----------------------------------------------------------------------------------------
-- What a key shows of a policy
-----------------------------------------------------------------------------------------

/-- Resolvers that give the same targets. -/
def ResolveAlike (left right : TargetResolver V) : Prop :=
  ∀ current, (left current).toOption = (right current).toOption

mutual
/-- Dictionaries have every key once. -/
def TargetPolicy.Valid : TargetPolicy V M → Prop
  | .dict items => (items.map Prod.fst).Nodup ∧ validItems items
  | _ => True

def TargetPolicy.validItems : List (String × TargetPolicy V M) → Prop
  | [] => True
  | (_, policy) :: rest => policy.Valid ∧ validItems rest
end

mutual
/-- Policies that agree in what a key leaves out: model classes have one reference, nodes are
equal, and a callable meets a callable that resolves alike. Dictionaries are compared key by key.
-/
def TargetPolicy.Told (models : ModelIdentity M) : TargetPolicy V M → TargetPolicy V M → Prop
  | .model left, .model right => models.ref left = models.ref right
  | .node left, .node right => left = right
  | .callable _ left, .callable _ right => ResolveAlike left right
  | .callable _ _, _ => False
  | _, .callable _ _ => False
  | .dict items, .dict others => toldItems models items others
  | _, _ => True

def TargetPolicy.toldItems (models : ModelIdentity M)
    : List (String × TargetPolicy V M) → List (String × TargetPolicy V M) → Prop
  | [], _ => True
  | (key, policy) :: rest, others =>
      (∀ other ∈ others, other.1 = key → policy.Told models other.2)
        ∧ toldItems models rest others
end

section Texts

variable [VersionValue V] {printable : Char → Bool} {models : ModelIdentity M}

/-- The text that stands for a policy inside of a dictionary. -/
def TargetPolicy.keyText (printable : Char → Bool) (models : ModelIdentity M)
    (policy : TargetPolicy V M) : String :=
  (targetKey printable models policy).getD policy.shown

omit [VersionValue V] in
theorem TargetPolicy.validItems_iff {items : List (String × TargetPolicy V M)}
    : validItems items ↔ ∀ item ∈ items, item.2.Valid := by
  induction items with
  | nil => simp [validItems]
  | cons item rest ih => simp [validItems, ih]

omit [VersionValue V] in
theorem TargetPolicy.toldItems_iff {items others : List (String × TargetPolicy V M)}
    : toldItems models items others
      ↔ ∀ item ∈ items, ∀ other ∈ others, other.1 = item.1 → item.2.Told models other.2 := by
  induction items with
  | nil => simp [toldItems]
  | cons item rest ih => simp only [toldItems, ih, List.forall_mem_cons]

theorem targetKeyItems_eq_map (items : List (String × TargetPolicy V M))
    : targetKeyItems printable models items
      = items.map (fun item => (item.1, item.2.keyText printable models)) := by
  induction items with
  | nil => rfl
  | cons item rest ih => rw [targetKeyItems, ih, List.map_cons]; rfl

/-- The letter of a key that tells the form of its policy; the two quotes count as one. -/
def formOf (letters : List Char) : Option Char :=
  if letters.head? = some 'r' then
    letters[5]?.map (fun letter => if letter = '"' then '\'' else letter)
  else letters.head?

omit [VersionValue V] in
def TargetPolicy.form : TargetPolicy V M → Option Char
  | .nothing => some 'N'
  | .text _ => some '\''
  | .range _ => some 'V'
  | .model _ => some 'm'
  | .node _ => some 'n'
  | .callable _ _ => none
  | .dict _ => some 'd'

omit [VersionValue V] in
theorem VersionRange.repr_eq (printable : Char → Bool) (bounds : VersionRange)
    : bounds.repr printable
      = "VersionRange(gte=" ++ (reprOption printable bounds.gte
        ++ (", lt=" ++ (reprOption printable bounds.lt
          ++ (", eq=" ++ (reprOption printable bounds.eq ++ ")"))))) := by
  unfold VersionRange.repr
  simp only [String.append_assoc]

theorem formOf_range (printable : Char → Bool) (bounds : VersionRange)
    : formOf ("repr:" ++ bounds.repr printable).toList = some 'V' := by
  have starts : ∀ rest : String,
      formOf ("repr:" ++ ("VersionRange(gte=" ++ rest)).toList = some 'V' := by
    intro rest
    simp [formOf]
  have start := starts (reprOption printable bounds.gte ++ (", lt="
    ++ (reprOption printable bounds.lt ++ (", eq=" ++ (reprOption printable bounds.eq ++ ")")))))
  rw [← VersionRange.repr_eq] at start
  exact start

theorem formOf_key {policy : TargetPolicy V M} {key : String}
    (keyed : targetKey printable models policy = some key)
    : formOf key.toList = policy.form := by
  cases policy with
  | callable => simp [targetKey] at keyed
  | text value =>
      simp only [targetKey, Option.some.injEq] at keyed
      rw [← keyed]
      rcases Py.quoteOf_cases value.toList with quote | quote
      · simp [Py.toList_reprStr, quote, formOf, TargetPolicy.form]
      · simp [Py.toList_reprStr, quote, formOf, TargetPolicy.form]
  | nothing =>
      simp only [targetKey, Option.some.injEq] at keyed
      rw [← keyed]
      rfl
  | range bounds =>
      have starts := formOf_range printable bounds
      simp only [targetKey, Option.some.injEq] at keyed
      rw [← keyed]
      exact starts
  | model model =>
      simp only [targetKey, Option.some.injEq] at keyed
      rw [← keyed]
      simp [formOf, TargetPolicy.form]
  | node target =>
      simp only [targetKey, Option.some.injEq] at keyed
      rw [← keyed]
      simp [formOf, TargetPolicy.form]
  | dict items =>
      simp only [targetKey, Option.some.injEq] at keyed
      rw [← keyed]
      simp [formOf, TargetPolicy.form]

/-- An optional text shows where it ends: a quote is no letter of `None`. -/
theorem delimited_reprOption (printable : Char → Bool)
    : Py.Delimited (fun text : Option String => (reprOption printable text).toList) := by
  have apart : ∀ (text : String) (rest other : List Char),
      (Py.reprStr printable text).toList ++ rest ≠ "None".toList ++ other := by
    intro text rest other same
    rw [Py.toList_reprStr] at same
    rcases Py.quoteOf_cases text.toList with quote | quote
    · simp [quote] at same
    · simp [quote] at same
  intro left right rest other same
  cases left with
  | none =>
      cases right with
      | none => exact ⟨rfl, List.append_cancel_left same⟩
      | some text => exact (apart text other rest same.symm).elim
  | some text =>
      cases right with
      | none => exact (apart text rest other same).elim
      | some shown =>
          obtain ⟨rfl, rests⟩ := Py.delimited_reprStr printable _ _ _ _ same
          exact ⟨rfl, rests⟩

theorem VersionRange.repr_inj {printable : Char → Bool} {left right : VersionRange}
    (same : left.repr printable = right.repr printable)
    : left = right := by
  have delimited := delimited_reprOption printable
  have chars := congrArg String.toList same
  simp only [VersionRange.repr_eq, String.toList_append] at chars
  obtain ⟨lowers, chars⟩ := delimited _ _ _ _ (List.append_cancel_left chars)
  obtain ⟨uppers, chars⟩ := delimited _ _ _ _ (List.append_cancel_left chars)
  obtain ⟨exacts, _⟩ := delimited _ _ _ _ (List.append_cancel_left chars)
  cases left
  cases right
  simp only [VersionRange.mk.injEq]
  exact ⟨lowers, uppers, exacts⟩

/-- The text of a dictionary tells the texts of its items. -/
theorem perm_of_dictText {items others : List (String × String)}
    (same : "dict:" ++ Py.reprTuple ((sortItems items).map (fun item =>
          Py.reprTuple [Py.reprStr printable item.1, Py.reprStr printable item.2]))
        = "dict:" ++ Py.reprTuple ((sortItems others).map (fun item =>
          Py.reprTuple [Py.reprStr printable item.1, Py.reprStr printable item.2])))
    : items.Perm others := by
  have pairs : Py.Delimited (fun item : String × String => (Py.reprTuple
      [Py.reprStr printable item.1, Py.reprStr printable item.2]).toList) :=
    Py.delimited_reprPair (Py.delimited_reprStr printable) (Py.delimited_reprStr printable)
  have chars := congrArg String.toList same
  simp only [String.toList_append] at chars
  have tuples := String.toList_inj.mp (List.append_cancel_left chars)
  have sorted := Py.reprTuple_inj pairs tuples
  have left := List.perm_insertionSort (fun left right : String × String => left.1 ≤ right.1) items
  have right := List.perm_insertionSort (fun left right : String × String => left.1 ≤ right.1) others
  unfold sortItems at sorted
  rw [← sorted] at right
  exact left.symm.trans right

/-- How policies of one text look that agree in what the text leaves out. -/
inductive TargetPolicy.Match (printable : Char → Bool) (models : ModelIdentity M)
    : TargetPolicy V M → TargetPolicy V M → Prop
  | same (policy : TargetPolicy V M) : Match printable models policy policy
  | model {left right : M} (refs : models.ref left = models.ref right)
      : Match printable models (.model left) (.model right)
  | callable {leftShown rightShown : String} {left right : TargetResolver V}
      (alike : ResolveAlike left right)
      : Match printable models (.callable leftShown left) (.callable rightShown right)
  | dict {items others : List (String × TargetPolicy V M)}
      (texts : (items.map (fun item => (item.1, item.2.keyText printable models))).Perm
        (others.map (fun item => (item.1, item.2.keyText printable models))))
      (told : ∀ item ∈ items, ∀ other ∈ others, other.1 = item.1 → item.2.Told models other.2)
      : Match printable models (.dict items) (.dict others)

theorem TargetPolicy.match_of_keys {left right : TargetPolicy V M} {key : String}
    (leftKey : targetKey printable models left = some key)
    (rightKey : targetKey printable models right = some key) (told : left.Told models right)
    : left.Match printable models right := by
  have forms : left.form = right.form := (formOf_key leftKey).symm.trans (formOf_key rightKey)
  have keys := leftKey.trans rightKey.symm
  cases left with
  | nothing =>
      cases right with
      | nothing => exact .same _
      | _ => simp [form] at forms
  | text value =>
      cases right with
      | text other =>
          simp only [targetKey, Option.some.injEq] at keys
          have chars := congrArg String.toList keys
          simp only [String.toList_append] at chars
          obtain rfl := (Py.delimited_reprStr printable).injective (List.append_cancel_left chars)
          exact .same _
      | _ => simp [form] at forms
  | range bounds =>
      cases right with
      | range other =>
          simp only [targetKey, Option.some.injEq] at keys
          have chars := congrArg String.toList keys
          simp only [String.toList_append] at chars
          obtain rfl := VersionRange.repr_inj
            (String.toList_inj.mp (List.append_cancel_left chars))
          exact .same _
      | _ => simp [form] at forms
  | model model =>
      cases right with
      | model other => exact .model told
      | _ => simp [form] at forms
  | node target =>
      cases right with
      | node other =>
          obtain rfl := told
          exact .same _
      | _ => simp [form] at forms
  | callable => simp [targetKey] at leftKey
  | dict items =>
      cases right with
      | dict others =>
          simp only [targetKey, Option.some.injEq, targetKeyItems_eq_map] at keys
          exact .dict (perm_of_dictText keys) (toldItems_iff.mp told)
      | _ => simp [form] at forms

/-- A text is the only policy of its key. -/
theorem TargetPolicy.eq_text_of_key {policy : TargetPolicy V M} {value : String}
    (keys : targetKey printable models policy
      = targetKey printable models (.text value : TargetPolicy V M))
    : policy = .text value := by
  obtain ⟨key, keyed⟩ : ∃ key, targetKey printable models (.text value : TargetPolicy V M)
      = some key := ⟨_, rfl⟩
  have forms : policy.form = (.text value : TargetPolicy V M).form :=
    (formOf_key (keys.trans keyed)).symm.trans (formOf_key keyed)
  cases policy with
  | text other =>
      cases match_of_keys (keys.trans keyed) keyed trivial with
      | same => rfl
  | _ => simp [form] at forms

/-- Inside of a dictionary a callable is shown as well. -/
theorem TargetPolicy.match_of_keyText {left right : TargetPolicy V M}
    (texts : left.keyText printable models = right.keyText printable models)
    (told : left.Told models right)
    : left.Match printable models right := by
  cases leftKey : targetKey printable models left with
  | some key =>
      cases rightKey : targetKey printable models right with
      | some other =>
          simp only [keyText, leftKey, rightKey, Option.getD_some] at texts
          exact match_of_keys leftKey (texts ▸ rightKey) told
      | none =>
          cases right with
          | callable shown resolver => cases left <;> simp [Told, targetKey] at told leftKey
          | _ => simp [targetKey] at rightKey
  | none =>
      cases left with
      | callable shown resolver =>
          cases right with
          | callable other _ => exact .callable told
          | _ => simp [Told] at told
      | _ => simp [targetKey] at leftKey

end Texts

-----------------------------------------------------------------------------------------
-- Compiling what a key shows
-----------------------------------------------------------------------------------------

section Compiling

variable [DecidableEq V] [VersionValue V] {printable : Char → Bool} {graph : MigrationGraph V}
  {models : ModelIdentity M}

omit [DecidableEq V] [VersionValue V] in
/-- What the resolver of a key answers. -/
def answerAt (resolvers : List (String × TargetResolver V)) (key : String)
    (current : VersionNode V) : Option (Option (Option (VersionNode V))) :=
  (resolvers.find? (fun item => item.1 = key)).map (fun item => (item.2 current).toOption)

omit [DecidableEq V] [VersionValue V] in
theorem toOption_multiTargetResolver (resolvers : List (String × TargetResolver V))
    (current : VersionNode V)
    : (multiTargetResolver resolvers current).toOption
      = (((if current.id.kind = "*" then none else answerAt resolvers current.id.kind current).or
          (answerAt resolvers "*" current)).getD (some none)) := by
  have byKind : (resolvers.filter (fun item => item.1 ≠ "*")).find?
        (fun item => item.1 = current.id.kind)
      = if current.id.kind = "*" then none
        else resolvers.find? (fun item => item.1 = current.id.kind) := by
    rw [List.find?_filter]
    split
    case isTrue star =>
      rw [List.find?_eq_none]
      intro item _
      simp [star]
    case isFalse other =>
      apply List.find?_congr
      intro item _
      by_cases same : item.1 = current.id.kind
      · simp [same, other]
      · simp [same]
  simp only [multiTargetResolver, byKind, answerAt]
  by_cases star : current.id.kind = "*"
  · rw [if_pos star, if_pos star]
    cases resolvers.find? (fun item => item.1 = "*") <;> rfl
  · rw [if_neg star, if_neg star]
    cases resolvers.find? (fun item => item.1 = current.id.kind) with
    | some item => rfl
    | none => cases resolvers.find? (fun item => item.1 = "*") <;> rfl

/-- The answers of compiled items are those of the compiled policies. -/
theorem answerAt_compileItems {items : List (String × TargetPolicy V M)}
    {resolvers : List (String × TargetResolver V)}
    (compiled : compileItems printable graph models items = .ok resolvers) (key : String)
    (current : VersionNode V)
    : answerAt resolvers key current
      = (items.find? (fun item => item.1 = key)).map (fun item =>
          (compile printable graph models item.2).toOption.bind
            (fun resolver => (resolver current).toOption)) := by
  induction items generalizing resolvers with
  | nil =>
      obtain rfl := Except.ok.inj compiled
      rfl
  | cons item rest ih =>
      obtain ⟨kind, policy⟩ := item
      simp only [compileItems] at compiled
      obtain ⟨resolver, first, compiled⟩ := Py.ok_bind_iff.mp compiled
      obtain ⟨others, later, compiled⟩ := Py.ok_bind_iff.mp compiled
      obtain rfl := Except.ok.inj compiled
      by_cases same : kind = key
      · simp [answerAt, same, first, Except.toOption]
      · have tail := ih later
        simp only [answerAt] at tail ⊢
        rw [List.find?_cons_of_neg (by simpa using same),
          List.find?_cons_of_neg (by simpa using same)]
        exact tail

/-- Items compile exactly if each policy does. -/
theorem exists_compileItems_iff {items : List (String × TargetPolicy V M)}
    : (∃ resolvers, compileItems printable graph models items = .ok resolvers)
      ↔ ∀ item ∈ items, ∃ resolver, compile printable graph models item.2 = .ok resolver := by
  induction items with
  | nil => simp [compileItems]
  | cons item rest ih =>
      obtain ⟨kind, policy⟩ := item
      rw [List.forall_mem_cons, ← ih]
      constructor
      · intro given
        obtain ⟨resolvers, compiled⟩ := given
        simp only [compileItems] at compiled
        obtain ⟨resolver, first, compiled⟩ := Py.ok_bind_iff.mp compiled
        obtain ⟨others, later, _⟩ := Py.ok_bind_iff.mp compiled
        exact ⟨⟨resolver, first⟩, others, later⟩
      · intro given
        obtain ⟨⟨resolver, first⟩, others, later⟩ := given
        refine ⟨(kind, resolver) :: others, ?_⟩
        simp only at first
        simp only [compileItems, first, later, bind, Except.bind, pure, Except.pure]

omit [DecidableEq V] [VersionValue V] in
/-- Where keys differ, an item is found by its key. -/
theorem find?_of_nodup {items : List (String × TargetPolicy V M)}
    (nodup : (items.map Prod.fst).Nodup) {item : String × TargetPolicy V M}
    (member : item ∈ items)
    : items.find? (fun entry => entry.1 = item.1) = some item := by
  cases found : items.find? (fun entry => entry.1 = item.1) with
  | none => simpa using List.find?_eq_none.mp found _ member
  | some entry =>
      have named : entry.1 = item.1 := by simpa using List.find?_some found
      rw [List.inj_on_of_nodup_map nodup (List.mem_of_find?_eq_some found) member named]

omit [DecidableEq V] in
/-- The items that a key leads to are of one text. -/
theorem exists_facing {items others : List (String × TargetPolicy V M)}
    (texts : (items.map (fun item => (item.1, item.2.keyText printable models))).Perm
      (others.map (fun item => (item.1, item.2.keyText printable models))))
    {item : String × TargetPolicy V M} (member : item ∈ items)
    : ∃ other ∈ others, other.1 = item.1
      ∧ item.2.keyText printable models = other.2.keyText printable models := by
  have shown := texts.mem_iff.mp (List.mem_map_of_mem member)
  obtain ⟨other, inOthers, same⟩ := List.mem_map.mp shown
  obtain ⟨keys, shownAlike⟩ := Prod.mk.inj same
  exact ⟨other, inOthers, keys, shownAlike.symm⟩

/-- What compiles to a resolver also does so as the policy it meets. -/
def CompilesAlike (printable : Char → Bool) (graph : MigrationGraph V) (models : ModelIdentity M)
    (left right : TargetPolicy V M) : Prop :=
  ∀ resolver, compile printable graph models left = .ok resolver →
    ∃ other, compile printable graph models right = .ok other ∧ ResolveAlike resolver other

theorem CompilesAlike.model {left right : M} (refs : models.ref left = models.ref right)
    : CompilesAlike printable graph models (.model left) (.model right) := by
  intro resolver compiled
  simp only [compile, modelTargetResolver] at compiled ⊢
  rw [← refs]
  cases stored : graph.getModelByRef (models.ref left) with
  | error error => rw [stored] at compiled; cases compiled
  | ok target =>
      rw [stored] at compiled
      obtain rfl := Except.ok.inj compiled
      refine ⟨_, rfl, ?_⟩
      intro current
      by_cases kinds : current.id.kind = target.id.kind
      · simp [kinds]
      · simp [kinds, Except.toOption]

/-- Dictionaries of one text, where the policies of each key compile alike. -/
theorem CompilesAlike.dict {items others : List (String × TargetPolicy V M)}
    (nodup : (others.map Prod.fst).Nodup)
    (texts : (items.map (fun item => (item.1, item.2.keyText printable models))).Perm
      (others.map (fun item => (item.1, item.2.keyText printable models))))
    (alike : ∀ item ∈ items, ∀ other ∈ others, other.1 = item.1 →
      item.2.keyText printable models = other.2.keyText printable models →
      CompilesAlike printable graph models item.2 other.2)
    : CompilesAlike printable graph models (.dict items) (.dict others) := by
  intro resolver compiled
  simp only [compile] at compiled ⊢
  obtain ⟨resolvers, compiledItems, compiled⟩ := Py.ok_bind_iff.mp compiled
  obtain rfl := Except.ok.inj compiled
  have every := exists_compileItems_iff.mp ⟨resolvers, compiledItems⟩
  have everyOther : ∀ other ∈ others, ∃ resolver,
      compile printable graph models other.2 = .ok resolver := by
    intro other member
    obtain ⟨item, inItems, keys, shown⟩ := exists_facing texts.symm member
    obtain ⟨first, compiledFirst⟩ := every item inItems
    obtain ⟨second, compiledSecond, _⟩ :=
      alike item inItems other member keys.symm shown.symm first compiledFirst
    exact ⟨second, compiledSecond⟩
  obtain ⟨otherResolvers, compiledOthers⟩ := exists_compileItems_iff.mpr everyOther
  refine ⟨multiTargetResolver otherResolvers, ?_, ?_⟩
  · rw [compiledOthers]
    rfl
  · have answers : ∀ key current,
        answerAt resolvers key current = answerAt otherResolvers key current := by
      intro key current
      rw [answerAt_compileItems compiledItems, answerAt_compileItems compiledOthers]
      cases found : items.find? (fun item => item.1 = key) with
      | none =>
          have absent : others.find? (fun item => item.1 = key) = none := by
            rw [List.find?_eq_none] at found ⊢
            intro other member
            obtain ⟨item, inItems, keys, _⟩ := exists_facing texts.symm member
            rw [← keys]
            exact found item inItems
          rw [absent]
      | some item =>
          obtain rfl : item.1 = key := by simpa using List.find?_some found
          have inItems := List.mem_of_find?_eq_some found
          obtain ⟨other, inOthers, keys, shown⟩ := exists_facing texts inItems
          obtain ⟨first, compiledFirst⟩ := every item inItems
          obtain ⟨second, compiledSecond, same⟩ :=
            alike item inItems other inOthers keys shown first compiledFirst
          rw [← keys, find?_of_nodup nodup inOthers]
          simp only [Option.map_some, compiledFirst, compiledSecond, Except.toOption,
            Option.bind_some]
          exact congrArg some (same current)
    intro current
    simp only [toOption_multiTargetResolver, answers]

-- By induction on the policy. A callable is met only inside of a dictionary, so the statement is
-- about texts and not about keys.
mutual
theorem compilesAlike_of_keyText : ∀ left right : TargetPolicy V M, right.Valid →
    left.keyText printable models = right.keyText printable models → left.Told models right →
    CompilesAlike printable graph models left right
  | .dict items, right, valid, texts, told => by
      cases TargetPolicy.match_of_keyText texts told with
      | same => exact fun resolver compiled => ⟨resolver, compiled, fun _ => rfl⟩
      | dict shown facing =>
          rw [TargetPolicy.Valid, TargetPolicy.validItems_iff] at valid
          refine .dict valid.1 shown ?_
          intro item member other inOthers keys same
          exact compilesAlike_of_items items item member other.2 (valid.2 other inOthers) same
            (facing item member other inOthers keys)
  | .callable shown resolver, right, _, texts, told => by
      cases TargetPolicy.match_of_keyText texts told with
      | same => exact fun resolver compiled => ⟨resolver, compiled, fun _ => rfl⟩
      | callable alike =>
          intro resolver compiled
          obtain rfl := Except.ok.inj compiled
          exact ⟨_, rfl, alike⟩
  | .model model, right, _, texts, told => by
      cases TargetPolicy.match_of_keyText texts told with
      | same => exact fun resolver compiled => ⟨resolver, compiled, fun _ => rfl⟩
      | model refs => exact .model refs
  | .nothing, right, _, texts, told
  | .text _, right, _, texts, told
  | .range _, right, _, texts, told
  | .node _, right, _, texts, told => by
      cases TargetPolicy.match_of_keyText texts told with
      | same => exact fun resolver compiled => ⟨resolver, compiled, fun _ => rfl⟩

theorem compilesAlike_of_items : ∀ items : List (String × TargetPolicy V M), ∀ item ∈ items,
    ∀ right : TargetPolicy V M, right.Valid →
    item.2.keyText printable models = right.keyText printable models →
    item.2.Told models right → CompilesAlike printable graph models item.2 right
  | (_, policy) :: rest, item, member, right, valid, texts, told => by
      rcases List.mem_cons.mp member with rfl | later
      · exact compilesAlike_of_keyText policy right valid texts told
      · exact compilesAlike_of_items rest item later right valid texts told
end

end Compiling

-----------------------------------------------------------------------------------------
-- Plans of one key
-----------------------------------------------------------------------------------------

variable [DecidableEq V] [VersionValue V]

namespace PathFinder

variable {finder : PathFinder V} {left right : TargetResolver V}

/-- Resolvers that give the same targets lead to the same plan entries. -/
theorem planned_of_resolveAlike (alike : ResolveAlike left right)
    {entries : List (ExtractedEntry V)} {plan : List (PathPlanEntry V)}
    (planned : finder.planned left entries = .ok plan)
    : finder.planned right entries = .ok plan := by
  induction entries generalizing plan with
  | nil => exact planned
  | cons entry rest ih =>
      simp only [PathFinder.planned] at planned ⊢
      obtain ⟨target, resolved, planned⟩ := Py.ok_bind_iff.mp planned
      have resolvedAlike : right entry.node = .ok target := by
        have same := alike entry.node
        rw [resolved] at same
        cases answer : right entry.node with
        | error error => simp [answer, Except.toOption] at same
        | ok other => simpa [answer, Except.toOption, eq_comm] using same
      simp only [resolvedAlike, bind, Except.bind]
      cases target with
      | none => exact ih planned
      | some target =>
          obtain ⟨first, walked, planned⟩ := Py.ok_bind_iff.mp planned
          obtain ⟨others, later, planned⟩ := Py.ok_bind_iff.mp planned
          simp only [walked, ih later]
          exact planned

theorem found_of_resolveAlike (alike : ResolveAlike left right)
    {entries : List (ExtractedEntry V)} {plan : PathPlan V}
    (found : finder.found entries left = .ok plan)
    : finder.found entries right = .ok plan := by
  obtain ⟨resolved, planned, kept⟩ := Py.ok_bind_iff.mp found
  simp only [PathFinder.found, planned_of_resolveAlike alike planned, bind, Except.bind]
  exact kept

end PathFinder

/-- Hydrated versions of a graph that read the same are the same. -/
theorem BuildSteps.eq_of_str {hasher : ContentHasher} {source : Registry V}
    {graph : MigrationGraph V} (steps : BuildSteps hasher source graph)
    (stores : NodeStores source) (texts : VersionTexts V) {left right : VersionNode V}
    (inLeft : left ∈ graph.kindVersions left.id.kind)
    (inRight : right ∈ graph.kindVersions right.id.kind) (same : left.id.str = right.id.str)
    : left = right := by
  rw [steps.kindVersions_eq stores] at inLeft inRight
  obtain ⟨leftStored, _⟩ := stores.mem_kindVersions.mp inLeft
  obtain ⟨rightStored, _⟩ := stores.mem_kindVersions.mp inRight
  have listed : ∀ node : VersionNode V, NodeEntry.versionNode node ∈ source.byVersions →
      node.id.nameSpace ∈ graph.namespaces := by
    intro node stored
    refine mem_namespaces.mpr (.inl ⟨.versionNode node, ?_, rfl⟩)
    rw [steps.backend]
    exact stored
  have names := steps.oneNamespace _ (listed left leftStored) _ (listed right rightStored)
  have ids : left.id = right.id := NodeId.eq_of_str texts names same
  exact NodeEntry.versionNode.inj (stores.eq_of_id leftStored rightStored ids)

namespace ExecutionCoordinator

variable {coordinator : ExecutionCoordinator V M F H} {hasher : ContentHasher} {source : Registry V}

/-- The key of a request tells its entries. -/
theorem entries_of_key (steps : BuildSteps hasher source coordinator.finder.graph)
    (stores : NodeStores source) (texts : VersionTexts V) {request other : PlanRequest V M}
    {entries others : List (ExtractedEntry V)}
    (discovered : coordinator.extract request = .ok entries)
    (otherDiscovered : coordinator.extract other = .ok others) {key : PlanKey}
    (keyed : coordinator.key request entries = some key)
    (otherKeyed : coordinator.key other others = some key)
    : entries = others := by
  obtain ⟨_, _, rfl⟩ := Option.map_eq_some_iff.mp keyed
  obtain ⟨_, _, same⟩ := Option.map_eq_some_iff.mp otherKeyed
  have shown := (PlanKey.mk.inj same).2.2
  have hydrated := hydrated_of_extract steps stores discovered
  have otherHydrated := hydrated_of_extract steps stores otherDiscovered
  have told := Py.map_eq_map_iff.mp shown.symm
  rw [← List.forall₂_eq_eq_eq]
  refine (Py.forall₂_congr_mem ?_).mp told
  intro entry member item inOthers
  constructor
  · intro same
    obtain ⟨paths, names⟩ := Prod.mk.inj same
    have nodes := steps.eq_of_str stores texts (hydrated entry member)
      (otherHydrated item inOthers) names
    cases entry
    cases item
    simp only [ExtractedEntry.mk.injEq]
    exact ⟨paths, nodes⟩
  · intro same
    rw [same]

/-- Requests of one key agree in what the key leaves out. -/
def KeysTell (coordinator : ExecutionCoordinator V M F H) (requests : List (PlanRequest V M))
    : Prop :=
  ∀ request ∈ requests, ∀ other ∈ requests, ∀ key entries others,
    coordinator.extract request = .ok entries → coordinator.extract other = .ok others →
    coordinator.key request entries = some key → coordinator.key other others = some key →
    request.target.Told coordinator.models other.target
      ∧ request.sourceModel = other.sourceModel

/-- What was found for a request is what is found for the others of its key. -/
theorem found_of_key (steps : BuildSteps hasher source coordinator.finder.graph)
    (stores : NodeStores source) (texts : VersionTexts V) {request other : PlanRequest V M}
    {entries others : List (ExtractedEntry V)}
    (discovered : coordinator.extract request = .ok entries)
    (otherDiscovered : coordinator.extract other = .ok others) {key : PlanKey}
    (keyed : coordinator.key request entries = some key)
    (otherKeyed : coordinator.key other others = some key) (valid : other.target.Valid)
    (told : request.target.Told coordinator.models other.target)
    (models : request.sourceModel = other.sourceModel) {plan : FoundPlan V M}
    (found : coordinator.found request entries = .ok plan)
    : coordinator.found other others = .ok plan := by
  obtain rfl := entries_of_key steps stores texts discovered otherDiscovered keyed otherKeyed
  obtain ⟨shown, leftKey, rfl⟩ := Option.map_eq_some_iff.mp keyed
  obtain ⟨_, rightKey, same⟩ := Option.map_eq_some_iff.mp otherKeyed
  obtain rfl := (PlanKey.mk.inj same).1
  obtain ⟨resolver, compiled, found⟩ := Py.ok_bind_iff.mp found
  obtain ⟨kept, walked, found⟩ := Py.ok_bind_iff.mp found
  have shownAlike : request.target.keyText coordinator.printable coordinator.models
      = other.target.keyText coordinator.printable coordinator.models := by
    rw [TargetPolicy.keyText, TargetPolicy.keyText, leftKey, rightKey]
    rfl
  obtain ⟨otherResolver, otherCompiled, alike⟩ :=
    compilesAlike_of_keyText _ _ valid shownAlike told resolver compiled
  have rewalked := PathFinder.found_of_resolveAlike alike walked
  simp only [ExecutionCoordinator.found, otherCompiled, rewalked, bind, Except.bind, ← models]
  exact found

-----------------------------------------------------------------------------------------
-- Runs of requests
-----------------------------------------------------------------------------------------

omit [VersionValue V] in
/-- The tables of a new coordinator. -/
def start (size : Int) : CoordinatorState V M := ⟨∅, .new size⟩

/-- The tables after planning the requests in turn, whether or not each is planned. -/
def planAll (coordinator : ExecutionCoordinator V M F H) (state : CoordinatorState V M)
    (requests : List (PlanRequest V M)) : CoordinatorState V M :=
  requests.foldl (fun state request => Py.after (coordinator.plan request) state) state

/-- Each request of a run gets the plan that the finder gives for it from empty tables, and the
table of plans keeps to its size.
-/
def Transparent (coordinator : ExecutionCoordinator V M F H) (size : Int)
    (requests : List (PlanRequest V M)) : Prop :=
  ∀ earlier request later, requests = earlier ++ request :: later →
    (∀ entries, coordinator.extract request = .ok entries →
      Py.outcome (coordinator.pathPlan request entries) (coordinator.planAll (start size) earlier)
        = (Py.outcome (coordinator.find request entries) ∅).mapError .catalog)
      ∧ (0 ≤ size →
        (coordinator.planAll (start size) (earlier ++ [request])).plans.entries.items.length ≤ size)


variable {requests : List (PlanRequest V M)} {size : Int}

/-- A plan that was found for one of the requests, under its key. -/
def FoundFor (coordinator : ExecutionCoordinator V M F H) (requests : List (PlanRequest V M))
    (key : PlanKey) (plan : FoundPlan V M) : Prop :=
  ∃ request ∈ requests, ∃ entries, coordinator.extract request = .ok entries
    ∧ coordinator.key request entries = some key ∧ coordinator.found request entries = .ok plan

/-- While the tables hold plans of the run only, each request of the run gets its own plan. -/
theorem pathPlan_answers_of_keysTell (steps : BuildSteps hasher source coordinator.finder.graph)
    (stores : NodeStores source) (texts : VersionTexts V)
    (valid : ∀ request ∈ requests, request.target.Valid) (keysTell : coordinator.KeysTell requests)
    {request : PlanRequest V M} (member : request ∈ requests) {entries : List (ExtractedEntry V)}
    (discovered : coordinator.extract request = .ok entries)
    : Py.Answers (coordinator.Remembers (coordinator.FoundFor requests) size)
        (coordinator.pathPlan request entries)
        ((coordinator.found request entries).mapError .catalog) := by
  refine pathPlan_answers ?_ ?_
  · intro _ key plan keyed expected
    obtain ⟨other, inRequests, others, otherDiscovered, otherKeyed, found⟩ := expected
    obtain ⟨told, models⟩ := keysTell other inRequests request member key others entries
      otherDiscovered discovered otherKeyed keyed
    exact found_of_key steps stores texts otherDiscovered discovered otherKeyed keyed
      (valid request member) told models found
  · intro _ key plan keyed found
    exact ⟨request, member, entries, discovered, keyed, found⟩

/-- Planning a request of the run keeps the tables to plans of the run. -/
theorem plan_remembers (steps : BuildSteps hasher source coordinator.finder.graph)
    (stores : NodeStores source) (texts : VersionTexts V)
    (valid : ∀ request ∈ requests, request.target.Valid) (keysTell : coordinator.KeysTell requests)
    {request : PlanRequest V M} (member : request ∈ requests) {state : CoordinatorState V M}
    (remembers : coordinator.Remembers (coordinator.FoundFor requests) size state)
    : coordinator.Remembers (coordinator.FoundFor requests) size
        (Py.after (coordinator.plan request) state) := by
  have answers : Py.Answers (coordinator.Remembers (coordinator.FoundFor requests) size)
      (coordinator.plan request) _ :=
    .bind_of_ok (.const _ _) (fun entries discovered =>
      .bind (pathPlan_answers_of_keysTell steps stores texts valid keysTell member discovered)
        (fun found => .const _ ((buildPlan coordinator.bindings found.plan request.payload).mapError
          PlanningError.catalog)))
  exact (answers state remembers).2

/-- The tables hold plans of the run only, by induction on the run. -/
theorem planAll_remembers (steps : BuildSteps hasher source coordinator.finder.graph)
    (stores : NodeStores source) (texts : VersionTexts V)
    (valid : ∀ request ∈ requests, request.target.Valid) (keysTell : coordinator.KeysTell requests)
    {earlier : List (PlanRequest V M)} (members : ∀ request ∈ earlier, request ∈ requests)
    {state : CoordinatorState V M}
    (remembers : coordinator.Remembers (coordinator.FoundFor requests) size state)
    : coordinator.Remembers (coordinator.FoundFor requests) size
        (coordinator.planAll state earlier) := by
  induction earlier generalizing state with
  | nil => exact remembers
  | cons request rest ih =>
      exact ih (fun other member => members other (List.mem_cons_of_mem _ member))
        (plan_remembers steps stores texts valid keysTell (members request List.mem_cons_self)
          remembers)

end ExecutionCoordinator

/-- A coordinator over semantic versions and dates, without bindings. -/
def versionCoordinator (graph : MigrationGraph Version)
    : ExecutionCoordinator Version Unit Unit Unit where
  printable := fun _ => true
  models := ⟨fun _ => ⟨"app", "User"⟩, fun _ => "User", fun _ => "app.User"⟩
  adapter := ⟨"kind", "version", fun _ => true, fun _ _ => none, fun data _ _ => .ok (.ofJson data)⟩
  validation := .none
  finder := ⟨graph, ⟨.any, .raise, .raise, -1, .raise⟩, defaultDiscriminator⟩
  bindings := ⟨"default", ∅, ∅⟩

/-- The first release of `User`, to be planned for a target. -/
def userRequest (target : TargetPolicy Version Unit) : PlanRequest Version Unit where
  payload := .obj [("kind", .str "User"), ("version", .str "1.0.0")]
  target
  sourceModel := none
  maxDepth := -1

/-- The releases of `User` that are planned for. -/
def plannedUsers : Registry Version :=
  storedEntries [referringUser 1 (semverUser 2), referringUser 2 (semverUser 1)]

/-- A callable inside of a dictionary. -/
def calling (resolver : TargetResolver Version) : PlanRequest Version Unit :=
  userRequest (.dict [("User", .callable "<resolver>" resolver)])

end Pyverge
