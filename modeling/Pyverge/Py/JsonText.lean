import Pyverge.Py.CanonicalJson
import Pyverge.Py.Repr

/-! The compact JSON text of a value, from which the value can be read back.
A number ends where no digit follows; everything else shows its own end. Floats are left out of
that, since a literal could be that of an integer.
-/

namespace Py

-----------------------------------------------------------------------------------------
-- Strings
-----------------------------------------------------------------------------------------

/-- One character inside the quotes, where characters beyond ASCII stay as they are. -/
def jsonEscape (letter : Char) : List Char :=
  if letter = '"' ∨ letter = '\\' then ['\\', letter]
  else if letter = '\n' then ['\\', 'n']
  else if letter = '\r' then ['\\', 'r']
  else if letter = '\t' then ['\\', 't']
  else if letter = '\x0c' then ['\\', 'f']
  else if letter = '\x08' then ['\\', 'b']
  else if letter.toNat < 32 then '\\' :: 'u' :: hexDigits 4 letter.toNat
  else [letter]

def jsonString (text : String) : List Char := '"' :: text.toList.flatMap jsonEscape ++ ['"']

/-- What a backslash starts. -/
def readJsonEscape : List Char → Option (Char × List Char)
  | 'n' :: rest => some ('\n', rest)
  | 'r' :: rest => some ('\r', rest)
  | 't' :: rest => some ('\t', rest)
  | 'f' :: rest => some ('\x0c', rest)
  | 'b' :: rest => some ('\x08', rest)
  | 'u' :: rest => some (.ofNat (readHex (rest.take 4)), rest.drop 4)
  | letter :: rest => some (letter, rest)
  | [] => none

/-- The first character inside the quotes, with what follows it. -/
def readJsonChar : List Char → Option (Char × List Char)
  | '\\' :: rest => readJsonEscape rest
  | letter :: rest => some (letter, rest)
  | [] => none

theorem readJsonChar_plain {letter : Char} (different : letter ≠ '\\') (rest : List Char)
    : readJsonChar (letter :: rest) = some (letter, rest) := by
  unfold readJsonChar
  split
  case h_1 same => exact (different (List.cons.inj same).1).elim
  case h_2 letters same =>
    obtain ⟨rfl, rfl⟩ := List.cons.inj same
    rfl
  case h_3 same => cases same

theorem readJsonChar_jsonEscape (letter : Char) (rest : List Char)
    : readJsonChar (jsonEscape letter ++ rest) = some (letter, rest) := by
  unfold jsonEscape
  split
  case isTrue special =>
    rcases special with rfl | rfl <;> rfl
  case isFalse usual =>
    split
    case isTrue same => subst same; rfl
    split
    case isTrue same => subst same; rfl
    split
    case isTrue same => subst same; rfl
    split
    case isTrue same => subst same; rfl
    split
    case isTrue same => subst same; rfl
    split
    case isTrue small =>
      have short : (Nat.toDigits 16 letter.toNat).length ≤ 4 :=
        (Nat.length_toDigits_le_iff (by decide) (by decide)).mpr (by omega)
      obtain ⟨read, left⟩ := @readHex_take _ letter rest short
      simp only [List.cons_append, readJsonChar, readJsonEscape, read, left]
    case isFalse => exact readJsonChar_plain (fun same => usual (Or.inr same)) rest

theorem jsonEscape_ne_quote {letter : Char} {rest other : List Char}
    : jsonEscape letter ++ rest ≠ '"' :: other := by
  intro same
  have read := readJsonChar_jsonEscape letter rest
  rw [same, readJsonChar_plain (by decide)] at read
  obtain ⟨rfl, rfl⟩ := Prod.mk.inj (Option.some.inj read)
  cases same

theorem jsonString_append_inj {left right : String} {rest other : List Char}
    (same : jsonString left ++ rest = jsonString right ++ other)
    : left = right ∧ rest = other := by
  simp only [jsonString, List.cons_append, List.append_assoc, List.nil_append,
    List.cons.injEq, true_and] at same
  obtain ⟨letters, rests⟩ := escapes_append_inj readJsonChar_jsonEscape
    (fun _ _ _ => jsonEscape_ne_quote) same
  exact ⟨String.toList_inj.mp letters, rests⟩

-----------------------------------------------------------------------------------------
-- Numbers
-----------------------------------------------------------------------------------------

/-- `repr` of an integer -/
def intText : Int → List Char
  | .ofNat value => Nat.toDigits 10 value
  | .negSucc value => '-' :: Nat.toDigits 10 (value + 1)

/-- A text that no digit starts, as after a number. -/
def NoDigitFirst (text : List Char) : Prop :=
  ∀ letter rest, text = letter :: rest → ¬ letter.isDigit

theorem noDigitFirst_cons {letter : Char} (other : letter.isDigit = false) (rest : List Char)
    : NoDigitFirst (letter :: rest) := by
  intro first later same
  obtain ⟨rfl, _⟩ := List.cons.inj same
  simp [other]

theorem noDigitFirst_nil : NoDigitFirst [] := by
  intro letter rest same
  cases same

theorem takeWhile_toDigits (value : Nat) {after : List Char} (ends : NoDigitFirst after)
    : (Nat.toDigits 10 value ++ after).takeWhile Char.isDigit = Nat.toDigits 10 value := by
  have digits : ∀ letter ∈ Nat.toDigits 10 value, letter.isDigit = true := by
    intro letter member
    exact Nat.isDigit_of_mem_toDigits (b := 10) (by decide) (by decide) member
  rw [List.takeWhile_append_of_pos digits]
  cases after with
  | nil => rw [List.takeWhile_nil, List.append_nil]
  | cons letter rest => rw [List.takeWhile_cons_of_neg (ends letter rest rfl), List.append_nil]

theorem toDigits_append_inj {left right : Nat} {after rest : List Char} (ends : NoDigitFirst after)
    (others : NoDigitFirst rest)
    (same : Nat.toDigits 10 left ++ after = Nat.toDigits 10 right ++ rest)
    : left = right ∧ after = rest := by
  have digits := congrArg (List.takeWhile Char.isDigit) same
  rw [takeWhile_toDigits left ends, takeWhile_toDigits right others] at digits
  have numbers := congrArg (fun digits => Nat.ofDigitChars 10 digits 0) digits
  simp only [Nat.ofDigitChars_ten_toDigits] at numbers
  subst numbers
  exact ⟨rfl, List.append_cancel_left same⟩

theorem exists_toDigits (value : Nat)
    : ∃ letter rest, Nat.toDigits 10 value = letter :: rest ∧ letter.isDigit = true := by
  cases shown : Nat.toDigits 10 value with
  | nil => exact (List.ne_nil_of_length_pos Nat.length_toDigits_pos shown).elim
  | cons letter rest =>
      have first : letter ∈ Nat.toDigits 10 value := shown ▸ List.mem_cons_self ..
      exact ⟨letter, rest, rfl,
        Nat.isDigit_of_mem_toDigits (b := 10) (by decide) (by decide) first⟩

theorem intText_append_inj {left right : Int} {after rest : List Char} (ends : NoDigitFirst after)
    (others : NoDigitFirst rest) (same : intText left ++ after = intText right ++ rest)
    : left = right ∧ after = rest := by
  have signed : ∀ (value : Nat) (more some : List Char),
      Nat.toDigits 10 value ++ more ≠ '-' :: some := by
    intro value more some same
    obtain ⟨letter, digits, shown, digit⟩ := exists_toDigits value
    rw [shown] at same
    obtain ⟨rfl, _⟩ := List.cons.inj same
    cases digit
  cases left with
  | ofNat value =>
      cases right with
      | ofNat other =>
          obtain ⟨rfl, tails⟩ := toDigits_append_inj ends others same
          exact ⟨rfl, tails⟩
      | negSucc other => exact (signed value after _ same).elim
  | negSucc value =>
      cases right with
      | ofNat other => exact (signed other rest _ same.symm).elim
      | negSucc other =>
          obtain ⟨next, tails⟩ := toDigits_append_inj ends others (List.cons.inj same).2
          exact ⟨congrArg Int.negSucc (Nat.succ.inj next), tails⟩

-----------------------------------------------------------------------------------------
-- Values
-----------------------------------------------------------------------------------------

namespace Json

mutual
/-- `json.dumps` with the separators `,` and `:`, for members in their order. -/
def text : Json → List Char
  | .null => ['n', 'u', 'l', 'l']
  | .bool true => ['t', 'r', 'u', 'e']
  | .bool false => ['f', 'a', 'l', 's', 'e']
  | .int value => intText value
  | .float literal => literal.toList
  | .str value => jsonString value
  | .arr [] => ['[', ']']
  | .arr (item :: rest) => '[' :: (item.text ++ moreItems rest)
  | .obj [] => ['\x7b', '\x7d']
  | .obj ((key, value) :: rest) =>
      '\x7b' :: (jsonString key ++ ':' :: (value.text ++ moreMembers rest))

def moreItems : List Json → List Char
  | [] => [']']
  | item :: rest => ',' :: (item.text ++ moreItems rest)

def moreMembers : List (String × Json) → List Char
  | [] => ['\x7d']
  | (key, value) :: rest => ',' :: (jsonString key ++ ':' :: (value.text ++ moreMembers rest))
end

mutual
/-- No float occurs in the value, at any depth. -/
def FloatFree : Json → Prop
  | .float _ => False
  | .arr items => ItemsFloatFree items
  | .obj members => MembersFloatFree members
  | .null | .bool _ | .int _ | .str _ => True

def ItemsFloatFree : List Json → Prop
  | [] => True
  | item :: rest => item.FloatFree ∧ ItemsFloatFree rest

def MembersFloatFree : List (String × Json) → Prop
  | [] => True
  | (_, value) :: rest => value.FloatFree ∧ MembersFloatFree rest
end

theorem itemsFloatFree_iff {items : List Json}
    : ItemsFloatFree items ↔ ∀ item ∈ items, item.FloatFree := by
  induction items with
  | nil => simp [ItemsFloatFree]
  | cons item rest ih => simp [ItemsFloatFree, ih]

theorem membersFloatFree_iff {members : List (String × Json)}
    : MembersFloatFree members ↔ ∀ member ∈ members, member.2.FloatFree := by
  induction members with
  | nil => simp [MembersFloatFree]
  | cons member rest ih => simp [MembersFloatFree, ih]

/-- The constructor of a value, where both booleans count. -/
def shape : Json → Nat
  | .null => 0
  | .bool true => 1
  | .bool false => 2
  | .str _ => 3
  | .arr _ => 4
  | .obj _ => 5
  | .int _ => 6
  | .float _ => 7

/-- The shape that a first character tells; a number starts with a digit or a sign. -/
def shapeOf (letter : Char) : Nat :=
  if letter = 'n' then 0 else if letter = 't' then 1 else if letter = 'f' then 2
  else if letter = '"' then 3 else if letter = '[' then 4 else if letter = '\x7b' then 5 else 6

theorem text_first {value : Json} (free : value.FloatFree)
    : ∃ letter rest, value.text = letter :: rest ∧ shapeOf letter = value.shape
        ∧ letter ≠ ']' := by
  have digits : ∀ letter : Char, letter.isDigit = true → shapeOf letter = 6 ∧ letter ≠ ']' := by
    intro letter digit
    have other : ∀ fixed : Char, fixed.isDigit = false → letter ≠ fixed := by
      intro fixed none same
      rw [same, none] at digit
      cases digit
    simp [shapeOf, other]
  rcases value with _ | (_ | _) | (number | number) | literal | text | items | members
  · exact ⟨_, _, rfl, rfl, by decide⟩
  · exact ⟨_, _, rfl, rfl, by decide⟩
  · exact ⟨_, _, rfl, rfl, by decide⟩
  · obtain ⟨letter, rest, shown, digit⟩ := exists_toDigits number
    exact ⟨letter, rest, shown, digits letter digit⟩
  · exact ⟨_, _, rfl, rfl, by decide⟩
  · exact free.elim
  · exact ⟨_, _, rfl, rfl, by decide⟩
  · cases items <;> exact ⟨_, _, rfl, rfl, by decide⟩
  · cases members <;> exact ⟨_, _, rfl, rfl, by decide⟩

theorem shape_eq {left right : Json} (leftFree : left.FloatFree) (rightFree : right.FloatFree)
    {after rest : List Char} (same : left.text ++ after = right.text ++ rest)
    : left.shape = right.shape := by
  obtain ⟨letter, more, shown, told, _⟩ := text_first leftFree
  obtain ⟨other, others, shownToo, toldToo, _⟩ := text_first rightFree
  rw [shown, shownToo] at same
  rw [← told, ← toldToo, (List.cons.inj same).1]

theorem noDigitFirst_moreItems (items : List Json) (after : List Char)
    : NoDigitFirst (moreItems items ++ after) := by
  cases items <;> exact noDigitFirst_cons (by decide) _

theorem noDigitFirst_moreMembers (members : List (String × Json)) (after : List Char)
    : NoDigitFirst (moreMembers members ++ after) := by
  cases members <;> exact noDigitFirst_cons (by decide) _

mutual
/-- The text of a value ends where the value does, by induction on the value. -/
theorem text_append_inj : ∀ {left right : Json} {after rest : List Char}, left.FloatFree →
    right.FloatFree → NoDigitFirst after → NoDigitFirst rest →
    left.text ++ after = right.text ++ rest → left = right ∧ after = rest
  | .null, right, after, rest, leftFree, rightFree, ends, others, same => by
      have shapes := shape_eq leftFree rightFree same
      rcases right with _ | (_ | _) | (_ | _) | _ | _ | _ | _ <;> cases shapes
      exact ⟨rfl, List.append_cancel_left same⟩
  | .bool value, right, after, rest, leftFree, rightFree, ends, others, same => by
      have shapes := shape_eq leftFree rightFree same
      rcases value <;> rcases right with _ | (_ | _) | (_ | _) | _ | _ | _ | _ <;> cases shapes
      all_goals exact ⟨rfl, List.append_cancel_left same⟩
  | .int value, right, after, rest, leftFree, rightFree, ends, others, same => by
      have shapes := shape_eq leftFree rightFree same
      rcases right with _ | (_ | _) | other | _ | _ | _ | _ <;> cases shapes
      obtain ⟨rfl, tails⟩ := intText_append_inj ends others same
      exact ⟨rfl, tails⟩
  | .float literal, right, after, rest, leftFree, rightFree, ends, others, same => leftFree.elim
  | .str value, right, after, rest, leftFree, rightFree, ends, others, same => by
      have shapes := shape_eq leftFree rightFree same
      rcases right with _ | (_ | _) | _ | _ | other | _ | _ <;> cases shapes
      obtain ⟨rfl, tails⟩ := jsonString_append_inj same
      exact ⟨rfl, tails⟩
  | .arr items, right, after, rest, leftFree, rightFree, ends, others, same => by
      have shapes := shape_eq leftFree rightFree same
      rcases right with _ | (_ | _) | _ | _ | _ | more | _ <;> cases shapes
      obtain ⟨rfl, tails⟩ := arrText_append_inj leftFree rightFree ends others same
      exact ⟨rfl, tails⟩
  | .obj members, right, after, rest, leftFree, rightFree, ends, others, same => by
      have shapes := shape_eq leftFree rightFree same
      rcases right with _ | (_ | _) | _ | _ | _ | _ | more <;> cases shapes
      obtain ⟨rfl, tails⟩ := objText_append_inj leftFree rightFree ends others same
      exact ⟨rfl, tails⟩

theorem arrText_append_inj : ∀ {left right : List Json} {after rest : List Char},
    ItemsFloatFree left → ItemsFloatFree right → NoDigitFirst after → NoDigitFirst rest →
    (Json.arr left).text ++ after = (Json.arr right).text ++ rest → left = right ∧ after = rest
  | [], right, after, rest, leftFree, rightFree, ends, others, same => by
      cases right with
      | nil => exact ⟨rfl, List.append_cancel_left same⟩
      | cons item right =>
          obtain ⟨letter, more, shown, _, unclosed⟩ := text_first rightFree.1
          simp only [text, shown, List.cons_append, List.cons.injEq, true_and] at same
          exact (unclosed same.1.symm).elim
  | item :: left, right, after, rest, leftFree, rightFree, ends, others, same => by
      cases right with
      | nil =>
          obtain ⟨letter, more, shown, _, unclosed⟩ := text_first leftFree.1
          simp only [text, shown, List.cons_append, List.cons.injEq, true_and] at same
          exact (unclosed same.1).elim
      | cons other right =>
          simp only [text, List.cons_append, List.append_assoc, List.cons.injEq, true_and] at same
          obtain ⟨rfl, later⟩ := text_append_inj leftFree.1 rightFree.1
            (noDigitFirst_moreItems _ _) (noDigitFirst_moreItems _ _) same
          obtain ⟨rfl, tails⟩ := moreItems_append_inj leftFree.2 rightFree.2 ends others later
          exact ⟨rfl, tails⟩

theorem moreItems_append_inj : ∀ {left right : List Json} {after rest : List Char},
    ItemsFloatFree left → ItemsFloatFree right → NoDigitFirst after → NoDigitFirst rest →
    moreItems left ++ after = moreItems right ++ rest → left = right ∧ after = rest
  | [], right, after, rest, leftFree, rightFree, ends, others, same => by
      cases right with
      | nil => exact ⟨rfl, List.append_cancel_left same⟩
      | cons item right => cases (List.cons.inj same).1
  | item :: left, right, after, rest, leftFree, rightFree, ends, others, same => by
      cases right with
      | nil => cases (List.cons.inj same).1
      | cons other right =>
          simp only [moreItems, List.cons_append, List.append_assoc, List.cons.injEq,
            true_and] at same
          obtain ⟨rfl, later⟩ := text_append_inj leftFree.1 rightFree.1
            (noDigitFirst_moreItems _ _) (noDigitFirst_moreItems _ _) same
          obtain ⟨rfl, tails⟩ := moreItems_append_inj leftFree.2 rightFree.2 ends others later
          exact ⟨rfl, tails⟩

theorem objText_append_inj : ∀ {left right : List (String × Json)} {after rest : List Char},
    MembersFloatFree left → MembersFloatFree right → NoDigitFirst after → NoDigitFirst rest →
    (Json.obj left).text ++ after = (Json.obj right).text ++ rest → left = right ∧ after = rest
  | [], right, after, rest, leftFree, rightFree, ends, others, same => by
      rcases right with _ | ⟨⟨key, value⟩, right⟩
      · exact ⟨rfl, List.append_cancel_left same⟩
      · cases (List.cons.inj (List.cons.inj same).2).1
  | (key, value) :: left, right, after, rest, leftFree, rightFree, ends, others, same => by
      rcases right with _ | ⟨⟨otherKey, other⟩, right⟩
      · cases (List.cons.inj (List.cons.inj same).2).1
      · simp only [text, List.cons_append, List.append_assoc, List.cons.injEq, true_and] at same
        obtain ⟨rfl, later⟩ := jsonString_append_inj same
        obtain ⟨rfl, more⟩ := text_append_inj leftFree.1 rightFree.1
          (noDigitFirst_moreMembers _ _) (noDigitFirst_moreMembers _ _) (List.cons.inj later).2
        obtain ⟨rfl, tails⟩ := moreMembers_append_inj leftFree.2 rightFree.2 ends others more
        exact ⟨rfl, tails⟩

theorem moreMembers_append_inj : ∀ {left right : List (String × Json)} {after rest : List Char},
    MembersFloatFree left → MembersFloatFree right → NoDigitFirst after → NoDigitFirst rest →
    moreMembers left ++ after = moreMembers right ++ rest → left = right ∧ after = rest
  | [], right, after, rest, leftFree, rightFree, ends, others, same => by
      cases right with
      | nil => exact ⟨rfl, List.append_cancel_left same⟩
      | cons member right => cases (List.cons.inj same).1
  | (key, value) :: left, right, after, rest, leftFree, rightFree, ends, others, same => by
      rcases right with _ | ⟨⟨otherKey, other⟩, right⟩
      · cases (List.cons.inj same).1
      · simp only [moreMembers, List.cons_append, List.append_assoc, List.cons.injEq,
          true_and] at same
        obtain ⟨rfl, later⟩ := jsonString_append_inj same
        obtain ⟨rfl, more⟩ := text_append_inj leftFree.1 rightFree.1
          (noDigitFirst_moreMembers _ _) (noDigitFirst_moreMembers _ _) (List.cons.inj later).2
        obtain ⟨rfl, tails⟩ := moreMembers_append_inj leftFree.2 rightFree.2 ends others more
        exact ⟨rfl, tails⟩
end

/-- Values without floats that are written the same are the same. -/
theorem text_inj {left right : Json} (leftFree : left.FloatFree) (rightFree : right.FloatFree)
    (same : left.text = right.text)
    : left = right :=
  (text_append_inj leftFree rightFree noDigitFirst_nil noDigitFirst_nil
    (congrArg (· ++ []) same)).1

end Json

end Py
