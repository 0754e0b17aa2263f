import Pyverge.Py.Json

/-! How the interpreter shows values, and that shown strings and tuples can be read back. -/

namespace Py

variable {α β : Type}

/-- Hexadecimal digits, padded with zeros. -/
def hexDigits (width : Nat) (code : Nat) : List Char :=
  let digits := Nat.toDigits 16 code
  List.replicate (width - digits.length) '0' ++ digits

/-- One character of a shown string. Beyond ASCII, what is printable depends on the Unicode tables
of the interpreter.
-/
def escapeChar (printable : Char → Bool) (quote letter : Char) : List Char :=
  if letter = quote ∨ letter = '\\' then ['\\', letter]
  else if letter = '\n' then ['\\', 'n']
  else if letter = '\r' then ['\\', 'r']
  else if letter = '\t' then ['\\', 't']
  else if letter.toNat < 32 ∨ letter.toNat = 127 then '\\' :: 'x' :: hexDigits 2 letter.toNat
  else if letter.toNat < 127 ∨ printable letter then [letter]
  else if letter.toNat < 256 then '\\' :: 'x' :: hexDigits 2 letter.toNat
  else if letter.toNat < 65536 then '\\' :: 'u' :: hexDigits 4 letter.toNat
  else '\\' :: 'U' :: hexDigits 8 letter.toNat

/-- `repr` of a string: single quotes, unless that takes more escapes. -/
def reprStr (printable : Char → Bool) (text : String) : String :=
  let letters := text.toList
  let quote := if '\'' ∈ letters ∧ '"' ∉ letters then '"' else '\''
  String.ofList (quote :: letters.flatMap (escapeChar printable quote) ++ [quote])

/-- `repr` of a tuple of which the items are shown already. -/
def reprTuple : List String → String
  | [item] => "(" ++ item ++ ",)"
  | items => "(" ++ ", ".intercalate items ++ ")"

example : reprTuple [reprStr (fun _ => true) "it's", reprStr (fun _ => true) "a\n"]
    = "(\"it's\", 'a\\n')" := by
  decide +kernel

/-- `type(value).__name__` of a value that is JSON -/
def Json.typeName : Json → String
  | .null => "NoneType"
  | .bool _ => "bool"
  | .int _ => "int"
  | .float _ => "float"
  | .str _ => "str"
  | .arr _ => "list"
  | .obj _ => "dict"

section Json

variable (printable : Char → Bool)

mutual
/-- `repr` of a value that is JSON -/
def Json.pyRepr : Json → String
  | .null => "None"
  | .bool true => "True"
  | .bool false => "False"
  | .int value => toString value
  | .float literal => literal
  | .str text => reprStr printable text
  | .arr items => "[" ++ ", ".intercalate (itemReprs items) ++ "]"
  | .obj members => "\x7b" ++ ", ".intercalate (memberReprs members) ++ "\x7d"

def Json.itemReprs : List Json → List String
  | [] => []
  | item :: rest => item.pyRepr :: itemReprs rest

def Json.memberReprs : List (String × Json) → List String
  | [] => []
  | (key, value) :: rest => (reprStr printable key ++ ": " ++ value.pyRepr) :: memberReprs rest
end

/-- `str` of a value that is JSON: a string is shown as it is. -/
def Json.pyStr : Json → String
  | .str text => text
  | value => value.pyRepr printable

example : Json.pyStr (fun _ => true) (.arr [.str "a", .obj [("b", .bool true)]])
    = "['a', \x7b'b': True\x7d]" := by
  decide +kernel

end Json

-----------------------------------------------------------------------------------------
-- Reading characters back
-----------------------------------------------------------------------------------------

def hexValue (digit : Char) : Nat :=
  if digit.isDigit then digit.toNat - 48 else digit.toNat - 87

def readHex (digits : List Char) : Nat :=
  digits.foldl (fun value digit => 16 * value + hexValue digit) 0

/-- What a backslash starts. -/
def readEscape : List Char → Option (Char × List Char)
  | 'n' :: rest => some ('\n', rest)
  | 'r' :: rest => some ('\r', rest)
  | 't' :: rest => some ('\t', rest)
  | 'x' :: rest => some (.ofNat (readHex (rest.take 2)), rest.drop 2)
  | 'u' :: rest => some (.ofNat (readHex (rest.take 4)), rest.drop 4)
  | 'U' :: rest => some (.ofNat (readHex (rest.take 8)), rest.drop 8)
  | letter :: rest => some (letter, rest)
  | [] => none

/-- The first character of a shown string, with what follows it. -/
def readChar : List Char → Option (Char × List Char)
  | '\\' :: rest => readEscape rest
  | letter :: rest => some (letter, rest)
  | [] => none

theorem hexValue_digitChar : ∀ digit < 16, hexValue (Nat.digitChar digit) = digit := by
  decide

theorem readHex_append_digit (digits : List Char) (digit : Char)
    : readHex (digits ++ [digit]) = 16 * readHex digits + hexValue digit := by
  simp [readHex]

theorem readHex_toDigits (code : Nat) : readHex (Nat.toDigits 16 code) = code := by
  have large : 1 < 16 := by decide
  induction code using Nat.base_induction 16 large with
  | single digit small =>
      rw [Nat.toDigits_of_lt_base small]
      simp [readHex, hexValue_digitChar digit small]
  | digit higher digit small positive ih =>
      rw [← Nat.toDigits_append_toDigits large positive small, Nat.toDigits_of_lt_base small,
        readHex_append_digit, ih, hexValue_digitChar digit small]

theorem readHex_hexDigits (width code : Nat) : readHex (hexDigits width code) = code := by
  have zeros : ∀ count, readHex (List.replicate count '0') = 0 := by
    intro count
    induction count with
    | zero => rfl
    | succ count ih =>
        rw [List.replicate_succ', readHex_append_digit, ih]
        rfl
  have padded : readHex (hexDigits width code) = readHex (Nat.toDigits 16 code) := by
    unfold hexDigits readHex
    rw [List.foldl_append]
    exact congrArg (fun start => List.foldl _ start _) (zeros _)
  rw [padded, readHex_toDigits]

theorem length_hexDigits {width code : Nat} (short : (Nat.toDigits 16 code).length ≤ width)
    : (hexDigits width code).length = width := by
  simp only [hexDigits, List.length_append, List.length_replicate]
  omega

theorem readHex_take {width : Nat} {letter : Char} {rest : List Char}
    (short : (Nat.toDigits 16 letter.toNat).length ≤ width)
    : Char.ofNat (readHex ((hexDigits width letter.toNat ++ rest).take width)) = letter
      ∧ (hexDigits width letter.toNat ++ rest).drop width = rest := by
  have length := length_hexDigits short
  rw [List.take_left' length, List.drop_left' length, readHex_hexDigits]
  exact ⟨Char.ofNat_toNat letter, rfl⟩

theorem readEscape_hex {mark letter : Char} {width : Nat} {rest : List Char}
    (marked : mark = 'x' ∧ width = 2 ∨ mark = 'u' ∧ width = 4 ∨ mark = 'U' ∧ width = 8)
    (short : (Nat.toDigits 16 letter.toNat).length ≤ width)
    : readChar ('\\' :: mark :: hexDigits width letter.toNat ++ rest) = some (letter, rest) := by
  rcases marked with ⟨rfl, rfl⟩ | ⟨rfl, rfl⟩ | ⟨rfl, rfl⟩
  all_goals
    obtain ⟨read, left⟩ := @readHex_take _ letter rest short
    simp only [List.cons_append, readChar, readEscape, read, left]

/-- A shown character is read back, whatever follows it. -/
theorem readChar_escapeChar {printable : Char → Bool} {quote : Char}
    (quotes : quote = '\'' ∨ quote = '"') (letter : Char) (rest : List Char)
    : readChar (escapeChar printable quote letter ++ rest) = some (letter, rest) := by
  have plain : letter ≠ '\\' → readChar ([letter] ++ rest) = some (letter, rest) := by
    intro different
    simp only [List.singleton_append]
    unfold readChar
    split
    case h_1 same =>
      exact (different (List.cons.inj same).1).elim
    case h_2 letters same =>
      obtain ⟨rfl, rfl⟩ := List.cons.inj same
      rfl
    case h_3 same => cases same
  have digits : ∀ {width : Nat}, 0 < width → letter.toNat < 16 ^ width →
      (Nat.toDigits 16 letter.toNat).length ≤ width :=
    fun positive small => (Nat.length_toDigits_le_iff (by decide) positive).mpr small
  unfold escapeChar
  split
  case isTrue special =>
    rcases special with rfl | rfl
    · rcases quotes with rfl | rfl <;> rfl
    · rfl
  case isFalse usual =>
    split
    case isTrue newline => subst newline; rfl
    split
    case isTrue carriage => subst carriage; rfl
    split
    case isTrue tab => subst tab; rfl
    split
    case isTrue control =>
      exact readEscape_hex (.inl ⟨rfl, rfl⟩) (digits (by decide) (by omega))
    split
    case isTrue => exact plain (fun same => usual (.inr same))
    split
    case isTrue small => exact readEscape_hex (.inl ⟨rfl, rfl⟩) (digits (by decide) small)
    split
    case isTrue small => exact readEscape_hex (.inr (.inl ⟨rfl, rfl⟩)) (digits (by decide) small)
    · exact readEscape_hex (.inr (.inr ⟨rfl, rfl⟩)) (digits (by decide) letter.val.toNat_lt)

-----------------------------------------------------------------------------------------
-- Texts that show where they end
-----------------------------------------------------------------------------------------

/-- What is shown tells the value and where it ends. -/
def Delimited (shown : α → List Char) : Prop :=
  ∀ left right rest other, shown left ++ rest = shown right ++ other →
    left = right ∧ rest = other

theorem Delimited.injective {shown : α → List Char} (delimited : Delimited shown) {left right : α}
    (same : shown left = shown right)
    : left = right :=
  (delimited left right [] [] (by rw [same])).1

/-- Two shown values one after the other, with a fixed text between them. -/
theorem Delimited.pair {first : α → List Char} {second : β → List Char}
    (firstDelimited : Delimited first) (secondDelimited : Delimited second) (between : List Char)
    : Delimited (fun pair : α × β => first pair.1 ++ between ++ second pair.2) := by
  intro left right rest other same
  simp only [List.append_assoc] at same
  obtain ⟨firsts, same⟩ := firstDelimited _ _ _ _ same
  obtain ⟨seconds, same⟩ := secondDelimited _ _ _ _ (List.append_cancel_left same)
  exact ⟨Prod.ext firsts seconds, same⟩

/-- A shown value between fixed texts. -/
theorem Delimited.within {shown : α → List Char} (delimited : Delimited shown)
    (before after : List Char)
    : Delimited (fun value => before ++ shown value ++ after) := by
  intro left right rest other same
  simp only [List.append_assoc] at same
  obtain ⟨values, same⟩ := delimited _ _ _ _ (List.append_cancel_left same)
  exact ⟨values, List.append_cancel_left same⟩

/-- The quote that a string is shown in. -/
def quoteOf (letters : List Char) : Char :=
  if '\'' ∈ letters ∧ '"' ∉ letters then '"' else '\''

theorem quoteOf_cases (letters : List Char)
    : quoteOf letters = '\'' ∨ quoteOf letters = '"' := by
  unfold quoteOf
  split
  · exact .inr rfl
  · exact .inl rfl

theorem toList_reprStr (printable : Char → Bool) (text : String)
    : (reprStr printable text).toList
      = quoteOf text.toList :: text.toList.flatMap (escapeChar printable (quoteOf text.toList))
        ++ [quoteOf text.toList] := by
  simp [reprStr, quoteOf]

/-- The closing quote is not taken for a character. -/
theorem readChar_quote {quote : Char} (quotes : quote = '\'' ∨ quote = '"') (rest : List Char)
    : readChar (quote :: rest) = some (quote, rest) := by
  rcases quotes with rfl | rfl <;> rfl

theorem escapeChar_ne_quote {printable : Char → Bool} {quote letter : Char}
    (quotes : quote = '\'' ∨ quote = '"') {rest other : List Char}
    : escapeChar printable quote letter ++ rest ≠ quote :: other := by
  intro same
  have read := @readChar_escapeChar printable quote quotes letter rest
  rw [same, readChar_quote quotes] at read
  obtain ⟨rfl, rfl⟩ := Prod.mk.inj (Option.some.inj read)
  have escaped : escapeChar printable quote quote = ['\\', quote] := by
    simp [escapeChar]
  rw [escaped] at same
  have heads : '\\' = quote := (List.cons.inj same).1
  rcases quotes with rfl | rfl <;> cases heads

/-- Escaped characters up to a closing quote are read back one by one. -/
theorem escapes_append_inj {escape : Char → List Char}
    {read : List Char → Option (Char × List Char)} {quote : Char}
    (reads : ∀ letter rest, read (escape letter ++ rest) = some (letter, rest))
    (apart : ∀ letter rest other, escape letter ++ rest ≠ quote :: other)
    {left right rest other : List Char}
    (same : left.flatMap escape ++ quote :: rest = right.flatMap escape ++ quote :: other)
    : left = right ∧ rest = other := by
  induction left generalizing right with
  | nil =>
      cases right with
      | nil => exact ⟨rfl, (List.cons.inj same).2⟩
      | cons letter right =>
          rw [List.flatMap_cons, List.append_assoc] at same
          exact (apart letter _ _ same.symm).elim
  | cons letter left ih =>
      cases right with
      | nil =>
          rw [List.flatMap_cons, List.append_assoc] at same
          exact (apart letter _ _ same).elim
      | cons char right =>
          simp only [List.flatMap_cons, List.append_assoc] at same
          have next := congrArg read same
          rw [reads, reads] at next
          obtain ⟨rfl, later⟩ := Prod.mk.inj (Option.some.inj next)
          obtain ⟨rfl, rests⟩ := ih later
          exact ⟨rfl, rests⟩

/-- Shown characters up to the closing quote. -/
theorem escaped_append_inj {printable : Char → Bool} {quote : Char}
    (quotes : quote = '\'' ∨ quote = '"') {left right rest other : List Char}
    (same : left.flatMap (escapeChar printable quote) ++ quote :: rest
      = right.flatMap (escapeChar printable quote) ++ quote :: other)
    : left = right ∧ rest = other :=
  escapes_append_inj (fun letter rest => readChar_escapeChar quotes letter rest)
    (fun _ _ _ => escapeChar_ne_quote quotes) same

/-- A shown string tells the string and ends at its closing quote. -/
theorem delimited_reprStr (printable : Char → Bool)
    : Delimited (fun text : String => (reprStr printable text).toList) := by
  intro left right rest other same
  simp only [toList_reprStr, List.cons_append, List.append_assoc] at same
  obtain ⟨quotes, same⟩ := List.cons.inj same
  rw [quotes] at same
  obtain ⟨letters, rests⟩ := escaped_append_inj (quoteOf_cases _) same
  exact ⟨String.toList_inj.mp letters, rests⟩

/-- How a tuple goes on after its first item. -/
def tupleTail : List String → List Char
  | [] => [',', ')']
  | items => items.flatMap (fun item => ',' :: ' ' :: item.toList) ++ [')']

theorem toList_reprTuple_nil : (reprTuple []).toList = ['(', ')'] := by
  decide +kernel

theorem toList_reprTuple_cons (first : String) (rest : List String)
    : (reprTuple (first :: rest)).toList = '(' :: first.toList ++ tupleTail rest := by
  have joined : ∀ (item : String) (items : List String),
      (", ".intercalate (item :: items)).toList
        = item.toList ++ items.flatMap (fun item => ',' :: ' ' :: item.toList) := by
    intro item items
    induction items generalizing item with
    | nil => simp
    | cons next items ih => simp [ih next]
  cases rest with
  | nil => simp [reprTuple, tupleTail]
  | cons second rest => simp [reprTuple, tupleTail, joined]

theorem length_tupleTail (items : List String) : 1 < (tupleTail items).length := by
  cases items with
  | nil => decide
  | cons item items =>
      simp only [tupleTail, List.flatMap_cons, List.length_append, List.length_cons]
      omega

/-- The items of a tuple after the first. -/
theorem tupleItems_inj {shown : α → String}
    (delimited : Delimited (fun item => (shown item).toList)) {left right : List α}
    (same : (left.map shown).flatMap (fun item => ',' :: ' ' :: item.toList) ++ [')']
      = (right.map shown).flatMap (fun item => ',' :: ' ' :: item.toList) ++ [')'])
    : left = right := by
  induction left generalizing right with
  | nil =>
      cases right with
      | nil => rfl
      | cons item right => simp at same
  | cons item left ih =>
      cases right with
      | nil => simp at same
      | cons other right =>
          simp only [List.map_cons, List.flatMap_cons, List.cons_append, List.append_assoc,
            List.cons.injEq, true_and] at same
          obtain ⟨items, later⟩ := delimited _ _ _ _ same
          rw [items, ih later]

theorem tupleTail_inj {shown : α → String}
    (delimited : Delimited (fun item => (shown item).toList)) {left right : List α}
    (same : tupleTail (left.map shown) = tupleTail (right.map shown))
    : left = right := by
  cases left with
  | nil =>
      cases right with
      | nil => rfl
      | cons item right => simp [tupleTail] at same
  | cons item left =>
      cases right with
      | nil => simp [tupleTail] at same
      | cons other right => exact tupleItems_inj delimited same

/-- A shown tuple tells its items, where each item shows where it ends. -/
theorem reprTuple_inj {shown : α → String}
    (delimited : Delimited (fun item => (shown item).toList)) {left right : List α}
    (same : reprTuple (left.map shown) = reprTuple (right.map shown))
    : left = right := by
  -- The empty tuple is shorter than all others.
  have longer : ∀ (first : String) (rest : List String),
      2 < (reprTuple (first :: rest)).toList.length := by
    intro first rest
    have tail := length_tupleTail rest
    rw [toList_reprTuple_cons, List.length_append, List.length_cons]
    omega
  have chars := congrArg String.toList same
  have lengths := congrArg List.length chars
  cases left with
  | nil =>
      cases right with
      | nil => rfl
      | cons item right =>
          have long := longer (shown item) (right.map shown)
          rw [← List.map_cons, ← lengths, List.map_nil, toList_reprTuple_nil] at long
          exact (Nat.lt_irrefl 2 long).elim
  | cons item left =>
      cases right with
      | nil =>
          have long := longer (shown item) (left.map shown)
          rw [← List.map_cons, lengths, List.map_nil, toList_reprTuple_nil] at long
          exact (Nat.lt_irrefl 2 long).elim
      | cons other right =>
          simp only [List.map_cons, toList_reprTuple_cons, List.cons_append, List.cons.injEq,
            true_and] at chars
          obtain ⟨items, tails⟩ := delimited _ _ _ _ chars
          rw [items, tupleTail_inj delimited tails]

/-- A shown pair ends at its closing bracket. -/
theorem delimited_reprPair {first : α → String} {second : β → String}
    (firstDelimited : Delimited (fun item => (first item).toList))
    (secondDelimited : Delimited (fun item => (second item).toList))
    : Delimited (fun pair : α × β => (reprTuple [first pair.1, second pair.2]).toList) := by
  have shown : (fun pair : α × β => (reprTuple [first pair.1, second pair.2]).toList)
      = fun pair => ['('] ++ ((first pair.1).toList ++ [',', ' '] ++ (second pair.2).toList)
        ++ [')'] := by
    funext pair
    simp [toList_reprTuple_cons, tupleTail]
  rw [shown]
  exact (firstDelimited.pair secondDelimited [',', ' ']).within ['('] [')']

end Py
