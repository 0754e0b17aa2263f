import Mathlib.Data.List.TakeWhile
import Pyverge.Py.Dict
import Pyverge.Py.JsonText

/-! The ASCII text of a JSON value and the reader that takes it back.
The writer escapes what lies beyond ASCII as UTF-16 units. The reader skips white space between
tokens and keeps the last of equal keys; it has no lone surrogates, which are no characters.
-/

namespace Py

-----------------------------------------------------------------------------------------
-- Writing strings
-----------------------------------------------------------------------------------------

/-- A UTF-16 unit as an escape. -/
def unitEscape (unit : Nat) : List Char := '\\' :: 'u' :: hexDigits 4 unit

/-- One character inside the quotes with `ensure_ascii`. -/
def asciiEscape (letter : Char) : List Char :=
  if letter = '"' ∨ letter = '\\' then ['\\', letter]
  else if letter = '\n' then ['\\', 'n']
  else if letter = '\r' then ['\\', 'r']
  else if letter = '\t' then ['\\', 't']
  else if letter = '\x0c' then ['\\', 'f']
  else if letter = '\x08' then ['\\', 'b']
  else if 32 ≤ letter.toNat ∧ letter.toNat < 127 then [letter]
  else if letter.toNat < 65536 then unitEscape letter.toNat
  else unitEscape (55296 + (letter.toNat - 65536) / 1024)
    ++ unitEscape (56320 + (letter.toNat - 65536) % 1024)

def asciiString (text : String) : List Char := '"' :: text.toList.flatMap asciiEscape ++ ['"']

-----------------------------------------------------------------------------------------
-- Reading strings
-----------------------------------------------------------------------------------------

def isHexDigit (letter : Char) : Bool :=
  letter.isDigit || 'a' ≤ letter && letter ≤ 'f' || 'A' ≤ letter && letter ≤ 'F'

/-- The four digits of a UTF-16 unit. -/
def readUnit (text : List Char) : Option (Nat × List Char) :=
  let digits := text.take 4
  if digits.length = 4 ∧ digits.all isHexDigit then
    some (readHex (digits.map Char.toLower), text.drop 4)
  else none

/-- What follows a high surrogate has to be the escape of a low one. -/
def readLowSurrogate (high : Nat) : List Char → Option (Char × List Char)
  | '\\' :: 'u' :: rest =>
      match readUnit rest with
      | some (low, rest) =>
          if 56320 ≤ low ∧ low < 57344 then
            some (.ofNat (65536 + (high - 55296) * 1024 + (low - 56320)), rest)
          else none
      | none => none
  | _ => none

/-- The character of a UTF-16 unit, together with the next unit if it is a high surrogate. -/
def readCodePoint (text : List Char) : Option (Char × List Char) :=
  match readUnit text with
  | some (unit, rest) =>
      if 55296 ≤ unit ∧ unit < 56320 then readLowSurrogate unit rest
      else if 56320 ≤ unit ∧ unit < 57344 then none
      else some (.ofNat unit, rest)
  | none => none

/-- What a backslash starts. -/
def readBackslash : List Char → Option (Char × List Char)
  | [] => none
  | mark :: rest =>
      if mark = 'u' then readCodePoint rest
      else if mark = 'n' then some ('\n', rest)
      else if mark = 'r' then some ('\r', rest)
      else if mark = 't' then some ('\t', rest)
      else if mark = 'f' then some ('\x0c', rest)
      else if mark = 'b' then some ('\x08', rest)
      else if mark = '"' ∨ mark = '\\' ∨ mark = '/' then some (mark, rest)
      else none

/-- One character inside the quotes; control characters have to be escaped. -/
def readLetter : List Char → Option (Char × List Char)
  | [] => none
  | letter :: rest =>
      if letter = '\\' then readBackslash rest
      else if letter.toNat < 32 then none
      else some (letter, rest)

/-- The characters up to the closing quote, at most as many as there is fuel for. -/
def readLetters : Nat → List Char → Option (List Char × List Char)
  | 0, _ => none
  | _ + 1, [] => none
  | fuel + 1, letter :: rest =>
      if letter = '"' then some ([], rest)
      else
        match readLetter (letter :: rest) with
        | some (first, rest) =>
            (readLetters fuel rest).map (fun read => (first :: read.1, read.2))
        | none => none

/-- The rest of a string after its opening quote. -/
def readString (text : List Char) : Option (String × List Char) :=
  (readLetters text.length text).map (fun read => (String.ofList read.1, read.2))

-----------------------------------------------------------------------------------------
-- Strings are read back
-----------------------------------------------------------------------------------------

/-- The digits of a number in hexadecimal. -/
theorem mem_hexDigits {width code : Nat} {digit : Char} (member : digit ∈ hexDigits width code)
    : ∃ value < 16, digit = Nat.digitChar value := by
  have digits : ∀ code, ∀ digit ∈ Nat.toDigits 16 code, ∃ value < 16,
      digit = Nat.digitChar value := by
    intro code
    have large : 1 < 16 := by decide
    induction code using Nat.base_induction 16 large with
    | single value small =>
        rw [Nat.toDigits_of_lt_base small]
        intro digit member
        exact ⟨value, small, List.mem_singleton.mp member⟩
    | digit higher value small positive ih =>
        rw [← Nat.toDigits_append_toDigits large positive small, Nat.toDigits_of_lt_base small]
        intro digit member
        rcases List.mem_append.mp member with early | last
        · exact ih digit early
        · exact ⟨value, small, List.mem_singleton.mp last⟩
  rcases List.mem_append.mp member with zero | digit
  · exact ⟨0, by decide, List.eq_of_mem_replicate zero⟩
  · exact digits code _ digit

theorem isHexDigit_digitChar : ∀ value < 16, isHexDigit (Nat.digitChar value) = true := by
  decide

theorem toLower_digitChar : ∀ value < 16, (Nat.digitChar value).toLower = Nat.digitChar value := by
  decide

/-- A unit is read back from its digits. -/
theorem readUnit_hexDigits {unit : Nat} (small : unit < 65536) (rest : List Char)
    : readUnit (hexDigits 4 unit ++ rest) = some (unit, rest) := by
  have short : (Nat.toDigits 16 unit).length ≤ 4 :=
    (Nat.length_toDigits_le_iff (by decide) (by decide)).mpr small
  have length : (hexDigits 4 unit).length = 4 := length_hexDigits short
  have hex : (hexDigits 4 unit).all isHexDigit = true := by
    rw [List.all_eq_true]
    intro digit member
    obtain ⟨value, bound, rfl⟩ := mem_hexDigits member
    exact isHexDigit_digitChar value bound
  have lower : (hexDigits 4 unit).map Char.toLower = hexDigits 4 unit := by
    refine (List.map_congr_left (fun digit member => ?_)).trans (List.map_id _)
    obtain ⟨value, bound, rfl⟩ := mem_hexDigits member
    exact toLower_digitChar value bound
  unfold readUnit
  rw [List.take_left' length, List.drop_left' length, if_pos ⟨length, hex⟩, lower,
    readHex_hexDigits]

theorem readLetter_unitEscape {unit : Nat} (small : unit < 65536) (rest : List Char)
    : readLetter (unitEscape unit ++ rest)
      = if 55296 ≤ unit ∧ unit < 56320 then readLowSurrogate unit rest
        else if 56320 ≤ unit ∧ unit < 57344 then none
        else some (.ofNat unit, rest) := by
  change readCodePoint (hexDigits 4 unit ++ rest) = _
  rw [readCodePoint, readUnit_hexDigits small]

theorem readLowSurrogate_unitEscape {high low : Nat} (isLow : 56320 ≤ low ∧ low < 57344)
    (rest : List Char)
    : readLowSurrogate high (unitEscape low ++ rest)
      = some (.ofNat (65536 + (high - 55296) * 1024 + (low - 56320)), rest) := by
  have read : readUnit (hexDigits 4 low ++ rest) = some (low, rest) :=
    readUnit_hexDigits (by omega) rest
  simp only [unitEscape, List.cons_append, readLowSurrogate, read, if_pos isLow]

/-- No character is a surrogate. -/
theorem not_surrogate (letter : Char) : ¬ (55296 ≤ letter.toNat ∧ letter.toNat < 57344) := by
  have valid : letter.toNat.isValidChar := letter.valid
  unfold Nat.isValidChar at valid
  omega

theorem toNat_lt (letter : Char) : letter.toNat < 1114112 := by
  have valid : letter.toNat.isValidChar := letter.valid
  unfold Nat.isValidChar at valid
  omega

/-- A character is read back from its escape. -/
theorem readLetter_asciiEscape (letter : Char) (rest : List Char)
    : readLetter (asciiEscape letter ++ rest) = some (letter, rest) := by
  unfold asciiEscape
  split
  case isTrue special => rcases special with rfl | rfl <;> rfl
  case isFalse usual =>
    split
    case isTrue same => subst same; rfl
    split
    case isTrue same => subst same; rfl
    split
    case isTrue same => subst same; rfl
    split
    case isTrue same => subst same; rfl
    split
    case isTrue same => subst same; rfl
    have notSurrogate := not_surrogate letter
    split
    case isTrue plain =>
      change readLetter (letter :: rest) = _
      rw [readLetter, if_neg (fun same => usual (.inr same)), if_neg (by omega)]
    case isFalse beyond =>
      split
      case isTrue small =>
        rw [readLetter_unitEscape small, if_neg (by omega), if_neg (by omega),
          Char.ofNat_toNat]
      case isFalse large =>
        have bound := toNat_lt letter
        have whole : 65536 + (55296 + (letter.toNat - 65536) / 1024 - 55296) * 1024
            + (56320 + (letter.toNat - 65536) % 1024 - 56320) = letter.toNat := by
          omega
        rw [List.append_assoc, readLetter_unitEscape (by omega), if_pos (by omega),
          readLowSurrogate_unitEscape (by omega), whole, Char.ofNat_toNat]

theorem asciiEscape_first (letter : Char)
    : ∃ first rest, asciiEscape letter = first :: rest ∧ first ≠ '"' := by
  have read := readLetter_asciiEscape letter []
  cases shown : asciiEscape letter with
  | nil =>
      rw [shown] at read
      cases read
  | cons first rest =>
      refine ⟨first, rest, rfl, ?_⟩
      rintro rfl
      rw [shown] at read
      obtain ⟨rfl, _⟩ := Prod.mk.inj (Option.some.inj read)
      cases shown

/-- The characters of a string are read up to its closing quote. -/
theorem readLetters_escapes {letters : List Char} {fuel : Nat} (enough : letters.length < fuel)
    (rest : List Char)
    : readLetters fuel (letters.flatMap asciiEscape ++ '"' :: rest) = some (letters, rest) := by
  induction letters generalizing fuel with
  | nil =>
      obtain ⟨fuel, rfl⟩ := Nat.exists_eq_succ_of_ne_zero (Nat.ne_of_gt enough)
      rfl
  | cons letter letters ih =>
      obtain ⟨fuel, rfl⟩ := Nat.exists_eq_succ_of_ne_zero (Nat.ne_of_gt (Nat.zero_lt_of_lt enough))
      obtain ⟨first, more, shown, notQuote⟩ := asciiEscape_first letter
      have read := readLetter_asciiEscape letter (letters.flatMap asciiEscape ++ '"' :: rest)
      rw [List.flatMap_cons, List.append_assoc]
      rw [shown, List.cons_append] at read ⊢
      rw [readLetters, if_neg notQuote, read]
      simp only
      rw [ih (Nat.lt_of_succ_lt_succ enough)]
      rfl

theorem readString_asciiString (text : String) (rest : List Char)
    : readString (text.toList.flatMap asciiEscape ++ '"' :: rest) = some (text, rest) := by
  have longer : text.toList.length
      < (text.toList.flatMap asciiEscape ++ '"' :: rest).length := by
    have each : ∀ letters : List Char, letters.length ≤ (letters.flatMap asciiEscape).length := by
      intro letters
      induction letters with
      | nil => exact Nat.le_refl 0
      | cons letter letters ih =>
          obtain ⟨first, more, shown, _⟩ := asciiEscape_first letter
          rw [List.flatMap_cons, shown]
          simp only [List.cons_append, List.length_cons, List.length_append]
          omega
    have letters := each text.toList
    simp only [List.length_append, List.length_cons]
    omega
  rw [readString, readLetters_escapes longer]
  exact congrArg some (congrArg (·, rest) String.ofList_toList)

-----------------------------------------------------------------------------------------
-- Reading numbers
-----------------------------------------------------------------------------------------

/-- The leading digits of a text and the rest. -/
def splitDigits (text : List Char) : List Char × List Char :=
  (text.takeWhile Char.isDigit, text.dropWhile Char.isDigit)

def readSign : List Char → List Char × List Char
  | [] => ([], [])
  | letter :: rest => if letter = '-' then (['-'], rest) else ([], letter :: rest)

/-- The digits before the point; after a leading zero there are no more. -/
def readWhole : List Char → Option (List Char × List Char)
  | [] => none
  | letter :: rest =>
      if letter = '0' then some (['0'], rest)
      else if letter.isDigit then some (splitDigits (letter :: rest))
      else none

/-- A point with the digits after it; a point without digits is not of the number. -/
def readFraction : List Char → List Char × List Char
  | [] => ([], [])
  | letter :: rest =>
      if letter = '.' ∧ (splitDigits rest).1 ≠ [] then
        ('.' :: (splitDigits rest).1, (splitDigits rest).2)
      else ([], letter :: rest)

def readExponentSign : List Char → List Char × List Char
  | [] => ([], [])
  | letter :: rest =>
      if letter = '+' ∨ letter = '-' then ([letter], rest) else ([], letter :: rest)

/-- An exponent; a mark without digits is not of the number. -/
def readExponent : List Char → List Char × List Char
  | [] => ([], [])
  | letter :: rest =>
      let signed := readExponentSign rest
      if (letter = 'e' ∨ letter = 'E') ∧ (splitDigits signed.2).1 ≠ [] then
        (letter :: signed.1 ++ (splitDigits signed.2).1, (splitDigits signed.2).2)
      else ([], letter :: rest)

/-- A number without fraction and exponent is an integer. The parameter gives the literal that a
float is shown by.
-/
def readNumber (floatRepr : String → String) (text : List Char) : Option (Json × List Char) :=
  let signed := readSign text
  match readWhole signed.2 with
  | none => none
  | some whole =>
      let fraction := readFraction whole.2
      let exponent := readExponent fraction.2
      if fraction.1 = [] ∧ exponent.1 = [] then
        let value : Int := Nat.ofDigitChars 10 whole.1 0
        some (.int (if signed.1 = [] then value else -value), exponent.2)
      else
        some (.float (floatRepr (String.ofList
          (signed.1 ++ whole.1 ++ fraction.1 ++ exponent.1))), exponent.2)

-----------------------------------------------------------------------------------------
-- Numbers are read back
-----------------------------------------------------------------------------------------

/-- What follows a value in a compact text: nothing, a separator or a closing bracket. -/
def ValueEnd (after : List Char) : Prop :=
  ∀ letter rest, after = letter :: rest → letter = ',' ∨ letter = ']' ∨ letter = '\x7d'

theorem valueEnd_nil : ValueEnd [] := by
  intro letter rest same
  cases same

theorem valueEnd_cons {letter : Char} (ends : letter = ',' ∨ letter = ']' ∨ letter = '\x7d')
    (rest : List Char)
    : ValueEnd (letter :: rest) := by
  intro first later same
  obtain ⟨rfl, _⟩ := List.cons.inj same
  exact ends

section Ends

variable {after : List Char} (ends : ValueEnd after)

include ends

theorem ValueEnd.noDigit : NoDigitFirst after := by
  intro letter rest same
  rcases ends letter rest same with rfl | rfl | rfl <;> decide

theorem splitDigits_append (text : List Char)
    : splitDigits (text ++ after) = ((splitDigits text).1, (splitDigits text).2 ++ after) := by
  unfold splitDigits
  induction text with
  | nil =>
      cases after with
      | nil => rfl
      | cons letter rest =>
          have other := ends.noDigit letter rest rfl
          simp [List.takeWhile_cons_of_neg other, List.dropWhile_cons_of_neg other]
  | cons letter text ih =>
      obtain ⟨taken, dropped⟩ := Prod.mk.inj ih
      cases digit : letter.isDigit with
      | true => simp [List.takeWhile_cons_of_pos, List.dropWhile_cons_of_pos, digit, taken, dropped]
      | false => simp [digit]

omit ends in
theorem readSign_append {text : List Char} (nonempty : text ≠ [])
    : readSign (text ++ after) = ((readSign text).1, (readSign text).2 ++ after) := by
  cases text with
  | nil => exact (nonempty rfl).elim
  | cons letter rest =>
      simp only [List.cons_append, readSign]
      split <;> rfl

theorem readWhole_append {text : List Char} {whole : List Char × List Char}
    (read : readWhole text = some whole)
    : readWhole (text ++ after) = some (whole.1, whole.2 ++ after) := by
  cases text with
  | nil => cases read
  | cons letter rest =>
      simp only [List.cons_append, readWhole] at read ⊢
      split
      case isTrue zero =>
        rw [if_pos zero] at read
        cases read
        rfl
      case isFalse nonzero =>
        rw [if_neg nonzero] at read
        split
        case isTrue digit =>
          rw [if_pos digit] at read
          cases read
          rw [← List.cons_append, splitDigits_append ends]
        case isFalse other =>
          rw [if_neg other] at read
          cases read

theorem readFraction_append (text : List Char)
    : readFraction (text ++ after) = ((readFraction text).1, (readFraction text).2 ++ after) := by
  cases text with
  | nil =>
      cases after with
      | nil => rfl
      | cons letter rest =>
          have other : letter ≠ '.' := by
            rcases ends letter rest rfl with rfl | rfl | rfl <;> decide
          simp [readFraction, other]
  | cons letter rest =>
      simp only [List.cons_append, readFraction, splitDigits_append ends]
      split <;> rfl

theorem readExponentSign_append (text : List Char)
    : readExponentSign (text ++ after)
      = ((readExponentSign text).1, (readExponentSign text).2 ++ after) := by
  cases text with
  | nil =>
      cases after with
      | nil => rfl
      | cons letter rest =>
          have other : ¬ (letter = '+' ∨ letter = '-') := by
            rcases ends letter rest rfl with rfl | rfl | rfl <;> decide
          simp [readExponentSign, other]
  | cons letter rest =>
      simp only [List.cons_append, readExponentSign]
      split <;> rfl

theorem readExponent_append (text : List Char)
    : readExponent (text ++ after) = ((readExponent text).1, (readExponent text).2 ++ after) := by
  cases text with
  | nil =>
      cases after with
      | nil => rfl
      | cons letter rest =>
          have other : ¬ (letter = 'e' ∨ letter = 'E') := by
            rcases ends letter rest rfl with rfl | rfl | rfl <;> decide
          simp [readExponent, other]
  | cons letter rest =>
      simp only [List.cons_append, readExponent, readExponentSign_append ends,
        splitDigits_append ends]
      split <;> rfl

/-- A number is read alike where a value ends after it. -/
theorem readNumber_append {floatRepr : String → String} {text rest : List Char} {value : Json}
    (read : readNumber floatRepr text = some (value, rest))
    : readNumber floatRepr (text ++ after) = some (value, rest ++ after) := by
  have nonempty : text ≠ [] := by
    rintro rfl
    cases read
  unfold readNumber at read ⊢
  rw [readSign_append nonempty]
  simp only at read ⊢
  cases whole : readWhole (readSign text).2 with
  | none =>
      rw [whole] at read
      cases read
  | some found =>
      rw [whole] at read
      rw [readWhole_append ends whole]
      simp only [readFraction_append ends, readExponent_append ends] at read ⊢
      split
      case isTrue plain =>
        rw [if_pos plain] at read
        cases read
        rfl
      case isFalse float =>
        rw [if_neg float] at read
        cases read
        rfl

end Ends

-----------------------------------------------------------------------------------------
-- What was read of a number is read whole
-----------------------------------------------------------------------------------------

theorem splitDigits_taken (text : List Char) {after : List Char} (ends : NoDigitFirst after)
    : splitDigits ((splitDigits text).1 ++ after) = ((splitDigits text).1, after) := by
  have digits : ∀ letter ∈ (splitDigits text).1, letter.isDigit = true :=
    fun letter member => List.mem_takeWhile_imp member
  have stops : after.takeWhile Char.isDigit = [] ∧ after.dropWhile Char.isDigit = after := by
    cases after with
    | nil => exact ⟨rfl, rfl⟩
    | cons letter rest =>
        have other := ends letter rest rfl
        exact ⟨List.takeWhile_cons_of_neg other, List.dropWhile_cons_of_neg other⟩
  unfold splitDigits at digits ⊢
  rw [List.takeWhile_append_of_pos digits, List.dropWhile_append_of_pos digits, stops.1, stops.2,
    List.append_nil]

theorem splitDigits_digits (text : List Char)
    : splitDigits (splitDigits text).1 = ((splitDigits text).1, []) := by
  have whole := splitDigits_taken text noDigitFirst_nil
  rwa [List.append_nil] at whole

/-- Digits begin with a digit, so with no sign. -/
theorem readExponentSign_taken (text : List Char)
    (digits : (splitDigits (readExponentSign text).2).1 ≠ [])
    : readExponentSign ((readExponentSign text).1 ++ (splitDigits (readExponentSign text).2).1)
      = ((readExponentSign text).1, (splitDigits (readExponentSign text).2).1) := by
  cases text with
  | nil => exact (digits rfl).elim
  | cons letter rest =>
      simp only [readExponentSign] at digits ⊢
      split at digits
      case isTrue sign =>
        simp [sign]
      case isFalse unsigned =>
        simp only [if_neg unsigned, List.nil_append]
        cases digit : letter.isDigit with
        | false => simp [splitDigits, digit] at digits
        | true => simp [splitDigits, digit, unsigned]

/-- The exponent that was read is read whole. -/
theorem readExponent_taken (text : List Char)
    : readExponent (readExponent text).1 = ((readExponent text).1, []) := by
  cases text with
  | nil => rfl
  | cons letter rest =>
      by_cases marked : (letter = 'e' ∨ letter = 'E')
          ∧ (splitDigits (readExponentSign rest).2).1 ≠ []
      · have read : (readExponent (letter :: rest)).1 = letter :: ((readExponentSign rest).1
            ++ (splitDigits (readExponentSign rest).2).1) := by
          simp only [readExponent, if_pos marked, List.cons_append]
        rw [read]
        simp only [readExponent, readExponentSign_taken rest marked.2, splitDigits_digits,
          if_pos marked, List.cons_append]
      · have nothing : (readExponent (letter :: rest)).1 = [] := by
          simp only [readExponent, if_neg marked]
        rw [nothing]
        rfl

theorem readExponent_first {text rest : List Char} {letter : Char}
    (read : (readExponent text).1 = letter :: rest)
    : letter = 'e' ∨ letter = 'E' := by
  cases text with
  | nil => cases read
  | cons first others =>
      simp only [readExponent] at read
      split at read
      case isFalse => cases read
      case isTrue marked =>
        obtain ⟨rfl, _⟩ := List.cons.inj read
        exact marked.1

theorem readExponent_noDigit (text : List Char) : NoDigitFirst (readExponent text).1 := by
  intro letter rest read
  rcases readExponent_first read with rfl | rfl <;> decide

/-- The fraction that was read is read whole before an exponent. -/
theorem readFraction_taken (text other : List Char)
    : readFraction ((readFraction text).1 ++ (readExponent other).1)
      = ((readFraction text).1, (readExponent other).1) := by
  have plain : readFraction (readExponent other).1 = ([], (readExponent other).1) := by
    cases read : (readExponent other).1 with
    | nil => rfl
    | cons letter rest =>
        have notPoint : letter ≠ '.' := by
          rcases readExponent_first read with rfl | rfl <;> decide
        simp [readFraction, notPoint]
  cases text with
  | nil => exact plain
  | cons letter rest =>
      by_cases point : letter = '.' ∧ (splitDigits rest).1 ≠ []
      · have read : (readFraction (letter :: rest)).1 = '.' :: (splitDigits rest).1 := by
          simp only [readFraction, if_pos point]
        rw [read, List.cons_append]
        simp only [readFraction, splitDigits_taken rest (readExponent_noDigit other)]
        exact if_pos ⟨trivial, point.2⟩
      · have nothing : (readFraction (letter :: rest)).1 = [] := by
          simp only [readFraction, if_neg point]
        rw [nothing]
        exact plain

theorem readFraction_noDigit (text other : List Char)
    : NoDigitFirst ((readFraction text).1 ++ (readExponent other).1) := by
  cases text with
  | nil => exact readExponent_noDigit other
  | cons letter rest =>
      simp only [readFraction]
      split
      case isFalse => exact readExponent_noDigit other
      case isTrue point =>
        obtain ⟨rfl, _⟩ := point
        intro first more same
        obtain ⟨rfl, _⟩ := List.cons.inj same
        decide

/-- The digits that were read are read whole, and their sign before them. -/
theorem readWhole_taken {text : List Char} {whole : List Char × List Char}
    (read : readWhole text = some whole) {after : List Char} (ends : NoDigitFirst after)
    : readWhole (whole.1 ++ after) = some (whole.1, after)
      ∧ ∃ letter rest, whole.1 = letter :: rest ∧ letter.isDigit = true := by
  cases text with
  | nil => cases read
  | cons letter rest =>
      simp only [readWhole] at read
      split at read
      case isTrue zero =>
        obtain rfl := Option.some.inj read
        exact ⟨rfl, '0', [], rfl, by decide⟩
      case isFalse nonzero =>
        split at read
        case isFalse => cases read
        case isTrue digit =>
          obtain rfl := Option.some.inj read
          have taken := splitDigits_taken (letter :: rest) ends
          have first : (splitDigits (letter :: rest)).1 = letter :: rest.takeWhile Char.isDigit := by
            simp [splitDigits, digit]
          refine ⟨?_, letter, _, first, digit⟩
          rw [first, List.cons_append] at taken ⊢
          simp only [readWhole, if_neg nonzero, if_pos digit, taken]

theorem readSign_taken (text : List Char) {letter : Char} (digit : letter.isDigit = true)
    (rest : List Char)
    : readSign ((readSign text).1 ++ letter :: rest) = ((readSign text).1, letter :: rest) := by
  have plain : readSign (letter :: rest) = ([], letter :: rest) := by
    have notMinus : letter ≠ '-' := by
      rintro rfl
      cases digit
    simp [readSign, notMinus]
  cases text with
  | nil => exact plain
  | cons first others =>
      by_cases minus : first = '-'
      · have read : (readSign (first :: others)).1 = ['-'] := by
          simp only [readSign, if_pos minus]
        rw [read]
        rfl
      · have nothing : (readSign (first :: others)).1 = [] := by
          simp only [readSign, if_neg minus]
        rw [nothing]
        exact plain

/-- The digits of a positive number do not start with a zero. -/
theorem toDigits_first {value : Nat} (positive : 0 < value)
    : ∃ letter rest, Nat.toDigits 10 value = letter :: rest ∧ letter.isDigit = true
        ∧ letter ≠ '0' := by
  have large : 1 < 10 := by decide
  induction value using Nat.base_induction 10 large with
  | single digit small =>
      have other : ∀ digit < 10, 0 < digit →
          (Nat.digitChar digit).isDigit = true ∧ Nat.digitChar digit ≠ '0' := by
        decide
      rw [Nat.toDigits_of_lt_base small]
      exact ⟨Nat.digitChar digit, [], rfl, other digit small positive⟩
  | digit higher digit small above ih =>
      obtain ⟨letter, rest, shown, first⟩ := ih above
      rw [← Nat.toDigits_append_toDigits large above small, shown]
      exact ⟨letter, _, List.cons_append, first⟩

theorem readWhole_toDigits (value : Nat)
    : readWhole (Nat.toDigits 10 value) = some (Nat.toDigits 10 value, []) := by
  have digits : splitDigits (Nat.toDigits 10 value) = (Nat.toDigits 10 value, []) := by
    have all : ∀ letter ∈ Nat.toDigits 10 value, letter.isDigit = true := fun letter member =>
      Nat.isDigit_of_mem_toDigits (by decide) (by decide) member
    exact Prod.ext (List.takeWhile_eq_self_iff.mpr all) (List.dropWhile_eq_nil_iff.mpr all)
  rcases Nat.eq_zero_or_pos value with rfl | positive
  · rfl
  · obtain ⟨letter, rest, shown, digit, nonzero⟩ := toDigits_first positive
    rw [shown] at digits ⊢
    rw [readWhole, if_neg nonzero, if_pos digit, digits]

theorem readSign_toDigits (value : Nat)
    : readSign (Nat.toDigits 10 value) = ([], Nat.toDigits 10 value) := by
  obtain ⟨letter, rest, shown, digit⟩ := exists_toDigits value
  rw [shown, readSign, if_neg]
  rintro rfl
  cases digit

/-- An integer is read back from its text. -/
theorem readNumber_intText (floatRepr : String → String) (value : Int)
    : readNumber floatRepr (intText value) = some (.int value, []) := by
  have whole : ∀ number : Nat, (Nat.ofDigitChars 10 (Nat.toDigits 10 number) 0 : Int) = number :=
    fun number => congrArg Nat.cast Nat.ofDigitChars_ten_toDigits
  cases value with
  | ofNat number =>
      simp only [readNumber, intText, readSign_toDigits, readWhole_toDigits, readFraction,
        readExponent, and_self, if_true, whole]
      rfl
  | negSucc number =>
      have sign : readSign ('-' :: Nat.toDigits 10 (number + 1))
          = (['-'], Nat.toDigits 10 (number + 1)) := rfl
      simp only [readNumber, intText, sign, readWhole_toDigits, readFraction, readExponent,
        and_self, if_true, whole]
      rfl

-----------------------------------------------------------------------------------------
-- Values
-----------------------------------------------------------------------------------------

def isSpace (letter : Char) : Bool :=
  letter = ' ' || letter = '\t' || letter = '\n' || letter = '\r'

def skipSpace (text : List Char) : List Char := text.dropWhile isSpace

/-- The rest of a word after its first letter. -/
def readWord (word : List Char) (value : Json) (text : List Char) : Option (Json × List Char) :=
  if word.isPrefixOf text then some (value, text.drop word.length) else none

namespace Json

/-- The literal of a float, or the word for one that has none. -/
def floatText (literal : String) : List Char :=
  if literal = "nan" then ['N', 'a', 'N']
  else if literal = "inf" then ['I', 'n', 'f', 'i', 'n', 'i', 't', 'y']
  else if literal = "-inf" then ['-', 'I', 'n', 'f', 'i', 'n', 'i', 't', 'y']
  else literal.toList

mutual
/-- `json.dumps` with `ensure_ascii` and the separators `,` and `:`. -/
def dumps : Json → List Char
  | .null => ['n', 'u', 'l', 'l']
  | .bool true => ['t', 'r', 'u', 'e']
  | .bool false => ['f', 'a', 'l', 's', 'e']
  | .int value => intText value
  | .float literal => floatText literal
  | .str value => asciiString value
  | .arr [] => ['[', ']']
  | .arr (item :: rest) => '[' :: (item.dumps ++ dumpItems rest)
  | .obj [] => ['\x7b', '\x7d']
  | .obj ((key, value) :: rest) =>
      '\x7b' :: (asciiString key ++ ':' :: (value.dumps ++ dumpMembers rest))

def dumpItems : List Json → List Char
  | [] => [']']
  | item :: rest => ',' :: (item.dumps ++ dumpItems rest)

def dumpMembers : List (String × Json) → List Char
  | [] => ['\x7d']
  | (key, value) :: rest => ',' :: (asciiString key ++ ':' :: (value.dumps ++ dumpMembers rest))
end

section Reading

variable (floatRepr : String → String)

/-- What starts neither a string, a container nor a word in small letters. -/
def readScalar (letter : Char) (rest : List Char) : Option (Json × List Char) :=
  match readNumber floatRepr (letter :: rest) with
  | some read => some read
  | none =>
      if letter = 'N' then readWord ['a', 'N'] (.float "nan") rest
      else if letter = 'I' then readWord ['n', 'f', 'i', 'n', 'i', 't', 'y'] (.float "inf") rest
      else if letter = '-' then
        readWord ['I', 'n', 'f', 'i', 'n', 'i', 't', 'y'] (.float "-inf") rest
      else none

mutual
/-- A value at the start of a text, nested at most as deep as there is fuel for. -/
def readValue : Nat → List Char → Option (Json × List Char)
  | 0, _ => none
  | _ + 1, [] => none
  | fuel + 1, letter :: rest =>
      if letter = '"' then (readString rest).map (fun read => (.str read.1, read.2))
      else if letter = '[' then
        match skipSpace rest with
        | [] => none
        | first :: more =>
            if first = ']' then some (.arr [], more)
            else (readItems fuel (first :: more)).map (fun read => (.arr read.1, read.2))
      else if letter = '\x7b' then
        match skipSpace rest with
        | [] => none
        | first :: more =>
            if first = '\x7d' then some (.obj [], more)
            else (readMembers fuel (first :: more)).map (fun read =>
              (.obj (Dict.ofItems read.1).items, read.2))
      else if letter = 'n' then readWord ['u', 'l', 'l'] .null rest
      else if letter = 't' then readWord ['r', 'u', 'e'] (.bool true) rest
      else if letter = 'f' then readWord ['a', 'l', 's', 'e'] (.bool false) rest
      else readScalar floatRepr letter rest

/-- The items up to the closing bracket. -/
def readItems : Nat → List Char → Option (List Json × List Char)
  | 0, _ => none
  | fuel + 1, text =>
      match readValue fuel text with
      | none => none
      | some (value, rest) =>
          match skipSpace rest with
          | [] => none
          | mark :: rest =>
              if mark = ']' then some ([value], rest)
              else if mark = ',' then
                (readItems fuel (skipSpace rest)).map (fun read => (value :: read.1, read.2))
              else none

/-- The members up to the closing brace. -/
def readMembers : Nat → List Char → Option (List (String × Json) × List Char)
  | 0, _ => none
  | _ + 1, [] => none
  | fuel + 1, quote :: text =>
      if quote = '"' then
        match readString text with
        | none => none
        | some (key, rest) =>
            match skipSpace rest with
            | [] => none
            | colon :: rest =>
                if colon = ':' then
                  match readValue fuel (skipSpace rest) with
                  | none => none
                  | some (value, rest) =>
                      match skipSpace rest with
                      | [] => none
                      | mark :: rest =>
                          if mark = '\x7d' then some ([(key, value)], rest)
                          else if mark = ',' then
                            (readMembers fuel (skipSpace rest)).map (fun read =>
                              ((key, value) :: read.1, read.2))
                          else none
                else none
      else none
end

/-- `json.loads` of a text; `none` stands for what raises. -/
def loads (text : List Char) : Option Json :=
  match readValue floatRepr text.length (skipSpace text) with
  | some (value, rest) => if skipSpace rest = [] then some value else none
  | none => none

/-- A float that has a word, or a literal that is the one it is shown by. -/
def FloatReadable (literal : String) : Prop :=
  literal = "nan" ∨ literal = "inf" ∨ literal = "-inf"
  ∨ readNumber floatRepr literal.toList = some (.float literal, [])

/-- A float is shown by a literal that reads as the same float. -/
def ReprExact : Prop :=
  ∀ text literal rest, readNumber floatRepr text = some (.float literal, rest) →
    FloatReadable floatRepr literal

mutual
/-- What `dumps` writes and `loads` reads alike: the keys of every object differ, and every float
has the literal that it is shown by.
-/
def Readable : Json → Prop
  | .null | .bool _ | .int _ | .str _ => True
  | .float literal => FloatReadable floatRepr literal
  | .arr items => ItemsReadable items
  | .obj members => (members.map Prod.fst).Nodup ∧ MembersReadable members

def ItemsReadable : List Json → Prop
  | [] => True
  | item :: rest => item.Readable ∧ ItemsReadable rest

def MembersReadable : List (String × Json) → Prop
  | [] => True
  | (_, value) :: rest => value.Readable ∧ MembersReadable rest
end

-----------------------------------------------------------------------------------------
-- Values are read back
-----------------------------------------------------------------------------------------

/-- The items of an array that has some, with the closing bracket. -/
def itemsText : List Json → List Char
  | [] => []
  | item :: rest => item.dumps ++ dumpItems rest

/-- The members of an object that has some, with the closing brace. -/
def membersText : List (String × Json) → List Char
  | [] => []
  | (key, value) :: rest => asciiString key ++ ':' :: (value.dumps ++ dumpMembers rest)

theorem skipSpace_cons {letter : Char} (visible : isSpace letter = false) (rest : List Char)
    : skipSpace (letter :: rest) = letter :: rest := by
  rw [skipSpace, List.dropWhile_cons_of_neg (by simp [visible])]

theorem asciiString_append (text : String) (after : List Char)
    : asciiString text ++ after = '"' :: (text.toList.flatMap asciiEscape ++ '"' :: after) := by
  simp [asciiString]

theorem valueEnd_dumpItems (items : List Json) (after : List Char)
    : ValueEnd (dumpItems items ++ after) := by
  cases items <;> exact valueEnd_cons (by simp) _

theorem valueEnd_dumpMembers (members : List (String × Json)) (after : List Char)
    : ValueEnd (dumpMembers members ++ after) := by
  cases members <;> exact valueEnd_cons (by simp) _

variable {floatRepr}

/-- The first character of a number. -/
def StartsNumber (letter : Char) : Prop := letter = '-' ∨ letter.isDigit = true

theorem StartsNumber.ne {letter other : Char} (starts : StartsNumber letter)
    (sign : other ≠ '-') (digit : other.isDigit = false)
    : letter ≠ other := by
  rintro rfl
  rcases starts with same | isDigit
  · exact sign same
  · rw [digit] at isDigit
    cases isDigit

/-- A number starts with no white space and closes no array. -/
theorem StartsNumber.visible {letter : Char} (starts : StartsNumber letter)
    : isSpace letter = false ∧ letter ≠ ']' := by
  have other : ∀ fixed : Char, fixed ≠ '-' → fixed.isDigit = false → letter ≠ fixed :=
    fun fixed => starts.ne
  simp [isSpace, other]

theorem readNumber_first {text rest : List Char} {value : Json}
    (read : readNumber floatRepr text = some (value, rest))
    : ∃ letter more, text = letter :: more ∧ StartsNumber letter := by
  cases text with
  | nil => cases read
  | cons letter more =>
      refine ⟨letter, more, rfl, ?_⟩
      by_contra other
      have notSign : letter ≠ '-' := fun same => other (.inl same)
      have notDigit : letter.isDigit ≠ true := fun same => other (.inr same)
      have notZero : letter ≠ '0' := by
        rintro rfl
        exact notDigit rfl
      simp [readNumber, readSign, readWhole, notSign, notDigit, notZero] at read

/-- What starts like a number is read as one. -/
theorem readValue_number {letter : Char} (starts : StartsNumber letter) (fuel : Nat)
    (rest : List Char)
    : readValue floatRepr (fuel + 1) (letter :: rest) = readScalar floatRepr letter rest := by
  rw [readValue, if_neg (starts.ne (by decide) (by decide)),
    if_neg (starts.ne (by decide) (by decide)), if_neg (starts.ne (by decide) (by decide)),
    if_neg (starts.ne (by decide) (by decide)), if_neg (starts.ne (by decide) (by decide)),
    if_neg (starts.ne (by decide) (by decide))]

/-- A text that is read as a number is one at the start of a longer text. -/
theorem readValue_of_readNumber {text : List Char} {value : Json}
    (read : readNumber floatRepr text = some (value, [])) {fuel : Nat}
    (enough : text.length ≤ fuel) {after : List Char} (ends : ValueEnd after)
    : readValue floatRepr fuel (text ++ after) = some (value, after) := by
  obtain ⟨letter, more, rfl, starts⟩ := readNumber_first read
  obtain ⟨fuel, rfl⟩ := Nat.exists_eq_succ_of_ne_zero (Nat.ne_of_gt (Nat.lt_of_lt_of_le
    (Nat.succ_pos more.length) enough))
  have longer := readNumber_append ends read
  rw [List.cons_append] at longer ⊢
  rw [readValue_number starts, readScalar, longer, List.nil_append]

/-- A float is read back from its text. -/
theorem readValue_floatText {literal : String} (readable : FloatReadable floatRepr literal)
    {fuel : Nat} (enough : (floatText literal).length ≤ fuel) {after : List Char}
    (ends : ValueEnd after)
    : readValue floatRepr fuel (floatText literal ++ after) = some (.float literal, after) := by
  unfold floatText at enough ⊢
  split at enough
  case isTrue same =>
    obtain ⟨fuel, rfl⟩ := Nat.exists_eq_add_of_le' enough
    subst same
    rfl
  split at enough
  case isTrue same =>
    obtain ⟨fuel, rfl⟩ := Nat.exists_eq_add_of_le' enough
    subst same
    rfl
  split at enough
  case isTrue same =>
    obtain ⟨fuel, rfl⟩ := Nat.exists_eq_add_of_le' enough
    subst same
    rfl
  case isFalse notNan notInf notNeg =>
    rw [if_neg notNan, if_neg notInf, if_neg notNeg]
    rcases readable with same | same | same | read
    · exact (notNan same).elim
    · exact (notInf same).elim
    · exact (notNeg same).elim
    · exact readValue_of_readNumber read enough ends

theorem floatText_first {literal : String} (readable : FloatReadable floatRepr literal)
    : ∃ letter rest, floatText literal = letter :: rest ∧ isSpace letter = false
        ∧ letter ≠ ']' := by
  unfold floatText
  split
  case isTrue => exact ⟨_, _, rfl, by decide, by decide⟩
  split
  case isTrue => exact ⟨_, _, rfl, by decide, by decide⟩
  split
  case isTrue => exact ⟨_, _, rfl, by decide, by decide⟩
  case isFalse notNan notInf notNeg =>
    rcases readable with same | same | same | read
    · exact (notNan same).elim
    · exact (notInf same).elim
    · exact (notNeg same).elim
    · obtain ⟨letter, more, shown, starts⟩ := readNumber_first read
      exact ⟨letter, more, shown, starts.visible⟩

theorem dumps_first {value : Json} (readable : value.Readable floatRepr)
    : ∃ letter rest, value.dumps = letter :: rest ∧ isSpace letter = false ∧ letter ≠ ']' := by
  rcases value with _ | (_ | _) | value | literal | text | items | members
  · exact ⟨_, _, rfl, by decide, by decide⟩
  · exact ⟨_, _, rfl, by decide, by decide⟩
  · exact ⟨_, _, rfl, by decide, by decide⟩
  · obtain ⟨letter, more, shown, starts⟩ := readNumber_first (readNumber_intText floatRepr value)
    exact ⟨letter, more, shown, starts.visible⟩
  · exact floatText_first readable
  · exact ⟨_, _, rfl, by decide, by decide⟩
  · cases items <;> exact ⟨_, _, rfl, by decide, by decide⟩
  · cases members <;> exact ⟨_, _, rfl, by decide, by decide⟩

theorem itemsReadable_of_cons {item : Json} {rest : List Json}
    (readable : ItemsReadable floatRepr (item :: rest))
    : item.Readable floatRepr ∧ ItemsReadable floatRepr rest := readable

mutual
/-- A value is read back from its text, by induction on the value. -/
theorem readValue_dumps : ∀ {value : Json} {fuel : Nat} {after : List Char},
    value.Readable floatRepr → value.dumps.length ≤ fuel → ValueEnd after →
    readValue floatRepr fuel (value.dumps ++ after) = some (value, after)
  | _, 0, after, readable, enough, ends => by
      obtain ⟨letter, rest, shown, _⟩ := dumps_first readable
      rw [shown] at enough
      exact (Nat.not_succ_le_zero _ enough).elim
  | .null, fuel + 1, after, readable, enough, ends => rfl
  | .bool true, fuel + 1, after, readable, enough, ends => rfl
  | .bool false, fuel + 1, after, readable, enough, ends => rfl
  | .int value, fuel + 1, after, readable, enough, ends =>
      readValue_of_readNumber (readNumber_intText floatRepr value) enough ends
  | .float literal, fuel + 1, after, readable, enough, ends =>
      readValue_floatText readable enough ends
  | .str text, fuel + 1, after, readable, enough, ends => by
      have read := readString_asciiString text after
      rw [dumps, asciiString_append, readValue, if_pos rfl, read]
      rfl
  | .arr [], fuel + 1, after, readable, enough, ends => rfl
  | .arr (item :: rest), fuel + 1, after, readable, enough, ends => by
      obtain ⟨letter, more, shown, visible, notClosed⟩ :=
        dumps_first (itemsReadable_of_cons readable).1
      have inner : (itemsText (item :: rest)).length ≤ fuel := Nat.le_of_succ_le_succ enough
      have read := @readItems_dumps (item :: rest) fuel after (List.cons_ne_nil _ _) readable inner
      have opened : itemsText (item :: rest) ++ after
          = letter :: (more ++ dumpItems rest ++ after) := by
        simp [itemsText, shown]
      rw [opened] at read
      have text : (Json.arr (item :: rest)).dumps ++ after
          = '[' :: (itemsText (item :: rest) ++ after) := rfl
      rw [text, opened, readValue, if_neg (by decide), if_pos rfl, skipSpace_cons visible]
      simp only
      rw [if_neg notClosed, read]
      rfl
  | .obj [], fuel + 1, after, readable, enough, ends => rfl
  | .obj ((key, value) :: rest), fuel + 1, after, readable, enough, ends => by
      have inner : (membersText ((key, value) :: rest)).length ≤ fuel :=
        Nat.le_of_succ_le_succ enough
      have read := @readMembers_dumps ((key, value) :: rest) fuel after (List.cons_ne_nil _ _)
        readable.2 inner
      have text : (Json.obj ((key, value) :: rest)).dumps ++ after
          = '\x7b' :: (membersText ((key, value) :: rest) ++ after) := rfl
      have opened : membersText ((key, value) :: rest) ++ after
          = '"' :: (key.toList.flatMap asciiEscape ++ '"' :: ':' :: (value.dumps
            ++ dumpMembers rest ++ after)) := by
        simp [membersText, asciiString]
      rw [opened] at read
      rw [text, opened, readValue, if_neg (by decide), if_neg (by decide), if_pos rfl,
        skipSpace_cons (by decide)]
      simp only
      rw [if_neg (by decide), read]
      have members : (Dict.ofItems ((key, value) :: rest)).items = (key, value) :: rest :=
        Dict.items_ofItems readable.1
      simp only [Option.map_some, members]

theorem readItems_dumps : ∀ {items : List Json} {fuel : Nat} {after : List Char}, items ≠ [] →
    ItemsReadable floatRepr items → (itemsText items).length ≤ fuel →
    readItems floatRepr fuel (itemsText items ++ after) = some (items, after)
  | [], fuel, after, nonempty, readable, enough => (nonempty rfl).elim
  | item :: rest, 0, after, nonempty, readable, enough => by
      obtain ⟨letter, more, shown, _⟩ := dumps_first (itemsReadable_of_cons readable).1
      simp [itemsText, shown] at enough
  | item :: rest, fuel + 1, after, nonempty, readable, enough => by
      have lengths : item.dumps.length + (dumpItems rest).length ≤ fuel + 1 := by
        simpa [itemsText] using enough
      have closed : 0 < (dumpItems rest).length := by
        cases rest <;> exact Nat.succ_pos _
      have read := @readValue_dumps item fuel (dumpItems rest ++ after)
        (itemsReadable_of_cons readable).1 (by omega) (valueEnd_dumpItems rest after)
      rw [itemsText, List.append_assoc, readItems, read]
      cases rest with
      | nil => rfl
      | cons other more =>
          have later : (itemsText (other :: more)).length ≤ fuel := by
            have shown : dumpItems (other :: more) = ',' :: itemsText (other :: more) := rfl
            rw [shown, List.length_cons] at lengths
            omega
          have readableMore := (itemsReadable_of_cons readable).2
          have readMore := @readItems_dumps (other :: more) fuel after (List.cons_ne_nil _ _)
            readableMore later
          obtain ⟨letter, rest, shown, visible, _⟩ :=
            dumps_first (itemsReadable_of_cons readableMore).1
          have opened : itemsText (other :: more) ++ after
              = letter :: (rest ++ dumpItems more ++ after) := by
            simp [itemsText, shown]
          have text : dumpItems (other :: more) ++ after
              = ',' :: (itemsText (other :: more) ++ after) := rfl
          rw [text]
          simp only [skipSpace_cons (show isSpace ',' = false by decide)]
          rw [if_neg (by decide), if_true, opened, skipSpace_cons visible, ← opened, readMore]
          rfl

theorem readMembers_dumps : ∀ {members : List (String × Json)} {fuel : Nat} {after : List Char},
    members ≠ [] → MembersReadable floatRepr members → (membersText members).length ≤ fuel →
    readMembers floatRepr fuel (membersText members ++ after) = some (members, after)
  | [], fuel, after, nonempty, readable, enough => (nonempty rfl).elim
  | (key, value) :: rest, 0, after, nonempty, readable, enough => by
      simp [membersText, asciiString] at enough
  | (key, value) :: rest, fuel + 1, after, nonempty, readable, enough => by
      have lengths : value.dumps.length + (dumpMembers rest).length + 3 ≤ fuel + 1 := by
        simp only [membersText, asciiString, List.length_append, List.length_cons,
          List.length_nil] at enough
        omega
      have readKey := readString_asciiString key
        (':' :: (value.dumps ++ (dumpMembers rest ++ after)))
      have read := @readValue_dumps value fuel (dumpMembers rest ++ after) readable.1 (by omega)
        (valueEnd_dumpMembers rest after)
      obtain ⟨letter, more, shown, visible, _⟩ := dumps_first readable.1
      have opened : value.dumps ++ (dumpMembers rest ++ after)
          = letter :: (more ++ (dumpMembers rest ++ after)) := by
        rw [shown, List.cons_append]
      have text : membersText ((key, value) :: rest) ++ after
          = '"' :: (key.toList.flatMap asciiEscape
            ++ '"' :: ':' :: (value.dumps ++ (dumpMembers rest ++ after))) := by
        simp [membersText, asciiString]
      rw [text, readMembers, if_pos rfl, readKey]
      simp only [skipSpace_cons (show isSpace ':' = false by decide)]
      rw [if_true, opened, skipSpace_cons visible, ← opened, read]
      cases rest with
      | nil => rfl
      | cons member members =>
          have shownMore : dumpMembers (member :: members) = ',' :: membersText (member :: members)
            := rfl
          have later : (membersText (member :: members)).length ≤ fuel := by
            rw [shownMore, List.length_cons] at lengths
            omega
          have readMore := @readMembers_dumps (member :: members) fuel after
            (List.cons_ne_nil _ _) readable.2 later
          have quoted : membersText (member :: members) ++ after
              = '"' :: (member.1.toList.flatMap asciiEscape
                ++ '"' :: ':' :: (member.2.dumps ++ (dumpMembers members ++ after))) := by
            simp [membersText, asciiString]
          rw [shownMore, List.cons_append]
          simp only [skipSpace_cons (show isSpace ',' = false by decide)]
          rw [if_neg (by decide), if_true, quoted, skipSpace_cons (by decide), ← quoted,
            readMore]
          rfl
end

/-- `loads` takes back what `dumps` writes. -/
theorem loads_dumps {value : Json} (readable : value.Readable floatRepr)
    : loads floatRepr value.dumps = some value := by
  obtain ⟨letter, rest, shown, visible, _⟩ := dumps_first readable
  have read := readValue_dumps readable (Nat.le_refl _) valueEnd_nil
  rw [List.append_nil] at read
  rw [loads]
  have start : skipSpace value.dumps = value.dumps := by
    rw [shown, skipSpace_cons visible]
  rw [start, read]
  rfl

-----------------------------------------------------------------------------------------
-- What is read can be written
-----------------------------------------------------------------------------------------

theorem readWord_value {word text rest : List Char} {value found : Json}
    (read : readWord word value text = some (found, rest))
    : value = found := by
  unfold readWord at read
  split at read
  case isTrue =>
    cases read
    rfl
  case isFalse => cases read

theorem membersReadable_iff {members : List (String × Json)}
    : MembersReadable floatRepr members ↔ ∀ member ∈ members, member.2.Readable floatRepr := by
  induction members with
  | nil => exact ⟨fun _ _ member => (List.not_mem_nil member).elim, fun _ => trivial⟩
  | cons member rest ih =>
      rw [List.forall_mem_cons]
      exact and_congr_right' ih

/-- Of equal keys the last one counts, so that keys of an object that is read differ. -/
theorem readable_ofItems {members : List (String × Json)}
    (readable : MembersReadable floatRepr members)
    : (obj (Dict.ofItems members).items).Readable floatRepr := by
  refine ⟨(Dict.ofItems members).nodup, membersReadable_iff.mpr ?_⟩
  rintro ⟨key, value⟩ member
  have found := Dict.get?_eq_some.mpr member
  rw [Dict.ofItems, Dict.get?_update, Dict.get?_empty, Option.or_none,
    Option.map_eq_some_iff] at found
  obtain ⟨last, found, rfl⟩ := found
  exact membersReadable_iff.mp readable last
    (List.mem_reverse.mp (List.mem_of_find?_eq_some found))

section Read

variable (exact : ReprExact floatRepr)

include exact

theorem readNumber_readable {text rest : List Char} {value : Json}
    (read : readNumber floatRepr text = some (value, rest))
    : value.Readable floatRepr := by
  cases value with
  | float literal => exact exact text literal rest read
  | arr _ | obj _ =>
      simp only [readNumber] at read
      split at read
      case h_1 => cases read
      case h_2 => split at read <;> cases read
  | _ => trivial

theorem readScalar_readable {letter : Char} {text rest : List Char} {value : Json}
    (read : readScalar floatRepr letter text = some (value, rest))
    : value.Readable floatRepr := by
  unfold readScalar at read
  split at read
  case h_1 number =>
    cases read
    exact readNumber_readable exact number
  case h_2 =>
    split at read
    case isTrue => exact readWord_value read ▸ .inl rfl
    split at read
    case isTrue => exact readWord_value read ▸ .inr (.inl rfl)
    split at read
    case isTrue => exact readWord_value read ▸ .inr (.inr (.inl rfl))
    case isFalse => cases read

/-- All that is read with some fuel is readable. -/
structure ReadsReadable (floatRepr : String → String) (fuel : Nat) : Prop where
  values {text rest : List Char} {value : Json}
    : readValue floatRepr fuel text = some (value, rest) → value.Readable floatRepr
  items {text rest : List Char} {items : List Json}
    : readItems floatRepr fuel text = some (items, rest) → ItemsReadable floatRepr items
  members {text rest : List Char} {members : List (String × Json)}
    : readMembers floatRepr fuel text = some (members, rest) → MembersReadable floatRepr members

section Step

variable {fuel : Nat} (reads : ReadsReadable floatRepr fuel)

include reads

theorem ReadsReadable.nextValue {text rest : List Char} {value : Json}
    (read : readValue floatRepr (fuel + 1) text = some (value, rest))
    : value.Readable floatRepr := by
  cases text with
  | nil => cases read
  | cons letter text =>
      rw [readValue] at read
      split at read
      case isTrue =>
        obtain ⟨string, _, same⟩ := Option.map_eq_some_iff.mp read
        cases same
        trivial
      split at read
      case isTrue =>
        split at read
        case h_1 => cases read
        case h_2 =>
          split at read
          case isTrue =>
            cases read
            trivial
          case isFalse =>
            obtain ⟨found, readItems, same⟩ := Option.map_eq_some_iff.mp read
            cases same
            exact reads.items readItems
      split at read
      case isTrue =>
        split at read
        case h_1 => cases read
        case h_2 =>
          split at read
          case isTrue =>
            cases read
            exact ⟨List.nodup_nil, trivial⟩
          case isFalse =>
            obtain ⟨found, readMembers, same⟩ := Option.map_eq_some_iff.mp read
            cases same
            exact readable_ofItems (reads.members readMembers)
      split at read
      case isTrue => exact readWord_value read ▸ trivial
      split at read
      case isTrue => exact readWord_value read ▸ trivial
      split at read
      case isTrue => exact readWord_value read ▸ trivial
      case isFalse => exact readScalar_readable exact read

omit exact in
theorem ReadsReadable.nextItems {text rest : List Char} {found : List Json}
    (read : readItems floatRepr (fuel + 1) text = some (found, rest))
    : ItemsReadable floatRepr found := by
  rw [readItems] at read
  split at read
  case h_1 => cases read
  case h_2 value more first =>
    have readable := reads.values first
    split at read
    case h_1 => cases read
    case h_2 mark later _ =>
      split at read
      case isTrue =>
        cases read
        exact ⟨readable, trivial⟩
      split at read
      case isTrue =>
        obtain ⟨others, readMore, same⟩ := Option.map_eq_some_iff.mp read
        cases same
        exact ⟨readable, reads.items readMore⟩
      case isFalse => cases read

omit exact in
theorem ReadsReadable.nextMembers {text rest : List Char} {found : List (String × Json)}
    (read : readMembers floatRepr (fuel + 1) text = some (found, rest))
    : MembersReadable floatRepr found := by
  cases text with
  | nil => cases read
  | cons quote text =>
      rw [readMembers] at read
      split at read
      case isFalse => cases read
      split at read
      case h_1 => cases read
      split at read
      case h_1 => cases read
      split at read
      case isFalse => cases read
      split at read
      case h_1 => cases read
      case h_2 value _ first =>
        have readable := reads.values first
        split at read
        case h_1 => cases read
        split at read
        case isTrue =>
          cases read
          exact ⟨readable, trivial⟩
        split at read
        case isTrue =>
          obtain ⟨others, readMore, same⟩ := Option.map_eq_some_iff.mp read
          cases same
          exact ⟨readable, reads.members readMore⟩
        case isFalse => cases read

end Step

/-- All values that are read are readable, by induction on the fuel. -/
theorem readsReadable (fuel : Nat) : ReadsReadable floatRepr fuel := by
  induction fuel with
  | zero =>
      refine ⟨?_, ?_, ?_⟩
      · intro text rest value read
        cases read
      · intro text rest items read
        cases read
      · intro text rest members read
        cases read
  | succ fuel ih => exact ⟨ih.nextValue exact, ih.nextItems, ih.nextMembers⟩

theorem loads_readable {text : List Char} {value : Json}
    (read : loads floatRepr text = some value)
    : value.Readable floatRepr := by
  unfold loads at read
  split at read
  case h_1 found rest shown =>
    split at read
    case isTrue =>
      cases read
      exact (readsReadable exact _).values shown
    case isFalse => cases read
  case h_2 => cases read

end Read

end Reading

/-- Floats that are shown as they are written read as the same floats. -/
theorem reprExact_id : ReprExact id := by
  intro text literal rest read
  refine .inr (.inr (.inr ?_))
  unfold readNumber at read
  cases whole : readWhole (readSign text).2 with
  | none => simp [whole] at read
  | some found =>
      simp only [whole] at read
      split at read
      case isTrue => cases read
      case isFalse float =>
        obtain ⟨sameLiteral, _⟩ := Prod.mk.inj (Option.some.inj read)
        obtain rfl := Json.float.inj sameLiteral
        obtain ⟨digits, letter, more, first, digit⟩ := readWhole_taken whole
          (readFraction_noDigit found.2 (readFraction found.2).2)
        have sign := readSign_taken text digit
          (more ++ ((readFraction found.2).1 ++ (readExponent (readFraction found.2).2).1))
        rw [← List.cons_append, ← first] at sign
        simp only [id_eq, String.toList_ofList, List.append_assoc, readNumber, sign, digits,
          readFraction_taken, readExponent_taken, if_neg float]

end Json

end Py
