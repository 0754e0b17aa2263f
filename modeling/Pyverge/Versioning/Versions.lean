import Pyverge.Versioning.Digests

/-! The two kinds of version values: semantic versions and calendar dates.
A semantic version keeps its build metadata in its value and its text; its precedence, with which
`==` and the hash agree, leaves them out. Dates have no such part.
-/

namespace Pyverge

-----------------------------------------------------------------------------------------
-- Semantic versions
-----------------------------------------------------------------------------------------

/-- The characters of a version identifier. -/
def isIdentifierChar (char : Char) : Bool := char.isAlphanum || char == '-'

/-- A dot-separated part of build metadata. -/
structure BuildIdentifier where
  text : String
  valid : text.toList ≠ [] ∧ text.toList.all isIdentifierChar
  deriving DecidableEq

/-- A dot-separated part of a pre-release: a number, or a text with something else than digits. -/
inductive PreIdentifier where
  | numeric (value : Nat)
  | alphanumeric (text : String)
      (valid : text.toList.all isIdentifierChar ∧ text.toList.any (fun char => !char.isDigit))
  deriving DecidableEq

namespace PreIdentifier

/-- Numbers come before texts. -/
def isText : PreIdentifier → Bool
  | .numeric _ => false
  | .alphanumeric _ _ => true

def number : PreIdentifier → Nat
  | .numeric value => value
  | .alphanumeric _ _ => 0

def text : PreIdentifier → String
  | .numeric _ => ""
  | .alphanumeric text _ => text

/-- Numbers compare by value and texts by their characters. -/
def cmp : PreIdentifier → PreIdentifier → Ordering :=
  compareLex (compareOn isText) (compareLex (compareOn number) (compareOn text))

instance : Std.TransCmp cmp := by
  unfold cmp
  infer_instance

theorem eq_of_cmp {left right : PreIdentifier} (equal : left.cmp right = .eq) : left = right := by
  simp only [cmp, compareLex_eq_eq, compareOn, Std.LawfulEqCmp.compare_eq_iff_eq] at equal
  cases left <;> cases right <;> simp_all [isText, number, text]

instance : Std.LawfulEqCmp cmp := ⟨eq_of_cmp⟩

def chars : PreIdentifier → List Char
  | .numeric value => Nat.toDigits 10 value
  | .alphanumeric text _ => text.toList

end PreIdentifier

/-- `semver.Version`; a version without pre-release or build metadata has no such identifiers. -/
structure Semver where
  major : Nat
  minor : Nat
  patch : Nat
  prerelease : List PreIdentifier
  build : List BuildIdentifier
  deriving DecidableEq

namespace Semver

/-- Precedence: a pre-release comes before its release, and build metadata does not count. -/
def cmp : Semver → Semver → Ordering :=
  compareLex (compareOn major) (compareLex (compareOn minor) (compareLex (compareOn patch)
    (compareLex (compareOn (fun version => version.prerelease.isEmpty))
      (fun left right => List.compareLex PreIdentifier.cmp left.prerelease right.prerelease))))

instance : Std.TransCmp (fun left right : Semver =>
    List.compareLex PreIdentifier.cmp left.prerelease right.prerelease) :=
  Py.transCmp_on (List.compareLex PreIdentifier.cmp) prerelease

instance : Std.TransCmp cmp := by
  unfold cmp
  infer_instance

/-- The version without its build metadata. -/
def release (version : Semver) : Semver := { version with build := [] }

/-- Versions of one precedence differ at most in their build metadata. -/
theorem cmp_eq_iff {left right : Semver} : left.cmp right = .eq ↔ left.release = right.release := by
  obtain ⟨major, minor, patch, prerelease, _⟩ := left
  obtain ⟨major', minor', patch', prerelease', _⟩ := right
  have list : List.compareLex PreIdentifier.cmp prerelease prerelease' = .eq
      ↔ prerelease = prerelease' := Std.LawfulEqCmp.compare_eq_iff_eq
  simp only [cmp, compareLex_eq_eq, compareOn, Std.LawfulEqCmp.compare_eq_iff_eq, list, release,
    Semver.mk.injEq, and_true]
  constructor
  · rintro ⟨rfl, rfl, rfl, _, rfl⟩
    exact ⟨rfl, rfl, rfl, rfl⟩
  · rintro ⟨rfl, rfl, rfl, rfl⟩
    exact ⟨rfl, rfl, rfl, rfl, rfl⟩

/-- A separator and identifiers, or nothing. -/
def suffix (separator : Char) (parts : List (List Char)) : List Char :=
  if parts.isEmpty then [] else separator :: Py.joinWith '.' parts

def coreChars (version : Semver) : List Char :=
  Nat.toDigits 10 version.major ++ '.' :: (Nat.toDigits 10 version.minor
    ++ '.' :: Nat.toDigits 10 version.patch)

def chars (version : Semver) : List Char :=
  version.coreChars ++ suffix '-' (version.prerelease.map PreIdentifier.chars)
    ++ suffix '+' (version.build.map (fun part => part.text.toList))

end Semver

-----------------------------------------------------------------------------------------
-- Dates
-----------------------------------------------------------------------------------------

def isLeap (year : Nat) : Bool := year % 4 == 0 && (year % 100 != 0 || year % 400 == 0)

def daysInMonth (year month : Nat) : Nat :=
  if month = 2 then (if isLeap year then 29 else 28)
  else if month = 4 ∨ month = 6 ∨ month = 9 ∨ month = 11 then 30
  else 31

/-- `pendulum.Date` -/
structure Date where
  year : Nat
  month : Nat
  day : Nat
  valid : 1 ≤ year ∧ year ≤ 9999 ∧ 1 ≤ month ∧ month ≤ 12 ∧ 1 ≤ day ∧ day ≤ daysInMonth year month
  deriving DecidableEq

namespace Date

def cmp : Date → Date → Ordering :=
  compareLex (compareOn year) (compareLex (compareOn month) (compareOn day))

instance : Std.TransCmp cmp := by
  unfold cmp
  infer_instance

theorem cmp_eq_iff {left right : Date} : left.cmp right = .eq ↔ left = right := by
  simp only [cmp, compareLex_eq_eq, compareOn, Std.LawfulEqCmp.compare_eq_iff_eq]
  cases left
  cases right
  simp

/-- A number with leading zeros up to a width. -/
def padded (width value : Nat) : List Char :=
  List.replicate (width - (Nat.toDigits 10 value).length) '0' ++ Nat.toDigits 10 value

def chars (date : Date) : List Char :=
  padded 4 date.year ++ '-' :: (padded 2 date.month ++ '-' :: padded 2 date.day)

end Date

-----------------------------------------------------------------------------------------
-- Parsing
-----------------------------------------------------------------------------------------

/-- A part of a pre-release; a number has no leading zeros. -/
def PreIdentifier.parse (chars : List Char) : Option PreIdentifier :=
  if chars.all Char.isDigit then (Release.parseNumber chars).map .numeric
  else
    let text := String.ofList chars
    if valid : text.toList.all isIdentifierChar ∧ text.toList.any (fun char => !char.isDigit) then
      some (.alphanumeric text valid)
    else none

def BuildIdentifier.parse (chars : List Char) : Option BuildIdentifier :=
  let text := String.ofList chars
  if valid : text.toList ≠ [] ∧ text.toList.all isIdentifierChar then some ⟨text, valid⟩ else none

/-- `major.minor.patch`, a pre-release after the first hyphen, build metadata after a plus. -/
def Semver.parse (text : String) : Option Semver := do
  let (body, build) ← match text.toList.splitOn '+' with
    | [body] => some (body, [])
    | [body, build] => ((build.splitOn '.').mapM BuildIdentifier.parse).map (fun build => (body, build))
    | _ => none
  let (core, rest) := body.span (· ≠ '-')
  let prerelease ← match rest with
    | [] => some []
    | _ :: tail => (tail.splitOn '.').mapM PreIdentifier.parse
  match core.splitOn '.' with
  | [major, minor, patch] =>
      return {
        major := ← Release.parseNumber major
        minor := ← Release.parseNumber minor
        patch := ← Release.parseNumber patch
        prerelease, build
      }
  | _ => none

/-- A calendar date `YYYY-MM-DD`; the other forms that the date parser accepts are left out. -/
def Date.parse (text : String) : Option Date :=
  match text.toList.splitOn '-' with
  | [year, month, day] =>
      if year.length = 4 ∧ month.length = 2 ∧ day.length = 2
          ∧ (year ++ month ++ day).all Char.isDigit then
        let number (digits : List Char) : Nat := Nat.ofDigitChars 10 digits 0
        if valid : 1 ≤ number year ∧ number year ≤ 9999 ∧ 1 ≤ number month ∧ number month ≤ 12
            ∧ 1 ≤ number day ∧ number day ≤ daysInMonth (number year) (number month) then
          some ⟨number year, number month, number day, valid⟩
        else none
      else none
  | _ => none

-----------------------------------------------------------------------------------------
-- Version values
-----------------------------------------------------------------------------------------

/-- A version value of one of the two strategies. -/
inductive Version where
  | semver (value : Semver)
  | date (value : Date)
  deriving DecidableEq

namespace Version

def isDate : Version → Bool
  | .semver _ => false
  | .date _ => true

/-- Precedence inside a strategy; the strategies themselves are never compared by the callers. -/
def cmp : Version → Version → Ordering
  | .semver left, .semver right => left.cmp right
  | .date left, .date right => left.cmp right
  | .semver _, .date _ => .lt
  | .date _, .semver _ => .gt

instance : Std.TransCmp cmp where
  eq_swap {left right} := by
    cases left with
    | semver one =>
        cases right with
        | semver other =>
            have swapped : one.cmp other = (other.cmp one).swap := Std.OrientedCmp.eq_swap
            exact swapped
        | date other => rfl
    | date one =>
        cases right with
        | semver other => rfl
        | date other =>
            have swapped : one.cmp other = (other.cmp one).swap := Std.OrientedCmp.eq_swap
            exact swapped
  isLE_trans {one two three} first second := by
    cases one with
    | semver one =>
        cases three with
        | date three => rfl
        | semver three =>
            cases two with
            | semver two =>
                have below : (one.cmp two).isLE := first
                have above : (two.cmp three).isLE := second
                have chained : (one.cmp three).isLE := Std.TransCmp.isLE_trans below above
                exact chained
            | date two => cases second
    | date one =>
        cases two with
        | semver two => cases first
        | date two =>
            cases three with
            | semver three => cases second
            | date three =>
                have below : (one.cmp two).isLE := first
                have above : (two.cmp three).isLE := second
                have chained : (one.cmp three).isLE := Std.TransCmp.isLE_trans below above
                exact chained

def chars : Version → List Char
  | .semver value => value.chars
  | .date value => value.chars

/-- `parse_version` of a text -/
def parse (text : String) : Option Version :=
  ((Semver.parse text).map .semver).orElse (fun _ => (Date.parse text).map .date)

end Version

instance : VersionValue Version where
  strategy version := if version.isDate then "Date" else "Version"
  strategyName version := if version.isDate then "date" else "semver"
  parse := Version.parse
  cmp := Version.cmp
  str version := String.ofList version.chars
  trans := inferInstance

/-- The value without build metadata. -/
def Version.release : Version → Version
  | .semver value => .semver value.release
  | .date value => .date value

/-- Values of one precedence differ at most in build metadata. -/
theorem Version.cmp_eq_iff {left right : Version}
    : left.cmp right = .eq ↔ left.release = right.release := by
  cases left with
  | semver one =>
      cases right with
      | semver other => simp [Version.cmp, Semver.cmp_eq_iff, Version.release]
      | date other => simp [Version.cmp, Version.release]
  | date one =>
      cases right with
      | semver other => simp [Version.cmp, Version.release]
      | date other => simp [Version.cmp, Date.cmp_eq_iff, Version.release]

-----------------------------------------------------------------------------------------
-- Texts
-----------------------------------------------------------------------------------------

theorem toDigits_inj {left right : Nat} (same : Nat.toDigits 10 left = Nat.toDigits 10 right)
    : left = right := by
  have numbers := congrArg (fun digits => Nat.ofDigitChars 10 digits 0) same
  simpa using numbers

/-- What is no digit does not occur in a number. -/
theorem not_mem_toDigits {char : Char} (other : char.isDigit = false) (value : Nat)
    : char ∉ Nat.toDigits 10 value := by
  intro member
  rw [Nat.isDigit_of_mem_toDigits (by decide) (by decide) member] at other
  cases other

/-- What is no identifier character does not occur in an identifier. -/
theorem not_mem_of_all {char : Char} (other : isIdentifierChar char = false) {chars : List Char}
    (valid : chars.all isIdentifierChar)
    : char ∉ chars := by
  intro member
  rw [List.all_eq_true.mp valid char member] at other
  cases other

namespace PreIdentifier

theorem not_mem_chars {char : Char} (digit : char.isDigit = false)
    (other : isIdentifierChar char = false) (identifier : PreIdentifier)
    : char ∉ identifier.chars := by
  cases identifier with
  | numeric value => exact not_mem_toDigits digit value
  | alphanumeric text valid => exact not_mem_of_all other valid.1

theorem chars_inj {left right : PreIdentifier} (same : left.chars = right.chars)
    : left = right := by
  have apart : ∀ {value : Nat} {text : String},
      text.toList.any (fun char => !char.isDigit) → Nat.toDigits 10 value ≠ text.toList := by
    intro value text some same
    obtain ⟨char, member, other⟩ := List.any_eq_true.mp some
    rw [← same] at member
    exact not_mem_toDigits (by simpa using other) value member
  cases left with
  | numeric value =>
      cases right with
      | numeric number => rw [toDigits_inj same]
      | alphanumeric text valid => exact (apart valid.2 same).elim
  | alphanumeric text valid =>
      cases right with
      | numeric value => exact (apart valid.2 same.symm).elim
      | alphanumeric other otherValid =>
          obtain rfl := String.toList_inj.mp same
          rfl

end PreIdentifier

namespace Semver

/-- A suffix is recognised by its separator if what precedes it does not contain that. -/
theorem append_suffix_inj {separator : Char} {left right : List Char}
    {parts others : List (List Char)} (leftFree : separator ∉ left) (rightFree : separator ∉ right)
    (partsFree : ∀ part ∈ parts, '.' ∉ part) (othersFree : ∀ part ∈ others, '.' ∉ part)
    (same : left ++ suffix separator parts = right ++ suffix separator others)
    : left = right ∧ parts = others := by
  unfold suffix at same
  cases parts with
  | nil =>
      cases others with
      | nil => simpa using same
      | cons other rest =>
          have whole : left = right ++ separator :: Py.joinWith '.' (other :: rest) := by
            simpa using same
          rw [whole] at leftFree
          simp at leftFree
  | cons part more =>
      cases others with
      | nil =>
          have whole : left ++ separator :: Py.joinWith '.' (part :: more) = right := by
            simpa using same
          rw [← whole] at rightFree
          simp at rightFree
      | cons other rest =>
          obtain ⟨rfl, joined⟩ := Py.separator_append_inj leftFree rightFree same
          exact ⟨rfl, Py.joinWith_inj partsFree othersFree (by simp) (by simp) joined⟩

/-- What is no separator and no identifier character does not occur in a suffix. -/
theorem not_mem_suffix {char separator : Char} (apart : char ≠ separator) (dot : char ≠ '.')
    {parts : List (List Char)} (free : ∀ part ∈ parts, char ∉ part)
    : char ∉ suffix separator parts := by
  intro member
  unfold suffix at member
  split at member
  · cases member
  · rcases List.mem_cons.mp member with same | joined
    · exact apart same
    · rcases Py.mem_joinWith joined with same | ⟨part, inside, inPart⟩
      · exact dot same
      · exact free part inside inPart

theorem not_mem_core {char : Char} (digit : char.isDigit = false) (dot : char ≠ '.')
    (version : Semver)
    : char ∉ version.coreChars := by
  simp [coreChars, not_mem_toDigits digit, dot]

theorem not_mem_prerelease {char : Char} (digit : char.isDigit = false)
    (other : isIdentifierChar char = false) (version : Semver)
    : ∀ part ∈ version.prerelease.map PreIdentifier.chars, char ∉ part := by
  intro part member
  obtain ⟨identifier, _, rfl⟩ := List.mem_map.mp member
  exact identifier.not_mem_chars digit other

theorem not_mem_build {char : Char} (other : isIdentifierChar char = false) (version : Semver)
    : ∀ part ∈ version.build.map (fun part => part.text.toList), char ∉ part := by
  intro part member
  obtain ⟨identifier, _, rfl⟩ := List.mem_map.mp member
  exact not_mem_of_all other identifier.valid.2

/-- Build metadata starts at the first plus sign. -/
theorem plus_not_mem_body (version : Semver)
    : '+' ∉ version.coreChars ++ suffix '-' (version.prerelease.map PreIdentifier.chars) := by
  intro member
  rcases List.mem_append.mp member with inCore | inSuffix
  · exact not_mem_core (by decide) (by decide) version inCore
  · exact not_mem_suffix (by decide) (by decide)
      (not_mem_prerelease (by decide) (by decide) version) inSuffix

theorem chars_inj {left right : Semver} (same : left.chars = right.chars) : left = right := by
  obtain ⟨bodies, builds⟩ := append_suffix_inj left.plus_not_mem_body right.plus_not_mem_body
    (not_mem_build (by decide) left) (not_mem_build (by decide) right) same
  obtain ⟨cores, prereleases⟩ := append_suffix_inj (not_mem_core (by decide) (by decide) left)
    (not_mem_core (by decide) (by decide) right) (not_mem_prerelease (by decide) (by decide) left)
    (not_mem_prerelease (by decide) (by decide) right) bodies
  obtain ⟨majors, rest⟩ := Py.separator_append_inj (not_mem_toDigits (by decide) _)
    (not_mem_toDigits (by decide) _) cores
  obtain ⟨minors, patches⟩ := Py.separator_append_inj (not_mem_toDigits (by decide) _)
    (not_mem_toDigits (by decide) _) rest
  have sameBuild : left.build = right.build := by
    refine List.map_injective_iff.mpr (fun one other equal => ?_) builds
    obtain ⟨text, valid⟩ := one
    obtain ⟨otherText, otherValid⟩ := other
    obtain rfl : text = otherText := String.toList_inj.mp equal
    rfl
  have samePrerelease : left.prerelease = right.prerelease :=
    List.map_injective_iff.mpr (fun _ _ equal => PreIdentifier.chars_inj equal) prereleases
  obtain ⟨_, _, _, _, _⟩ := left
  obtain ⟨_, _, _, _, _⟩ := right
  simp only [Semver.mk.injEq]
  exact ⟨toDigits_inj majors, toDigits_inj minors, toDigits_inj patches, samePrerelease, sameBuild⟩

theorem at_not_mem_chars (version : Semver) : '@' ∉ version.chars := by
  intro member
  rcases List.mem_append.mp member with inBody | inBuild
  · rcases List.mem_append.mp inBody with inCore | inSuffix
    · exact not_mem_core (by decide) (by decide) version inCore
    · exact not_mem_suffix (by decide) (by decide)
        (not_mem_prerelease (by decide) (by decide) version) inSuffix
  · exact not_mem_suffix (by decide) (by decide) (not_mem_build (by decide) version) inBuild

end Semver

namespace Date

theorem not_mem_padded {char : Char} (other : char.isDigit = false) (width value : Nat)
    : char ∉ padded width value := by
  intro member
  rcases List.mem_append.mp member with zero | inNumber
  · rw [List.eq_of_mem_replicate zero] at other
    cases other
  · exact not_mem_toDigits other value inNumber

theorem padded_inj {width left right : Nat} (same : padded width left = padded width right)
    : left = right := by
  have numbers := congrArg (fun digits => Nat.ofDigitChars 10 digits 0) same
  simpa [padded, Nat.ofDigitChars_append] using numbers

theorem chars_inj {left right : Date} (same : left.chars = right.chars) : left = right := by
  obtain ⟨years, rest⟩ := Py.separator_append_inj (not_mem_padded (by decide) _ _)
    (not_mem_padded (by decide) _ _) same
  obtain ⟨months, days⟩ := Py.separator_append_inj (not_mem_padded (by decide) _ _)
    (not_mem_padded (by decide) _ _) rest
  obtain ⟨_, _, _, _⟩ := left
  obtain ⟨_, _, _, _⟩ := right
  simp only [Date.mk.injEq]
  exact ⟨padded_inj years, padded_inj months, padded_inj days⟩

theorem not_mem_chars {char : Char} (digit : char.isDigit = false) (hyphen : char ≠ '-')
    (date : Date)
    : char ∉ date.chars := by
  simp [chars, not_mem_padded digit, hyphen]

end Date

/-- The texts of semantic versions and dates tell all values apart; only the former have dots. This
is about texts that versions show: `Version.parse` reads dates as `YYYY-MM-DD` only, the form of
their texts, while the date package reads other forms too.
-/
theorem versionTexts : VersionTexts Version where
  injective left right same := by
    have chars : left.chars = right.chars := String.ofList_inj.mp same
    have apart : ∀ (version : Semver) (date : Date), version.chars ≠ date.chars := by
      intro version date same
      have dot : '.' ∈ version.chars := by simp [Semver.chars, Semver.coreChars]
      rw [same] at dot
      exact Date.not_mem_chars (by decide) (by decide) date dot
    cases left with
    | semver one =>
        cases right with
        | semver other => rw [Semver.chars_inj chars]
        | date other => exact (apart one other chars).elim
    | date one =>
        cases right with
        | semver other => exact (apart other one chars.symm).elim
        | date other => rw [Date.chars_inj chars]
  noAt version := by
    have chars : (VersionValue.str version).toList = version.chars := String.toList_ofList
    rw [chars]
    cases version with
    | semver value => exact value.at_not_mem_chars
    | date value => exact Date.not_mem_chars (by decide) (by decide) value

theorem default_named : ¬ "default" = "" := by
  decide

/-- The identity of a semantic release of `User` in `default`. -/
def semverUser (major : Nat) : NodeId Version where
  nameSpace := "default"
  kind := "User"
  version := .semver ⟨major, 0, 0, [], []⟩
  named := default_named

end Pyverge
