import Pyverge.Versioning.Versions

/-! Version texts are parsed to the versions they are texts of. -/

namespace Pyverge

-----------------------------------------------------------------------------------------
-- Parts of a text
-----------------------------------------------------------------------------------------

/-- Parts that do not contain the separator are split again. -/
theorem splitOn_joinWith {separator : Char} {parts : List (List Char)}
    (free : ∀ part ∈ parts, separator ∉ part) (some : parts ≠ [])
    : (Py.joinWith separator parts).splitOn separator = parts := by
  induction parts with
  | nil => exact (some rfl).elim
  | cons part rest ih =>
      have first := free part (List.mem_cons_self ..)
      cases rest with
      | nil => exact List.splitOn_eq_singleton first
      | cons next more =>
          rw [Py.joinWith, List.splitOn_append_cons_self_of_not_mem first,
            ih (fun part later => free part (List.mem_cons_of_mem _ later)) (List.cons_ne_nil _ _)]

/-- What is parsed one by one is parsed as a list. -/
theorem mapM_parse {α β : Type} {parse : β → Option α} {text : α → β}
    (parses : ∀ item, parse (text item) = some item) (items : List α)
    : (items.map text).mapM parse = some items := by
  induction items with
  | nil => rfl
  | cons item rest ih =>
      rw [List.map_cons, List.mapM_cons, parses, ih]
      rfl

/-- A number other than zero has no leading zeros. -/
theorem head?_toDigits (value : Nat)
    : 0 < value → (Nat.toDigits 10 value).head? ≠ some '0' := by
  have large : 1 < 10 := by decide
  have digits : ∀ digit < 10, 0 < digit → Nat.digitChar digit ≠ '0' := by decide
  induction value using Nat.base_induction 10 large with
  | single digit small =>
      intro positive
      rw [Nat.toDigits_of_lt_base small]
      intro zero
      exact digits digit small positive (Option.some.inj zero)
  | digit higher digit small positive ih =>
      intro _
      rw [← Nat.toDigits_append_toDigits large positive small, List.head?_append_of_ne_nil]
      · exact ih positive
      · exact List.ne_nil_of_length_pos Nat.length_toDigits_pos

theorem parseNumber_toDigits (value : Nat)
    : Release.parseNumber (Nat.toDigits 10 value) = some value := by
  have digits : (Nat.toDigits 10 value).all Char.isDigit := by
    rw [List.all_eq_true]
    intro char member
    exact Nat.isDigit_of_mem_toDigits (by decide) (by decide) member
  have number : (Nat.toDigits 10 value).foldl
      (fun number digit => 10 * number + (digit.toNat - '0'.toNat)) 0 = value := by
    rw [← Nat.ofDigitChars_eq_foldl, Nat.ofDigitChars_ten_toDigits]
  have present : Nat.toDigits 10 value ≠ [] := List.ne_nil_of_length_pos Nat.length_toDigits_pos
  have leading : (Nat.toDigits 10 value).length = 1 ∨ (Nat.toDigits 10 value).head? ≠ some '0' := by
    rcases Nat.eq_zero_or_pos value with zero | positive
    · left
      rw [zero]
      rfl
    · exact Or.inr (head?_toDigits value positive)
  rw [Release.parseNumber, if_pos ⟨digits, present, leading⟩, number]

-----------------------------------------------------------------------------------------
-- Semantic versions
-----------------------------------------------------------------------------------------

theorem PreIdentifier.parse_chars (identifier : PreIdentifier)
    : parse identifier.chars = some identifier := by
  cases identifier with
  | numeric value =>
      have digits : (Nat.toDigits 10 value).all Char.isDigit := by
        rw [List.all_eq_true]
        intro char member
        exact Nat.isDigit_of_mem_toDigits (by decide) (by decide) member
      rw [parse, chars, if_pos digits, parseNumber_toDigits]
      rfl
  | alphanumeric text valid =>
      have mixed : ¬ text.toList.all Char.isDigit := by
        intro digits
        obtain ⟨char, member, other⟩ := List.any_eq_true.mp valid.2
        simp [List.all_eq_true.mp digits char member] at other
      rw [parse, chars, if_neg mixed]
      simp [valid]

theorem BuildIdentifier.parse_text (identifier : BuildIdentifier)
    : parse identifier.text.toList = some identifier := by
  obtain ⟨text, valid⟩ := identifier
  simp [parse, valid]

namespace Semver

/-- A suffix is taken off the text it ends, and its parts are split. -/
theorem split_suffix {separator : Char} {before : List Char} {parts : List (List Char)}
    (beforeFree : separator ∉ before) (partsFree : ∀ part ∈ parts, separator ∉ part)
    (apart : separator ≠ '.')
    : (before ++ suffix separator parts).splitOn separator
      = if parts = [] then [before] else [before, Py.joinWith '.' parts] := by
  cases parts with
  | nil => simpa [suffix] using List.splitOn_eq_singleton beforeFree
  | cons part rest =>
      have joined : separator ∉ Py.joinWith '.' (part :: rest) := by
        intro member
        rcases Py.mem_joinWith member with dot | inside
        · exact apart dot
        · obtain ⟨part, inParts, inPart⟩ := inside
          exact partsFree part inParts inPart
      rw [if_neg (List.cons_ne_nil _ _), suffix]
      rw [if_neg (by simp), List.splitOn_append_cons_self_of_not_mem beforeFree,
        List.splitOn_eq_singleton joined]

/-- What precedes a suffix ends at its separator. -/
theorem span_suffix {separator : Char} {before : List Char} (free : separator ∉ before)
    (parts : List (List Char))
    : (before ++ suffix separator parts).span (· ≠ separator)
      = (before, suffix separator parts) := by
  have kept : ∀ char ∈ before, decide (char ≠ separator) = true := by
    intro char member
    exact decide_eq_true (fun same => free (same ▸ member))
  rw [List.span_eq_takeWhile_dropWhile, List.takeWhile_append_of_pos kept,
    List.dropWhile_append_of_pos kept]
  cases parts <;> simp [suffix]

theorem parse_chars (version : Semver) : parse (String.ofList version.chars) = some version := by
  have core : version.coreChars.splitOn '.' = [Nat.toDigits 10 version.major,
      Nat.toDigits 10 version.minor, Nat.toDigits 10 version.patch] := by
    rw [coreChars, List.splitOn_append_cons_self_of_not_mem (not_mem_toDigits (by decide) _),
      List.splitOn_append_cons_self_of_not_mem (not_mem_toDigits (by decide) _),
      List.splitOn_eq_singleton (not_mem_toDigits (by decide) _)]
  have hyphen := @span_suffix '-' version.coreChars (not_mem_core (by decide) (by decide) version)
    (version.prerelease.map PreIdentifier.chars)
  have plus := split_suffix version.plus_not_mem_body (not_mem_build (by decide) version)
    (by decide)
  have builds : version.build ≠ [] →
      ((Py.joinWith '.' (version.build.map (fun part => part.text.toList))).splitOn '.').mapM
        BuildIdentifier.parse = some version.build := by
    intro present
    rw [splitOn_joinWith (not_mem_build (by decide) version) (by simpa using present),
      mapM_parse BuildIdentifier.parse_text]
  have prereleases : version.prerelease ≠ [] →
      ((Py.joinWith '.' (version.prerelease.map PreIdentifier.chars)).splitOn '.').mapM
        PreIdentifier.parse = some version.prerelease := by
    intro present
    rw [splitOn_joinWith (not_mem_prerelease (by decide) (by decide) version)
      (by simpa using present), mapM_parse PreIdentifier.parse_chars]
  have whole : (⟨version.major, version.minor, version.patch, version.prerelease, version.build⟩
      : Semver) = version := rfl
  have empty : suffix '-' [] = [] := rfl
  have joined : version.prerelease ≠ [] →
      suffix '-' (version.prerelease.map PreIdentifier.chars)
        = '-' :: Py.joinWith '.' (version.prerelease.map PreIdentifier.chars) := by
    intro present
    rw [suffix, if_neg (by simpa using present)]
  unfold parse
  rw [String.toList_ofList, chars, plus]
  by_cases plain : version.build = []
  · simp only [plain, List.map_nil, if_true, Option.bind_eq_bind, Option.bind_some, hyphen]
    by_cases released : version.prerelease = []
    · rw [plain, released] at whole
      simp only [released, List.map_nil, empty, core, parseNumber_toDigits, Option.bind_some,
        Option.pure_def, whole]
    · rw [plain] at whole
      simp only [joined released, prereleases released, core, parseNumber_toDigits,
        Option.bind_some, Option.pure_def, whole]
  · simp only [List.map_eq_nil_iff, plain, if_false, builds plain, Option.map_some,
      Option.bind_eq_bind, Option.bind_some, hyphen]
    by_cases released : version.prerelease = []
    · rw [released] at whole
      simp only [released, List.map_nil, empty, core, parseNumber_toDigits, Option.bind_some,
        Option.pure_def, whole]
    · simp only [joined released, prereleases released, core, parseNumber_toDigits,
        Option.bind_some, Option.pure_def, whole]

end Semver

-----------------------------------------------------------------------------------------
-- Dates
-----------------------------------------------------------------------------------------

namespace Date

theorem padded_digits (width value : Nat) : (padded width value).all Char.isDigit := by
  rw [List.all_eq_true]
  intro char member
  rcases List.mem_append.mp member with zero | inNumber
  · rw [List.eq_of_mem_replicate zero]
    rfl
  · exact Nat.isDigit_of_mem_toDigits (by decide) (by decide) inNumber

theorem length_padded {width value : Nat} (positive : 0 < width) (small : value < 10 ^ width)
    : (padded width value).length = width := by
  have short := (Nat.length_toDigits_le_iff (by decide) positive).mpr small
  simp only [padded, List.length_append, List.length_replicate]
  omega

theorem ofDigitChars_padded (width value : Nat)
    : Nat.ofDigitChars 10 (padded width value) 0 = value := by
  simp [padded, Nat.ofDigitChars_append]

theorem daysInMonth_le (year month : Nat) : daysInMonth year month ≤ 31 := by
  unfold daysInMonth
  split
  · split <;> omega
  · split <;> omega

theorem parse_chars (date : Date) : parse (String.ofList date.chars) = some date := by
  obtain ⟨year, month, day, valid⟩ := date
  have days := daysInMonth_le year month
  have parts : (Date.mk year month day valid).chars.splitOn '-'
      = [padded 4 year, padded 2 month, padded 2 day] := by
    rw [chars, List.splitOn_append_cons_self_of_not_mem (not_mem_padded (by decide) _ _),
      List.splitOn_append_cons_self_of_not_mem (not_mem_padded (by decide) _ _),
      List.splitOn_eq_singleton (not_mem_padded (by decide) _ _)]
  have lengths : (padded 4 year).length = 4 ∧ (padded 2 month).length = 2
      ∧ (padded 2 day).length = 2 :=
    ⟨length_padded (by decide) (by omega), length_padded (by decide) (by omega),
      length_padded (by decide) (by omega)⟩
  have digits : (padded 4 year ++ padded 2 month ++ padded 2 day).all Char.isDigit := by
    simp only [List.all_append, padded_digits, Bool.and_self]
  unfold parse
  rw [String.toList_ofList, parts]
  simp only [lengths, digits, ofDigitChars_padded, and_self, if_true, valid, dite_true]

/-- A date is no semantic version: it has no dots. -/
theorem semver_parse_chars (date : Date) : Semver.parse (String.ofList date.chars) = none := by
  have plus : date.chars.splitOn '+' = [date.chars] :=
    List.splitOn_eq_singleton (not_mem_chars (by decide) (by decide) date)
  have year : (date.chars.span (· ≠ '-')).1.splitOn '.' = [(date.chars.span (· ≠ '-')).1] := by
    apply List.splitOn_eq_singleton
    intro dot
    rw [List.span_eq_takeWhile_dropWhile] at dot
    exact not_mem_chars (by decide) (by decide) date ((List.takeWhile_sublist _).subset dot)
  unfold Semver.parse
  rw [String.toList_ofList, plus]
  simp only [Option.bind_eq_bind, Option.bind_some, year]
  split
  · rfl
  · exact Option.bind_fun_none _

end Date

-----------------------------------------------------------------------------------------
-- Versions of both strategies
-----------------------------------------------------------------------------------------

/-- `parse_version` inverts `str`, for semantic versions and for dates. -/
theorem Version.parse_str (version : Version)
    : VersionValue.parse (VersionValue.str version) = some version := by
  have text : VersionValue.parse (VersionValue.str version)
      = ((Semver.parse (String.ofList version.chars)).map Version.semver).orElse
        (fun _ => (Date.parse (String.ofList version.chars)).map Version.date) := rfl
  rw [text]
  cases version with
  | semver value =>
      rw [chars, value.parse_chars]
      rfl
  | date value =>
      rw [chars, value.semver_parse_chars, value.parse_chars]
      rfl

end Pyverge
