import EditAssist.Proofs.Settings.Merging
import EditAssist.Proofs.Settings.Reading

/-! The strict and the lenient reader of settings. The strict one refuses a whole document for one
value that the lenient one passes over. Where it refuses nothing, the lenient one takes over the
same values, so on a document with an object for the editor the two agree. -/
namespace EditAssist.Preferences

variable {α : Type} {document part : Json} {fields : List (List Char × Json)}
  {preferences : Preferences}

/-- Every preference that the part gives has a value of its kind, and the tab stop some width. -/
structure WellTyped (part : Json) : Prop where
  width : ∀ value, part.Binds tabWidthKey value →
    ∃ width, value = .natural width ∧ 1 ≤ width ∧ width < Json.Numeral.wordBound
  flag : ∀ key ∈ [hintsKey, dotMenuKey, hashMenuKey], ∀ value, part.Binds key value →
    ∃ flag, value = .bool flag

section Parts

variable {read : Json → Option α} {fallback value : α} {given : Option Json}

/-- A value that the strict reader accepts is one that the lenient reader takes over. -/
theorem getD_of_orDefault (h : orDefault read fallback given = some value) :
    (given.bind read).getD fallback = value := by
  cases given with
  | none => exact Option.some.inj h
  | some json =>
      rw [orDefault] at h
      rw [Option.bind_some, h, Option.getD_some]

/-- If the default will do, all that matters is a value that is there. -/
theorem exists_orDefault_iff {good : α → Prop} (hDefault : good fallback) :
    (∃ value, orDefault read fallback given = some value ∧ good value) ↔
      ∀ json, given = some json → ∃ value, read json = some value ∧ good value := by
  cases given with
  | none => exact iff_of_true ⟨fallback, rfl, hDefault⟩ nofun
  | some json => simp [orDefault]

end Parts

theorem ofParts?_eq_some_iff {tabWidth hints dotMenu hashMenu : Option Json} :
    ofParts? tabWidth hints dotMenu hashMenu = some preferences ↔
      orDefault Json.natural? 4 tabWidth = some preferences.tabWidth ∧
        orDefault Json.bool? true hints = some preferences.hints ∧
        orDefault Json.bool? true dotMenu = some preferences.dotMenu ∧
        orDefault Json.bool? true hashMenu = some preferences.hashMenu := by
  simp only [ofParts?, Option.bind_eq_bind, Option.bind_eq_some_iff, Option.some.injEq]
  constructor
  · rintro ⟨_, hWidth, _, hHints, _, hDot, _, hHash, rfl⟩
    exact ⟨hWidth, hHints, hDot, hHash⟩
  · rintro ⟨hWidth, hHints, hDot, hHash⟩
    exact ⟨_, hWidth, _, hHints, _, hDot, _, hHash, rfl⟩

/-- The strict reader gives preferences that pass their check. -/
theorem ofDocument_eq_ok_iff :
    ofDocument document = .ok preferences ↔
      ofJson? (sectionOf document) = some preferences ∧ preferences.check = .ok () := by
  rw [ofDocument]
  cases ofJson? (sectionOf document) with
  | none => exact iff_of_false nofun (by simp)
  | some found =>
      dsimp only
      rw [Option.some.injEq]
      cases hCheck : found.check with
      | error reason =>
          refine iff_of_false nofun ?_
          rintro ⟨rfl, hPasses⟩
          rw [hCheck] at hPasses
          cases hPasses
      | ok _ =>
          rw [Except.map, Except.ok.injEq]
          refine (and_iff_left_of_imp ?_).symm
          rintro rfl
          exact hCheck

section Objects

variable (hSection : sectionOf document = .object fields)
include hSection

/-- The strict reader looks at each of the four keys on its own. -/
theorem ofDocument_object_iff :
    ofDocument document = .ok preferences ↔
      (orDefault Json.natural? 4 (Json.lookup? tabWidthKey fields) = some preferences.tabWidth ∧
        0 < preferences.tabWidth) ∧
      orDefault Json.bool? true (Json.lookup? hintsKey fields) = some preferences.hints ∧
      orDefault Json.bool? true (Json.lookup? dotMenuKey fields) = some preferences.dotMenu ∧
      orDefault Json.bool? true (Json.lookup? hashMenuKey fields) = some preferences.hashMenu := by
  rw [ofDocument_eq_ok_iff, check_eq_ok_iff, hSection, ofJson?, ofParts?_eq_some_iff,
    and_right_comm]

/-- What the strict reader accepts is what the lenient one makes of the defaults. -/
theorem merge_of_ofDocument (hAccepted : ofDocument document = .ok preferences) :
    ({} : Preferences).merge document = preferences := by
  obtain ⟨⟨hWidth, hPositive⟩, hHints, hDot, hHash⟩ := (ofDocument_object_iff hSection).mp hAccepted
  have hFlag {key : List Char} {flag : Bool}
      (hGiven : orDefault Json.bool? true (Json.lookup? key fields) = some flag) :
      (flag? key document).getD true = flag := by
    rw [flag?, hSection]
    exact getD_of_orDefault hGiven
  have hKept : (width? document).getD 4 = preferences.tabWidth := by
    have hGiven := getD_of_orDefault hWidth
    rw [width?, hSection, Json.field?, Json.fields?, Option.bind_some]
    generalize (Json.lookup? tabWidthKey fields).bind Json.natural? = given at hGiven ⊢
    cases given with
    | none => exact hGiven
    | some width =>
        obtain rfl : width = preferences.tabWidth := hGiven
        rw [Option.filter_some, if_pos (by simpa using hPositive), Option.getD_some]
  rw [merge_eq, hKept, hFlag hHints, hFlag hDot, hFlag hHash]

/-- The strict reader accepts a document exactly if nothing that it looks at is amiss. -/
theorem exists_ofDocument_iff (hWords : document.InWords) :
    (∃ preferences, ofDocument document = .ok preferences) ↔ WellTyped (.object fields) := by
  have hWidth : (∃ width,
      orDefault Json.natural? 4 (Json.lookup? tabWidthKey fields) = some width ∧ 0 < width) ↔
      ∀ value, (Json.object fields).Binds tabWidthKey value →
        ∃ width, value = .natural width ∧ 1 ≤ width ∧ width < Json.Numeral.wordBound := by
    rw [exists_orDefault_iff (by decide)]
    refine forall_congr' fun value => ?_
    rw [← Json.field?_eq_some_iff]
    refine forall_congr' fun hGiven => exists_congr fun width => ?_
    rw [Json.natural?_eq_some_iff]
    refine and_congr_right fun hNatural => ?_
    subst hNatural
    have hPart : (Json.object fields).InWords := hSection ▸ inWords_sectionOf hWords
    have hFits := Json.inWords_natural_iff.mp (hPart.binds (Json.field?_eq_some_iff.mp hGiven))
    exact (and_iff_left hFits).symm
  have hFlag (key : List Char) : (∃ flag,
      orDefault Json.bool? true (Json.lookup? key fields) = some flag) ↔
      ∀ value, (Json.object fields).Binds key value → ∃ flag, value = .bool flag := by
    have hGiven : (∃ flag, orDefault Json.bool? true (Json.lookup? key fields) = some flag ∧ True) ↔
        ∀ value, (Json.object fields).field? key = some value →
          ∃ flag, value.bool? = some flag ∧ True :=
      exists_orDefault_iff trivial
    simpa only [and_true, Json.bool?_eq_some_iff, Json.field?_eq_some_iff] using hGiven
  constructor
  · rintro ⟨preferences, hAccepted⟩
    obtain ⟨hWide, hHints, hDot, hHash⟩ := (ofDocument_object_iff hSection).mp hAccepted
    refine ⟨hWidth.mp ⟨_, hWide⟩, ?_⟩
    simp only [List.forall_mem_cons]
    exact ⟨(hFlag _).mp ⟨_, hHints⟩, (hFlag _).mp ⟨_, hDot⟩, (hFlag _).mp ⟨_, hHash⟩, nofun⟩
  · rintro ⟨hWide, hFlags⟩
    obtain ⟨width, hWide⟩ := hWidth.mpr hWide
    obtain ⟨hints, hHints⟩ := (hFlag hintsKey).mpr (hFlags _ (by simp))
    obtain ⟨dot, hDot⟩ := (hFlag dotMenuKey).mpr (hFlags _ (by simp))
    obtain ⟨hash, hHash⟩ := (hFlag hashMenuKey).mpr (hFlags _ (by simp))
    exact ⟨⟨width, hints, dot, hash⟩,
      (ofDocument_object_iff hSection).mpr ⟨hWide, hHints, hDot, hHash⟩⟩

end Objects

/-- On a text whose part for the editor is an object, the strict reader gives preferences exactly if
every preference that the part gives has a value of its kind and the tab stop some width. They are
the defaults with that document merged into them. -/
theorem readers_agree {text : List Char} (hRead : Json.read? text = some document)
    (hObject : IsSection document (.object fields)) :
    ((∃ preferences, read text = .ok preferences) ↔ WellTyped (.object fields)) ∧
      ∀ preferences, read text = .ok preferences →
        ({} : Preferences).merge document = preferences := by
  have hSection := isSection_iff.mp hObject
  have hStrict : read text = ofDocument document := by rw [read, hRead]
  rw [hStrict]
  exact ⟨exists_ofDocument_iff hSection (Json.inWords_read? hRead),
    fun preferences hAccepted => merge_of_ofDocument hSection hAccepted⟩

/-- A key that is given twice, first with a value of another kind, and a width of zero outside the
part for the editor. Both readers take the last value and pass over what is outside. -/
theorem readers_agree_on_repeated_key :
    let text := ("\x7b\"tabWidth\":0,\"spinEditor\":\x7b\"dotComplete\":null,\"tabWidth\":2," ++
      "\"dotComplete\":false\x7d\x7d").toList
    let part : List (List Char × Json) :=
      [(dotMenuKey, .null), (tabWidthKey, .natural 2), (dotMenuKey, .bool false)]
    let document : Json := .object [(tabWidthKey, .natural 0), (sectionKey, .object part)]
    Json.read? text = some document ∧ IsSection document (.object part) ∧
      WellTyped (.object part) ∧ read text = .ok { tabWidth := 2, dotMenu := false } ∧
      ({} : Preferences).merge document = { tabWidth := 2, dotMenu := false } := by
  intro text part document
  have hTokens : Json.Token.readAll? text =
      some [.openBrace, .string tabWidthKey, .colon, .natural 0, .comma,
        .string sectionKey, .colon, .openBrace, .string dotMenuKey, .colon, .null, .comma,
        .string tabWidthKey, .colon, .natural 2, .comma,
        .string dotMenuKey, .colon, .bool false, .closeBrace, .closeBrace] := by decide +kernel
  have hRead : Json.read? text = some document := by
    rw [Json.read?, hTokens]
    rfl
  have hObject : IsSection document (.object part) := isSection_iff.mpr rfl
  have hAccepted : read text = .ok { tabWidth := 2, dotMenu := false } := by
    rw [read, hRead]
    rfl
  obtain ⟨hAccepts, hSame⟩ := readers_agree hRead hObject
  exact ⟨hRead, hObject, hAccepts.mp ⟨_, hAccepted⟩, hAccepted, hSame _ hAccepted⟩

end EditAssist.Preferences
