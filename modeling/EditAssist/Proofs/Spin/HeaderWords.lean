import EditAssist.Spin.Section
import EditAssist.Proofs.Spin.WholeWords
import EditAssist.Proofs.Text.Bytes

/-! Headers are leading keywords. One test of a row looks at its first three characters and at the
fourth, the other at the front that is as long as a keyword and at what follows. Both come to the
same for each section, whether fronts are measured in characters or in bytes. -/
namespace EditAssist

open Text

/-- Where no two members pass the test, the first one that passes is the one that passes. -/
theorem find?_eq_some_iff_of_unique {α : Type} {test : α → Bool} {list : List α} {member : α}
    (hUnique : ∀ first ∈ list, ∀ second ∈ list, test first = true → test second = true →
      first = second) :
    list.find? test = some member ↔ member ∈ list ∧ test member = true := by
  constructor
  · intro hFound
    exact ⟨List.mem_of_find?_eq_some hFound, List.find?_some hFound⟩
  · rintro ⟨hMem, hTest⟩
    have hSome := List.find?_isSome.mpr ⟨member, hMem, hTest⟩
    obtain ⟨first, hFirst⟩ := Option.isSome_iff_exists.mp hSome
    rw [hFirst, hUnique first (List.mem_of_find?_eq_some hFirst) member hMem
      (List.find?_some hFirst) hTest]

namespace Keyword

variable {text row keyword : List Char}

/-- The keyword takes up the first bytes of the text, in any case, and the word ends there. -/
def LeadsBytes (text keyword : List Char) : Prop :=
  ∃ front rest, ByteCut text (utf8Size keyword) front rest ∧
    eqIgnoringCase front keyword = true ∧ wordContinues rest = false

/-- A keyword leads a text by characters where it leads the text by bytes. -/
theorem leads_iff_leadsBytes : leads text keyword = true ↔ LeadsBytes text keyword := by
  rw [leads_iff]
  constructor
  · rintro ⟨hSame, hEnds⟩
    exact ⟨_, _, ⟨(List.take_append_drop keyword.length text).symm,
      utf8Size_eq_of_eqIgnoringCase hSame⟩, hSame, hEnds⟩
  · rintro ⟨front, rest, ⟨rfl, -⟩, hSame, hEnds⟩
    rw [← length_eq_of_eqIgnoringCase hSame, List.take_left, List.drop_left]
    exact ⟨hSame, hEnds⟩

theorem length_of_mem_sections (hKeyword : keyword ∈ sections) : keyword.length = 3 := by
  have hAll : ∀ keyword ∈ sections, keyword.length = 3 := by decide
  exact hAll keyword hKeyword

theorem leading?_sections_iff :
    leading? sections row = some keyword ↔ keyword ∈ sections ∧ leads row keyword = true := by
  have hDistinct : ∀ first ∈ sections, ∀ second ∈ sections,
      asciiLower first = asciiLower second → first = second := by decide
  rw [leading?]
  refine find?_eq_some_iff_of_unique fun first hFirst second hSecond hLeads hOther => ?_
  obtain ⟨hSame, -⟩ := leads_iff.mp hLeads
  obtain ⟨hOtherSame, -⟩ := leads_iff.mp hOther
  rw [length_of_mem_sections hFirst] at hSame
  rw [length_of_mem_sections hSecond] at hOtherSame
  exact hDistinct first hFirst second hSecond (asciiLower_eq_of_eqIgnoringCase hSame hOtherSame)

end Keyword

namespace Section

open Keyword

variable {row keyword : List Char} {kind : Section}

/-- The first three bytes of the row are the keyword of the section, in any case, and its fourth
character belongs to no word. -/
def HeadsBytes (kind : Section) (row : List Char) : Prop :=
  (∃ front rest, ByteCut row 3 front rest ∧ eqIgnoringCase front kind.keyword = true) ∧
    ∀ c, row[3]? = some c → isWordChar c = false

theorem mem_all (kind : Section) : kind ∈ all := by
  cases kind <;> decide

theorem length_keyword (kind : Section) : kind.keyword.length = 3 := by
  cases kind <;> rfl

theorem utf8Size_keyword (kind : Section) : utf8Size kind.keyword = 3 := by
  cases kind <;> rfl

theorem ofHeader?_eq_some_iff :
    ofHeader? row = some kind ↔
      eqIgnoringCase (row.take 3) kind.keyword = true ∧ wordContinues (row.drop 3) = false := by
  have hDistinct : ∀ first ∈ all, ∀ second ∈ all,
      asciiLower first.keyword = asciiLower second.keyword → first = second := by decide
  have hFind : all.find? (fun kind => eqIgnoringCase (row.take 3) kind.keyword) = some kind ↔
      kind ∈ all ∧ eqIgnoringCase (row.take 3) kind.keyword = true :=
    find?_eq_some_iff_of_unique fun first hFirst second hSecond hSame hOther =>
      hDistinct first hFirst second hSecond (asciiLower_eq_of_eqIgnoringCase hSame hOther)
  rw [ofHeader?]
  cases hEnds : wordContinues (row.drop 3) with
  | true => simp
  | false => simp [hFind, mem_all kind]

theorem wordContinues_drop_iff :
    wordContinues (row.drop 3) = false ↔ ∀ c, row[3]? = some c → isWordChar c = false := by
  rw [wordContinues_eq, List.head?_drop, Option.any_eq_false]

/-- A section heads a row by characters where it heads the row by bytes. -/
theorem ofHeader?_eq_some_iff_headsBytes : ofHeader? row = some kind ↔ kind.HeadsBytes row := by
  rw [ofHeader?_eq_some_iff, wordContinues_drop_iff]
  refine and_congr_left fun _ => ?_
  constructor
  · intro hSame
    refine ⟨_, _, ⟨(List.take_append_drop 3 row).symm, ?_⟩, hSame⟩
    rw [utf8Size_eq_of_eqIgnoringCase hSame, utf8Size_keyword]
  · rintro ⟨front, rest, ⟨rfl, -⟩, hSame⟩
    have hLength : 3 = front.length := by
      rw [length_eq_of_eqIgnoringCase hSame, length_keyword]
    rwa [hLength, List.take_left]

/-- A section opens a row where a keyword that spells it leads the row. -/
theorem ofHeader?_eq_some_iff_leads (hKeyword : keyword ∈ sections)
    (hSpells : eqIgnoringCase keyword kind.keyword = true) :
    ofHeader? row = some kind ↔ leads row keyword = true := by
  rw [ofHeader?_eq_some_iff, leads_iff, length_of_mem_sections hKeyword, eqIgnoringCase_iff,
    eqIgnoringCase_iff, eqIgnoringCase_iff.mp hSpells]

theorem exists_keyword (kind : Section) :
    ∃ keyword ∈ sections, eqIgnoringCase keyword kind.keyword = true := by
  cases kind <;> decide

theorem exists_kind (hKeyword : keyword ∈ sections) :
    ∃ kind : Section, eqIgnoringCase keyword kind.keyword = true := by
  have hAll : ∀ keyword ∈ sections, ∃ kind ∈ all, eqIgnoringCase keyword kind.keyword = true := by
    decide
  obtain ⟨kind, -, hSpells⟩ := hAll keyword hKeyword
  exact ⟨kind, hSpells⟩

/-- A row opens a section if and only if the keyword that leads the row spells the section, in any
case, and it opens none if and only if no keyword leads it. The first test may as well measure the
front of the row in bytes while it looks at its fourth character, and the second may measure in
bytes throughout. -/
theorem ofHeader?_agrees_with_leading? (row : List Char) :
    (∀ kind, ofHeader? row = some kind ↔
      ∃ keyword, leading? sections row = some keyword ∧
        eqIgnoringCase keyword kind.keyword = true) ∧
    (ofHeader? row = none ↔ leading? sections row = none) ∧
    (∀ kind, ofHeader? row = some kind ↔ HeadsBytes kind row) ∧
    ∀ keyword, leading? sections row = some keyword ↔
      keyword ∈ sections ∧ LeadsBytes row keyword := by
  have hAgree (kind : Section) : ofHeader? row = some kind ↔
      ∃ keyword, leading? sections row = some keyword ∧
        eqIgnoringCase keyword kind.keyword = true := by
    constructor
    · intro hHeader
      obtain ⟨keyword, hKeyword, hSpells⟩ := kind.exists_keyword
      have hLeads := (ofHeader?_eq_some_iff_leads hKeyword hSpells).mp hHeader
      exact ⟨keyword, leading?_sections_iff.mpr ⟨hKeyword, hLeads⟩, hSpells⟩
    · rintro ⟨keyword, hLeading, hSpells⟩
      obtain ⟨hKeyword, hLeads⟩ := leading?_sections_iff.mp hLeading
      exact (ofHeader?_eq_some_iff_leads hKeyword hSpells).mpr hLeads
  refine ⟨hAgree, ?_, fun _ => ofHeader?_eq_some_iff_headsBytes, fun _ => ?_⟩
  · simp only [Option.eq_none_iff_forall_ne_some, ne_eq, hAgree, not_exists, not_and]
    constructor
    · intro hNone keyword hLeading
      obtain ⟨kind, hSpells⟩ := exists_kind (leading?_sections_iff.mp hLeading).1
      exact hNone kind keyword hLeading hSpells
    · intro hNone _ keyword hLeading _
      exact hNone keyword hLeading
  · rw [leading?_sections_iff, leads_iff_leadsBytes]

end Section

end EditAssist
