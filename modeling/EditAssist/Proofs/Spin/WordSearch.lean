import EditAssist.Proofs.Spin.WholeWords
import EditAssist.Proofs.Text.Bytes

/-! The search for whole words, measured in bytes of UTF-8. It finds the first byte at which a
keyword stands, and a keyword leads a text if it stands at byte 0. -/
namespace EditAssist.Keyword

open Text

variable {set : List (List Char)} {text keyword : List Char} {byte : Nat}

/-- A keyword of the set stands as a whole word where `byte` bytes of the text end. -/
def StandsAtByte (set : List (List Char)) (text : List Char) (byte : Nat) : Prop :=
  ∃ before word behind, ByteCut text byte before (word ++ behind) ∧ Whole set before word behind

theorem standsAtByte_iff :
    StandsAtByte set text byte ↔
      ∃ place, StandsAt set text place ∧ utf8Size (text.take place) = byte := by
  constructor
  · rintro ⟨before, word, behind, ⟨rfl, rfl⟩, hWhole⟩
    refine ⟨before.length, ⟨before, word, behind, (List.append_assoc _ _ _).symm, rfl, hWhole⟩, ?_⟩
    rw [List.take_left]
  · rintro ⟨_, ⟨before, word, behind, rfl, rfl, hWhole⟩, rfl⟩
    refine ⟨before, word, behind, ⟨List.append_assoc _ _ _, ?_⟩, hWhole⟩
    rw [List.append_assoc, List.take_left]

/-- Only the start of a text has no bytes in front of it. -/
theorem standsAtByte_zero_iff :
    StandsAtByte set text 0 ↔ (leading? set text).isSome = true := by
  rw [leading?_isSome_iff]
  constructor
  · rintro ⟨before, word, behind, ⟨rfl, hSize⟩, hWhole⟩
    obtain rfl := utf8Size_eq_zero_iff.mp hSize
    exact ⟨word, behind, rfl, hWhole.spells, hWhole.ends⟩
  · rintro ⟨word, behind, rfl, hSpells, hEnds⟩
    exact ⟨[], word, behind, ⟨rfl, rfl⟩, hSpells, rfl, hEnds⟩

theorem leads_iff_standsAtByte : leads text keyword = true ↔ StandsAtByte [keyword] text 0 := by
  rw [standsAtByte_zero_iff, leading?, List.find?_isSome]
  simp only [List.mem_singleton, exists_eq_left]

/-- Places in characters and in bytes have the same order, so the first place is the first byte. -/
theorem findByte?_eq_some_iff (hSet : Worded set) :
    findByte? set text = some byte ↔ IsLeast {byte | StandsAtByte set text byte} byte := by
  have hImage : {byte | StandsAtByte set text byte} =
      (fun place => utf8Size (text.take place)) '' {place | StandsAt set text place} :=
    Set.ext fun _ => standsAtByte_iff
  have hMono := utf8Size_take_mono text
  rw [findByte?, Option.map_eq_some_iff, hImage]
  constructor
  · rintro ⟨place, hFound, rfl⟩
    exact hMono.map_isLeast ((find?_eq_some_iff hSet).mp hFound)
  · intro hLeast
    obtain ⟨other, hOther, -⟩ := hLeast.1
    have hFirst := isLeast_csInf ⟨other, hOther⟩
    exact ⟨_, (find?_eq_some_iff hSet).mpr hFirst, (hMono.map_isLeast hFirst).unique hLeast⟩

theorem findByte?_eq_none_iff (hSet : Worded set) :
    findByte? set text = none ↔ ∀ byte, ¬ StandsAtByte set text byte := by
  constructor
  · intro hNone byte hStands
    have hFound := (findByte?_eq_some_iff hSet).mpr (isLeast_csInf ⟨byte, hStands⟩)
    rw [hNone] at hFound
    cases hFound
  · intro hLacks
    rw [Option.eq_none_iff_forall_ne_some]
    intro byte hFound
    exact hLacks byte ((findByte?_eq_some_iff hSet).mp hFound).1

/-- Of the keywords that stand at the start of a text, the first of the set leads it. -/
theorem leading?_eq_some_iff :
    leading? set text = some keyword ↔
      ∃ earlier later, set = earlier ++ keyword :: later ∧ StandsAtByte [keyword] text 0 ∧
        ∀ other ∈ earlier, ¬ StandsAtByte [other] text 0 := by
  rw [leading?, List.find?_eq_some_iff_append]
  simp only [← leads_iff_standsAtByte, Bool.not_eq_true', Bool.not_eq_true]
  constructor
  · rintro ⟨hLeads, earlier, later, hOrder, hEarlier⟩
    exact ⟨earlier, later, hOrder, hLeads, hEarlier⟩
  · rintro ⟨earlier, later, hOrder, hLeads, hEarlier⟩
    exact ⟨hLeads, earlier, later, hOrder, hEarlier⟩

/-- The search finds the first byte at which a character starts and some keyword of the set stands
as a whole word, in any case, and finds nothing if there is no such byte. A keyword leads the text
if the search finds byte 0, and it is the first one of the set that stands there. -/
theorem findByte?_finds_first_word (hSet : Worded set) (text : List Char) :
    (∀ byte, findByte? set text = some byte ↔
      IsLeast {byte | StandsAtByte set text byte} byte) ∧
    (findByte? set text = none ↔ ∀ byte, ¬ StandsAtByte set text byte) ∧
    ((leading? set text).isSome = true ↔ findByte? set text = some 0) ∧
    ∀ keyword, leading? set text = some keyword ↔
      ∃ earlier later, set = earlier ++ keyword :: later ∧ StandsAtByte [keyword] text 0 ∧
        ∀ other ∈ earlier, ¬ StandsAtByte [other] text 0 := by
  refine ⟨fun byte => findByte?_eq_some_iff hSet, findByte?_eq_none_iff hSet, ?_,
    fun keyword => leading?_eq_some_iff⟩
  rw [findByte?_eq_some_iff hSet, ← standsAtByte_zero_iff]
  exact ⟨fun hStands => ⟨hStands, fun _ _ => Nat.zero_le _⟩, fun hLeast => hLeast.1⟩

/-- Two keywords of which one starts the other. They do not stand behind or before an accented
letter, but behind a mark that is none and that takes two bytes as well. -/
theorem findByte?_finds_first_word_among_accents :
    let set := ["lon".toList, "long".toList]
    let text := "élong longé »LONG".toList
    Worded set ∧ IsLeast {byte | StandsAtByte set text byte} 16 ∧
      (∃ earlier later, set = earlier ++ "long".toList :: later ∧
        StandsAtByte ["long".toList] (text.drop 13) 0 ∧
        ∀ other ∈ earlier, ¬ StandsAtByte [other] (text.drop 13) 0) := by
  intro set text
  have hSet : Worded set := by decide
  have hFound : findByte? set text = some 16 := by decide +kernel
  have hLeading : leading? set (text.drop 13) = some "long".toList := by decide +kernel
  obtain ⟨hFirst, -, -, -⟩ := findByte?_finds_first_word hSet text
  obtain ⟨-, -, -, hLeads⟩ := findByte?_finds_first_word hSet (text.drop 13)
  exact ⟨hSet, (hFirst 16).mp hFound, (hLeads _).mp hLeading⟩

end EditAssist.Keyword
