import Mathlib
import EditAssist.Spin.Keyword
import EditAssist.Text.Blank

/-! Keywords as whole words. A keyword stands where a word spells it and the word goes on at neither
of its ends. The search finds the first such place. Where no word crosses from one part of a text to
the next, a keyword stands in the one or in the other, so texts that hold no keyword can be put
together. -/
namespace EditAssist.Text

/-- What holds of all characters of a text is decided by going through the text, not through all
characters there are. -/
instance (priority := high) decidableForallMem (text : List Char) (p : Char → Prop)
    [DecidablePred p] : Decidable (∀ c ∈ text, p c) :=
  List.decidableBAll p text

/-- White space is no part of a word. -/
theorem isWordChar_of_isBlank {c : Char} (hBlank : isBlank c = true) : isWordChar c = false := by
  have hTable : ∀ range ∈ blankRanges, ∀ code ∈ List.range' range.1 (range.2 + 1 - range.1),
      isWordChar (Char.ofNat code) = false := by decide +kernel
  obtain ⟨range, hRange, hFirst, hLast⟩ := (inRanges_iff _ _).mp hBlank
  have hCode := hTable range hRange c.toNat (List.mem_range'_1.mpr ⟨hFirst, by omega⟩)
  rwa [Char.ofNat_toNat] at hCode

theorem isWordChar_toLower (c : Char) : isWordChar c.toLower = isWordChar c :=
  toLower_congr isWordChar (by decide +kernel) c

theorem toNat_le_of_isDigit {c : Char} (hDigit : c.isDigit = true) : c.toNat ≤ 57 := by
  rw [Char.isDigit, Bool.and_eq_true, decide_eq_true_eq, decide_eq_true_eq] at hDigit
  exact UInt32.le_iff_toNat_le.mp hDigit.2

theorem isWordChar_of_isDigit {c : Char} (hDigit : c.isDigit = true) : isWordChar c = true := by
  have hLast := toNat_le_of_isDigit hDigit
  have hAlphanumeric : isAlphanumeric c = true := by
    rw [isAlphanumeric, if_pos (by omega), Char.isAlphanum, hDigit, Bool.or_true]
  rw [isWordChar, hAlphanumeric, Bool.or_true]

theorem toLower_of_isDigit {c : Char} (hDigit : c.isDigit = true) : c.toLower = c := by
  rw [Char.toLower, dif_neg]
  rintro ⟨hFirst, -⟩
  have hLast := toNat_le_of_isDigit hDigit
  have hCapital : 65 ≤ c.toNat := UInt32.le_iff_toNat_le.mp hFirst
  omega

end EditAssist.Text

namespace EditAssist.Keyword

open Text

variable {set other : List (List Char)} {text before word behind left right rest : List Char}
  {index : Nat}

/-- The keywords of the set are words. -/
def Worded (set : List (List Char)) : Prop :=
  ∀ keyword ∈ set, keyword ≠ [] ∧ ∀ c ∈ keyword, isWordChar c = true

instance (set : List (List Char)) : Decidable (Worded set) :=
  inferInstanceAs (Decidable (∀ keyword ∈ set, _ ∧ _))

theorem worded_stops : Worded stops := by
  decide

theorem worded_sections : Worded sections := by
  decide

theorem worded_sizes : Worded sizes := by
  decide

/-- The word is a keyword of the set, in any case. -/
def Spells (set : List (List Char)) (word : List Char) : Prop :=
  ∃ keyword ∈ set, eqIgnoringCase word keyword = true

instance (set : List (List Char)) (word : List Char) : Decidable (Spells set word) :=
  inferInstanceAs (Decidable (∃ keyword ∈ set, _))

theorem Spells.mono (h : Spells set word) (hSets : set ⊆ other) : Spells other word := by
  obtain ⟨keyword, hKeyword, hSame⟩ := h
  exact ⟨keyword, hSets hKeyword, hSame⟩

/-- No word spells keywords of two sets that share none. -/
theorem Spells.not_of_disjoint (h : Spells set word)
    (hDisjoint : ∀ first ∈ set, ∀ second ∈ other, asciiLower first ≠ asciiLower second) :
    ¬ Spells other word := by
  obtain ⟨first, hFirst, hSame⟩ := h
  rintro ⟨second, hSecond, hOther⟩
  exact hDisjoint first hFirst second hSecond (asciiLower_eq_of_eqIgnoringCase hSame hOther)

/-- A keyword of the set between two texts, and no word goes on across its ends. -/
structure Whole (set : List (List Char)) (before word behind : List Char) : Prop where
  spells : Spells set word
  starts : wordContinues before.reverse = false
  ends : wordContinues behind = false

/-- A keyword of the set stands at `index` as a whole word. -/
def StandsAt (set : List (List Char)) (text : List Char) (index : Nat) : Prop :=
  ∃ before word behind, text = before ++ word ++ behind ∧ before.length = index ∧
    Whole set before word behind

theorem length_eq_of_eqIgnoringCase {keyword : List Char}
    (hSame : eqIgnoringCase word keyword = true) : word.length = keyword.length := by
  have hLength := congrArg List.length (eqIgnoringCase_iff.mp hSame)
  simpa only [asciiLower, List.length_map] using hLength

theorem isWordChar_of_eqIgnoringCase {keyword : List Char}
    (hSame : eqIgnoringCase word keyword = true) (hKeyword : ∀ c ∈ keyword, isWordChar c = true) :
    ∀ c ∈ word, isWordChar c = true := by
  intro c hMem
  have hLower : c.toLower ∈ asciiLower keyword := by
    rw [← eqIgnoringCase_iff.mp hSame]
    exact List.mem_map_of_mem hMem
  obtain ⟨other, hOther, hEq⟩ := List.mem_map.mp hLower
  rw [← isWordChar_toLower, ← hEq, isWordChar_toLower]
  exact hKeyword other hOther

theorem Spells.isWord (hSet : Worded set) (hSpells : Spells set word) :
    word ≠ [] ∧ ∀ c ∈ word, isWordChar c = true := by
  obtain ⟨keyword, hKeyword, hSame⟩ := hSpells
  obtain ⟨hSome, hWord⟩ := hSet keyword hKeyword
  refine ⟨?_, isWordChar_of_eqIgnoringCase hSame hWord⟩
  rintro rfl
  exact hSome (List.eq_nil_of_length_eq_zero (length_eq_of_eqIgnoringCase hSame).symm)

theorem wordContinues_eq (text : List Char) : wordContinues text = text.head?.any isWordChar := by
  cases text <;> rfl

/-- A word goes on at the start of a word. -/
theorem wordContinues_of_word (hSome : word ≠ []) (hWord : ∀ c ∈ word, isWordChar c = true)
    (rest : List Char) : wordContinues (word ++ rest) = true := by
  obtain ⟨first, later, rfl⟩ := List.exists_cons_of_ne_nil hSome
  exact hWord first List.mem_cons_self

theorem wordContinues_reverse_of_word (hSome : word ≠ [])
    (hWord : ∀ c ∈ word, isWordChar c = true) (before : List Char) :
    wordContinues (before ++ word).reverse = true := by
  rw [List.reverse_append]
  exact wordContinues_of_word (List.reverse_eq_nil_iff.not.mpr hSome)
    (fun c hMem => hWord c (List.mem_reverse.mp hMem)) _

/-- What follows decides whether a word goes on only if nothing stands before it. -/
theorem wordContinues_append (hFront : wordContinues left = false)
    (hRest : left = [] → wordContinues right = false) : wordContinues (left ++ right) = false := by
  cases left with
  | nil => exact hRest rfl
  | cons c rest => exact hFront

theorem wordContinues_of_append (h : wordContinues (left ++ right) = false) :
    wordContinues left = false := by
  cases left with
  | nil => rfl
  | cons c rest => exact h

/-- Where no word crosses from `left` to `right`, a keyword stands in the one or in the other. -/
theorem standsAt_append (hSet : Worded set)
    (hSeam : wordContinues left.reverse = false ∨ wordContinues right = false) :
    StandsAt set (left ++ right) index ↔
      StandsAt set left index ∨
        ∃ place, index = left.length + place ∧ StandsAt set right place := by
  constructor
  · rintro ⟨before, word, behind, hText, rfl, hSpells, hStarts, hEnds⟩
    obtain ⟨-, hWord⟩ := hSpells.isWord hSet
    rcases List.append_eq_append_iff.mp hText with ⟨back, hFront, rfl⟩ | ⟨rest, rfl, rfl⟩
    · rcases List.append_eq_append_iff.mp hFront with ⟨front, rfl, rfl⟩ | ⟨gap, rfl, rfl⟩
      · -- the seam is at one of the ends of the word, since no word crosses it
        rw [List.forall_mem_append] at hWord
        by_cases hFrontNone : front = []
        · subst hFrontNone
          exact .inr ⟨0, by simp, [], back, behind, rfl, rfl, hSpells, rfl, hEnds⟩
        by_cases hBackNone : back = []
        · subst hBackNone
          exact .inl ⟨before, front, [], by simp, rfl, by simpa using hSpells, hStarts, rfl⟩
        rw [wordContinues_reverse_of_word hFrontNone hWord.1,
          wordContinues_of_word hBackNone hWord.2] at hSeam
        exact absurd hSeam (by decide)
      · refine .inr ⟨gap.length, List.length_append, gap, word, behind, rfl, rfl, hSpells, ?_,
          hEnds⟩
        rw [List.reverse_append] at hStarts
        exact wordContinues_of_append hStarts
    · exact .inl ⟨before, word, rest, rfl, rfl, hSpells, hStarts, wordContinues_of_append hEnds⟩
  · rintro (⟨before, word, behind, rfl, rfl, hSpells, hStarts, hEnds⟩ |
      ⟨place, rfl, before, word, behind, rfl, rfl, hSpells, hStarts, hEnds⟩)
    all_goals obtain ⟨hSome, hWord⟩ := hSpells.isWord hSet
    · refine ⟨before, word, behind ++ right, by simp, rfl, hSpells, hStarts, ?_⟩
      refine wordContinues_append hEnds ?_
      rintro rfl
      rw [List.append_nil, wordContinues_reverse_of_word hSome hWord] at hSeam
      exact hSeam.resolve_left (by decide)
    · refine ⟨left ++ before, word, behind, by simp, by simp, hSpells, ?_, hEnds⟩
      rw [List.reverse_append]
      refine wordContinues_append hStarts ?_
      intro hNone
      obtain rfl := List.reverse_eq_nil_iff.mp hNone
      rw [List.nil_append, wordContinues_of_word hSome hWord] at hSeam
      exact hSeam.resolve_right (by decide)

/-- A keyword stands within the text. -/
theorem StandsAt.lt_length (hSet : Worded set) (h : StandsAt set text index) :
    index < text.length := by
  obtain ⟨before, word, behind, rfl, rfl, hSpells, -, -⟩ := h
  have hPositive := List.length_pos_iff.mpr (hSpells.isWord hSet).1
  simp only [List.length_append]
  omega

/-- A keyword stands where a word starts. -/
theorem StandsAt.exists_getElem? (hSet : Worded set) (h : StandsAt set text index) :
    ∃ c, text[index]? = some c ∧ isWordChar c = true := by
  obtain ⟨before, word, behind, rfl, rfl, hSpells, -, -⟩ := h
  obtain ⟨hSome, hWord⟩ := hSpells.isWord hSet
  obtain ⟨first, later, rfl⟩ := List.exists_cons_of_ne_nil hSome
  exact ⟨first, by simp, hWord first List.mem_cons_self⟩

/-- A keyword that stands before a seam stands there still when the text ends at the seam, also
when white space before the seam goes. -/
theorem standsAt_front_iff {front gap : List Char} (hSet : Worded set)
    (hGap : ∀ c ∈ gap, isBlank c = true)
    (hSeam : wordContinues (front ++ gap).reverse = false ∨ wordContinues rest = false) :
    StandsAt set front index ↔
      StandsAt set (front ++ gap ++ rest) index ∧ index < (front ++ gap).length := by
  have hGapSeam : wordContinues gap = false := by
    cases gap with
    | nil => rfl
    | cons c gap => exact isWordChar_of_isBlank (hGap c List.mem_cons_self)
  rw [standsAt_append hSet hSeam, standsAt_append hSet (.inr hGapSeam)]
  constructor
  · intro hFront
    have hIndex := hFront.lt_length hSet
    exact ⟨.inl (.inl hFront), by rw [List.length_append]; omega⟩
  · rintro ⟨(hFront | ⟨place, -, hPlace⟩) | ⟨place, rfl, -⟩, hIndex⟩
    · exact hFront
    · obtain ⟨c, hAt, hWord⟩ := hPlace.exists_getElem? hSet
      rw [isWordChar_of_isBlank (hGap c (List.mem_of_getElem? hAt))] at hWord
      cases hWord
    · omega

/-- No keyword of the set stands anywhere in the text. -/
def Lacks (set : List (List Char)) (text : List Char) : Prop :=
  ∀ place, ¬ StandsAt set text place

theorem lacks_nil (hSet : Worded set) : Lacks set [] :=
  fun _ hPlace => absurd (hPlace.lt_length hSet) (Nat.not_lt_zero _)

theorem lacks_word (hWord : ∀ c ∈ word, isWordChar c = true) (hFree : ¬ Spells set word) :
    Lacks set word := by
  rintro place ⟨before, part, behind, rfl, -, hSpells, hStarts, hEnds⟩
  rw [List.forall_mem_append, List.forall_mem_append] at hWord
  have hBefore : before = [] := by
    by_contra hSome
    have hContinues := wordContinues_reverse_of_word hSome hWord.1.1 []
    rw [List.nil_append, hStarts] at hContinues
    cases hContinues
  have hBehind : behind = [] := by
    by_contra hSome
    have hContinues := wordContinues_of_word hSome hWord.2 []
    rw [List.append_nil, hEnds] at hContinues
    cases hContinues
  subst hBefore hBehind
  exact hFree (by simpa using hSpells)

/-- A keyword stands before or behind a character that belongs to no word. -/
theorem lacks_append_cons {c : Char} (hSet : Worded set) (hSeam : isWordChar c = false)
    (hLeft : Lacks set left) (hRight : Lacks set right) : Lacks set (left ++ c :: right) := by
  have hBefore : wordContinues ([c] ++ right) = false := hSeam
  have hBehind : wordContinues [c].reverse = false := hSeam
  intro place hPlace
  simp only [List.append_cons left c right, List.append_assoc,
    standsAt_append hSet (.inr hBefore), standsAt_append hSet (.inl hBehind)] at hPlace
  rcases hPlace with hAt | ⟨place, -, hAt | ⟨place, -, hAt⟩⟩
  · exact hLeft _ hAt
  · obtain ⟨d, hAtWord, hWord⟩ := hAt.exists_getElem? hSet
    obtain rfl := List.mem_singleton.mp (List.mem_of_getElem? hAtWord)
    rw [hSeam] at hWord
    cases hWord
  · exact hRight _ hAt

theorem leads_iff {keyword : List Char} :
    leads text keyword = true ↔
      eqIgnoringCase (text.take keyword.length) keyword = true ∧
        wordContinues (text.drop keyword.length) = false := by
  rw [leads, Bool.and_eq_true, Bool.not_eq_true']

theorem leading?_isSome_iff :
    (leading? set text).isSome = true ↔
      ∃ word behind, text = word ++ behind ∧ Spells set word ∧ wordContinues behind = false := by
  rw [leading?, List.find?_isSome]
  constructor
  · rintro ⟨keyword, hKeyword, hLeads⟩
    rw [leads_iff] at hLeads
    exact ⟨_, _, (List.take_append_drop keyword.length text).symm, ⟨keyword, hKeyword, hLeads.1⟩,
      hLeads.2⟩
  · rintro ⟨word, behind, rfl, ⟨keyword, hKeyword, hSame⟩, hEnds⟩
    have hLength := length_eq_of_eqIgnoringCase hSame
    refine ⟨keyword, hKeyword, ?_⟩
    rw [leads_iff, ← hLength, List.take_left, List.drop_left]
    exact ⟨hSame, hEnds⟩

/-- Where one word ends is where any other reading of the text ends its first word. -/
theorem takeWhile_word (hWord : ∀ c ∈ word, isWordChar c = true)
    (hEnds : wordContinues rest = false) : (word ++ rest).takeWhile isWordChar = word := by
  rw [List.takeWhile_append_of_pos hWord]
  cases rest with
  | nil => rw [List.takeWhile_nil, List.append_nil]
  | cons c rest =>
      have hFirst : isWordChar c = false := hEnds
      rw [List.takeWhile_cons_of_neg (ne_true_of_eq_false hFirst), List.append_nil]

section Leading

variable (hSet : Worded set) (hWord : ∀ c ∈ word, isWordChar c = true)
  (hEnds : wordContinues rest = false)
include hSet hWord hEnds

/-- A word that a keyword leads spells that keyword. -/
theorem eqIgnoringCase_of_leads {keyword : List Char} (hKeyword : keyword ∈ set)
    (hLeads : leads (word ++ rest) keyword = true) : eqIgnoringCase word keyword = true := by
  obtain ⟨hSame, hContinues⟩ := leads_iff.mp hLeads
  have hFirst := isWordChar_of_eqIgnoringCase hSame (hSet keyword hKeyword).2
  have hTake := takeWhile_word hFirst hContinues
  rw [List.take_append_drop, takeWhile_word hWord hEnds] at hTake
  rwa [← hTake] at hSame

/-- A word that spells no keyword is not led by one. -/
theorem leading?_eq_none (hFree : ¬ Spells set word) : leading? set (word ++ rest) = none := by
  rw [leading?, List.find?_eq_none]
  intro keyword hKeyword hLeads
  exact hFree ⟨keyword, hKeyword, eqIgnoringCase_of_leads hSet hWord hEnds hKeyword hLeads⟩

/-- A word that spells a keyword is led by one as long as it is. -/
theorem exists_leading?_eq (hSpells : Spells set word) :
    ∃ keyword, leading? set (word ++ rest) = some keyword ∧ keyword.length = word.length := by
  obtain ⟨keyword, hLeading⟩ := Option.isSome_iff_exists.mp
    (leading?_isSome_iff.mpr ⟨word, rest, rfl, hSpells, hEnds⟩)
  refine ⟨keyword, hLeading, ?_⟩
  have hLeads := List.find?_some hLeading
  have hKeyword := List.mem_of_find?_eq_some hLeading
  exact (length_eq_of_eqIgnoringCase
    (eqIgnoringCase_of_leads hSet hWord hEnds hKeyword hLeads)).symm

end Leading

/-- What the search tests at one place is that a keyword stands there. -/
theorem standsAt_length_iff :
    StandsAt set (before ++ text) before.length ↔
      wordContinues before.reverse = false ∧ (leading? set text).isSome = true := by
  rw [leading?_isSome_iff]
  constructor
  · rintro ⟨front, word, behind, hText, hLength, hSpells, hStarts, hEnds⟩
    rw [List.append_assoc] at hText
    obtain ⟨rfl, rfl⟩ := List.append_inj hText hLength.symm
    exact ⟨hStarts, word, behind, rfl, hSpells, hEnds⟩
  · rintro ⟨hStarts, word, behind, rfl, hSpells, hEnds⟩
    exact ⟨before, word, behind, (List.append_assoc _ _ _).symm, rfl, hSpells, hStarts, hEnds⟩

/-- The search behind `before` finds the first place there at which a keyword stands. -/
theorem findFrom?_eq_some_iff (hSet : Worded set) :
    findFrom? set (wordContinues before.reverse) text = some index ↔
      IsLeast {place | StandsAt set (before ++ text) (before.length + place)} index := by
  induction text generalizing before index with
  | nil =>
      simp only [findFrom?, reduceCtorEq, false_iff]
      intro hLeast
      have hPlace := StandsAt.lt_length hSet hLeast.1
      rw [List.append_nil] at hPlace
      omega
  | cons c rest ih =>
      have hHere : StandsAt set (before ++ c :: rest) (before.length + 0) ↔ _ :=
        standsAt_length_iff
      by_cases hFound :
          wordContinues before.reverse = false ∧ (leading? set (c :: rest)).isSome = true
      · rw [findFrom?, if_pos (by rw [hFound.1, hFound.2]; rfl), Option.some.injEq]
        constructor
        · rintro rfl
          exact ⟨hHere.mpr hFound, fun _ _ => Nat.zero_le _⟩
        · intro hLeast
          exact (Nat.le_zero.mp (hLeast.2 (hHere.mpr hFound))).symm
      · have hNext := @ih (before ++ [c])
        have hBefore : wordContinues (before ++ [c]).reverse = isWordChar c := by
          simp [wordContinues]
        rw [hBefore] at hNext
        simp only [List.append_assoc, List.singleton_append, List.length_append,
          List.length_singleton, Nat.add_assoc, Nat.add_comm 1] at hNext
        rw [findFrom?, if_neg (by simpa using hFound), Option.map_eq_some_iff]
        simp only [hNext]
        constructor
        · rintro ⟨place, hLeast, rfl⟩
          refine ⟨hLeast.1, ?_⟩
          intro other hOther
          cases other with
          | zero => exact absurd (hHere.mp hOther) hFound
          | succ other => exact Nat.succ_le_succ (hLeast.2 hOther)
        · intro hLeast
          cases index with
          | zero => exact absurd (hHere.mp hLeast.1) hFound
          | succ place =>
              refine ⟨place, ⟨hLeast.1, fun other hOther => ?_⟩, rfl⟩
              exact Nat.le_of_succ_le_succ (hLeast.2 hOther)

/-- The search finds the first place at which a keyword stands. -/
theorem find?_eq_some_iff (hSet : Worded set) :
    find? set text = some index ↔ IsLeast {place | StandsAt set text place} index := by
  have hFound := @findFrom?_eq_some_iff set text [] index hSet
  simp only [List.nil_append, List.length_nil, Nat.zero_add] at hFound
  exact hFound

end EditAssist.Keyword
