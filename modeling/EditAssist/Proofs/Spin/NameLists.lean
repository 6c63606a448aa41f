import EditAssist.Proofs.Spin.Declarators

/-! The shown form of a declaration of several names. All of the declaration is cut before it is
split at its commas, so the cuts end it before the first bound or initial value, and behind its
section if a storage size follows that. `shownNames` are the names that are left. -/
namespace EditAssist.Declaration

open Text Keyword

/-- A declaration of several names, after a section, a storage size, both or neither. -/
structure NameList where
  category : Option (List Char)
  size : Option (List Char)
  declarators : List Declarator
  category_spells : ∀ word ∈ category, Spells sections word
  size_spells : ∀ word ∈ size, Spells sizes word
  nonempty : declarators ≠ []

/-- A keyword and the space behind it. -/
def lead : Option (List Char) → List Char
  | none => []
  | some word => word ++ [' ']

/-- Dropping a keyword takes the word that spells it and the one character after it. -/
theorem dropLeading_of_spells {set : List (List Char)} {word rest : List Char} (hSet : Worded set)
    (hSpells : Spells set word) (hEnds : wordContinues rest = false) :
    dropLeading set (word ++ rest) = rest.drop 1 := by
  obtain ⟨-, hWord⟩ := hSpells.isWord hSet
  obtain ⟨keyword, hLeading, hLength⟩ := exists_leading?_eq hSet hWord hEnds hSpells
  rw [dropLeading, hLeading]
  dsimp only
  rw [hLength, List.drop_length_add_append]

section Lead

variable {set : List (List Char)} {word? : Option (List Char)} {text : List Char}
  (hSet : Worded set) (hSpells : ∀ word ∈ word?, Spells set word)
include hSet hSpells

theorem folded_lead (hText : Folded text) (hSome : text ≠ []) :
    Folded (lead word? ++ text) ∧ lead word? ++ text ≠ [] := by
  cases word? with
  | none => exact ⟨hText, hSome⟩
  | some word =>
      obtain ⟨hWordSome, hWord⟩ := (hSpells word rfl).isWord hSet
      have hFolded := hText.word_append hWordSome (isBlank_of_word hWord) hSome
      rw [lead, List.append_assoc]
      exact ⟨hFolded, List.append_ne_nil_of_left_ne_nil hWordSome _⟩

theorem mem_lead {c : Char} (hMem : c ∈ lead word?) : isWordChar c = true ∨ c = ' ' := by
  cases word? with
  | none => cases hMem
  | some word =>
      rcases List.mem_append.mp hMem with hWord | hBlank
      · exact .inl (((hSpells word rfl).isWord hSet).2 c hWord)
      · exact .inr (List.mem_singleton.mp hBlank)

theorem dropLeading_lead (hText : dropLeading set text = text) :
    dropLeading set (lead word? ++ text) = text := by
  cases word? with
  | none => exact hText
  | some word =>
      have hBlank : wordContinues (' ' :: text) = false := rfl
      rw [lead, List.append_assoc]
      exact dropLeading_of_spells hSet (hSpells word rfl) hBlank

end Lead

theorem sizes_subset : sizes ⊆ sections ++ stops :=
  List.Subset.trans (List.subset_append_left _ _) (List.subset_append_right _ _)

/-- No section is a storage size or `org`. -/
theorem sections_disjoint :
    ∀ first ∈ sections, ∀ second ∈ stops, asciiLower first ≠ asciiLower second := by
  decide

namespace NameList

def text (list : NameList) : List Char :=
  lead list.category ++ (lead list.size ++ Declarator.list list.declarators)

/-- The row of a symbol table with this declaration. -/
def row (list : NameList) (kind : Symbol.Kind) : List Char :=
  kind.tag :: '\t' :: list.text

/-- The list as far as its names are reached. -/
def front (list : NameList) : NameList :=
  { list with
    declarators := Declarator.reached list.declarators
    nonempty := Declarator.reached_ne_nil list.nonempty }

/-- The names alone, without section and size. -/
def unled (list : NameList) : NameList :=
  { list with
    category := none
    size := none
    category_spells := nofun
    size_spells := nofun }

theorem folded_text (list : NameList) : Folded list.text ∧ list.text ≠ [] := by
  obtain ⟨hList, hSome⟩ := Declarator.folded_list list.nonempty
  obtain ⟨hSized, hSizedSome⟩ := folded_lead worded_sizes list.size_spells hList hSome
  exact folded_lead worded_sections list.category_spells hSized hSizedSome

theorem kind?_row (list : NameList) (kind : Symbol.Kind) :
    Symbol.kind? (list.row kind) = some kind :=
  Symbol.Kind.ofTag?_tag kind

theorem shown_row (list : NameList) (kind : Symbol.Kind) :
    shown (list.row kind) = cutAll list.text := by
  have hDeclaration : Symbol.declaration (list.row kind) = list.text := by
    cases kind <;> rfl
  rw [shown, hDeclaration, list.folded_text.1.foldBlanks_eq]

theorem mem_text {list : NameList} {c : Char} (hMem : c ∈ list.text) :
    isWordChar c = true ∨ c ∈ [',', ' '] ∨
      ∃ declarator ∈ list.declarators, c ∈ declarator.suffix.text := by
  have hLead : isWordChar c = true ∨ c = ' ' → isWordChar c = true ∨ c ∈ [',', ' '] ∨
      ∃ declarator ∈ list.declarators, c ∈ declarator.suffix.text := by
    rintro (hWord | rfl)
    · exact .inl hWord
    · exact .inr (.inl (by decide))
  rcases List.mem_append.mp hMem with hFirst | hMem
  · exact hLead (mem_lead worded_sections list.category_spells hFirst)
  rcases List.mem_append.mp hMem with hSize | hNames
  · exact hLead (mem_lead worded_sizes list.size_spells hSize)
  · exact Declarator.mem_list hNames

/-- No declaration of names holds a closing parenthesis. -/
theorem open_text (list : NameList) (place : Nat) : list.text[place]? ≠ some ')' := by
  intro hAt
  rcases mem_text (List.mem_of_getElem? hAt) with hWord | hMark | ⟨declarator, -, hSuffix⟩
  · exact absurd hWord (by decide)
  · exact absurd hMark (by decide)
  · rcases Suffix.mem_text hSuffix with hWord | hMark
    · exact absurd hWord (by decide)
    · exact absurd hMark (by decide)

/-- As far as names are reached there is no tail mark. -/
theorem unmarked_front (list : NameList) {c : Char} (hMem : c ∈ list.front.text) :
    c ∉ tailMarks := by
  have hPlain : ∀ mark ∈ tailMarks, isWordChar mark = false ∧ mark ∉ [',', ' '] := by decide
  intro hMark
  obtain ⟨hNoWord, hOther⟩ := hPlain c hMark
  rcases mem_text hMem with hWord | hSeparator | ⟨declarator, hDeclarator, hSuffix⟩
  · rw [hNoWord] at hWord
    cases hWord
  · exact hOther hSeparator
  · rw [Declarator.suffix_of_mem_reached hDeclarator] at hSuffix
    cases hSuffix

theorem lacks_category (list : NameList) : Lacks stops (lead list.category) := by
  cases hCategory : list.category with
  | none => exact lacks_nil worded_stops
  | some word =>
      have hSpells := list.category_spells word hCategory
      have hWord := lacks_word (hSpells.isWord worded_sections).2
        (hSpells.not_of_disjoint sections_disjoint)
      exact lacks_append_cons worded_stops (by decide) hWord (lacks_nil worded_stops)

/-- No word goes on behind a section. -/
theorem category_seam (list : NameList) : wordContinues (lead list.category).reverse = false := by
  cases list.category with
  | none => rfl
  | some word =>
      rw [lead, List.reverse_append]
      rfl

/-- No keyword that would end the names stands before the size. -/
theorem le_of_standsAt (list : NameList) {place : Nat} (hPlace : StandsAt stops list.text place) :
    (lead list.category).length ≤ place := by
  rw [text, standsAt_append worded_stops (.inl list.category_seam)] at hPlace
  rcases hPlace with hCategory | ⟨place, rfl, -⟩
  · exact absurd hCategory (list.lacks_category _)
  · exact Nat.le_add_right _ _

theorem standsAt_size (list : NameList) {word : List Char} (hSize : list.size = some word) :
    StandsAt stops list.text (lead list.category).length := by
  have hSpells := list.size_spells word hSize
  refine ⟨lead list.category, word, ' ' :: Declarator.list list.declarators, ?_, rfl, ?_,
    list.category_seam, rfl⟩
  · rw [text, hSize]
    simp [lead]
  · exact hSpells.mono (List.subset_append_left _ _)

theorem lacks_text (list : NameList) (hSize : list.size = none) : Lacks stops list.text := by
  intro place hPlace
  rw [text, hSize, standsAt_append worded_stops (.inl list.category_seam)] at hPlace
  rcases hPlace with hCategory | ⟨place, -, hNames⟩
  · exact list.lacks_category _ hCategory
  · exact Declarator.lacks_list _ place hNames

/-- Without a size no name is taken for the start of the tail; a leading size is no start. -/
theorem not_isLeast_standsAt (list : NameList) (hLed : list.category = none ∨ list.size = none)
    {place : Nat} (hPlace : 0 < place) :
    ¬ IsLeast {index | StandsAt stops list.text index} place := by
  rintro ⟨hAt, hLeast⟩
  cases hSize : list.size with
  | none => exact list.lacks_text hSize place hAt
  | some size =>
      have hCategory : list.category = none := hLed.resolve_right (by rw [hSize]; nofun)
      have hFirst := list.standsAt_size hSize
      rw [hCategory] at hFirst
      exact absurd (hLeast hFirst) (Nat.not_le_of_lt hPlace)

/-- The cuts leave the names that are reached, if not both a section and a size lead them. -/
theorem cutAll_text (list : NameList) (hLed : list.category = none ∨ list.size = none) :
    cutAll list.text = list.front.text := by
  obtain ⟨hFolded, -⟩ := list.folded_text
  obtain ⟨hFrontFolded, hFrontSome⟩ := list.front.folded_text
  have hStops (place : Nat) (hPlace : 0 < place) := list.not_isLeast_standsAt hLed hPlace
  have hOpen := list.open_text
  obtain ⟨tail, hTail, hNames⟩ := Declarator.exists_list_eq list.nonempty
  have hText : list.text = list.front.text ++ tail := by
    simp only [text, front, hTail, List.append_assoc]
  rcases hNames with rfl | ⟨gap, mark, rest, rfl, hMark, hGap⟩
  · rw [List.append_nil] at hText
    rw [hText] at hFolded hOpen hStops ⊢
    exact cutAll_of_unmarked hFolded hOpen (fun c hMem => list.unmarked_front hMem) hStops
  · rw [← List.append_assoc] at hText
    rw [hText] at hFolded hOpen hStops ⊢
    have hStart :
        (list.front.text ++ gap).length ∈ tailStarts (list.front.text ++ gap ++ mark :: rest) := by
      refine ⟨?_, .inl ⟨mark, hMark, ?_⟩⟩
      · exact List.length_pos_iff.mpr (List.append_ne_nil_of_left_ne_nil hFrontSome _)
      · rw [List.getElem?_append_right (Nat.le_refl _), Nat.sub_self, List.getElem?_cons_zero]
    have hUnmarked : ∀ c ∈ list.front.text ++ gap, c ∉ tailMarks := by
      intro c hMem
      rcases List.mem_append.mp hMem with hFront | hBlank
      · exact list.unmarked_front hFront
      · rw [hGap c hBlank]
        decide
    refine cutAll_of_front hFolded hOpen (hFrontFolded.trimmed hFrontSome)
      (fun c hMem => hGap c hMem ▸ by decide) (isLeast_tailStarts hStart hUnmarked ?_)
    exact fun place _ => hStops place

/-- Where a size follows a section, the cuts leave the section alone. -/
theorem cutAll_text_of_both (list : NameList) {word size : List Char}
    (hCategory : list.category = some word) (hSize : list.size = some size) :
    cutAll list.text = word := by
  obtain ⟨hWordSome, hWord⟩ := (list.category_spells word hCategory).isWord worded_sections
  have hTrimmed := trimmed_of_word hWordSome (isBlank_of_word hWord)
  obtain ⟨hFolded, -⟩ := list.folded_text
  have hOpen := list.open_text
  have hAt := list.standsAt_size hSize
  have hLeast (place : Nat) (hPlace : StandsAt stops list.text place) := list.le_of_standsAt hPlace
  rw [text] at hFolded hOpen hAt hLeast ⊢
  rw [hCategory, lead] at hFolded hOpen hAt hLeast ⊢
  have hPositive := List.length_pos_iff.mpr (List.append_ne_nil_of_left_ne_nil hWordSome [' '])
  refine cutAll_of_front hFolded hOpen hTrimmed (by decide)
    (isLeast_tailStarts ⟨hPositive, .inr ⟨hAt, hLeast⟩⟩ ?_ ?_)
  · have hPlain : ∀ mark ∈ tailMarks, isWordChar mark = false ∧ mark ∉ [' '] := by decide
    intro c hMem hMark
    rcases List.mem_append.mp hMem with hFirst | hBlank
    · exact absurd (hWord c hFirst) (by rw [(hPlain c hMark).1]; decide)
    · exact (hPlain c hMark).2 hBlank
  · exact fun place hBefore _ hStop => absurd (hLeast place hStop.1) (Nat.not_le_of_lt hBefore)

/-- A size is no section, so neither it nor the names behind it are dropped as one. -/
theorem dropLeading_sections (list : NameList) :
    dropLeading sections (lead list.size ++ Declarator.list list.declarators) =
      lead list.size ++ Declarator.list list.declarators := by
  cases hSize : list.size with
  | none =>
      exact Declarator.dropLeading_list worded_sections (List.subset_append_left _ _)
        list.declarators
  | some size =>
      have hSpells := list.size_spells size hSize
      have hDisjoint : ∀ first ∈ sizes, ∀ second ∈ sections,
          asciiLower first ≠ asciiLower second := by decide
      have hBlank : wordContinues (' ' :: Declarator.list list.declarators) = false := rfl
      have hNone := leading?_eq_none worded_sections (hSpells.isWord worded_sizes).2 hBlank
        (hSpells.not_of_disjoint hDisjoint)
      rw [lead, List.append_assoc, List.singleton_append, dropLeading, hNone]

/-- Section and size are dropped from a list. -/
theorem dropCategory_text (list : NameList) : dropCategory list.text = list.unled.text := by
  have hSizes := Declarator.dropLeading_list worded_sizes sizes_subset list.declarators
  rw [dropCategory, text, dropLeading_lead worded_sections list.category_spells
    list.dropLeading_sections, dropLeading_lead worded_sizes list.size_spells hSizes]
  rfl

/-- Nothing is left of a section without its names. -/
theorem dropCategory_section {word : List Char} (hSpells : Spells sections word) :
    dropCategory word = [] := by
  have hSection := dropLeading_of_spells worded_sections hSpells (rfl : wordContinues [] = false)
  rw [List.append_nil, List.drop_nil] at hSection
  rw [dropCategory, hSection]
  exact Declarator.dropLeading_list worded_sizes sizes_subset []

/-- The names that are shown for a list: its section if a size follows that, else those that are
reached. -/
def shownNames (list : NameList) : List (List Char) :=
  match list.category, list.size with
  | some word, some _ => [word]
  | _, _ => (Declarator.reached list.declarators).map (·.name)

theorem shownNames_of_both {list : NameList} {word size : List Char}
    (hCategory : list.category = some word) (hSize : list.size = some size) :
    list.shownNames = [word] := by
  rw [shownNames, hCategory, hSize]

theorem shownNames_of_led {list : NameList} (hLed : list.category = none ∨ list.size = none) :
    list.shownNames = (Declarator.reached list.declarators).map (·.name) := by
  rw [shownNames]
  split
  next word size hCategory hSize =>
    rw [hCategory, hSize] at hLed
    exact absurd hLed (by simp)
  next => rfl

/-- Every name of a list is shown if and only if not both a section and a size lead it and nothing
follows any of its names but the last. -/
theorem shownNames_eq_iff (list : NameList) :
    list.shownNames = list.declarators.map (·.name) ↔
      (list.category = none ∨ list.size = none) ∧
        ∀ declarator ∈ list.declarators.dropLast, declarator.suffix = .none := by
  by_cases hLed : list.category = none ∨ list.size = none
  · rw [shownNames_of_led hLed, Declarator.reached_names_iff, and_iff_right hLed]
  · refine iff_of_false (fun hSame => ?_) fun hAll => hLed hAll.1
    rw [not_or] at hLed
    obtain ⟨word, hCategory⟩ := Option.ne_none_iff_exists'.mp hLed.1
    obtain ⟨size, hSize⟩ := Option.ne_none_iff_exists'.mp hLed.2
    -- a section is none of the names, since these are no keywords
    rw [shownNames_of_both hCategory hSize] at hSame
    have hMem : word ∈ list.declarators.map (·.name) := hSame ▸ List.mem_cons_self
    obtain ⟨declarator, -, hName⟩ := List.mem_map.mp hMem
    have hSpells := list.category_spells word hCategory
    rw [← hName] at hSpells
    exact declarator.not_spells (List.subset_append_left _ _) hSpells

/-- A shown name is a word. -/
theorem isWord_of_mem_shownNames {list : NameList} {name : List Char}
    (hName : name ∈ list.shownNames) : name ≠ [] ∧ ∀ c ∈ name, isWordChar c = true := by
  rw [shownNames] at hName
  split at hName
  next word _ hCategory _ =>
    obtain rfl := List.mem_singleton.mp hName
    exact (list.category_spells name hCategory).isWord worded_sections
  next =>
    obtain ⟨declarator, -, rfl⟩ := List.mem_map.mp hName
    exact ⟨declarator.nonempty, declarator.word⟩

theorem shownNames_ne_nil (list : NameList) : list.shownNames ≠ [] := by
  rw [shownNames]
  split
  · exact List.cons_ne_nil _ _
  · exact List.map_eq_nil_iff.not.mpr (Declarator.reached_ne_nil list.nonempty)

end NameList

end EditAssist.Declaration
