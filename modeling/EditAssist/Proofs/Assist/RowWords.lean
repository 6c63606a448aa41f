import EditAssist.Proofs.Assist.CandidateList
import EditAssist.Proofs.Spin.NameLists

/-! Candidates from rows that list names. A row gives one candidate at most: the first of its words,
section and storage size included, that holds what is typed. So a name that also holds it is missed
if it comes later in its row and no other row gives it. -/
namespace EditAssist

open Text

namespace Declaration

open Keyword

/-- A declaration of names after a section, a storage size, both or neither. Hints know no keywords,
so any words are names. -/
structure Listing where
  category : Option (List Char)
  size : Option (List Char)
  names : List (List Char)
  category_spells : ∀ word ∈ category, Spells sections word
  size_spells : ∀ word ∈ size, Spells sizes word
  names_words : ∀ name ∈ names, name ≠ [] ∧ ∀ c ∈ name, isWordChar c = true
  nonempty : names ≠ []

namespace Listing

def text (listing : Listing) : List Char :=
  lead listing.category ++ (lead listing.size ++ [',', ' '].intercalate listing.names)

/-- All words of the declaration, in their order. -/
def words (listing : Listing) : List (List Char) :=
  listing.category.toList ++ (listing.size.toList ++ listing.names)

theorem isWord_of_mem_words {listing : Listing} {word : List Char} (hWord : word ∈ listing.words) :
    word ≠ [] ∧ ∀ c ∈ word, isWordChar c = true := by
  simp only [words, List.mem_append, Option.mem_toList] at hWord
  rcases hWord with hCategory | hSize | hName
  · exact (listing.category_spells word hCategory).isWord worded_sections
  · exact (listing.size_spells word hSize).isWord worded_sizes
  · exact listing.names_words word hName

/-- Names with commas and spaces between them. -/
theorem folded_names {names : List (List Char)}
    (hNames : ∀ name ∈ names, name ≠ [] ∧ ∀ c ∈ name, isWordChar c = true) (hSome : names ≠ []) :
    Folded ([',', ' '].intercalate names) ∧ [',', ' '].intercalate names ≠ [] := by
  induction names with
  | nil => exact absurd rfl hSome
  | cons name names ih =>
      rw [List.forall_mem_cons] at hNames
      obtain ⟨⟨hNameSome, hName⟩, hLater⟩ := hNames
      have hClear := isBlank_of_word hName
      by_cases hMore : names = []
      · subst hMore
        rw [List.intercalate_singleton]
        exact ⟨folded_of_word hNameSome hClear, hNameSome⟩
      · obtain ⟨hFolded, hRest⟩ := ih hLater hMore
        have hComma : ∀ c ∈ [','], isBlank c = false := by decide
        have hTail := (foldsOn_blank_cons hFolded hRest).word_append hComma
        rw [List.intercalate_cons_of_ne_nil hMore, List.append_assoc]
        exact ⟨hTail name hNameSome hClear, List.append_ne_nil_of_left_ne_nil hNameSome _⟩

theorem folded_text (listing : Listing) : Folded listing.text := by
  obtain ⟨hNames, hSome⟩ := folded_names listing.names_words listing.nonempty
  obtain ⟨hSized, hSizedSome⟩ := folded_lead worded_sizes listing.size_spells hNames hSome
  exact (folded_lead worded_sections listing.category_spells hSized hSizedSome).1

end Listing

end Declaration

namespace Candidates

open Declaration

variable {typed front gap word rest : List Char}

theorem not_mem_delimiters_of_isWordChar {c : Char} (hWord : isWordChar c = true) :
    c ∉ delimiters := by
  have hDelimiters : ∀ c ∈ delimiters, isWordChar c = false := by decide
  intro hMem
  rw [hDelimiters c hMem] at hWord
  cases hWord

/-- A word ends where a delimiter follows it, or nothing. -/
theorem identifier_word (hWord : ∀ c ∈ word, isWordChar c = true)
    (hRest : ∀ c, rest.head? = some c → c ∈ delimiters) : identifier (word ++ rest) = word := by
  have hClear : ∀ c ∈ word, (!delimiters.contains c) = true := fun c hMem => by
    simpa using not_mem_delimiters_of_isWordChar (hWord c hMem)
  have hStop : rest.takeWhile (!delimiters.contains ·) = [] := by
    cases rest with
    | nil => rfl
    | cons c rest => exact List.takeWhile_cons_of_neg (by simpa using hRest c rfl)
  rw [identifier, List.takeWhile_append_of_pos hClear, hStop, List.append_nil]
  exact trim_of_clear (isBlank_of_word hWord)

/-- A first word that holds what is typed is matched. -/
theorem matched?_of_holds (hWord : ∀ c ∈ word, isWordChar c = true)
    (hRest : ∀ c, rest.head? = some c → c ∈ delimiters) (hHolds : holds typed word = true) :
    matched? typed (word ++ rest) = some word := by
  obtain ⟨hit, hFound⟩ := Option.isSome_iff_exists.mp hHolds
  have hLe := (find?_eq_some_iff.mp hFound).1
  rw [length_asciiLower] at hLe
  have hSpace : ' ' ∉ word.take hit := fun hMem =>
    absurd (hWord ' ' (List.mem_of_mem_take hMem)) (by decide)
  have hStart : lastWordStart (word.take hit) = 0 := lastWordStart_append (.inl rfl) hSpace
  rw [matched?, asciiLower_append, find?_append_of_eq_some hFound, Option.map_some,
    List.take_append_of_le_length hLe, hStart, List.drop_zero, identifier_word hWord hRest]

/-- Nothing is matched in a front that the search passes over. -/
theorem matched?_of_passes (hPasses : Passes (asciiLower typed) (asciiLower (front ++ [' ']))) :
    matched? typed (front ++ ' ' :: rest) = matched? typed rest := by
  have hFound := hPasses (asciiLower rest)
  rw [← asciiLower_append, List.append_assoc, List.singleton_append, length_asciiLower,
    List.length_append, List.length_singleton] at hFound
  rw [matched?, hFound, Option.map_map, matched?]
  congr 1
  funext hit
  have hTake : (front ++ ' ' :: rest).take (hit + (front.length + 1)) =
      front ++ ' ' :: rest.take hit := by
    rw [List.take_append, List.take_of_length_le (by omega)]
    congr 1
    rw [show hit + (front.length + 1) - front.length = hit + 1 by omega, List.take_succ_cons]
  have hDrop (start : Nat) :
      (front ++ ' ' :: rest).drop (front.length + 1 + start) = rest.drop start := by
    rw [Nat.add_assoc, List.drop_length_add_append, Nat.add_comm, List.drop_succ_cons]
  rw [Function.comp_apply, hTake, lastWordStart_append_space, hDrop]

theorem matched?_word (hWord : ∀ c ∈ word, isWordChar c = true) :
    matched? typed word = if holds typed word then some word else none := by
  split
  next hHolds =>
    have hMatched : matched? typed (word ++ []) = some word :=
      matched?_of_holds hWord nofun hHolds
    rwa [List.append_nil] at hMatched
  next hHolds =>
    rw [matched?, find?_eq_none_iff.mpr (mt holds_iff.mpr hHolds), Option.map_none]

section Typed

variable (hTyped : ∀ c ∈ typed, isWordChar c = true)
include hTyped

/-- No delimiter is part of what is typed. -/
theorem not_mem_asciiLower_of_delimiters (hGap : ∀ c ∈ gap, c ∈ delimiters) :
    ∀ c ∈ asciiLower gap, c ∉ asciiLower typed := by
  intro c hMem hTypedMem
  obtain ⟨mark, hMark, rfl⟩ := List.mem_map.mp hMem
  obtain ⟨letter, hLetter, hSame⟩ := List.mem_map.mp hTypedMem
  have hDelimiter := toLower_mem_delimiters_iff.mpr (hGap mark hMark)
  rw [← hSame, toLower_mem_delimiters_iff] at hDelimiter
  exact not_mem_delimiters_of_isWordChar (hTyped letter hLetter) hDelimiter

/-- Where a word is followed by a gap, it is matched if it holds what is typed, and else the search
goes on behind the gap. -/
theorem matched?_word_append (hWord : ∀ c ∈ word, isWordChar c = true)
    (hGap : ∀ c ∈ gap, c ∈ delimiters) (rest : List Char) :
    matched? typed (word ++ gap ++ ' ' :: rest) =
      if holds typed word then some word else matched? typed rest := by
  split
  next hHolds =>
    rw [List.append_assoc]
    refine matched?_of_holds hWord ?_ hHolds
    intro c hHead
    cases gap with
    | nil =>
        cases hHead
        decide
    | cons first gap =>
        obtain rfl : first = c := Option.some.inj hHead
        exact hGap first List.mem_cons_self
  next hHolds =>
    have hMarks : ∀ c ∈ gap ++ [' '], c ∈ delimiters :=
      List.forall_mem_append.mpr ⟨hGap, by decide⟩
    have hSome : asciiLower (gap ++ [' ']) ≠ [] := by simp [asciiLower]
    apply matched?_of_passes
    rw [List.append_assoc, asciiLower_append]
    exact passes_append_gap (mt holds_iff.mpr hHolds) hSome
      (not_mem_asciiLower_of_delimiters hTyped hMarks)

theorem matched?_names {names : List (List Char)}
    (hNames : ∀ name ∈ names, name ≠ [] ∧ ∀ c ∈ name, isWordChar c = true) (hSome : names ≠ []) :
    matched? typed ([',', ' '].intercalate names) = names.find? (holds typed) := by
  induction names with
  | nil => exact absurd rfl hSome
  | cons name names ih =>
      rw [List.forall_mem_cons] at hNames
      obtain ⟨⟨-, hName⟩, hLater⟩ := hNames
      rw [List.find?_cons]
      by_cases hMore : names = []
      · subst hMore
        rw [List.intercalate_singleton, matched?_word hName]
        cases holds typed name <;> rfl
      · have hComma : ∀ c ∈ [','], c ∈ delimiters := by decide
        have hText : [',', ' '].intercalate (name :: names) =
            name ++ [','] ++ ' ' :: [',', ' '].intercalate names := by
          rw [List.intercalate_cons_of_ne_nil hMore]
          simp only [List.append_assoc, List.cons_append, List.nil_append]
        rw [hText, matched?_word_append hTyped hName hComma, ih hLater hMore]
        cases holds typed name <;> rfl

theorem matched?_lead {word? : Option (List Char)}
    (hWord : ∀ word ∈ word?, ∀ c ∈ word, isWordChar c = true) (rest : List Char) :
    matched? typed (lead word? ++ rest) =
      (word?.toList.find? (holds typed)).or (matched? typed rest) := by
  cases word? with
  | none => rfl
  | some word =>
      have hMatched := matched?_word_append hTyped (hWord word rfl) (List.forall_mem_nil _) rest
      rw [List.append_nil] at hMatched
      rw [lead, List.append_assoc, List.singleton_append, hMatched, Option.toList_some,
        List.find?_singleton]
      split <;> rfl

/-- The first word of a listing that holds what is typed is matched in it. -/
theorem matched?_listing (listing : Listing) :
    matched? typed listing.text = listing.words.find? (holds typed) := by
  have hCategory : ∀ word ∈ listing.category, ∀ c ∈ word, isWordChar c = true :=
    fun word hWord => ((listing.category_spells word hWord).isWord Keyword.worded_sections).2
  have hSize : ∀ word ∈ listing.size, ∀ c ∈ word, isWordChar c = true :=
    fun word hWord => ((listing.size_spells word hWord).isWord Keyword.worded_sizes).2
  rw [Listing.text, matched?_lead hTyped hCategory, matched?_lead hTyped hSize,
    matched?_names hTyped listing.names_words listing.nonempty, Listing.words, List.find?_append,
    List.find?_append]

/-- A row gives the first of its words that holds what is typed, unless that is typed already. -/
theorem ofRow?_listing (listing : Listing) {row : List Char}
    (hRow : Symbol.declaration row = listing.text) :
    ofRow? typed row = (listing.words.find? (holds typed)).filter (· != typed) := by
  rw [ofRow?_eq, hRow, listing.folded_text.foldBlanks_eq, matched?_listing hTyped]
  cases hFirst : listing.words.find? (holds typed) with
  | none => rfl
  | some first =>
      have hSome := (Listing.isWord_of_mem_words (List.mem_of_find?_eq_some hFirst)).1
      have hFilled : first.isEmpty = false := by simpa using hSome
      rw [Option.filter_some, Option.filter_some, hFilled, Bool.false_or]
      rfl

end Typed

/-- Which names of a row are found. The row gives the first of its words that holds what is typed,
its section and its storage size included, unless that word is typed already. So a name of the row
is listed, up to its case, if and only if it is that word or another row gives it. -/
theorem ofRows_list_first_match {typed : List Char} (hTyped : ∀ c ∈ typed, isWordChar c = true)
    (listing : Listing) {row : List Char} (hText : Symbol.declaration row = listing.text)
    {rows : List (List Char)} (hRow : row ∈ rows) :
    ofRow? typed row = (listing.words.find? (holds typed)).filter (· != typed) ∧
    ∀ name ∈ listing.names,
      ((∃ entry ∈ ofRows typed rows, lowercase entry = lowercase name) ↔
        (∃ first, listing.words.find? (holds typed) = some first ∧ first ≠ typed ∧
          lowercase first = lowercase name) ∨
        ∃ other ∈ rows, other ≠ row ∧ ∃ candidate, ofRow? typed other = some candidate ∧
          lowercase candidate = lowercase name) := by
  have hGiven := ofRow?_listing hTyped listing hText
  refine ⟨hGiven, fun name _ => ?_⟩
  rw [← List.mem_map, mem_map_lowercase_ofRows]
  constructor
  · rintro ⟨other, hOther, candidate, hCandidate, hKey⟩
    by_cases hSame : other = row
    · subst hSame
      rw [hGiven, Option.filter_eq_some_iff, bne_iff_ne] at hCandidate
      exact .inl ⟨candidate, hCandidate.1, hCandidate.2, hKey⟩
    · exact .inr ⟨other, hOther, hSame, candidate, hCandidate, hKey⟩
  · rintro (⟨first, hFirst, hNew, hKey⟩ | ⟨other, hOther, -, candidate, hCandidate, hKey⟩)
    · refine ⟨row, hRow, first, ?_, hKey⟩
      rw [hGiven, hFirst, Option.filter_some, if_pos (bne_iff_ne.mpr hNew)]
    · exact ⟨other, hOther, candidate, hCandidate, hKey⟩

/-- Of two names that hold what is typed the row gives the first and another row the second. -/
theorem ofRows_list_first_match_of_two :
    let typed := ['c', 'o', 'u']
    let myCount := ['m', 'y', '_', 'C', 'o', 'u', 'n', 't']
    let counter := ['c', 'o', 'u', 'n', 't', 'e', 'r']
    let listing : Listing :=
      ⟨some ['V', 'A', 'R'], none, [myCount, ['x'], counter], by decide, nofun, by decide,
        List.cons_ne_nil _ _⟩
    let row := 'v' :: '\t' :: listing.text
    let other := ['f', '\t', 'C', 'O', 'U', 'N', 'T', 'E', 'R']
    Symbol.declaration row = listing.text ∧
      ofRow? typed row = some myCount ∧
      ofRow? typed other = some ['C', 'O', 'U', 'N', 'T', 'E', 'R'] ∧
      ∀ name ∈ [myCount, counter],
        ∃ entry ∈ ofRows typed [row, other], lowercase entry = lowercase name := by
  intro typed myCount counter listing row other
  have hTyped : ∀ c ∈ typed, isWordChar c = true := by decide
  have hText : Symbol.declaration row = listing.text := rfl
  have hFirst : listing.words.find? (holds typed) = some myCount := by decide
  have hOther : ofRow? typed other = some ['C', 'O', 'U', 'N', 'T', 'E', 'R'] := by decide
  obtain ⟨hGiven, hListed⟩ :=
    ofRows_list_first_match hTyped listing hText List.mem_cons_self
  have hNew : myCount ≠ typed := by decide
  rw [hFirst, Option.filter_some, if_pos (bne_iff_ne.mpr hNew)] at hGiven
  refine ⟨hText, hGiven, hOther, ?_⟩
  rw [List.forall_mem_cons, List.forall_mem_singleton]
  refine ⟨(hListed myCount (by decide)).mpr (.inl ⟨myCount, hFirst, hNew, rfl⟩),
    (hListed counter (by decide)).mpr (.inr ⟨other, by decide, by decide, _, hOther, by decide⟩)⟩

/-- A name is missed behind an earlier name that holds what is typed, behind what is typed itself,
and behind a storage size. -/
theorem ofRows_miss_later_names :
    let long := ['l', 'o', 'n', 'g']
    let count := ['c', 'o', 'u', 'n', 't']
    let counter := ['c', 'o', 'u', 'n', 't', 'e', 'r']
    let longitude := ['l', 'o', 'n', 'g', 'i', 't', 'u', 'd', 'e']
    let counts : Listing :=
      ⟨none, some long, [count, counter], nofun, by decide, by decide, List.cons_ne_nil _ _⟩
    let angle : Listing :=
      ⟨none, some long, [longitude], nofun, by decide, by decide, List.cons_ne_nil _ _⟩
    let misses (typed : List Char) (listing : Listing) (name : List Char) : Prop :=
      let row := 'v' :: '\t' :: listing.text
      Symbol.declaration row = listing.text ∧ name ∈ listing.names ∧ holds typed name = true ∧
        name ≠ typed ∧ lowercase name ∉ (ofRows typed [row]).map lowercase
    misses ['c', 'o', 'u'] counts counter ∧ misses count counts counter ∧
      misses ['l', 'o', 'n'] angle longitude := by
  intro long count counter longitude counts angle misses
  have hMissed {typed row name : List Char}
      (hOther : (ofRow? typed row).all (lowercase · != lowercase name) = true) :
      lowercase name ∉ (ofRows typed [row]).map lowercase := by
    intro hMem
    obtain ⟨_, hRow, candidate, hCandidate, hSame⟩ := mem_map_lowercase_ofRows.mp hMem
    rw [List.mem_singleton.mp hRow] at hCandidate
    rw [hCandidate, Option.all_some, bne_iff_ne] at hOther
    exact hOther hSame
  refine ⟨⟨rfl, ?_, ?_, ?_, hMissed (by decide)⟩, ⟨rfl, ?_, ?_, ?_, hMissed (by decide)⟩,
    ⟨rfl, ?_, ?_, ?_, hMissed (by decide)⟩⟩
  all_goals decide

end Candidates

end EditAssist
