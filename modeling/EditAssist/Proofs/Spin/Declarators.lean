import EditAssist.Proofs.Spin.SingleCut

/-! The names that a declaration lists, each with the bound or the initial value that may follow it.
The names are no keywords, so no storage size stands in such a text and it ends with the first bound
or initial value: `reached` are the names before that end. -/
namespace EditAssist.Declaration

open Text Keyword

variable {tail : List Char} {c : Char}

/-- A text that goes on folded behind any word. -/
def FoldsOn (tail : List Char) : Prop :=
  ∀ word ≠ [], (∀ c ∈ word, isBlank c = false) → Folded (word ++ tail)

theorem foldsOn_nil : FoldsOn [] := by
  intro word hSome hWord
  rw [List.append_nil]
  exact folded_of_word hSome hWord

theorem foldsOn_blank_cons {text : List Char} (hText : Folded text) (hSome : text ≠ []) :
    FoldsOn (' ' :: text) :=
  fun _ hWordSome hWord => hText.word_append hWordSome hWord hSome

theorem FoldsOn.word_append {word : List Char} (hTail : FoldsOn tail)
    (hWord : ∀ c ∈ word, isBlank c = false) : FoldsOn (word ++ tail) := by
  intro first hSome hFirst
  rw [← List.append_assoc]
  refine hTail _ (List.append_ne_nil_of_left_ne_nil hSome _) ?_
  exact List.forall_mem_append.mpr ⟨hFirst, hWord⟩

theorem isBlank_of_word {word : List Char} (hWord : ∀ c ∈ word, isWordChar c = true) :
    ∀ c ∈ word, isBlank c = false := by
  intro c hMem
  rw [← Bool.not_eq_true]
  intro hBlank
  have hNot := isWordChar_of_isBlank hBlank
  rw [hWord c hMem] at hNot
  cases hNot

/-- A decimal number. -/
structure Decimal where
  digits : List Char
  nonempty : digits ≠ []
  plain : ∀ c ∈ digits, c.isDigit = true

theorem Decimal.isWord (number : Decimal) : ∀ c ∈ number.digits, isWordChar c = true :=
  fun c hMem => isWordChar_of_isDigit (number.plain c hMem)

/-- A number is no keyword. -/
theorem Decimal.not_spells (number : Decimal) : ¬ Spells stops number.digits := by
  rintro ⟨keyword, hKeyword, hSame⟩
  obtain ⟨digit, rest, hDigits⟩ := List.exists_cons_of_ne_nil number.nonempty
  have hDigit : digit.isDigit = true := number.plain digit (hDigits ▸ List.mem_cons_self)
  have hLetters : ∀ keyword ∈ stops, ∀ c ∈ asciiLower keyword, c.isDigit = false := by decide
  have hMem : digit.toLower ∈ asciiLower keyword := by
    rw [← beq_iff_eq.mp hSame, hDigits]
    exact List.mem_cons_self
  have hLower := hLetters keyword hKeyword _ hMem
  rw [toLower_of_isDigit hDigit, hDigit] at hLower
  cases hLower

/-- What may follow a declared name: the bound of an array or an initial value. -/
inductive Suffix
  | none
  | bound (size : Decimal)
  | value (initial : Decimal)

namespace Suffix

def text : Suffix → List Char
  | none => []
  | bound size => '[' :: size.digits ++ [']']
  | value initial => [' ', '=', ' '] ++ initial.digits

theorem foldsOn (suffix : Suffix) (hTail : FoldsOn tail) : FoldsOn (suffix.text ++ tail) := by
  cases suffix with
  | none => exact hTail
  | bound size =>
      have hBracket : ∀ c ∈ [']'], isBlank c = false := by decide
      have hOpen : ∀ c ∈ ['['], isBlank c = false := by decide
      have hDigits := (hTail.word_append hBracket).word_append (isBlank_of_word size.isWord)
      simpa [text] using hDigits.word_append hOpen
  | value initial =>
      have hDigits := hTail initial.digits initial.nonempty (isBlank_of_word initial.isWord)
      have hEqual := foldsOn_blank_cons hDigits (by simp [initial.nonempty]) ['='] (by decide)
        (by decide)
      simpa [text] using foldsOn_blank_cons hEqual (by simp)

theorem mem_text {suffix : Suffix} (hMem : c ∈ suffix.text) :
    isWordChar c = true ∨ c ∈ [' ', '=', '[', ']'] := by
  cases suffix with
  | none => cases hMem
  | bound size =>
      simp only [text, List.cons_append, List.mem_cons, List.mem_append, List.not_mem_nil,
        or_false] at hMem
      rcases hMem with rfl | hDigit | rfl
      · decide
      · exact .inl (size.isWord c hDigit)
      · decide
  | value initial =>
      rcases List.mem_append.mp hMem with hFirst | hDigit
      · exact .inr ((by decide : [' ', '=', ' '] ⊆ [' ', '=', '[', ']']) hFirst)
      · exact .inl (initial.isWord c hDigit)

theorem ends (suffix : Suffix) (hTail : wordContinues tail = false) :
    wordContinues (suffix.text ++ tail) = false := by
  cases suffix with
  | none => exact hTail
  | bound => rfl
  | value => rfl

end Suffix

/-- One of the names that a declaration lists. It is no keyword. -/
structure Declarator where
  name : List Char
  suffix : Suffix
  nonempty : name ≠ []
  word : ∀ c ∈ name, isWordChar c = true
  free : ¬ Spells (sections ++ stops) name

namespace Declarator

variable {declarators rest : List Declarator}

def text (declarator : Declarator) : List Char :=
  declarator.name ++ declarator.suffix.text

/-- The name alone. -/
def bare (declarator : Declarator) : Declarator :=
  { declarator with suffix := .none }

/-- The text of several names. -/
def list (declarators : List Declarator) : List Char :=
  [',', ' '].intercalate (declarators.map text)

/-- The names up to the first that is followed by anything, and nothing of what follows it. -/
def reached : List Declarator → List Declarator
  | [] => []
  | declarator :: rest =>
    match declarator.suffix with
    | .none => declarator :: reached rest
    | _ => [declarator.bare]

theorem not_spells {set : List (List Char)} (declarator : Declarator)
    (hSet : set ⊆ sections ++ stops) : ¬ Spells set declarator.name :=
  fun hSpells => declarator.free (hSpells.mono hSet)

theorem list_singleton (declarator : Declarator) : list [declarator] = declarator.text := by
  rw [list, List.map_singleton, List.intercalate_singleton]

theorem list_cons (declarator : Declarator) (hRest : rest ≠ []) :
    list (declarator :: rest) = declarator.text ++ ',' :: ' ' :: list rest := by
  rw [list, List.map_cons, List.intercalate_cons_of_ne_nil (by simpa using hRest), list,
    List.append_assoc]
  rfl

/-- A list starts with its first name, and what follows that name does not go on with it. -/
theorem exists_list_cons (declarator : Declarator) (rest : List Declarator) :
    ∃ more, wordContinues more = false ∧
      list (declarator :: rest) = declarator.name ++ (declarator.suffix.text ++ more) := by
  by_cases hRest : rest = []
  · subst hRest
    exact ⟨[], rfl, by rw [list_singleton, text, List.append_nil]⟩
  · refine ⟨',' :: ' ' :: list rest, rfl, ?_⟩
    rw [list_cons _ hRest, text, List.append_assoc]

theorem folded_list (hSome : declarators ≠ []) :
    Folded (list declarators) ∧ list declarators ≠ [] := by
  induction declarators with
  | nil => exact absurd rfl hSome
  | cons declarator rest ih =>
      have hName := isBlank_of_word declarator.word
      by_cases hRest : rest = []
      · subst hRest
        rw [list_singleton, text]
        refine ⟨?_, List.append_ne_nil_of_left_ne_nil declarator.nonempty _⟩
        simpa using declarator.suffix.foldsOn foldsOn_nil _ declarator.nonempty hName
      · obtain ⟨hFolded, hMore⟩ := ih hRest
        rw [list_cons _ hRest, text, List.append_assoc]
        refine ⟨?_, List.append_ne_nil_of_left_ne_nil declarator.nonempty _⟩
        have hComma : ∀ c ∈ [','], isBlank c = false := by decide
        have hTail := (foldsOn_blank_cons hFolded hMore).word_append hComma
        exact declarator.suffix.foldsOn hTail _ declarator.nonempty hName

theorem lacks_text (declarator : Declarator) : Lacks stops declarator.text := by
  have hName : Lacks stops declarator.name :=
    lacks_word declarator.word (declarator.not_spells (List.subset_append_right _ _))
  have hNil : Lacks stops [] := lacks_nil worded_stops
  have hDigits (number : Decimal) : Lacks stops number.digits :=
    lacks_word number.isWord number.not_spells
  rw [text]
  cases declarator.suffix with
  | none => simpa [Suffix.text] using hName
  | bound size =>
      have hClose := lacks_append_cons (c := ']') worded_stops (by decide) (hDigits size) hNil
      have hOpen := lacks_append_cons (c := '[') worded_stops (by decide) hName hClose
      simpa [Suffix.text] using hOpen
  | value initial =>
      have hBlank := lacks_append_cons (c := ' ') worded_stops (by decide) hNil (hDigits initial)
      have hEqual := lacks_append_cons (c := '=') worded_stops (by decide) hNil hBlank
      have hFirst := lacks_append_cons (c := ' ') worded_stops (by decide) hName hEqual
      simpa [Suffix.text] using hFirst

theorem lacks_list (declarators : List Declarator) : Lacks stops (list declarators) := by
  induction declarators with
  | nil => exact lacks_nil worded_stops
  | cons declarator rest ih =>
      by_cases hRest : rest = []
      · subst hRest
        rw [list_singleton]
        exact declarator.lacks_text
      · rw [list_cons _ hRest]
        have hNil : Lacks stops [] := lacks_nil worded_stops
        have hBlank := lacks_append_cons (c := ' ') worded_stops (by decide) hNil ih
        exact lacks_append_cons worded_stops (by decide) declarator.lacks_text hBlank

theorem mem_list (hMem : c ∈ list declarators) :
    isWordChar c = true ∨ c ∈ [',', ' '] ∨
      ∃ declarator ∈ declarators, c ∈ declarator.suffix.text := by
  induction declarators with
  | nil => cases hMem
  | cons declarator rest ih =>
      have hText : c ∈ declarator.text → isWordChar c = true ∨ c ∈ [',', ' '] ∨
          ∃ other ∈ declarator :: rest, c ∈ other.suffix.text := by
        intro hMem
        rcases List.mem_append.mp hMem with hName | hSuffix
        · exact .inl (declarator.word c hName)
        · exact .inr (.inr ⟨declarator, List.mem_cons_self, hSuffix⟩)
      by_cases hRest : rest = []
      · subst hRest
        exact hText (list_singleton declarator ▸ hMem)
      · rw [list_cons _ hRest, List.mem_append, List.mem_cons, List.mem_cons] at hMem
        rcases hMem with hFirst | rfl | rfl | hLater
        · exact hText hFirst
        · exact .inr (.inl (by decide))
        · exact .inr (.inl (by decide))
        · rcases ih hLater with hWord | hMark | ⟨other, hOther, hSuffix⟩
          · exact .inl hWord
          · exact .inr (.inl hMark)
          · exact .inr (.inr ⟨other, List.mem_cons_of_mem _ hOther, hSuffix⟩)

/-- Neither a section nor a size is dropped from a list. -/
theorem dropLeading_list {set : List (List Char)} (hWorded : Worded set)
    (hSet : set ⊆ sections ++ stops) (declarators : List Declarator) :
    dropLeading set (list declarators) = list declarators := by
  cases declarators with
  | nil =>
      have hNone : leading? set ([] ++ []) = none :=
        leading?_eq_none hWorded nofun rfl fun hSpells => (hSpells.isWord hWorded).1 rfl
      rw [dropLeading, list, List.map_nil, List.intercalate_nil, ← List.append_nil [], hNone]
  | cons declarator rest =>
      obtain ⟨more, hEnds, hList⟩ := declarator.exists_list_cons rest
      rw [dropLeading, hList, leading?_eq_none hWorded declarator.word
        (declarator.suffix.ends hEnds) (declarator.not_spells hSet)]

theorem reached_ne_nil (hSome : declarators ≠ []) : reached declarators ≠ [] := by
  cases declarators with
  | nil => exact absurd rfl hSome
  | cons declarator rest =>
      rw [reached]
      split <;> exact List.cons_ne_nil _ _

theorem suffix_of_mem_reached {declarator : Declarator} (hMem : declarator ∈ reached declarators) :
    declarator.suffix = .none := by
  induction declarators with
  | nil => cases hMem
  | cons first rest ih =>
      rw [reached] at hMem
      split at hMem
      next hNone =>
        rcases List.mem_cons.mp hMem with rfl | hLater
        · exact hNone
        · exact ih hLater
      next =>
        obtain rfl := List.mem_singleton.mp hMem
        rfl

theorem reached_eq_self (hBare : ∀ declarator ∈ declarators, declarator.suffix = .none) :
    reached declarators = declarators := by
  induction declarators with
  | nil => rfl
  | cons declarator rest ih =>
      rw [List.forall_mem_cons] at hBare
      rw [reached, hBare.1, ih hBare.2]

/-- Behind the last name that is reached stands a tail mark, maybe after a space, or nothing. -/
theorem exists_list_eq (hSome : declarators ≠ []) :
    ∃ tail, list declarators = list (reached declarators) ++ tail ∧
      (tail = [] ∨ ∃ gap mark rest, tail = gap ++ mark :: rest ∧ mark ∈ tailMarks ∧
        ∀ c ∈ gap, c = ' ') := by
  induction declarators with
  | nil => exact absurd rfl hSome
  | cons declarator rest ih =>
      have hBare : list [declarator.bare] = declarator.name := by
        rw [list_singleton, text, bare, Suffix.text, List.append_nil]
      obtain ⟨more, -, hMore⟩ := declarator.exists_list_cons rest
      rw [reached]
      cases hSuffix : declarator.suffix with
      | none =>
          by_cases hRest : rest = []
          · subst hRest
            exact ⟨[], (List.append_nil _).symm, .inl rfl⟩
          · obtain ⟨tail, hTail, hMark⟩ := ih hRest
            refine ⟨tail, ?_, hMark⟩
            dsimp only
            rw [list_cons _ hRest, list_cons _ (reached_ne_nil hRest), hTail]
            simp only [List.append_assoc, List.cons_append]
      | bound size =>
          rw [hSuffix] at hMore
          exact ⟨(Suffix.bound size).text ++ more, by rw [hMore, hBare],
            .inr ⟨[], '[', size.digits ++ [']'] ++ more, rfl, by decide, nofun⟩⟩
      | value initial =>
          rw [hSuffix] at hMore
          exact ⟨(Suffix.value initial).text ++ more, by rw [hMore, hBare],
            .inr ⟨[' '], '=', ' ' :: initial.digits ++ more, rfl, by decide, by decide⟩⟩

/-- All names are reached if and only if nothing follows any of them but the last. -/
theorem reached_names_iff :
    (reached declarators).map name = declarators.map name ↔
      ∀ declarator ∈ declarators.dropLast, declarator.suffix = .none := by
  induction declarators with
  | nil => exact iff_of_true rfl nofun
  | cons declarator rest ih =>
      by_cases hRest : rest = []
      · subst hRest
        refine iff_of_true ?_ nofun
        rw [reached]
        split <;> rfl
      · rw [List.dropLast_cons_of_ne_nil hRest, List.forall_mem_cons, ← ih, reached]
        split
        next hNone => simp [hNone]
        next hSuffix =>
          refine iff_of_false ?_ fun hAll => hSuffix hAll.1
          simpa [bare] using hRest

/-- The names alone are read off between the commas. -/
theorem splitOn_list (hSome : declarators ≠ [])
    (hBare : ∀ declarator ∈ declarators, declarator.suffix = .none) {gap : List Char}
    (hGap : ∀ c ∈ gap, c = ' ') :
    ((gap ++ list declarators).splitOn ',').map trim = declarators.map name := by
  induction declarators generalizing gap with
  | nil => exact absurd rfl hSome
  | cons declarator rest ih =>
      rw [List.forall_mem_cons] at hBare
      have hText : declarator.text = declarator.name := by
        rw [text, hBare.1, Suffix.text, List.append_nil]
      have hComma : ',' ∉ gap ++ declarator.name := by
        intro hMem
        rcases List.mem_append.mp hMem with hBlank | hName
        · exact absurd (hGap ',' hBlank) (by decide)
        · exact absurd (declarator.word ',' hName) (by decide)
      have hTrim : trim (gap ++ declarator.name) = declarator.name := by
        have hName := trimmed_of_word declarator.nonempty (isBlank_of_word declarator.word)
        have hBetween : trim (gap ++ (declarator.name ++ [])) = declarator.name :=
          hName.trim_between (fun c hMem => hGap c hMem ▸ by decide) nofun
        rwa [List.append_nil] at hBetween
      by_cases hRest : rest = []
      · subst hRest
        rw [list_singleton, hText, List.splitOn_eq_singleton hComma, List.map_singleton, hTrim]
        rfl
      · have hLater : (([' '] ++ list rest).splitOn ',').map trim = rest.map name :=
          ih hRest hBare.2 (by decide)
        rw [list_cons _ hRest, hText, ← List.append_assoc, List.splitOn_append_cons_self,
          List.splitOn_eq_singleton hComma, List.map_append, List.map_singleton, hTrim,
          List.map_cons]
        exact congrArg (declarator.name :: ·) hLater

end Declarator

end EditAssist.Declaration
