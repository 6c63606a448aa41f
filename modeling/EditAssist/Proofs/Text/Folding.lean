import EditAssist.Proofs.Text.Rows
import EditAssist.Proofs.Text.Trim

/-! Texts in which white space is folded. `foldBlanks` makes such a text, and changes none. What is
left when something is cut off at the ends and the rest is trimmed is folded again. -/
namespace EditAssist.Text

variable {text part word rest : List Char} {c : Char}

/-- The only white space in the text is single spaces between other characters. -/
structure Folded (text : List Char) : Prop where
  plain : ∀ c ∈ text, isBlank c = true → c = ' '
  apart : ∀ a b, [a, b] <:+: text → isBlank a = true → isBlank b = false
  trimmed : text ≠ [] → Trimmed text

theorem isInfix_trim (text : List Char) : trim text <:+: text :=
  (prefix_dropTail isBlank _).isInfix.trans (List.dropWhile_suffix isBlank).isInfix

theorem Folded.trim (h : Folded text) (hPart : part <:+: text) : Folded (trim part) where
  plain := fun c hMem => h.plain c ((isInfix_trim part).trans hPart |>.subset hMem)
  apart := fun a b hPair => h.apart a b (hPair.trans ((isInfix_trim part).trans hPart))
  trimmed := trimmed_trim

/-- Only white space at its end is missing in a front of a folded text that was trimmed. -/
theorem Folded.exists_take_eq (hText : Folded text) (count : Nat) :
    ∃ gap, text.take count = Text.trim (text.take count) ++ gap ∧ ∀ c ∈ gap, isBlank c = true := by
  have hHead : ∀ c, (text.take count).head? = some c → isBlank c = false := by
    intro c hHead
    have hFirst := head?_eq_of_isPrefix (List.take_prefix count text) hHead
    refine (hText.trimmed ?_).head c hFirst
    rintro rfl
    cases hFirst
  rw [Text.trim, dropWhile_eq_self hHead]
  exact exists_dropTail_append isBlank (text.take count)

theorem Folded.trim_take_prefix (hText : Folded text) (count : Nat) :
    Text.trim (text.take count) <+: text := by
  obtain ⟨gap, hTake, -⟩ := hText.exists_take_eq count
  have hFront : Text.trim (text.take count) <+: text.take count := ⟨gap, hTake.symm⟩
  exact hFront.trans (List.take_prefix count text)

theorem Folded.trim_eq (hText : Folded text) : Text.trim text = text := by
  by_cases hSome : text = []
  · subst hSome
    rfl
  · exact (hText.trimmed hSome).trim_eq

/-- White space in a folded text is not the end of it, and what stands behind is folded. -/
theorem Folded.behind_blank (h : Folded (word ++ c :: rest)) (hBlank : isBlank c = true) :
    rest ≠ [] ∧ Folded rest := by
  have hTrimmed := h.trimmed (by simp)
  have hPart : rest <:+: word ++ c :: rest := ⟨word ++ [c], [], by simp⟩
  have hLast : ∀ d, (c :: rest).getLast? = some d → isBlank d = false := by
    intro d hEnd
    apply hTrimmed.last
    rw [List.getLast?_append, hEnd]
    rfl
  refine ⟨?_, fun d hMem => h.plain d (hPart.subset hMem),
    fun a b hPair => h.apart a b (hPair.trans hPart), fun hMore => ⟨hMore, ?_, ?_⟩⟩
  · rintro rfl
    rw [hLast c rfl] at hBlank
    exact absurd hBlank (by decide)
  · intro d hNext
    obtain ⟨tail, rfl⟩ := List.head?_eq_some_iff.mp hNext
    exact h.apart c d ⟨word, tail, by simp⟩ hBlank
  · intro d hEnd
    apply hLast
    rw [List.getLast?_cons, hEnd]
    rfl

/-- A folded text is one word, or it goes on behind its first word after a single space. -/
theorem Folded.exists_word (h : Folded text) (hSome : text ≠ []) :
    ∃ word, word ≠ [] ∧ (∀ c ∈ word, isBlank c = false) ∧
      (text = word ∨ ∃ rest, text = word ++ ' ' :: rest ∧ rest ≠ [] ∧ Folded rest) := by
  have hSplit : text.takeWhile (!isBlank ·) ++ text.dropWhile (!isBlank ·) = text :=
    List.takeWhile_append_dropWhile
  obtain ⟨first, later, hFirst⟩ := List.exists_cons_of_ne_nil hSome
  have hHead : isBlank first = false := (h.trimmed hSome).head first (by rw [hFirst]; rfl)
  refine ⟨text.takeWhile (!isBlank ·), ?_, ?_, ?_⟩
  · rw [hFirst, List.takeWhile_cons_of_pos (by rw [hHead]; rfl)]
    exact List.cons_ne_nil _ _
  · intro c hMem
    simpa using List.all_eq_true.mp List.all_takeWhile c hMem
  cases hRest : text.dropWhile (!isBlank ·) with
  | nil =>
      rw [hRest, List.append_nil] at hSplit
      exact .inl hSplit.symm
  | cons c rest =>
      have hNot : (!isBlank c) = false := head?_dropWhile (by rw [hRest]; rfl)
      have hBlank : isBlank c = true := by simpa using hNot
      rw [hRest] at hSplit
      rw [← hSplit] at h
      obtain rfl : c = ' ' := h.plain c (by simp) hBlank
      exact .inr ⟨rest, hSplit.symm, h.behind_blank hBlank⟩

section Word

variable (hSome : word ≠ []) (hWord : ∀ c ∈ word, isBlank c = false)
include hSome hWord

theorem words_of_word : words word = [word] := by
  rw [words, List.splitOnP_eq_singleton hWord]
  simpa using hSome

theorem words_append_blank (hBlank : isBlank c = true) (rest : List Char) :
    words (word ++ c :: rest) = word :: words rest := by
  have hFirst := words_of_word hSome hWord
  rw [words] at hFirst
  rw [words, List.splitOnP_append_cons _ _ hBlank, List.filter_append, hFirst]
  rfl

theorem trimmed_of_word : Trimmed word where
  nonempty := hSome
  head := fun c hHead => hWord c (List.mem_of_head? hHead)
  last := fun c hLast => hWord c (List.mem_of_getLast? hLast)

theorem folded_of_word : Folded word where
  plain := fun c hMem hBlank => absurd hBlank (by rw [hWord c hMem]; decide)
  apart := fun a b hPair _ => hWord b (hPair.subset (by simp))
  trimmed := fun _ => trimmed_of_word hSome hWord

theorem Folded.word_append (h : Folded rest) (hRest : rest ≠ []) :
    Folded (word ++ ' ' :: rest) where
  plain := by
    intro c hMem hBlank
    rcases List.mem_append.mp hMem with hFirst | hLater
    · exact absurd hBlank (by rw [hWord c hFirst]; decide)
    · rcases List.mem_cons.mp hLater with rfl | hLater
      · rfl
      · exact h.plain c hLater hBlank
  apart := by
    intro a b hPair hBlank
    clear hSome
    induction word with
    | nil =>
        rcases List.infix_cons_iff.mp hPair with hFirst | hLater
        · obtain ⟨-, hFirst⟩ := List.cons_prefix_cons.mp hFirst
          exact (h.trimmed hRest).head b (head?_eq_of_isPrefix hFirst rfl)
        · exact h.apart a b hLater hBlank
    | cons c word ih =>
        rw [List.forall_mem_cons] at hWord
        rcases List.infix_cons_iff.mp hPair with hFirst | hLater
        · obtain ⟨rfl, -⟩ := List.cons_prefix_cons.mp hFirst
          exact absurd hBlank (by rw [hWord.1]; decide)
        · exact ih hWord.2 hLater
  trimmed := by
    intro hMore
    refine ⟨hMore, ?_, ?_⟩
    · intro c hHead
      obtain ⟨first, later, rfl⟩ := List.exists_cons_of_ne_nil hSome
      obtain rfl : first = c := Option.some.inj hHead
      exact hWord first List.mem_cons_self
    · intro c hLast
      have hEnd := List.getLast?_eq_some_getLast hRest
      rw [List.getLast?_append, List.getLast?_cons, hEnd] at hLast
      exact (h.trimmed hRest).last c (hEnd.trans hLast)

end Word

/-- A folded text is left as it is. -/
theorem Folded.foldBlanks_eq (h : Folded text) : foldBlanks text = text := by
  induction hLength : text.length using Nat.strongRecOn generalizing text with
  | ind length ih =>
  by_cases hSome : text = []
  · subst hSome
    rfl
  obtain ⟨word, hWordSome, hWord, rfl | ⟨rest, rfl, hRest, hFolded⟩⟩ := h.exists_word hSome
  · rw [foldBlanks, words_of_word hWordSome hWord, List.intercalate_singleton]
  · have hLater : [' '].intercalate (words rest) = rest :=
      ih rest.length (by rw [← hLength]; simp; omega) hFolded rfl
    have hWords : words rest ≠ [] := by
      intro hNone
      rw [hNone] at hLater
      exact hRest hLater.symm
    rw [foldBlanks, words_append_blank hWordSome hWord (by decide),
      List.intercalate_cons_of_ne_nil hWords, hLater, List.append_assoc, List.singleton_append]

/-- Words with single spaces between them are a folded text. -/
theorem folded_intercalate {pieces : List (List Char)}
    (hWords : ∀ word ∈ pieces, word ≠ [] ∧ ∀ c ∈ word, isBlank c = false) :
    Folded ([' '].intercalate pieces) ∧ (pieces ≠ [] → [' '].intercalate pieces ≠ []) := by
  induction pieces with
  | nil =>
      refine ⟨⟨nofun, fun a b hPair => ?_, nofun⟩, nofun⟩
      exact absurd (List.infix_nil.mp hPair) (List.cons_ne_nil _ _)
  | cons word pieces ih =>
      rw [List.forall_mem_cons] at hWords
      obtain ⟨⟨hSome, hWord⟩, hLater⟩ := hWords
      obtain ⟨hFolded, hRest⟩ := ih hLater
      cases pieces with
      | nil =>
          rw [List.intercalate_singleton]
          exact ⟨folded_of_word hSome hWord, fun _ => hSome⟩
      | cons second pieces =>
          rw [List.intercalate_cons_of_ne_nil (List.cons_ne_nil _ _), List.append_assoc]
          exact ⟨hFolded.word_append hSome hWord (hRest (List.cons_ne_nil _ _)), fun _ => by simp⟩

theorem folded_foldBlanks (text : List Char) : Folded (foldBlanks text) := by
  refine (folded_intercalate ?_).1
  intro word hMem
  obtain ⟨hPiece, hSome⟩ := List.mem_filter.mp hMem
  exact ⟨by simpa using hSome, eq_false_of_mem_splitOnP hPiece⟩

end EditAssist.Text
