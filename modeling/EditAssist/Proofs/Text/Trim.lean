import EditAssist.Text.Trim

/-! What is left of a text without the white space at its ends. -/
namespace EditAssist.Text

/-- There is something in the text, and no white space at either end of it. -/
structure Trimmed (text : List Char) : Prop where
  nonempty : text ≠ []
  head : ∀ c, text.head? = some c → isBlank c = false
  last : ∀ c, text.getLast? = some c → isBlank c = false

/-- What is left after a longest head of characters with `p` starts without `p`. -/
theorem head?_dropWhile {p : Char → Bool} {text : List Char} {c : Char}
    (hHead : (text.dropWhile p).head? = some c) : p c = false := by
  have hNot := List.head?_dropWhile_not p text
  rw [hHead] at hNot
  exact hNot

theorem prefix_dropTail (p : Char → Bool) (text : List Char) : dropTail p text <+: text := by
  rw [dropTail, ← List.reverse_suffix, List.reverse_reverse]
  exact List.dropWhile_suffix p

/-- All that is dropped at the end of a text has `p`. -/
theorem exists_dropTail_append (p : Char → Bool) (text : List Char) :
    ∃ tail, text = dropTail p text ++ tail ∧ ∀ c ∈ tail, p c = true := by
  refine ⟨(text.reverse.takeWhile p).reverse, ?_, ?_⟩
  · rw [dropTail, ← List.reverse_append, List.takeWhile_append_dropWhile, List.reverse_reverse]
  · intro c hMem
    exact List.all_eq_true.mp List.all_takeWhile c (List.mem_reverse.mp hMem)

/-- A tail of characters with `p` makes no difference. -/
theorem dropTail_append {p : Char → Bool} {tail : List Char} (hTail : ∀ c ∈ tail, p c = true)
    (text : List Char) : dropTail p (text ++ tail) = dropTail p text := by
  rw [dropTail, List.reverse_append, List.dropWhile_append_of_pos, dropTail]
  exact fun c hMem => hTail c (List.mem_reverse.mp hMem)

/-- The first character of a prefix is that of the whole. -/
theorem head?_eq_of_isPrefix {front text : List Char} {c : Char} (hPrefix : front <+: text)
    (hHead : front.head? = some c) : text.head? = some c := by
  obtain ⟨tail, rfl⟩ := hPrefix
  obtain ⟨rest, rfl⟩ := List.head?_eq_some_iff.mp hHead
  rfl

theorem trimmed_trim {text : List Char} (hSome : trim text ≠ []) : Trimmed (trim text) where
  nonempty := hSome
  head := by
    intro c hHead
    exact head?_dropWhile (head?_eq_of_isPrefix (prefix_dropTail isBlank _) hHead)
  last := by
    intro c hLast
    rw [trim, dropTail, List.getLast?_reverse] at hLast
    exact head?_dropWhile hLast

/-- Nothing is dropped from a text that starts without `p`. -/
theorem dropWhile_eq_self {p : Char → Bool} {text : List Char}
    (hHead : ∀ c, text.head? = some c → p c = false) : text.dropWhile p = text := by
  cases text with
  | nil => rfl
  | cons c rest =>
      have hFirst : p c = false := hHead c rfl
      rw [List.dropWhile_cons_of_neg (by simp [hFirst])]

/-- Trimming a trimmed text changes nothing. -/
theorem Trimmed.trim_eq {text : List Char} (h : Trimmed text) : trim text = text := by
  rw [trim, dropWhile_eq_self h.head, dropTail, dropWhile_eq_self, List.reverse_reverse]
  intro c hHead
  rw [List.head?_reverse] at hHead
  exact h.last c hHead

/-- White space around a trimmed text goes. -/
theorem Trimmed.trim_between {gap text tail : List Char} (h : Trimmed text)
    (hGap : ∀ c ∈ gap, isBlank c = true) (hTail : ∀ c ∈ tail, isBlank c = true) :
    trim (gap ++ (text ++ tail)) = text := by
  have hHead : ∀ c, (text ++ tail).head? = some c → isBlank c = false := by
    intro c hFirst
    obtain ⟨first, rest, rfl⟩ := List.exists_cons_of_ne_nil h.nonempty
    exact h.head c hFirst
  have hSame := h.trim_eq
  rw [trim, dropWhile_eq_self h.head] at hSame
  rw [trim, List.dropWhile_append_of_pos hGap, dropWhile_eq_self hHead, dropTail_append hTail,
    hSame]

theorem length_trim_le (text : List Char) : (trim text).length ≤ text.length :=
  Nat.le_trans (prefix_dropTail isBlank _).length_le (List.dropWhile_suffix isBlank).length_le

end EditAssist.Text
