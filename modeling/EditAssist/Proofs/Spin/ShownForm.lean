import EditAssist.Proofs.Text.Folding
import EditAssist.Spin.Declaration
import Mathlib.Logic.Function.Iterate

/-! The shown form of a symbol row is shown as it is. Each cut keeps some front of the text, so it
leaves a folded text folded, and it either makes the text shorter or changes nothing. -/
namespace EditAssist.Declaration

open Text

variable {text : List Char}

/-- One cut keeps a front of the text, trimmed. -/
theorem cutTail_eq_trim_take (text : List Char) :
    ∃ count, cutTail text = trim (text.take count) := by
  rw [cutTail]
  split
  next close _ => exact ⟨close + 1, rfl⟩
  next =>
    split
    next i _ => exact ⟨i, rfl⟩
    next =>
      split
      next i _ => exact ⟨i, rfl⟩
      next => exact ⟨text.length, by rw [List.take_length]⟩

/-- What a cut leaves is a part of the text. -/
theorem isInfix_cutTail (text : List Char) : cutTail text <:+: text := by
  obtain ⟨count, hCut⟩ := cutTail_eq_trim_take text
  rw [hCut]
  exact (isInfix_trim _).trans (List.take_prefix count text).isInfix

theorem folded_cutTail (hText : Folded text) : Folded (cutTail text) := by
  obtain ⟨count, hCut⟩ := cutTail_eq_trim_take text
  rw [hCut]
  exact hText.trim (List.take_prefix count text).isInfix

/-- A cut that does not make the text shorter changes nothing. -/
theorem cutTail_eq_self (hLength : ¬ (cutTail text).length < text.length) : cutTail text = text :=
  (isInfix_cutTail text).eq_of_length
    (Nat.le_antisymm (isInfix_cutTail text).length_le (Nat.not_lt.mp hLength))

theorem folded_cutAll (hText : Folded text) : Folded (cutAll text) := by
  fun_induction cutAll text with
  | case1 text _ ih => exact ih (folded_cutTail hText)
  | case2 => exact hText

theorem cutAll_of_cutTail (hText : cutTail text = text) : cutAll text = text := by
  rw [cutAll, hText, if_neg (Nat.lt_irrefl _)]

/-- Cutting takes as many rounds as there are cuts that make the text shorter. The next cut changes
nothing. -/
theorem cutAll_rounds (text : List Char) :
    ∃ rounds ≤ text.length,
      cutAll text = cutTail^[rounds] text ∧
      cutTail (cutTail^[rounds] text) = cutTail^[rounds] text ∧
      ∀ earlier < rounds,
        (cutTail (cutTail^[earlier] text)).length < (cutTail^[earlier] text).length := by
  fun_induction cutAll text with
  | case1 text hShorter ih =>
      obtain ⟨rounds, hRounds, hAll, hLast, hEarlier⟩ := ih
      refine ⟨rounds + 1, Nat.lt_of_le_of_lt hRounds hShorter, hAll, hLast, ?_⟩
      intro earlier hBefore
      cases earlier with
      | zero => exact hShorter
      | succ earlier => exact hEarlier earlier (Nat.lt_of_succ_lt_succ hBefore)
  | case2 text hLength => exact ⟨0, Nat.zero_le _, rfl, cutTail_eq_self hLength, nofun⟩

/-- A text without a tab is all declaration. -/
theorem declaration_eq_self (hTab : '\t' ∉ text) : Symbol.declaration text = text := by
  have hNone : text.dropWhile (· != '\t') = [] := by
    rw [← List.append_nil text, List.dropWhile_append_of_pos]
    · rfl
    · intro c hMem
      rw [bne_iff_ne]
      rintro rfl
      exact hTab hMem
  rw [Symbol.declaration, hNone]

/-- The shown form of a folded text is what the cuts leave of it. -/
theorem shown_of_folded (hFolded : Folded text) : shown text = cutAll text := by
  have hTab : '\t' ∉ text := fun hMem => absurd (hFolded.plain '\t' hMem (by decide)) (by decide)
  rw [shown, declaration_eq_self hTab, hFolded.foldBlanks_eq]

/-- A folded text that no cut changes is its own shown form. -/
theorem shown_eq_self (hFolded : Folded text) (hCut : cutTail text = text) :
    shown text = text := by
  rw [shown_of_folded hFolded, cutAll_of_cutTail hCut]

/-- A shown form is its own shown form. It is reached after no more cuts than the declaration is
long: each of them makes the text shorter, and the one after them changes nothing. -/
theorem shown_idempotent (row : List Char) :
    shown (shown row) = shown row ∧
    let declared := foldBlanks (Symbol.declaration row)
    ∃ rounds ≤ declared.length,
      shown row = cutTail^[rounds] declared ∧
      cutTail (cutTail^[rounds] declared) = cutTail^[rounds] declared ∧
      ∀ earlier < rounds,
        (cutTail (cutTail^[earlier] declared)).length < (cutTail^[earlier] declared).length := by
  obtain ⟨rounds, -, hShown, hLast, -⟩ := cutAll_rounds (foldBlanks (Symbol.declaration row))
  refine ⟨?_, cutAll_rounds _⟩
  have hFolded : Folded (shown row) := folded_cutAll (folded_foldBlanks _)
  rw [← hShown] at hLast
  exact shown_eq_self hFolded hLast

end EditAssist.Declaration
