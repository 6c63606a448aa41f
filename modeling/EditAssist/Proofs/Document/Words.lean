import EditAssist.Proofs.Document.Bounds

/-! The word in front of an offset. A text falls into what stands before the word, the word and what
stands behind the offset, and the search for the start of the word stops where this division has
it. -/
namespace EditAssist

open Text

namespace Text

/-- `word` is the longest run of word characters that ends at `offset`. It may be empty. -/
structure WordCut (text : List Char) (offset : Nat) (front word behind : List Char) : Prop where
  text_eq : text = front ++ word ++ behind
  offset_eq : (front ++ word).length = offset
  word_chars : ∀ c ∈ word, isWordChar c = true
  front_end : ∀ c, front.getLast? = some c → isWordChar c = false

theorem exists_wordCut {text : List Char} {offset : Nat} (hOffset : offset ≤ text.length) :
    ∃ front word behind, WordCut text offset front word behind := by
  have hSplit := List.takeWhile_append_dropWhile (p := isWordChar) (l := (text.take offset).reverse)
  have hChars : ∀ c ∈ (text.take offset).reverse.takeWhile isWordChar, isWordChar c = true :=
    List.all_eq_true.mp List.all_takeWhile
  have hEnd := List.head?_dropWhile_not isWordChar (text.take offset).reverse
  generalize (text.take offset).reverse.takeWhile isWordChar = word at hSplit hChars
  generalize (text.take offset).reverse.dropWhile isWordChar = front at hSplit hEnd
  have hTake : front.reverse ++ word.reverse = text.take offset := by
    rw [← List.reverse_append, hSplit, List.reverse_reverse]
  refine ⟨front.reverse, word.reverse, text.drop offset, ?_, ?_, ?_, ?_⟩
  · rw [hTake, List.take_append_drop]
  · rw [hTake, List.length_take_of_le hOffset]
  · intro c hMem
    exact hChars c (List.mem_reverse.mp hMem)
  · intro c hLast
    rw [List.getLast?_reverse] at hLast
    rwa [hLast] at hEnd

theorem WordCut.le_length {text front word behind : List Char} {offset : Nat}
    (h : WordCut text offset front word behind) : offset ≤ text.length := by
  rw [h.text_eq, List.length_append, h.offset_eq]
  exact Nat.le_add_right _ _

end Text

namespace Document

variable {document : Document} {offset : Nat} {front word behind : List Char}

theorem wordStart_le (document : Document) (offset : Nat) : document.wordStart offset ≤ offset := by
  rw [wordStart]
  split
  · exact Nat.sub_le _ _
  · exact Nat.le_refl _

theorem wordStart_eq (h : WordCut document.text offset front word behind) :
    document.wordStart offset = front.length := by
  have hTake : document.text.take offset = front ++ word := by
    rw [h.text_eq, List.take_left' h.offset_eq]
  have hFront : front.reverse.takeWhile isWordChar = [] := by
    cases hLast : front.reverse with
    | nil => rfl
    | cons c rest =>
        have hc : isWordChar c = false := by
          apply h.front_end
          rw [List.getLast?_eq_head?_reverse, hLast, List.head?_cons]
        rw [List.takeWhile_cons_of_neg (by simp [hc])]
  have hWord : (document.text.take offset).reverse.takeWhile isWordChar = word.reverse := by
    rw [hTake, List.reverse_append, List.takeWhile_append_of_pos, hFront, List.append_nil]
    exact fun c hMem => h.word_chars c (List.mem_reverse.mp hMem)
  have hOffset : offset ≤ document.length := h.le_length
  rw [wordStart, if_pos hOffset, hWord, List.length_reverse, ← h.offset_eq,
    List.length_append, Nat.add_sub_cancel]

end Document

end EditAssist
