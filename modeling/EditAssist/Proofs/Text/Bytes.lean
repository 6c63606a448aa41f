import Mathlib
import EditAssist.Text.Lowercase
import EditAssist.Text.Search

/-! Texts measured in bytes of UTF-8. A text is cut at a byte only where a character ends there, and
places in characters and in bytes have the same order. Plain letters take one byte in either case,
so texts that are equal up to that case are equally long in both measures. -/
namespace EditAssist.Text

variable {text word keyword : List Char}

theorem utf8Size_eq_sum (text : List Char) : utf8Size text = (text.map Char.utf8Size).sum := by
  rw [utf8Size, List.sum_eq_foldl, List.foldl_map]

theorem utf8Size_append (front rest : List Char) :
    utf8Size (front ++ rest) = utf8Size front + utf8Size rest := by
  simp only [utf8Size_eq_sum, List.map_append, List.sum_append]

theorem utf8Size_eq_zero_iff : utf8Size text = 0 ↔ text = [] := by
  rw [utf8Size_eq_sum]
  cases text with
  | nil => simp
  | cons c rest => simp [c.utf8Size_pos.ne']

theorem utf8Size_take_mono (text : List Char) :
    Monotone fun place => utf8Size (text.take place) := by
  intro first second hLe
  obtain ⟨more, hMore⟩ := List.take_prefix_take_left (l := text) hLe
  change utf8Size (text.take first) ≤ utf8Size (text.take second)
  rw [← hMore, utf8Size_append]
  exact Nat.le_add_right _ _

theorem utf8Size_toLower (c : Char) : c.toLower.utf8Size = c.utf8Size :=
  toLower_congr Char.utf8Size (by decide) c

theorem utf8Size_asciiLower (text : List Char) : utf8Size (asciiLower text) = utf8Size text := by
  simp only [utf8Size_eq_sum, asciiLower, List.map_map, Function.comp_def, utf8Size_toLower]

theorem utf8Size_eq_of_eqIgnoringCase (hSame : eqIgnoringCase word keyword = true) :
    utf8Size word = utf8Size keyword := by
  rw [← utf8Size_asciiLower, eqIgnoringCase_iff.mp hSame, utf8Size_asciiLower]

/-- The text is `front` and then `rest`, and `front` takes `size` bytes. There is no such cut where
`size` bytes end within a character. -/
structure ByteCut (text : List Char) (size : Nat) (front rest : List Char) : Prop where
  text_eq : text = front ++ rest
  size_eq : utf8Size front = size

end EditAssist.Text
