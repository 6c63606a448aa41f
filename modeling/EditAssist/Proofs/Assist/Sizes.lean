import Mathlib.Data.Nat.Digits.Lemmas
import EditAssist.Assist.Geometry

/-! Sizes that stay at the largest word. A number cut off on the way shows no more once the result
is cut off: each size is the exact one, cut off at the end. So a size that fits is exact, and no
size shrinks when what it is computed from grows. -/
namespace EditAssist.Geometry

variable {n : Nat}

theorem saturate_of_le (hFits : n ≤ maxSize) : saturate n = n :=
  min_eq_left hFits

theorem saturate_mono : Monotone saturate :=
  fun _ _ hLe => min_le_min_right maxSize hLe

theorem saturate_saturate_add (n more : Nat) :
    saturate (saturate n + more) = saturate (n + more) := by
  simp only [saturate]
  omega

/-- A product by zero forgets what was cut off, and any other has reached the largest size too. -/
theorem saturate_saturate_mul (n factor : Nat) :
    saturate (saturate n * factor) = saturate (n * factor) := by
  rcases Nat.eq_zero_or_pos factor with rfl | hPos
  · rw [Nat.mul_zero, Nat.mul_zero]
  rcases le_total n maxSize with hFits | hLarge
  · rw [saturate_of_le hFits]
  · have hCut : maxSize ≤ maxSize * factor := Nat.le_mul_of_pos_right maxSize hPos
    have hWhole : maxSize ≤ n * factor := hCut.trans (Nat.mul_le_mul_right factor hLarge)
    have hSize : saturate n = maxSize := min_eq_right hLarge
    rw [hSize, saturate, saturate, min_eq_right hCut, min_eq_right hWhole]

theorem menuSize_eq (columns : Nat) (view : Viewport) :
    menuSize columns view =
      (saturate ((columns + menuPadding) * view.charWidth),
        saturate (menuRows * view.lineHeight)) := by
  rw [menuSize, saturate_saturate_mul, ← saturate_saturate_mul, saturate_saturate_add,
    saturate_saturate_mul]

/-- Every division by ten that the count makes takes one off the logarithm. -/
theorem digits_eq_log (n : Nat) : digits n = Nat.log 10 n + 1 := by
  induction n using digits.induct with
  | case1 n hSmall => rw [digits, if_pos hSmall, Nat.log_of_lt hSmall]
  | case2 n hLarge ih =>
      rw [digits, if_neg hLarge, ih,
        Nat.log_of_one_lt_of_le (by decide) (Nat.le_of_not_lt hLarge)]

theorem digits_eq_length (hPos : 0 < n) : digits n = (Nat.digits 10 n).length := by
  rw [digits_eq_log, Nat.length_digits 10 n (by decide) hPos.ne']

theorem digits_mono : Monotone digits := by
  intro n m hLe
  rw [digits_eq_log, digits_eq_log]
  exact Nat.succ_le_succ (Nat.log_mono_right hLe)

/-- A number that fits a word has twenty digits at most. -/
theorem digits_le_twenty (hPos : 0 < n) (hWord : n < 2 ^ 64) : digits n ≤ 20 := by
  rw [digits_eq_log]
  exact Nat.log_lt_of_lt_pow hPos.ne' (hWord.trans (by decide))

theorem marginWidth_eq (lines charWidth : Nat) :
    marginWidth lines charWidth =
      saturate (((Nat.digits 10 (max lines 1)).length + 2) * charWidth) := by
  rw [marginWidth, digits_eq_length (lt_max_of_lt_right Nat.one_pos)]

/-- The width and the height of a menu and the width of a margin are the exact numbers, cut off
once. Those that fit are exact, also where an operand on the way did not fit, and the columns of a
margin, which are added without a cut, fit for every number of lines that is a word. Each of the
three grows with each number that it is computed from, and hangs on no other. -/
theorem sizes_clamp_once (columns lines charWidth : Nat) (view : Viewport) :
    let width := (columns + 10) * view.charWidth
    let height := 10 * view.lineHeight
    let margin := ((Nat.digits 10 (max lines 1)).length + 2) * charWidth
    menuSize columns view = (min (2 ^ 32 - 1) width, min (2 ^ 32 - 1) height) ∧
    marginWidth lines charWidth = min (2 ^ 32 - 1) margin ∧
    (width < 2 ^ 32 → (menuSize columns view).1 = width) ∧
    (height < 2 ^ 32 → (menuSize columns view).2 = height) ∧
    (margin < 2 ^ 32 → marginWidth lines charWidth = margin) ∧
    (lines < 2 ^ 64 → digits (max lines 1) + 2 ≤ 22) ∧
    (∀ more wider, columns ≤ more → view.charWidth ≤ wider.charWidth →
      (menuSize columns view).1 ≤ (menuSize more wider).1) ∧
    (∀ more higher, view.lineHeight ≤ higher.lineHeight →
      (menuSize columns view).2 ≤ (menuSize more higher).2) ∧
    ∀ more wider, lines ≤ more → charWidth ≤ wider →
      marginWidth lines charWidth ≤ marginWidth more wider := by
  intro width height margin
  have hCut (n : Nat) : saturate n = min (2 ^ 32 - 1) n := min_comm n maxSize
  have hFits {n : Nat} (hWord : n < 2 ^ 32) : saturate n = n :=
    saturate_of_le (Nat.le_of_lt_succ hWord)
  refine ⟨?_, ?_, ?_, ?_, ?_, ?_, ?_, ?_, ?_⟩
  · rw [menuSize_eq, hCut, hCut]
    rfl
  · rw [marginWidth_eq, hCut]
  · intro hWidth
    rw [menuSize_eq]
    exact hFits hWidth
  · intro hHeight
    rw [menuSize_eq]
    exact hFits hHeight
  · intro hMargin
    rw [marginWidth_eq]
    exact hFits hMargin
  · intro hLines
    have hWord : max lines 1 < 2 ^ 64 := max_lt hLines (by decide)
    exact Nat.add_le_add_right (digits_le_twenty (lt_max_of_lt_right Nat.one_pos) hWord) 2
  · intro more wider hColumns hChar
    rw [menuSize_eq, menuSize_eq]
    exact saturate_mono (Nat.mul_le_mul (Nat.add_le_add_right hColumns _) hChar)
  · intro more higher hLine
    rw [menuSize_eq, menuSize_eq]
    exact saturate_mono (Nat.mul_le_mul_left _ hLine)
  · intro more wider hLines hChar
    have hDigits : digits (max lines 1) ≤ digits (max more 1) :=
      digits_mono (max_le_max_right 1 hLines)
    exact saturate_mono (Nat.mul_le_mul (Nat.add_le_add_right hDigits 2) hChar)

/-- Columns far beyond the largest size and characters without width, a number of lines with twenty
digits, and a step over the largest size. -/
theorem sizes_clamp_once_beyond_largest :
    let flat : Viewport := ⟨0, 2 ^ 28, 0, 0⟩
    let wide : Viewport := ⟨2, 2 ^ 29, 0, 0⟩
    menuSize (2 ^ 64 - 1) flat = (0, 10 * 2 ^ 28) ∧
      marginWidth (2 ^ 64 - 1) 3 = 66 ∧ digits (max (2 ^ 64 - 1) 1) + 2 ≤ 22 ∧
      (menuSize 5 flat).1 ≤ (menuSize 7 wide).1 ∧ (menuSize 5 flat).2 ≤ (menuSize 7 wide).2 ∧
      marginWidth 9 (2 ^ 31) ≤ marginWidth 10 (2 ^ 32 - 1) := by
  intro flat wide
  have hDigits : (Nat.digits 10 (max (2 ^ 64 - 1) 1)).length = 20 := by simp
  obtain ⟨-, -, hWidth, hHeight, hMargin, hColumns, -, -, -⟩ :=
    sizes_clamp_once (2 ^ 64 - 1) (2 ^ 64 - 1) 3 flat
  obtain ⟨-, -, -, -, -, -, hWider, hHigher, hMore⟩ := sizes_clamp_once 5 9 (2 ^ 31) flat
  rw [hDigits] at hMargin
  have hSize : menuSize (2 ^ 64 - 1) flat = (0, 10 * 2 ^ 28) :=
    Prod.ext (hWidth (by decide)) (hHeight (by decide))
  exact ⟨hSize, hMargin (by decide), hColumns (by decide),
    hWider 7 wide (by decide) (by decide), hHigher 7 wide (by decide),
    hMore 10 (2 ^ 32 - 1) (by decide) (by decide)⟩

end EditAssist.Geometry
