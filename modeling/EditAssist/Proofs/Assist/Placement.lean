import Mathlib.Algebra.Order.Ring.Abs
import Mathlib.Data.Int.ModEq
import EditAssist.Assist.Geometry

/-! Places computed in signed words that wrap. Taking an integer as a word respects sums,
differences and products, so what was lost by a wrap on the way comes back modulo `2 ^ 64`: a
coordinate that fits a word is exact, whatever its steps did. -/
namespace EditAssist

/-- A coordinate as it is computed, from numbers that are given. -/
inductive Coordinate
  | given (n : Nat)
  | plus (left right : Coordinate)
  | minus (left right : Coordinate)
  | times (left right : Coordinate)

namespace Coordinate

/-- The coordinate in signed words that wrap. -/
def wrapped : Coordinate → Int64
  | given n => Int64.ofNat n
  | plus left right => left.wrapped + right.wrapped
  | minus left right => left.wrapped - right.wrapped
  | times left right => left.wrapped * right.wrapped

/-- The coordinate over the integers. -/
def exact : Coordinate → Int
  | given n => n
  | plus left right => left.exact + right.exact
  | minus left right => left.exact - right.exact
  | times left right => left.exact * right.exact

/-- All steps of the computation, the last one first. -/
def steps : Coordinate → List Coordinate
  | given n => [given n]
  | plus left right => plus left right :: (left.steps ++ right.steps)
  | minus left right => minus left right :: (left.steps ++ right.steps)
  | times left right => times left right :: (left.steps ++ right.steps)

/-- An integer is a signed word. -/
def FitsWord (value : Int) : Prop :=
  -2 ^ 63 ≤ value ∧ value < 2 ^ 63

theorem wrapped_eq (coordinate : Coordinate) :
    coordinate.wrapped = Int64.ofInt coordinate.exact := by
  induction coordinate with
  | given n => rfl
  | plus left right ihLeft ihRight => rw [wrapped, exact, ihLeft, ihRight, Int64.ofInt_add]
  | minus left right ihLeft ihRight => rw [wrapped, exact, ihLeft, ihRight, Int64.ofInt_sub]
  | times left right ihLeft ihRight => rw [wrapped, exact, ihLeft, ihRight, Int64.ofInt_mul]

theorem wrapped_modEq (coordinate : Coordinate) :
    coordinate.wrapped.toInt ≡ coordinate.exact [ZMOD 2 ^ 64] := by
  rw [wrapped_eq, Int64.toInt_ofInt]
  exact Int.bmod_emod

/-- A step is exact if its result fits, also where the steps before it are not. -/
theorem wrapped_of_fitsWord {coordinate : Coordinate} (hFits : FitsWord coordinate.exact) :
    coordinate.wrapped.toInt = coordinate.exact := by
  rw [wrapped_eq, Int64.toInt_ofInt_of_le hFits.1 hFits.2]

end Coordinate

namespace Anchor

open Coordinate

/-- The steps to the left edge of an overlay: the columns in front of it go behind the margin. -/
def across (anchor : Anchor) (view : Viewport) : Coordinate :=
  .plus (.given view.gutterWidth) (.times (.given anchor.column) (.given view.charWidth))

/-- The steps to the upper edge of an overlay: it hangs below its line. -/
def down (anchor : Anchor) (view : Viewport) : Coordinate :=
  .times (.minus (.plus (.given anchor.line) (.given 1)) (.given view.firstLine))
    (.given view.lineHeight)

theorem pixel_eq (anchor : Anchor) (view : Viewport) :
    anchor.pixel view = ⟨(anchor.across view).wrapped, (anchor.down view).wrapped⟩ :=
  rfl

section Small

variable {anchor : Anchor} {view : Viewport} {step : Coordinate}

theorem fitsWord_across (hColumn : anchor.column < 2 ^ 31) (hGutter : view.gutterWidth < 2 ^ 32)
    (hChar : view.charWidth < 2 ^ 32) (hStep : step ∈ (anchor.across view).steps) :
    FitsWord step.exact := by
  have hProduct : anchor.column * view.charWidth ≤ (2 ^ 31 - 1) * (2 ^ 32 - 1) :=
    Nat.mul_le_mul (Nat.le_of_lt_succ hColumn) (Nat.le_of_lt_succ hChar)
  simp only [across, steps, List.cons_append, List.nil_append, List.mem_cons, List.not_mem_nil,
    or_false] at hStep
  rcases hStep with rfl | rfl | rfl | rfl | rfl <;> simp only [exact, FitsWord] <;> omega

theorem fitsWord_down (hLine : anchor.line < 2 ^ 31) (hFirst : view.firstLine < 2 ^ 31)
    (hHeight : view.lineHeight < 2 ^ 32) (hStep : step ∈ (anchor.down view).steps) :
    FitsWord step.exact := by
  -- rows count below zero above the first line on screen, so the product has a bound on both sides
  have hRows : |(anchor.line + 1 - view.firstLine : Int)| ≤ 2 ^ 31 := abs_le.mpr (by omega)
  have hSize : |(view.lineHeight : Int)| ≤ 2 ^ 32 - 1 := abs_le.mpr (by omega)
  have hProduct : |(anchor.line + 1 - view.firstLine : Int) * view.lineHeight| ≤
      2 ^ 31 * (2 ^ 32 - 1) := by
    rw [abs_mul]
    exact mul_le_mul hRows hSize (abs_nonneg _) (by decide)
  obtain ⟨hLow, hHigh⟩ := abs_le.mp hProduct
  simp only [down, steps, List.cons_append, List.nil_append, List.mem_cons, List.not_mem_nil,
    or_false] at hStep
  rcases hStep with rfl | rfl | rfl | rfl | rfl | rfl | rfl <;>
    simp only [exact, FitsWord, Nat.cast_one] <;> omega

end Small

/-- An overlay is drawn at the place that its text position has over the integers, modulo `2 ^ 64`,
and at this very place where it fits a word. Lines and offsets too large for a signed word and steps
that wrap do no harm to a result that fits. Below `2 ^ 31`, with sizes below `2 ^ 32`, no step
wraps at all. -/
theorem pixel_exact (anchor : Anchor) (view : Viewport) :
    let x : Int := view.gutterWidth + anchor.column * view.charWidth
    let y : Int := (anchor.line + 1 - view.firstLine) * view.lineHeight
    let point := anchor.pixel view
    point.x.toInt ≡ x [ZMOD 2 ^ 64] ∧ point.y.toInt ≡ y [ZMOD 2 ^ 64] ∧
    (FitsWord x → point.x.toInt = x) ∧ (FitsWord y → point.y.toInt = y) ∧
    point = ⟨(anchor.across view).wrapped, (anchor.down view).wrapped⟩ ∧
    (anchor.line < 2 ^ 31 → anchor.column < 2 ^ 31 → view.firstLine < 2 ^ 31 →
      view.charWidth < 2 ^ 32 → view.lineHeight < 2 ^ 32 → view.gutterWidth < 2 ^ 32 →
      ∀ step ∈ (anchor.across view).steps ++ (anchor.down view).steps,
        FitsWord step.exact ∧ step.wrapped.toInt = step.exact) := by
  intro x y point
  have hAcross : (anchor.across view).exact = x := rfl
  have hDown : (anchor.down view).exact = y := rfl
  refine ⟨?_, ?_, ?_, ?_, anchor.pixel_eq view, ?_⟩
  · exact hAcross ▸ wrapped_modEq (anchor.across view)
  · exact hDown ▸ wrapped_modEq (anchor.down view)
  · exact fun hFits => @wrapped_of_fitsWord (anchor.across view) hFits
  · exact fun hFits => @wrapped_of_fitsWord (anchor.down view) hFits
  · intro hLine hColumn hFirst hChar hHeight hGutter step hStep
    have hFits : FitsWord step.exact := by
      rcases List.mem_append.mp hStep with hStep | hStep
      · exact fitsWord_across hColumn hGutter hChar hStep
      · exact fitsWord_down hLine hFirst hHeight hStep
    exact ⟨hFits, wrapped_of_fitsWord hFits⟩

/-- A line that is the largest signed word: one more wraps, and so does the way back to the first
line on screen. A column that turns negative, in characters without width. And the largest numbers
at which nothing wraps. -/
theorem pixel_exact_around_signed_words :
    let view : Viewport := ⟨0, 16, 40, 2 ^ 63 - 3⟩
    let far : Anchor := ⟨2 ^ 63 - 1, 2 ^ 64 - 1⟩
    let coarse : Viewport := ⟨2 ^ 32 - 1, 2 ^ 32 - 1, 2 ^ 32 - 1, 0⟩
    let near : Anchor := ⟨2 ^ 31 - 1, 2 ^ 31 - 1⟩
    (far.pixel view).x.toInt = 40 ∧ (far.pixel view).y.toInt = 48 ∧
      ∀ step ∈ (near.across coarse).steps ++ (near.down coarse).steps,
        FitsWord step.exact ∧ step.wrapped.toInt = step.exact := by
  intro view far coarse near
  have hLeft : (view.gutterWidth + far.column * view.charWidth : Int) = 40 := by decide
  have hUpper : ((far.line + 1 - view.firstLine) * view.lineHeight : Int) = 48 := by decide
  obtain ⟨-, -, hX, hY, -, -⟩ := pixel_exact far view
  obtain ⟨-, -, -, -, -, hSteps⟩ := pixel_exact near coarse
  rw [hLeft] at hX
  rw [hUpper] at hY
  exact ⟨hX ⟨by decide, by decide⟩, hY ⟨by decide, by decide⟩,
    hSteps (by decide) (by decide) (by decide) (by decide) (by decide) (by decide)⟩

end Anchor

end EditAssist
