/-! From text positions to pixels. Sizes are kept in 32-bit words that stay at the largest word
instead of overflowing; coordinates are signed 64-bit words that wrap. -/
namespace EditAssist

structure Viewport where
  charWidth : Nat
  lineHeight : Nat
  gutterWidth : Nat
  firstLine : Nat
  deriving DecidableEq, Repr

/-- The text position that an overlay hangs from. It is drawn just below the line. -/
structure Anchor where
  line : Nat
  column : Nat
  deriving DecidableEq, Repr

structure Pixel where
  x : Int64
  y : Int64
  deriving DecidableEq, Repr

namespace Geometry

/-- Rows that a menu shows before it scrolls. -/
def menuRows : Nat := 10

/-- Columns that a menu has beyond its widest row. -/
def menuPadding : Nat := 10

def maxSize : Nat := Nat.pow 2 32 - 1

/-- A number as a size, or the largest size if it is too large for one. -/
def saturate (n : Nat) : Nat :=
  min n maxSize

/-- Width and height of a menu whose widest row has `columns` characters. -/
def menuSize (columns : Nat) (view : Viewport) : Nat × Nat :=
  (saturate (saturate (saturate columns + menuPadding) * view.charWidth),
   saturate (menuRows * view.lineHeight))

/-- The number of decimal digits of a number, where zero has one. -/
def digits (n : Nat) : Nat :=
  if n < 10 then 1 else digits (n / 10) + 1

/-- Width of a margin with room for the largest line number and two columns more. -/
def marginWidth (lines charWidth : Nat) : Nat :=
  saturate ((digits (max lines 1) + 2) * charWidth)

end Geometry

/-- Where an overlay is drawn. Offsets and lines are taken as signed words first. -/
def Anchor.pixel (anchor : Anchor) (view : Viewport) : Pixel :=
  { x := Int64.ofNat view.gutterWidth + Int64.ofNat anchor.column * Int64.ofNat view.charWidth
    y := (Int64.ofNat anchor.line + 1 - Int64.ofNat view.firstLine) *
      Int64.ofNat view.lineHeight }

end EditAssist
