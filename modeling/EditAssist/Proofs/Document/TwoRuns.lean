import EditAssist.Proofs.Document.Lines
import EditAssist.Proofs.Document.Yields

/-! Two runs side by side. `Agree` says that two runs give the same answer and what holds of the
states that they leave; its rules follow the ways to put runs together. A document is compared with
its top, which ends with a line that is not above the selection: whatever is asked of the text
around a place in the top is answered alike, and edits there keep the one the top of the other. -/
namespace EditAssist

open Text

/-- Both runs give the same answer, and `post` holds of it and of the two states after them. -/
def Agree {σ α : Type} (first second : ExceptT Failure (StateM σ) α) (left right : σ)
    (post : α → σ → σ → Prop) : Prop :=
  ∃ answer leftAfter rightAfter, (ExceptT.run first).run left = (.ok answer, leftAfter) ∧
    (ExceptT.run second).run right = (.ok answer, rightAfter) ∧ post answer leftAfter rightAfter

section Rules

variable {σ α β : Type} {left right leftAfter rightAfter : σ}
  {first second : ExceptT Failure (StateM σ) α} {post weaker : α → σ → σ → Prop}

theorem Agree.mono (hAgree : Agree first second left right post)
    (hPost : ∀ answer left right, post answer left right → weaker answer left right) :
    Agree first second left right weaker := by
  obtain ⟨answer, left, right, hFirst, hSecond, hHolds⟩ := hAgree
  exact ⟨answer, left, right, hFirst, hSecond, hPost answer left right hHolds⟩

theorem agree_pure {answer : α} (hHolds : post answer left right) :
    Agree (pure answer) (pure answer) left right post :=
  ⟨answer, left, right, rfl, rfl, hHolds⟩

/-- Two runs whose answer is known. -/
theorem Agree.of_yields {answer : α} {leftPost rightPost : σ → Prop}
    (hFirst : Yields first left fun given after => given = answer ∧ leftPost after)
    (hSecond : Yields second right fun given after => given = answer ∧ rightPost after)
    (hPost : ∀ left right, leftPost left → rightPost right → post answer left right) :
    Agree first second left right post := by
  obtain ⟨_, left, hFirst, rfl, hLeft⟩ := hFirst
  obtain ⟨_, right, hSecond, rfl, hRight⟩ := hSecond
  exact ⟨_, left, right, hFirst, hSecond, hPost left right hLeft hRight⟩

theorem run_bind_of_run {next : α → ExceptT Failure (StateM σ) β} {answer : α}
    (hFirst : (ExceptT.run first).run left = (.ok answer, leftAfter)) :
    (ExceptT.run (first >>= next)).run left = (ExceptT.run (next answer)).run leftAfter := by
  rw [ExceptT.run_bind, StateT.run_bind, hFirst]
  rfl

variable {next other : α → ExceptT Failure (StateM σ) β} {last : β → σ → σ → Prop}

/-- The first parts may give different answers if the second parts make up for that. -/
theorem agree_bind_of_runs {answer given : α}
    (hFirst : (ExceptT.run first).run left = (.ok answer, leftAfter))
    (hSecond : (ExceptT.run second).run right = (.ok given, rightAfter))
    (hAgree : Agree (next answer) (other given) leftAfter rightAfter last) :
    Agree (first >>= next) (second >>= other) left right last := by
  rw [Agree, run_bind_of_run hFirst, run_bind_of_run hSecond]
  exact hAgree

/-- Runs that agree so far agree to the end if their second parts do. -/
theorem Agree.bind (hAgree : Agree first second left right fun answer left right =>
      Agree (next answer) (other answer) left right last) :
    Agree (first >>= next) (second >>= other) left right last := by
  obtain ⟨answer, left, right, hFirst, hSecond, hNext⟩ := hAgree
  exact agree_bind_of_runs hFirst hSecond hNext

end Rules

namespace Text.LineCut

variable {text above row below : List Char} {offset : Nat}

/-- Further lines below make no difference to a line. -/
theorem append (h : LineCut text offset above row below) {more : List Char}
    (hMore : more = [] ∨ ∃ rest, more = '\n' :: rest) :
    LineCut (text ++ more) offset above row (below ++ more) where
  text_eq := by rw [h.text_eq, List.append_assoc]
  above_end := h.above_end
  row_clear := h.row_clear
  below_start := by
    rcases h.below_start with rfl | ⟨rest, rfl⟩
    · exact hMore
    · exact .inr ⟨rest ++ more, rfl⟩
  start_le := h.start_le
  le_stop := h.le_stop

end Text.LineCut

namespace Document

/-- `top` is the document down to the end of a line that is not above the selection. What can be
undone plays no part. -/
structure IsTop (top document : Document) : Prop where
  text_eq : ∃ below, document.text = top.text ++ below ∧ (below = [] ∨ ∃ rest, below = '\n' :: rest)
  selection_eq : document.selection = top.selection
  inBounds : top.InBounds

namespace IsTop

variable {top document : Document} {offset : Nat}

theorem take_eq (h : top.IsTop document) (hOffset : offset ≤ top.length) :
    document.text.take offset = top.text.take offset := by
  obtain ⟨below, hText, -⟩ := h.text_eq
  rw [hText, List.take_append_of_le_length hOffset]

theorem caret_eq (h : top.IsTop document) : document.caret = top.caret :=
  congrArg Selection.head h.selection_eq

theorem hasSelection_eq (h : top.IsTop document) : document.hasSelection = top.hasSelection := by
  rw [hasSelection, hasSelection, h.selection_eq]

theorem length_le (h : top.IsTop document) : top.length ≤ document.length := by
  obtain ⟨below, hText, -⟩ := h.text_eq
  rw [length, length, hText, List.length_append]
  exact Nat.le_add_right _ _

theorem inBounds_document (h : top.IsTop document) : document.InBounds := by
  rw [InBounds, h.selection_eq]
  exact ⟨Nat.le_trans h.inBounds.anchor h.length_le, Nat.le_trans h.inBounds.head h.length_le⟩

/-- The line around a place in the top is a line of the document. -/
theorem exists_lineCut (h : top.IsTop document) (hOffset : offset ≤ top.length) :
    ∃ above row below rest, LineCut top.text offset above row below ∧
      LineCut document.text offset above row rest := by
  obtain ⟨above, row, below, hCut⟩ := Text.exists_lineCut hOffset
  obtain ⟨more, hText, hMore⟩ := h.text_eq
  exact ⟨above, row, below, below ++ more, hCut, hText ▸ hCut.append hMore⟩

theorem slice_eq (h : top.IsTop document) {start : Nat} (hStart : start ≤ offset)
    (hOffset : offset ≤ top.length) :
    document.slice ⟨start, offset⟩ = .ok ((top.text.take offset).drop start) := by
  rw [slice_of_le hStart (Nat.le_trans hOffset h.length_le), h.take_eq hOffset]

theorem wordStart_eq (h : top.IsTop document) (hOffset : offset ≤ top.length) :
    document.wordStart offset = top.wordStart offset := by
  rw [wordStart, wordStart, if_pos hOffset, if_pos (Nat.le_trans hOffset h.length_le),
    h.take_eq hOffset]

/-- No word goes on behind the end of the top, since a line feed is in no word. -/
theorem wordStop_eq (h : top.IsTop document) (hOffset : offset ≤ top.length) :
    document.wordStop offset = top.wordStop offset := by
  obtain ⟨below, hText, hBelow⟩ := h.text_eq
  have hNone : below.takeWhile isWordChar = [] := by
    rcases hBelow with rfl | ⟨rest, rfl⟩
    · rfl
    · exact List.takeWhile_cons_of_neg (by decide)
  rw [wordStop, wordStop, hText, List.drop_append_of_le_length hOffset, List.takeWhile_append,
    hNone, List.append_nil]
  split
  next hAll => rw [List.takeWhile_prefix _ |>.eq_of_length hAll]
  next => rfl

/-- What is put in the place of the same selection leaves one the top of the other. -/
theorem replaced {topAfter documentAfter : Document} {text : List Char} (h : top.IsTop document)
    (hTop : topAfter.text =
      top.text.take top.selection.start ++ text ++ top.text.drop top.selection.stop)
    (hDocument : documentAfter.text = document.text.take document.selection.start ++ text ++
      document.text.drop document.selection.stop)
    (hSelection : documentAfter.selection = topAfter.selection) (hBounds : topAfter.InBounds) :
    topAfter.IsTop documentAfter where
  text_eq := by
    obtain ⟨below, hText, hBelow⟩ := h.text_eq
    refine ⟨below, ?_, hBelow⟩
    rw [hDocument, h.selection_eq, h.take_eq (Selection.Within.start h.inBounds), hTop, hText,
      List.drop_append_of_le_length (Selection.Within.stop h.inBounds)]
    simp only [List.append_assoc]
  selection_eq := hSelection
  inBounds := hBounds

theorem typed {topAfter documentAfter : Document} {text : List Char} (h : top.IsTop document)
    (hTop : Typed text top topAfter) (hDocument : Typed text document documentAfter) :
    topAfter.IsTop documentAfter := by
  apply h.replaced hTop.text_eq hDocument.text_eq _ (hTop.inBounds h.inBounds)
  rw [hDocument.selection_eq, hTop.selection_eq, h.selection_eq]

end IsTop

end Document

end EditAssist
