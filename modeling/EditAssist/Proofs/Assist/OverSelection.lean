import Mathlib
import EditAssist.Proofs.Assist.Cancelling
import EditAssist.Proofs.Assist.SideBySide
import EditAssist.Proofs.Document.Positions

/-! Triggers that are typed over a selection. Whether a menu may open is read off the text as it
stands before the selection is deleted, but at the start of the selection alone: the text before it,
without carriage returns that end the line, and a quote right behind it. If deleting the selection
leaves both as they were, `press_trigger_over_selection` says that it makes no difference whether
that is done first. If a quote comes or goes, it may: the string that starts there is opened. -/
namespace EditAssist

open Text

namespace Text.LineCut

variable {text above row below : List Char} {offset : Nat} {c : Char}

/-- The character at the offset, if it is on the line. -/
theorem getElem?_row (h : LineCut text offset above row below) (hChar : c ≠ '\n') :
    row[offset - above.length]? = some c ↔ text[offset]? = some c := by
  rw [← List.head?_drop, ← List.head?_drop, h.drop_eq]
  cases row.drop (offset - above.length) with
  | cons first rest => rfl
  | nil =>
      rcases h.below_start with rfl | ⟨rest, rfl⟩
      · rfl
      · constructor
        · intro hNone
          cases hNone
        · intro hFeed
          exact absurd (Option.some.inj hFeed).symm hChar

/-- What stands before an offset keeps its place on the line if other text follows. -/
theorem rejoin (h : LineCut text offset above row below) (rest : List Char) :
    ∃ next under, LineCut (text.take offset ++ rest) offset above
      (row.take (offset - above.length) ++ next) under := by
  have hCut := h.lead.lineCut rest
  rw [List.length_take_of_le h.le_length] at hCut
  exact ⟨_, _, hCut⟩

/-- Carriage returns that end the line are not part of its text, and any other character is. -/
theorem getElem?_shown (h : LineCut text offset above row below) (hFeed : c ≠ '\n')
    (hReturn : c ≠ '\r') :
    (dropTail (· == '\r') row)[offset - above.length]? = some c ↔ text[offset]? = some c := by
  rw [← h.getElem?_row hFeed]
  obtain ⟨returns, hRow, hReturns⟩ := exists_dropTail_append (· == '\r') row
  generalize dropTail (· == '\r') row = shown at hRow
  rw [hRow, List.getElem?_append]
  split
  · rfl
  next hPast =>
    have hNone : shown[offset - above.length]? = none := List.getElem?_eq_none (Nat.not_lt.mp hPast)
    rw [hNone]
    constructor
    · intro hSome
      cases hSome
    · intro hSome
      exact absurd (beq_iff_eq.mp (hReturns c (List.mem_of_getElem? hSome))) hReturn

/-- Behind the returns that end a line, nothing more of it is shown. -/
theorem take_shown_behindReturn (h : LineCut text offset above row below)
    (hBehind : BehindReturn text offset) :
    (dropTail (· == '\r') row).take (offset - above.length) =
      dropTail (· == '\r') (row.take (offset - above.length)) := by
  have hNone : (row.drop (offset - above.length)).dropWhile (· == '\r') = [] := by
    cases hLeft : (row.drop (offset - above.length)).dropWhile (· == '\r') with
    | nil => rfl
    | cons c rest =>
        have hFeed : c = '\n' := hBehind.2 c (by rw [h.drop_eq, List.dropWhile_append, hLeft]; simp)
        have hMem : c ∈ row := List.mem_of_mem_drop
          ((List.dropWhile_suffix _).subset (hLeft ▸ List.mem_cons_self))
        exact absurd (hFeed ▸ hMem) h.row_clear
  have hReturns : ∀ c ∈ row.drop (offset - above.length), (c == '\r') = true := by
    rw [← List.takeWhile_append_dropWhile (p := (· == '\r')) (l := row.drop _), hNone,
      List.append_nil]
    exact List.all_eq_true.mp List.all_takeWhile
  have hRow := dropTail_append hReturns (row.take (offset - above.length))
  rw [List.take_append_drop] at hRow
  rw [hRow, List.take_of_length_le]
  exact Nat.le_trans (prefix_dropTail _ _).length_le (List.length_take_le _ _)

/-- Lines that start alike show the same up to the offset, if returns before it end both or
neither. -/
theorem take_shown_congr {text' row' below' : List Char} (h : LineCut text offset above row below)
    (hOther : LineCut text' offset above row' below')
    (hFront : row'.take (offset - above.length) = row.take (offset - above.length))
    (hReturns : BehindReturn text' offset ↔ BehindReturn text offset) :
    (dropTail (· == '\r') row').take (offset - above.length) =
      (dropTail (· == '\r') row).take (offset - above.length) := by
  by_cases hBehind : BehindReturn text offset
  · rw [h.take_shown_behindReturn hBehind, hOther.take_shown_behindReturn (hReturns.mpr hBehind),
      hFront]
  · rw [h.take_shown hBehind, hOther.take_shown (mt hReturns.mp hBehind), hFront]

end Text.LineCut

/-- Whether a string is open at a character is up to the quotes before it and to itself. -/
theorem Context.inString_congr {text other : List Char} {column : Nat}
    (hFront : other.take column = text.take column)
    (hQuote : other[column]? = some '"' ↔ text[column]? = some '"') :
    inString (other.take (column + 1)) = inString (text.take (column + 1)) := by
  have hCount (found : Option Char) :
      found.toList.count '"' = if found = some '"' then 1 else 0 := by
    cases found with
    | none => rfl
    | some c => simp [List.count_singleton]
  rw [inString, inString, List.take_add_one, List.take_add_one, List.count_append,
    List.count_append, hCount, hCount, hFront]
  simp only [hQuote]

namespace Document

variable {document deleted : Document}

/-- What stands before the selection is not touched by what is typed over it. -/
theorem Typed.take_start {text : List Char} (h : Typed text document deleted)
    (hBounds : document.InBounds) :
    deleted.text.take document.selection.start = document.text.take document.selection.start := by
  rw [h.text_eq, List.append_assoc,
    List.take_left' (List.length_take_of_le (Selection.Within.start hBounds))]

/-- What stands behind the selection comes to stand at its start when it is deleted. -/
theorem Typed.getElem?_start (h : Typed [] document deleted) (hBounds : document.InBounds) :
    deleted.text[document.selection.start]? = document.text[document.selection.stop]? := by
  have hTake := List.length_take_of_le (Selection.Within.start hBounds)
  rw [h.text_eq, List.append_nil, List.getElem?_append_right (Nat.le_of_eq hTake), hTake,
    Nat.sub_self, List.getElem?_drop, Nat.add_zero]

/-- Deleting the selection neither brings a quote to its start nor takes one away from there, and
carriage returns before it end their line afterwards if they did before. -/
structure Seamless (document : Document) : Prop where
  quote : document.charAt? document.selection.stop = some '"' ↔
    document.charAt? document.selection.start = some '"'
  returns : BehindReturn (document.text.take document.selection.start ++
      document.text.drop document.selection.stop) document.selection.start ↔
    BehindReturn document.text document.selection.start

/-- The line of the start of the selection, before and after the selection is deleted: the same
stands above it and in front of that place, and a menu is suppressed alike. -/
theorem Seamless.exists_lineCuts (h : document.Seamless) (hBounds : document.InBounds)
    (hDeleted : Typed [] document deleted) :
    ∃ above row below other under,
      LineCut document.text document.selection.start above row below ∧
      LineCut deleted.text document.selection.start above other under ∧
      let column := document.selection.start - above.length
      (dropTail (· == '\r') other).take column = (dropTail (· == '\r') row).take column ∧
      ∀ before, Context.suppressesMenu before (dropTail (· == '\r') other) column =
        Context.suppressesMenu before (dropTail (· == '\r') row) column := by
  obtain ⟨above, row, below, hCut⟩ := exists_lineCut (Selection.Within.start hBounds)
  obtain ⟨next, under, hOther⟩ := hCut.rejoin (document.text.drop document.selection.stop)
  have hText : deleted.text = document.text.take document.selection.start ++
      document.text.drop document.selection.stop := by rw [hDeleted.text_eq, List.append_nil]
  have hReturns := h.returns
  rw [← hText] at hOther hReturns
  have hFront := hCut.take_shown_congr hOther
    (List.take_left' (List.length_take_of_le hCut.column_le)) hReturns
  refine ⟨above, row, below, _, under, hCut, hOther, hFront, fun before => ?_⟩
  rw [Context.suppressesMenu, Context.suppressesMenu, hFront, Context.inString_congr hFront]
  rw [hOther.getElem?_shown (by decide) (by decide), hDeleted.getElem?_start hBounds,
    hCut.getElem?_shown (by decide) (by decide)]
  exact h.quote

end Document

/-- One workspace is the other once the selected text is deleted. -/
structure Workspace.Emptied (left right : Workspace) : Prop extends Quiet left right where
  inBounds : left.document.InBounds
  document : Document.Typed [] left.document right.document

/-- The two show the same, have asked the same and hold the same text with the same selection. -/
structure Workspace.SameSight (left right : Workspace) : Prop extends Quiet left right where
  text : right.document.text = left.document.text
  selection : right.document.selection = left.document.selection

namespace Assisting

open Document (Typed)
open Workspace (Emptied SameSight)

variable {left right : Workspace}

/-- A menu is found in both workspaces or in neither, and if one is found, the selected text is
gone from both. -/
theorem findMenu_emptied (h : left.Emptied right) (hSeamless : left.document.Seamless)
    (hDelete : left.document.deleteSelection = .ok right.document) (source : SymbolSource)
    (trigger : Trigger) :
    Agree (findMenu source trigger) (findMenu source trigger) left right fun found left right =>
      left.Emptied right ∧ (found ≠ none → right.document = left.document) := by
  have hStart := Selection.Within.start h.inBounds
  have hPlace : right.document.selection.start = left.document.selection.start := by
    rw [h.document.selection_eq, Selection.start_caret, List.length_nil, Nat.add_zero]
  have hAgain : right.document.deleteSelection = .ok right.document := by
    rw [Document.deleteSelection, if_pos h.document.isEmpty_selection]
  obtain ⟨above, row, below, other, under, hCut, hOther, hFront, hSuppress⟩ :=
    hSeamless.exists_lineCuts h.inBounds h.document
  have hSlice : right.document.slice ⟨0, left.document.selection.start⟩ =
      .ok ((left.document.text.take left.document.selection.start).drop 0) := by
    rw [← h.document.take_start h.inBounds]
    exact Document.slice_of_le (Nat.zero_le _) hOther.le_length
  simp only [findMenu]
  apply agree_document
  rw [hPlace]
  refine agree_ask (Document.slice_of_le (Nat.zero_le _) hStart) hSlice ?_
  refine agree_ask (Document.positionAt_eq hCut) (Document.positionAt_eq hOther) ?_
  refine agree_ask (Document.lineText_eq hCut) (Document.lineText_eq hOther) ?_
  dsimp only
  rw [hSuppress, hFront]
  split
  · exact agree_pure ⟨h, fun hNone => absurd rfl hNone⟩
  refine agree_act hDelete hAgain ?_
  refine agree_lookUp ⟨h.assistant, h.lookups⟩ fun lookups => ?_
  refine agree_assistant ⟨h.assistant, rfl⟩ ?_
  have hGone : Typed [] right.document right.document := .refl h.document.isEmpty_selection
  split
  · exact agree_pure ⟨⟨⟨h.assistant, rfl⟩, h.document.inBounds h.inBounds, hGone⟩, fun _ => rfl⟩
  · exact agree_pure ⟨⟨⟨h.assistant, rfl⟩, h.document.inBounds h.inBounds, hGone⟩, fun _ => rfl⟩

theorem openMenu_emptied (h : left.Emptied right) (hSeamless : left.document.Seamless)
    (hDelete : left.document.deleteSelection = .ok right.document) (source : SymbolSource)
    (trigger : Trigger) :
    Agree (openMenu source trigger) (openMenu source trigger) left right fun _ => SameSight := by
  have hShown : (left.showing .hidden).Emptied (right.showing .hidden) :=
    ⟨⟨congrArg Assistant.hide h.assistant, h.lookups⟩, h.inBounds, h.document⟩
  simp only [openMenu]
  apply Agree.bind
  apply agree_setOverlay
  apply Agree.bind
  apply (findMenu_emptied hShown hSeamless hDelete source trigger).mono
  rintro found left right ⟨h, hSame⟩
  cases found with
  | some menu =>
      have hDocument := hSame (Option.some_ne_none menu)
      apply agree_setOverlay
      refine ⟨⟨?_, h.lookups⟩, congrArg (·.text) hDocument, congrArg (·.selection) hDocument⟩
      rw [Workspace.showing, h.assistant, Workspace.showing]
  | none =>
      -- the trigger is typed: over the selection, or where it was
      obtain ⟨leftAfter, hFirst, hTyped, -⟩ := Document.exists_typed [trigger.char] h.inBounds
      obtain ⟨rightAfter, hSecond, hBehind, -⟩ :=
        Document.exists_typed [trigger.char] (h.document.inBounds h.inBounds)
      have hBoth : Typed [trigger.char] left.document rightAfter :=
        h.document.trans h.inBounds hBehind
      apply agree_edit
      refine ⟨(), leftAfter, rightAfter, Editing.run_act_of_ok hFirst,
        Editing.run_act_of_ok hSecond, ⟨h.assistant, h.lookups⟩, ?_, ?_⟩
      · rw [hBoth.text_eq, hTyped.text_eq]
      · rw [hBoth.selection_eq, hTyped.selection_eq]

/-- Typing a trigger over a selection is deleting the selection and then typing the trigger, if
that is seamless: the text, the selection, what is shown and what is asked are the same. -/
theorem press_trigger_over_selection (source : SymbolSource) {trigger : Trigger}
    {workspace : Workspace} (hBounds : workspace.document.InBounds)
    (hNone : workspace.assistant.overlay.menu? = none)
    (hOpens : workspace.assistant.opensMenu trigger = true)
    (hSeamless : workspace.document.Seamless) :
    ∃ deleted outcome after afterwards,
      workspace.document.deleteSelection = .ok deleted ∧
      (press source (.char trigger.char)).run workspace = (.ok outcome, after) ∧
      (press source (.char trigger.char)).run { workspace with document := deleted } =
        (.ok outcome, afterwards) ∧
      afterwards.document.text = after.document.text ∧
      afterwards.document.selection = after.document.selection ∧
      afterwards.assistant = after.assistant ∧ afterwards.lookups = after.lookups := by
  obtain ⟨deleted, hDelete, hTyped, -⟩ := Document.exists_deleted hBounds
  have hEmptied : workspace.Emptied { workspace with document := deleted } :=
    ⟨⟨rfl, rfl⟩, hBounds, hTyped⟩
  have hAgree : Agree (openMenu source trigger >>= fun _ => pure Outcome.handled)
      (openMenu source trigger >>= fun _ => pure Outcome.handled) workspace
      { workspace with document := deleted } fun _ => SameSight := by
    apply Agree.bind
    apply (openMenu_emptied hEmptied hSeamless hDelete source trigger).mono
    exact fun _ _ _ hSight => agree_pure hSight
  obtain ⟨outcome, after, afterwards, hFirst, hSecond, hSight⟩ := hAgree
  have hAgain := @press_trigger { workspace with document := deleted } source trigger hNone hOpens
  exact ⟨deleted, outcome, after, afterwards, hDelete,
    (press_trigger source trigger hNone hOpens).trans hFirst, hAgain.trans hSecond,
    hSight.text, hSight.selection, hSight.assistant, hSight.lookups⟩

/-- One string is selected up to the quote that ends it, which comes to stand in its place. -/
theorem press_trigger_over_string :
    let source : SymbolSource := fun _ => [['f', '\t', 'P', 'U', 'B', ' ', 'g', 'o']]
    let workspace : Workspace :=
      ⟨.ofText ['i', '"', 'b', '"', 'c'] ⟨3, 1⟩, .ofFile [] (some .spin) {}, []⟩
    workspace.document.InBounds ∧ workspace.assistant.overlay.menu? = none ∧
      workspace.assistant.opensMenu .dot = true ∧ workspace.document.Seamless ∧
      ∃ deleted outcome after afterwards,
        workspace.document.deleteSelection = .ok deleted ∧
        (press source (.char '.')).run workspace = (.ok outcome, after) ∧
        (press source (.char '.')).run { workspace with document := deleted } =
          (.ok outcome, afterwards) ∧
        afterwards.document.text = after.document.text ∧
        afterwards.document.selection = after.document.selection ∧
        afterwards.assistant = after.assistant ∧ afterwards.lookups = after.lookups := by
  intro source workspace
  have hBounds : workspace.document.InBounds := Document.inBounds_ofText _ _
  have hNone : workspace.assistant.overlay.menu? = none := rfl
  have hOpens : workspace.assistant.opensMenu .dot = true := rfl
  have hSeamless : workspace.document.Seamless := by
    refine ⟨by decide, ?_⟩
    constructor
    · exact fun hBehind => absurd hBehind.1 (by decide)
    · exact fun hBehind => absurd hBehind.1 (by decide)
  exact ⟨hBounds, hNone, hOpens, hSeamless,
    @press_trigger_over_selection source .dot workspace hBounds hNone hOpens hSeamless⟩

/-- Where a quote comes to stand at the start of the selection, a menu opens inside the string that
it starts. With the selection deleted beforehand none does. -/
theorem press_trigger_opens_before_quote :
    let source : SymbolSource := fun _ => [['f', '\t', 'P', 'U', 'B', ' ', 'g', 'o']]
    let workspace : Workspace :=
      ⟨.ofText ['i', 'a', 'b', '"', 'c', '"'] ⟨1, 3⟩, .ofFile [] (some .spin) {}, []⟩
    let deleted : Document :=
      { text := ['i', '"', 'c', '"'], selection := .caret 1
        history := [⟨[⟨1, ['a', 'b'], 0⟩], ⟨1, 3⟩⟩] }
    let menu : Menu :=
      ⟨[⟨['.'], .trigger⟩, ⟨['g', 'o'], .publicMethod⟩], 0, .dot, .withTrigger, 2, ⟨0, 1⟩⟩
    workspace.document.deleteSelection = .ok deleted ∧
      ((press source (.char '.')).run workspace).2.assistant.overlay = .menu menu ∧
      ((press source (.char '.')).run { workspace with document := deleted }).2.assistant.overlay =
        .hidden ∧
      ¬ ∀ (source : SymbolSource) (trigger : Trigger) (workspace : Workspace) (deleted : Document),
        workspace.document.InBounds → workspace.document.hasSelection = true →
        workspace.assistant.overlay.menu? = none → workspace.assistant.opensMenu trigger = true →
        workspace.document.deleteSelection = .ok deleted →
        ((press source (.char trigger.char)).run
            { workspace with document := deleted }).2.assistant.overlay =
          ((press source (.char trigger.char)).run workspace).2.assistant.overlay := by
  intro source workspace deleted menu
  have hDelete : workspace.document.deleteSelection = .ok deleted := by cbv
  have hOpened : ((press source (.char '.')).run workspace).2.assistant.overlay = .menu menu := by
    cbv
  have hHidden : ((press source (.char '.')).run
      { workspace with document := deleted }).2.assistant.overlay = .hidden := by cbv
  refine ⟨hDelete, hOpened, hHidden, fun hAll => ?_⟩
  have hSame := hAll source .dot workspace deleted (Document.inBounds_ofText _ _) rfl rfl rfl
    hDelete
  have hDot : Trigger.dot.char = '.' := rfl
  rw [hDot, hOpened, hHidden] at hSame
  cases hSame

end Assisting

end EditAssist
