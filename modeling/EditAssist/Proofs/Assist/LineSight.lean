import EditAssist.Proofs.Assist.Pressing
import EditAssist.Proofs.Assist.SideBySide

/-! How far down the assistant looks. What stands below the line of the caret has no part in what a
character brings: `press_char_blind_below` compares a session in two documents that have their
lines down to that of the caret in common. The two are followed side by side from question to
question, also where a menu puts its trigger back before the character is looked at. -/
namespace EditAssist

namespace Editing

variable {top document : Document}

theorem insert_agrees (h : top.IsTop document) (text : List Char) :
    Agree (act (·.insert text)) (act (·.insert text)) top document fun _ => Document.IsTop := by
  obtain ⟨topAfter, hTop, hTopTyped, -⟩ := Document.exists_typed text h.inBounds
  obtain ⟨after, hInsert, hTyped, -⟩ := Document.exists_typed text h.inBounds_document
  exact ⟨(), topAfter, after, run_act_of_ok hTop, run_act_of_ok hInsert, h.typed hTopTyped hTyped⟩

/-- A row of a menu is inserted alike, and the same is selected of it. -/
theorem acceptMenu_agrees (h : top.IsTop document) (menu : Menu) (index : Nat) :
    Agree (acceptMenu menu index) (acceptMenu menu index) top document fun _ =>
      Document.IsTop := by
  cases hText : menu.insertion? index with
  | none =>
      simp only [acceptMenu, hText]
      exact agree_pure h
  | some text =>
      apply Agree.of_yields (acceptMenu_places h.inBounds hText)
        (acceptMenu_places h.inBounds_document hText)
      intro topAfter after hTop hPlaced
      apply h.replaced hTop.text_eq hPlaced.text_eq _ hTop.edited.inBounds
      rw [hPlaced.selection_eq, hTop.selection_eq, h.selection_eq]

end Editing

/-- The workspaces differ at most in what stands below the top of the document and in what can be
undone. -/
structure Workspace.IsTop (top full : Workspace) : Prop extends Quiet top full where
  document : top.document.IsTop full.document

theorem Workspace.IsTop.showing {top full : Workspace} (h : top.IsTop full) (overlay : Overlay) :
    (top.showing overlay).IsTop (full.showing overlay) where
  assistant := by rw [Workspace.showing, h.assistant, Workspace.showing]
  lookups := h.lookups
  document := h.document

theorem Workspace.IsTop.edited {top full : Workspace} (h : top.IsTop full)
    {topAfter fullAfter : Document} (hAfter : topAfter.IsTop fullAfter) :
    ({ top with document := topAfter } : Workspace).IsTop { full with document := fullAfter } :=
  ⟨⟨h.assistant, h.lookups⟩, hAfter⟩

namespace Assisting

open Workspace (Quiet)

variable {top full : Workspace}

theorem findHints_agrees (h : top.IsTop full) (source : SymbolSource) :
    Agree (findHints source) (findHints source) top full fun _ => Workspace.IsTop := by
  have hCaret : top.document.caret ≤ top.document.length := h.document.inBounds.head
  have hStart := top.document.wordStart_le top.document.caret
  obtain ⟨above, row, below, rest, hCut, hFull⟩ :=
    h.document.exists_lineCut (Nat.le_trans hStart hCaret)
  simp only [findHints]
  apply agree_document
  rw [h.document.hasSelection_eq, h.document.caret_eq, h.document.wordStart_eq hCaret,
    h.document.wordStop_eq hCaret]
  split
  · exact agree_pure h
  split
  · exact agree_pure h
  refine agree_ask (Document.slice_of_le hStart hCaret) (h.document.slice_eq hStart hCaret) ?_
  refine agree_lookUp h.toQuiet fun lookups => ?_
  split
  · exact agree_pure ⟨⟨h.assistant, rfl⟩, h.document⟩
  refine agree_ask (Document.positionAt_eq hCut) (Document.positionAt_eq hFull) ?_
  exact agree_pure ⟨⟨h.assistant, rfl⟩, h.document⟩

theorem refreshHints_agrees (h : top.IsTop full) (source : SymbolSource) :
    Agree (refreshHints source) (refreshHints source) top full fun _ => Workspace.IsTop := by
  simp only [refreshHints]
  apply agree_assistant h.toQuiet
  split
  · exact agree_pure h
  · exact agree_pure h
  apply Agree.bind
  apply (findHints_agrees h source).mono
  intro found top full h
  cases found with
  | some hints => exact agree_setOverlay (h.showing _)
  | none => exact agree_setOverlay (h.showing _)

theorem findMenu_agrees (h : top.IsTop full) (source : SymbolSource) (trigger : Trigger) :
    Agree (findMenu source trigger) (findMenu source trigger) top full fun _ =>
      Workspace.IsTop := by
  have hStart := Selection.Within.start h.document.inBounds
  obtain ⟨above, row, below, rest, hCut, hFull⟩ := h.document.exists_lineCut hStart
  obtain ⟨topAfter, hTop, hTopTyped, -⟩ := Document.exists_deleted h.document.inBounds
  obtain ⟨fullAfter, hDelete, hTyped, -⟩ := Document.exists_deleted h.document.inBounds_document
  simp only [findMenu]
  apply agree_document
  rw [h.document.selection_eq]
  refine agree_ask (Document.slice_of_le (Nat.zero_le _) hStart)
    (h.document.slice_eq (Nat.zero_le _) hStart) ?_
  refine agree_ask (Document.positionAt_eq hCut) (Document.positionAt_eq hFull) ?_
  refine agree_ask (Document.lineText_eq hCut) (Document.lineText_eq hFull) ?_
  split
  · exact agree_pure h
  refine agree_act hTop hDelete ?_
  refine agree_lookUp ⟨h.assistant, h.lookups⟩ fun lookups => ?_
  refine agree_assistant ⟨h.assistant, rfl⟩ ?_
  split
  · exact agree_pure ⟨⟨h.assistant, rfl⟩, h.document.typed hTopTyped hTyped⟩
  · exact agree_pure ⟨⟨h.assistant, rfl⟩, h.document.typed hTopTyped hTyped⟩

theorem openMenu_agrees (h : top.IsTop full) (source : SymbolSource) (trigger : Trigger) :
    Agree (openMenu source trigger) (openMenu source trigger) top full fun _ =>
      Workspace.IsTop := by
  simp only [openMenu]
  apply Agree.bind
  apply agree_setOverlay
  apply Agree.bind
  apply (findMenu_agrees (h.showing .hidden) source trigger).mono
  intro found top full h
  cases found with
  | some menu => exact agree_setOverlay (h.showing _)
  | none => exact agree_edit ((Editing.insert_agrees h.document _).mono fun _ _ _ => h.edited)

theorem typeChar_agrees (h : top.IsTop full) (source : SymbolSource) (c : Char) :
    Agree (typeChar source c) (typeChar source c) top full fun _ => Workspace.IsTop := by
  simp only [typeChar]
  apply Agree.bind
  apply agree_edit
  apply (Editing.insert_agrees h.document [c]).mono
  intro _ topAfter fullAfter hAfter
  apply Agree.bind
  apply (refreshHints_agrees (h.edited hAfter) source).mono
  exact fun _ _ _ h => agree_pure h

theorem typeBrace_agrees (h : top.IsTop full) :
    Agree typeBrace typeBrace top full fun _ => Quiet := by
  have hQuiet {workspace : Workspace} (hBounds : workspace.document.InBounds) :
      Yields typeBrace workspace fun outcome after =>
        outcome = .handled ∧ (workspace.showing .hidden).Quiet after := by
    obtain ⟨outcome, after, hRun, -⟩ := typeBrace_yields hBounds
    exact ⟨outcome, after, hRun, (ends_of_run hRun).mp typeBrace_quiet⟩
  apply Agree.of_yields (hQuiet h.document.inBounds) (hQuiet h.document.inBounds_document)
  intro topAfter fullAfter hTop hFull
  have hShown := h.showing .hidden
  constructor
  · rw [hFull.assistant, hTop.assistant, hShown.assistant]
  · rw [hFull.lookups, hTop.lookups, hShown.lookups]

theorem pressPlain_char_agrees (h : top.IsTop full) (source : SymbolSource) (c : Char) :
    Agree (pressPlain source (.char c)) (pressPlain source (.char c)) top full fun _ => Quiet := by
  rw [pressPlain]
  split
  · exact typeBrace_agrees h
  apply agree_assistant h.toQuiet
  split
  next trigger hTrigger =>
    apply Agree.bind
    apply (openMenu_agrees h source trigger).mono
    exact fun _ _ _ h => agree_pure h.toQuiet
  next => exact (typeChar_agrees h source c).mono fun _ _ _ h => h.toQuiet

theorem acceptMenu_agrees (h : top.IsTop full) (index : Nat) :
    Agree (acceptMenu index) (acceptMenu index) top full fun _ => Workspace.IsTop := by
  have hShown := h.showing .hidden
  simp only [acceptMenu]
  apply agree_assistant h.toQuiet
  apply Agree.bind
  apply agree_setOverlay
  split
  next menu hMenu =>
    apply agree_edit
    exact (Editing.acceptMenu_agrees h.document menu index).mono fun _ _ _ => hShown.edited
  next => exact agree_pure hShown

/-- A menu puts its trigger back before it passes the character on. -/
theorem press_char_agrees (h : top.IsTop full) (source : SymbolSource) (c : Char) :
    Agree (press source (.char c)) (press source (.char c)) top full fun _ => Quiet := by
  simp only [press]
  apply agree_assistant h.toQuiet
  split
  next menu hMenu =>
    simp only [pressInMenu]
    apply Agree.bind
    apply (acceptMenu_agrees h 0).mono
    intro _ top full h
    split
    · exact agree_pure h.toQuiet
    · exact pressPlain_char_agrees h source c
  next => exact pressPlain_char_agrees h source c

/-- Nothing below the line of the caret has a part in what a character brings. In two documents that
agree down to the end of that line, the same assistant answers the same, asks the same and shows the
same, whatever it showed before. -/
theorem press_char_blind_below (source : SymbolSource) (c : Char) {top left right : Document}
    (hLeft : top.IsTop left) (hRight : top.IsTop right) (assistant : Assistant)
    (lookups : List Lookup) :
    ∃ outcome assistantAfter lookupsAfter leftAfter rightAfter,
      (press source (.char c)).run ⟨left, assistant, lookups⟩ =
        (.ok outcome, ⟨leftAfter, assistantAfter, lookupsAfter⟩) ∧
      (press source (.char c)).run ⟨right, assistant, lookups⟩ =
        (.ok outcome, ⟨rightAfter, assistantAfter, lookupsAfter⟩) := by
  let alone : Workspace := ⟨top, assistant, lookups⟩
  have hTop {document : Document} (h : top.IsTop document) :
      alone.IsTop ⟨document, assistant, lookups⟩ := ⟨⟨rfl, rfl⟩, h⟩
  obtain ⟨outcome, last, leftLast, hAlone, hFirst, hSame⟩ := press_char_agrees (hTop hLeft) source c
  obtain ⟨_, _, rightLast, hAgain, hSecond, hAlike⟩ := press_char_agrees (hTop hRight) source c
  rw [hAlone] at hAgain
  cases hAgain
  refine ⟨outcome, last.assistant, last.lookups, leftLast.document, rightLast.document, ?_, ?_⟩
  · rw [← hSame.assistant, ← hSame.lookups]
    exact hFirst
  · rw [← hAlike.assistant, ← hAlike.lookups]
    exact hSecond

/-- A menu stands over a word, and below its line there is a comment or nothing. -/
theorem press_char_blind_below_comment :
    let source : SymbolSource := fun _ => [['f', '\t', 'P', 'U', 'B', ' ', 'f', 'o', 'o', 'b']]
    let top : Document := .ofText ['\n', 'f', 'o', '\r'] (.caret 3)
    let left : Document := .ofText ['\n', 'f', 'o', '\r', '\n', '\x7b', '"'] (.caret 3)
    let right : Document := .ofText ['\n', 'f', 'o', '\r', '\n'] (.caret 3)
    let menu : Menu := ⟨[⟨['.'], .trigger⟩], 0, .dot, .nameOnly, 0, ⟨1, 2⟩⟩
    let assistant : Assistant := { file := [], language := .spin, overlay := .menu menu }
    top.IsTop left ∧ top.IsTop right ∧
      ∃ outcome assistantAfter lookupsAfter leftAfter rightAfter,
        (press source (.char 'o')).run ⟨left, assistant, []⟩ =
          (.ok outcome, ⟨leftAfter, assistantAfter, lookupsAfter⟩) ∧
        (press source (.char 'o')).run ⟨right, assistant, []⟩ =
          (.ok outcome, ⟨rightAfter, assistantAfter, lookupsAfter⟩) := by
  intro source top left right menu assistant
  have hBounds : top.InBounds := Document.inBounds_ofText _ _
  have hLeft : top.IsTop left := ⟨⟨['\n', '\x7b', '"'], rfl, .inr ⟨_, rfl⟩⟩, rfl, hBounds⟩
  have hRight : top.IsTop right := ⟨⟨['\n'], rfl, .inr ⟨_, rfl⟩⟩, rfl, hBounds⟩
  exact ⟨hLeft, hRight, press_char_blind_below source 'o' hLeft hRight assistant []⟩

end Assisting

end EditAssist
