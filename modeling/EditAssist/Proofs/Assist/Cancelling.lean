import EditAssist.Proofs.Assist.Consent

/-! Menus that are cancelled. A menu opens only after the selected text has been deleted, and moving
in it or giving it up edits nothing, so `cancelled_without_trace` finds the document as it was
before the trigger, or with that one deletion, which one undo takes back. -/
namespace EditAssist

open Document (Typed UndoneBy)

/-- The requests that give a menu up: two keys, and the choice of a row that it does not have. -/
inductive Menu.CancelledBy (menu : Menu) : Request → Prop
  | escape : menu.CancelledBy (.press .escape)
  | backspace : menu.CancelledBy (.press .backspace)
  | outside {index : Nat} (hIndex : menu.items.length ≤ index) : menu.CancelledBy (.choose index)

/-- Moving in a menu leaves its rows as they are. -/
theorem Menu.CancelledBy.move {menu : Menu} {request : Request} (h : menu.CancelledBy request)
    (direction : Direction) : (menu.move direction).CancelledBy request := by
  cases h with
  | escape => exact .escape
  | backspace => exact .backspace
  | outside hIndex => exact .outside hIndex

/-- Does one after the other what is asked of the assistant. -/
def Request.actionsAll (source : SymbolSource) : List Request → Assisting Unit
  | [] => return ()
  | request :: rest => do
    request.actions source
    Request.actionsAll source rest

/-- Where no menu was shown, only a trigger that opens menus brings one. -/
theorem Assistant.Shows.opens {request : Request} {before : Assistant} {menu : Menu}
    (h : before.Shows request (.menu menu)) (hNone : before.overlay.menu? = none) :
    ∃ trigger : Trigger, request = .press (.char trigger.char) ∧
      before.opensMenu trigger = true := by
  generalize hShown : Overlay.menu menu = overlay at h
  cases h with
  | hidden | hintsMoved | hintsFound => cases hShown
  | kept =>
      rw [← hShown] at hNone
      cases hNone
  | menuMoved _ hBefore =>
      rw [hBefore] at hNone
      cases hNone
  | menuFound hRequest hOpens => exact ⟨_, hRequest, hOpens⟩

namespace Assisting

variable {workspace : Workspace} {menu : Menu}

/-- A menu is found only once the selection has been deleted. -/
theorem findMenu_deletes (source : SymbolSource) (trigger : Trigger) :
    Ends (findMenu source trigger) workspace (fun _ => True) fun found after =>
      ∀ menu, found = some menu → workspace.document.deleteSelection = .ok after.document := by
  simp only [findMenu, ends_bind, ends_document, ends_edit]
  refine Editing.ends_ask trivial fun before _ => Editing.ends_ask trivial fun place _ =>
    Editing.ends_ask trivial fun line _ => ?_
  split
  · refine ends_pure.mpr fun _ hFound => ?_
    cases hFound
  simp only [ends_bind, ends_edit, ends_lookUp, ends_assistant]
  refine Editing.ends_act trivial fun edited hDelete => ?_
  split
  · refine ends_pure.mpr fun _ hFound => ?_
    cases hFound
  · exact ends_pure.mpr fun _ _ => hDelete

theorem openMenu_deletes (source : SymbolSource) (trigger : Trigger) :
    Ends (openMenu source trigger) workspace (fun _ => True) fun _ after =>
      ∀ menu, after.assistant.overlay = .menu menu →
        workspace.document.deleteSelection = .ok after.document := by
  simp only [openMenu, ends_bind, ends_setOverlay]
  apply ((findMenu_ends source trigger).and (findMenu_deletes source trigger)).mono
    fun _ _ => trivial
  rintro found middle ⟨hSearch, hDeletes⟩
  cases found with
  | some menu => exact ends_setOverlay.mpr fun _ _ => hDeletes menu rfl
  | none =>
      -- the trigger is typed, and nothing is shown
      apply (edit_quiet _).mono fun _ _ => trivial
      intro _ after hQuiet menu hMenu
      rw [hQuiet.assistant, hSearch.assistant] at hMenu
      cases hMenu

/-- A trigger that opens menus is done with once it has opened its own. -/
theorem press_trigger (source : SymbolSource) (trigger : Trigger)
    (hNone : workspace.assistant.overlay.menu? = none)
    (hOpens : workspace.assistant.opensMenu trigger = true) :
    (press source (.char trigger.char)).run workspace =
      (openMenu source trigger >>= fun _ => pure .handled).run workspace := by
  have hBrace : trigger.char ≠ '\x7d' := by cases trigger <;> decide
  rw [press_of_not_menu hNone, pressPlain, if_neg hBrace,
    run_bind_of_ok (run_assistant workspace), Trigger.ofChar?_eq_some_iff.mpr rfl,
    Option.filter_some, if_pos hOpens]

/-- A key that brings a menu has opened it, and that is all it has done. -/
theorem openMenu_of_pressed {source : SymbolSource} {key : Key} {outcome : Outcome}
    {opened : Workspace} (hNone : workspace.assistant.overlay.menu? = none)
    (hOpened : (press source key).run workspace = (.ok outcome, opened))
    (hMenu : opened.assistant.overlay = .menu menu) :
    ∃ trigger, (openMenu source trigger).run workspace = (.ok (), opened) := by
  have hAnswered : Answered key workspace outcome opened :=
    (ends_of_run hOpened).mp (press_ends source key)
  obtain ⟨overlay, hShown, hAfter⟩ := hAnswered.reacted.redrawn
  obtain rfl : overlay = .menu menu := by rw [← hMenu, hAfter]
  obtain ⟨trigger, hKey, hOpens⟩ := hShown.opens hNone
  cases hKey
  rw [press_trigger source trigger hNone hOpens, run_bind] at hOpened
  refine ⟨trigger, ?_⟩
  rcases hRun : (openMenu source trigger).run workspace with ⟨failure | _, after⟩
  · rw [hRun] at hOpened
    cases hOpened
  · rw [hRun] at hOpened
    cases hOpened
    rfl

/-- A menu is moved in and is still there. -/
theorem press_moved (hMenu : workspace.assistant.overlay = .menu menu) (source : SymbolSource)
    (direction : Direction) :
    Yields (press source direction.key) workspace fun _ after =>
      after = workspace.showing (.menu (menu.move direction)) := by
  simp only [press, yields_bind, yields_assistant, hMenu]
  cases direction <;> exact yields_bind.mpr (yields_setOverlay.mpr (yields_pure.mpr rfl))

/-- Giving a menu up hides it and does nothing else. -/
theorem actions_cancelled (hMenu : workspace.assistant.overlay = .menu menu)
    (source : SymbolSource) {cancel : Request} (hCancel : menu.CancelledBy cancel) :
    Yields (cancel.actions source) workspace fun _ after => after = workspace.showing .hidden := by
  cases hCancel with
  | escape | backspace =>
      simp only [Request.actions, press, yields_bind, yields_assistant, hMenu, pressInMenu,
        yields_setOverlay, yields_pure]
  | outside hIndex =>
      have hRow (index : Nat) (h : menu.items.length ≤ index) : menu.insertion? index = none := by
        rw [Menu.insertion?, List.getElem?_eq_none h, Option.map_none]
      simp only [Request.actions, acceptMenu, yields_bind, yields_assistant, yields_setOverlay,
        hMenu, yields_edit, Editing.acceptMenu, hRow _ hIndex, yields_pure]

/-- However a menu is moved in before, giving it up does nothing but hide it. -/
theorem actionsAll_cancelled (hMenu : workspace.assistant.overlay = .menu menu)
    (source : SymbolSource) (directions : List Direction) {cancel : Request}
    (hCancel : menu.CancelledBy cancel) :
    Yields (Request.actionsAll source
        (directions.map (fun direction => .press direction.key) ++ [cancel])) workspace
      fun _ after => after = workspace.showing .hidden := by
  induction directions generalizing workspace menu with
  | nil =>
      simp only [List.map_nil, List.nil_append, Request.actionsAll, yields_bind]
      exact (actions_cancelled hMenu source hCancel).mono fun _ _ h => yields_pure.mpr h
  | cons direction rest ih =>
      simp only [List.map_cons, List.cons_append, Request.actionsAll, yields_bind,
        Request.actions]
      apply (press_moved hMenu source direction).mono
      rintro _ _ rfl
      exact yields_pure.mpr (ih rfl (hCancel.move direction))

/-- A menu that a key opens and that is cancelled after any number of moves leaves no trace. Without
a selection the document is what it was before the key; otherwise the selected text is gone, and
one undo leads back. -/
theorem cancelled_without_trace (source : SymbolSource) {before opened : Workspace} {key : Key}
    {outcome : Outcome} {menu : Menu} (hNone : before.assistant.overlay.menu? = none)
    (hClosed : before.document.pending = none)
    (hOpened : (press source key).run before = (.ok outcome, opened))
    (hMenu : opened.assistant.overlay = .menu menu) (directions : List Direction)
    {cancel : Request} (hCancel : menu.CancelledBy cancel) :
    ∃ after, (Request.actionsAll source
        (directions.map (fun direction => .press direction.key) ++ [cancel])).run opened =
          (.ok (), after) ∧
      after.assistant.overlay = .hidden ∧
      (before.document.hasSelection = false → after.document = before.document) ∧
      (before.document.hasSelection = true →
        after.document.text = before.document.text.take before.document.selection.start ++
          before.document.text.drop before.document.selection.stop ∧
        after.document.selection = .caret before.document.selection.start ∧
        UndoneBy 1 before.document after.document) := by
  obtain ⟨trigger, hOpen⟩ := openMenu_of_pressed hNone hOpened hMenu
  have hDelete : before.document.deleteSelection = .ok opened.document :=
    (ends_of_run hOpen).mp (openMenu_deletes source trigger) menu hMenu
  obtain ⟨hStill, hDeleted⟩ := Document.deleted_of_ok hClosed hDelete
  obtain ⟨_, after, hRun, rfl⟩ := actionsAll_cancelled hMenu source directions hCancel
  refine ⟨_, hRun, rfl, hStill, fun hSome => ?_⟩
  obtain ⟨hTyped, hUndone⟩ := hDeleted hSome
  refine ⟨?_, hTyped.selection_eq, hUndone⟩
  rw [Workspace.showing, hTyped.text_eq, List.append_nil]

/-- A menu that took the place of a selection is left by a click below its last row. -/
theorem cancelled_without_trace_over_selection :
    let source : SymbolSource := fun _ => [['f', '\t', 'g', 'o']]
    let before : Workspace :=
      ⟨.ofText ['o', 'x', 'b'] ⟨2, 1⟩, .ofFile [] (some .spin) {}, []⟩
    let menu : Menu :=
      ⟨[⟨['.'], .trigger⟩, ⟨['g', 'o'], .publicMethod⟩], 0, .dot, .withTrigger, 2, ⟨0, 1⟩⟩
    let opened := ((press source (.char '.')).run before).2
    before.assistant.overlay.menu? = none ∧ before.document.pending = none ∧
      (press source (.char '.')).run before = (.ok .handled, opened) ∧
      opened.assistant.overlay = .menu menu ∧ menu.CancelledBy (.choose 2) ∧
      before.document.hasSelection = true ∧
      ∃ after, (Request.actionsAll source
          [.press .down, .press .down, .press .up, .choose 2]).run opened = (.ok (), after) ∧
        after.assistant.overlay = .hidden ∧ after.document.text = ['o', 'b'] ∧
        after.document.selection = .caret 1 ∧ UndoneBy 1 before.document after.document := by
  intro source before menu opened
  have hRow : Menu.declared ['f', '\t', 'g', 'o'] = ['g', 'o'] :=
    Menu.declared_eq_of_plain (by decide) (by decide) (by decide) (by decide)
  have hItems : [['f', '\t', 'g', 'o']].foldl Menu.addRow [⟨[Trigger.dot.char], .trigger⟩] =
      menu.items := by
    simp only [List.foldl_cons, List.foldl_nil, Menu.addRow, Menu.names, hRow]
    rfl
  have hKept : (Menu.arrange .dot (.object ['o']) [['f', '\t', 'g', 'o']]).filter (fun row =>
      !Menu.leavesOut .dot (.object ['o']) true (Symbol.kind? row)) = [['f', '\t', 'g', 'o']] := by
    rfl
  have hBuild : Menu.build [['f', '\t', 'g', 'o']] .dot (.object ['o']) {} =
      some (menu.items, 2) := by
    rw [Menu.build, hKept]
    simp only [hItems]
    rfl
  have hBounds : before.document.InBounds := Document.inBounds_ofText _ _
  obtain ⟨_, after, hOpen, hMenu⟩ := openMenu_yields_rows hBounds source .dot rfl rfl rfl rfl rfl
    hBuild
  have hPressed : (press source (.char '.')).run before = (.ok .handled, after) :=
    (press_trigger source .dot rfl rfl).trans (run_bind_of_ok hOpen)
  obtain rfl : opened = after := congrArg Prod.snd hPressed
  have hOutside : menu.CancelledBy (.choose 2) := .outside (Nat.le_refl 2)
  have hSome : before.document.hasSelection = true := rfl
  obtain ⟨last, hRun, hHidden, -, hDeleted⟩ :=
    cancelled_without_trace source rfl rfl hPressed hMenu [.down, .down, .up] hOutside
  obtain ⟨hText, hCaret, hUndone⟩ := hDeleted hSome
  exact ⟨rfl, rfl, hPressed, hMenu, hOutside, hSome, last, hRun, hHidden, hText, hCaret, hUndone⟩

end Assisting

end EditAssist
