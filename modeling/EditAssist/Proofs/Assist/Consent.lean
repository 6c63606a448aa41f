import EditAssist.Proofs.Assist.History

/-! Hints are inserted with consent. Enter, Tab and its opposite insert an entry of the hints only
if it is the only one or if one was picked since these hints were found; otherwise they do what they
do where no hints are shown. What was picked since then is read off the history, not off the
hints. -/
namespace EditAssist

/-- The key that may insert a hint. -/
def AcceptKey.key : AcceptKey → Key
  | enter => .enter
  | tab => .tab
  | backTab => .backTab

namespace Editing

/-- Puts an entry in the place of the word before the caret, with what the key adds to it. -/
def insertHint (entry : List Char) (key : AcceptKey) (tabWidth : Nat) : Editing Unit := do
  let document ← current
  let caret := document.caret
  grouped do
    act (·.replace ⟨document.wordStart caret, caret⟩ entry)
    afterHint key tabWidth

theorem acceptHint_of_some {hints : Hints} {entry : List Char}
    (hEntry : hints.acceptable? = some entry) (key : AcceptKey) (tabWidth : Nat) :
    acceptHint hints key tabWidth = do
      insertHint entry key tabWidth
      return true := by
  rw [acceptHint, hEntry, insertHint]
  rfl

theorem acceptHint_of_none {hints : Hints} (hEntry : hints.acceptable? = none) (key : AcceptKey)
    (tabWidth : Nat) : acceptHint hints key tabWidth = return false := by
  rw [acceptHint, hEntry]

end Editing

namespace Assisting

/-- What a key does to the lines when it inserts nothing. -/
def layOut : AcceptKey → Assisting Outcome
  | .enter => do return .ofBool (← edit Editing.breakLine)
  | .tab => do
    edit (Editing.shiftLines (← assistant).tabWidth .indent)
    return .handled
  | .backTab => do
    edit (Editing.shiftLines (← assistant).tabWidth .outdent)
    return .handled

/-- What Enter, Tab or its opposite may come to: an entry of the hints is inserted, a row of a menu
is, or the lines alone are laid out. -/
inductive Deed
  | hint (entry : List Char)
  | row (index : Nat)
  | layOut

/-- Nothing is shown after any of them. The opposite of Tab goes on behind a row. -/
def Deed.actions (key : AcceptKey) : Deed → Assisting Outcome
  | hint entry => do
    let tabWidth := (← assistant).tabWidth
    setOverlay .hidden
    edit (Editing.insertHint entry key tabWidth)
    return .handled
  | row index => do
    let _ ← acceptMenu index
    if key = .backTab then Assisting.layOut key else return .handled
  | layOut => do
    setOverlay .hidden
    Assisting.layOut key

variable {source : SymbolSource} {key : AcceptKey} {workspace : Workspace}

/-- The entry goes in, and then the key is done with. -/
theorem acceptHint_of_some {hints : Hints} {entry : List Char}
    (hHints : workspace.assistant.overlay = .hints hints)
    (hOn : workspace.assistant.preferences.hints = true)
    (hEntry : hints.acceptable? = some entry) {next : Bool → Assisting Outcome}
    (hNext : next true = return .handled) :
    (acceptHint key >>= next).run workspace = ((Deed.hint entry).actions key).run workspace := by
  have hHidden := run_setOverlay .hidden workspace
  rw [Deed.actions, run_bind_of_ok (run_assistant workspace), run_bind_of_ok hHidden, run_bind,
    acceptHint, run_bind_of_ok (run_assistant workspace), run_bind_of_ok hHidden]
  simp only [hHints, hOn, if_true, Editing.acceptHint_of_some hEntry]
  rw [run_bind, run_edit, run_edit, Editing.run_bind]
  rcases (Editing.insertHint entry key workspace.assistant.tabWidth).run workspace.document with
    ⟨failure | answer, edited⟩
  · rfl
  · rw [← hNext]
    rfl

theorem acceptHint_of_none
    (hNone : ∀ hints, workspace.assistant.overlay = .hints hints → hints.acceptable? = none) :
    (acceptHint key).run workspace = (.ok false, workspace.showing .hidden) := by
  simp only [acceptHint, run_bind, run_assistant, run_setOverlay]
  split
  next hints hHints =>
    rw [Editing.acceptHint_of_none (hNone hints hHints)]
    split <;> rfl
  next => rfl

theorem pressPlain_of_some {hints : Hints} {entry : List Char}
    (hHints : workspace.assistant.overlay = .hints hints)
    (hOn : workspace.assistant.preferences.hints = true)
    (hEntry : hints.acceptable? = some entry) :
    (pressPlain source key.key).run workspace = ((Deed.hint entry).actions key).run workspace := by
  cases key with
  | enter => exact acceptHint_of_some hHints hOn hEntry rfl
  | tab | backTab =>
      exact (run_bind_of_ok (run_assistant workspace)).trans
        (acceptHint_of_some hHints hOn hEntry rfl)

theorem pressPlain_of_none
    (hNone : ∀ hints, workspace.assistant.overlay = .hints hints → hints.acceptable? = none) :
    (pressPlain source key.key).run workspace = (Deed.layOut.actions key).run workspace := by
  have hDeclined (key : AcceptKey) :
      (acceptHint key).run workspace = (.ok false, workspace.showing .hidden) :=
    acceptHint_of_none hNone
  rw [Deed.actions, run_bind_of_ok (run_setOverlay .hidden workspace)]
  cases key with
  | enter => exact run_bind_of_ok (hDeclined .enter)
  | tab =>
      rw [AcceptKey.key, pressPlain, pressTab, run_bind_of_ok (run_assistant workspace),
        run_bind_of_ok (hDeclined .tab), Assisting.layOut, run_bind_of_ok (run_assistant _)]
      rfl
  | backTab =>
      rw [AcceptKey.key, pressPlain, pressTab, run_bind_of_ok (run_assistant workspace),
        run_bind_of_ok (hDeclined .backTab), Assisting.layOut, run_bind_of_ok (run_assistant _)]
      rfl

theorem press_of_not_menu {key : Key} (hNone : workspace.assistant.overlay.menu? = none) :
    (press source key).run workspace = (pressPlain source key).run workspace := by
  rw [press, run_bind_of_ok (run_assistant workspace)]
  split
  next hMenu =>
    rw [hMenu] at hNone
    cases hNone
  next => rfl

/-- Hints are moved in and are still there. -/
theorem press_of_hints {hints : Hints} (hHints : workspace.assistant.overlay = .hints hints)
    (source : SymbolSource) (direction : Direction) :
    (press source direction.key).run workspace =
      (.ok .handled, workspace.showing (.hints (hints.move direction))) := by
  have hNone : workspace.assistant.overlay.menu? = none := by
    rw [hHints]
    rfl
  have hPlain : pressPlain source direction.key = pickHint direction := by
    cases direction <;> rfl
  rw [press_of_not_menu hNone, hPlain, pickHint, run_bind_of_ok (run_assistant workspace)]
  simp only [hHints]
  exact run_bind_of_ok (run_setOverlay _ workspace)

/-- Behind the row of the trigger nothing is shown any more. -/
theorem press_of_menu {menu : Menu} (hMenu : workspace.assistant.overlay = .menu menu) :
    ∃ index,
      (press source key.key).run workspace = ((Deed.row index).actions key).run workspace := by
  rw [press, run_bind_of_ok (run_assistant workspace)]
  simp only [hMenu, Deed.actions]
  cases key with
  | enter | tab =>
      refine ⟨menu.active, ?_⟩
      rw [AcceptKey.key, pressInMenu, if_neg (by decide)]
  | backTab =>
      refine ⟨0, ?_⟩
      rw [AcceptKey.key, pressInMenu, if_pos rfl, run_bind, run_bind]
      rcases hRun : (acceptMenu 0).run workspace with ⟨_ | done, after⟩
      · rfl
      have hQuiet := (ends_of_run hRun).mp (acceptMenu_ends 0)
      have hHidden : after.assistant.overlay = .hidden :=
        congrArg Assistant.overlay hQuiet.assistant
      have hNone (hints : Hints) (hHints : after.assistant.overlay = .hints hints) :
          hints.acceptable? = none := by
        rw [hHidden] at hHints
        cases hHints
      have hShown : after.showing .hidden = after := by rw [← hHidden, after.showing_overlay]
      have hLaidOut : (pressPlain source AcceptKey.backTab.key).run after =
          (layOut .backTab).run (after.showing .hidden) :=
        pressPlain_of_none hNone
      rw [hShown] at hLaidOut
      exact hLaidOut

/-- What one of these keys comes to is decided by what is shown, where hints on show are turned
on. -/
theorem press_deed
    (hOn : ∀ hints, workspace.assistant.overlay = .hints hints →
      workspace.assistant.preferences.hints = true) (source : SymbolSource) (key : AcceptKey) :
    ∃ deed : Deed, (press source key.key).run workspace = (deed.actions key).run workspace ∧
      (∀ entry, deed = .hint entry ↔
        ∃ hints, workspace.assistant.overlay = .hints hints ∧ hints.acceptable? = some entry) ∧
      ∀ hints, workspace.assistant.overlay = .hints hints → hints.acceptable? = none →
        deed = .layOut := by
  by_cases hMenu : ∃ menu, workspace.assistant.overlay = .menu menu
  · obtain ⟨menu, hMenu⟩ := hMenu
    obtain ⟨index, hPress⟩ := press_of_menu hMenu
    rw [hMenu]
    refine ⟨.row index, hPress, fun entry => iff_of_false nofun ?_, nofun⟩
    rintro ⟨_, ⟨⟩, -⟩
  have hPlain : (press source key.key).run workspace = (pressPlain source key.key).run workspace :=
    press_of_not_menu (Overlay.menu?_eq_none fun menu hShown => hMenu ⟨menu, hShown⟩)
  by_cases hSome : ∃ hints entry,
      workspace.assistant.overlay = .hints hints ∧ hints.acceptable? = some entry
  · obtain ⟨hints, entry, hHints, hEntry⟩ := hSome
    refine ⟨.hint entry, hPlain.trans (pressPlain_of_some hHints (hOn hints hHints) hEntry), ?_, ?_⟩
    all_goals rw [hHints]
    · intro other
      constructor
      · rintro ⟨⟩
        exact ⟨hints, rfl, hEntry⟩
      · rintro ⟨_, ⟨⟩, hOther⟩
        rw [hEntry] at hOther
        rw [Option.some.inj hOther]
    · rintro _ ⟨⟩ hNone
      rw [hEntry] at hNone
      cases hNone
  · have hNone (hints : Hints) (hHints : workspace.assistant.overlay = .hints hints) :
        hints.acceptable? = none :=
      Option.eq_none_iff_forall_ne_some.mpr fun entry hEntry => hSome ⟨hints, entry, hHints, hEntry⟩
    refine ⟨.layOut, hPlain.trans (pressPlain_of_none hNone), fun entry => ?_, fun _ _ _ => rfl⟩
    exact iff_of_false nofun fun ⟨hints, hShown⟩ => hSome ⟨hints, entry, hShown⟩

theorem layOut_ends (key : AcceptKey) :
    Ends (layOut key) workspace workspace.Quiet fun _ after => workspace.Quiet after := by
  have hEdit {α : Type} (edits : Editing α) {outcome : α → Outcome} :
      Ends (edit edits >>= fun answer => pure (outcome answer)) workspace workspace.Quiet
        fun _ after => workspace.Quiet after :=
    ends_bind.mpr ((edit_quiet edits).mono (fun _ h => h) fun _ _ h => ends_pure.mpr h)
  cases key with
  | enter => exact hEdit _
  | tab | backTab => exact ends_bind.mpr (ends_assistant.mpr (hEdit _))

/-- Whatever it comes to, nothing is shown afterwards, also if it fails. -/
theorem Deed.hidden_after (deed : Deed) (key : AcceptKey) (workspace : Workspace) :
    ((deed.actions key).run workspace).2.assistant.overlay = .hidden := by
  have hHidden (after : Workspace) (hQuiet : (workspace.showing .hidden).Quiet after) :
      after.assistant.overlay = .hidden :=
    congrArg Assistant.overlay hQuiet.assistant
  have hEnds : Ends (deed.actions key) workspace (workspace.showing .hidden).Quiet fun _ after =>
      (workspace.showing .hidden).Quiet after := by
    cases deed <;> simp only [Deed.actions, ends_bind, ends_assistant, ends_setOverlay]
    case hint entry => exact (edit_quiet _).mono (fun _ h => h) fun _ _ h => ends_pure.mpr h
    case layOut => exact layOut_ends key
    case row index =>
      apply (acceptMenu_ends index).mono (fun _ h => h)
      intro _ middle hQuiet
      split
      · exact (layOut_ends key).mono (fun _ => hQuiet.trans) fun _ _ => hQuiet.trans
      · exact ends_pure.mpr hQuiet
  exact hEnds.after hHidden fun _ => hHidden

end Assisting

/-- A key or a refresh looks for hints and finds some. -/
def Turn.FindsHints (turn : Turn) : Prop :=
  ∃ request, turn.event = .request request ∧ request.looks = true ∧
    ((request.actions turn.source).run turn.before).1 = .ok () ∧
      ∃ hints, turn.after.assistant.overlay = .hints hints

/-- Up or Down is handled. -/
def Turn.Picks (turn : Turn) : Prop :=
  ∃ direction : Direction, turn.event = .request (.press direction.key) ∧
    ((Assisting.press turn.source direction.key).run turn.before).1 = .ok .handled

/-- Up or Down was handled, and no hints were found after that. -/
def PickedSinceFound (turns : List Turn) : Prop :=
  ∃ later pick earlier, turns = later ++ pick :: earlier ∧ pick.Picks ∧
    ∀ turn ∈ later, ¬ turn.FindsHints

theorem not_pickedSinceFound_nil : ¬ PickedSinceFound [] := by
  rintro ⟨later, pick, earlier, hTurns, -⟩
  exact List.cons_ne_nil _ _ (List.append_eq_nil_iff.mp hTurns.symm).2

theorem pickedSinceFound_cons {turn : Turn} {turns : List Turn} :
    PickedSinceFound (turn :: turns) ↔
      turn.Picks ∨ (¬ turn.FindsHints ∧ PickedSinceFound turns) := by
  constructor
  · rintro ⟨later, pick, earlier, hTurns, hPicks, hLater⟩
    cases later with
    | nil =>
        obtain ⟨rfl, -⟩ := List.cons.inj hTurns
        exact .inl hPicks
    | cons last later =>
        obtain ⟨rfl, hRest⟩ := List.cons.inj hTurns
        obtain ⟨hLast, hLater⟩ := List.forall_mem_cons.mp hLater
        exact .inr ⟨hLast, later, pick, earlier, hRest, hPicks, hLater⟩
  · rintro (hPicks | ⟨hLast, later, pick, earlier, rfl, hPicks, hLater⟩)
    · exact ⟨[], turn, turns, rfl, hPicks, List.forall_mem_nil _⟩
    · exact ⟨turn :: later, pick, earlier, rfl, hPicks, List.forall_mem_cons.mpr ⟨hLast, hLater⟩⟩

/-- Other preferences bring no hints. -/
theorem Assistant.overlay_of_setPreferences {assistant : Assistant} {preferences : Preferences}
    {hints : Hints} (hHints : (assistant.setPreferences preferences).overlay = .hints hints) :
    assistant.overlay = .hints hints := by
  simp only [setPreferences] at hHints
  split at hHints
  · split at hHints
    · exact hHints
    · cases hHints
  · exact hHints

namespace Turn

variable {turn : Turn} {hints : Hints}

/-- Up and Down look for nothing. -/
theorem Picks.not_findsHints (hPicks : turn.Picks) : ¬ turn.FindsHints := by
  rintro ⟨request, hEvent, hLooks, -⟩
  obtain ⟨direction, hPressed, -⟩ := hPicks
  rw [hPressed] at hEvent
  cases hEvent
  cases direction <;> cases hLooks

/-- Where hints on show come from. They have just been found, or nothing happened to them, or they
were moved in. -/
inductive Brings (turn : Turn) (hints : Hints) : Prop
  | found (hFinds : turn.FindsHints) (hNone : hints.chosen = false)
  | kept (hFinds : ¬ turn.FindsHints) (hPicks : ¬ turn.Picks)
      (hBefore : turn.before.assistant.overlay = .hints hints)
  | moved {earlier : Hints} {direction : Direction} (hPicks : turn.Picks)
      (hBefore : turn.before.assistant.overlay = .hints earlier)
      (hMoved : hints = earlier.move direction)

/-- What is no request neither finds nor picks hints. -/
theorem brings_of_not_request (hEvent : ∀ request, turn.event ≠ .request request)
    (hBefore : turn.before.assistant.overlay = .hints hints) : turn.Brings hints := by
  refine .kept ?_ ?_ hBefore
  · rintro ⟨request, hRequest, -⟩
    exact hEvent request hRequest
  · rintro ⟨direction, hRequest, -⟩
    exact hEvent _ hRequest

/-- A request that fails does neither. Up and Down do not fail where hints are shown. -/
theorem brings_of_error {request : Request} {failure : Failure}
    (hEvent : turn.event = .request request)
    (hError : ((request.actions turn.source).run turn.before).1 = .error failure)
    (hBefore : turn.before.assistant.overlay = .hints hints) : turn.Brings hints := by
  refine .kept ?_ ?_ hBefore
  · rintro ⟨request, hRequest, -, hAnswer, -⟩
    rw [hEvent] at hRequest
    cases hRequest
    rw [hError] at hAnswer
    cases hAnswer
  · rintro ⟨direction, hRequest, -⟩
    rw [hEvent] at hRequest
    cases hRequest
    have hPressed := Assisting.press_of_hints hBefore turn.source direction
    rw [Request.actions, Assisting.run_bind_of_ok hPressed] at hError
    cases hError

/-- A request that succeeds shows what it may show. -/
theorem brings_of_shows {request : Request} (hEvent : turn.event = .request request)
    (hAnswer : ((request.actions turn.source).run turn.before).1 = .ok ())
    (hAfter : turn.after.assistant.overlay = .hints hints)
    (hShows : turn.before.assistant.Shows request (.hints hints))
    (hWell : turn.before.assistant.WellShown) : turn.Brings hints := by
  generalize hOverlay : Overlay.hints hints = overlay at hShows
  cases hShows with
  | hidden | menuMoved | menuFound => cases hOverlay
  | kept hLooks hMoves =>
      refine .kept ?_ ?_ hOverlay.symm
      · rintro ⟨_, hRequest, hFinds, -⟩
        rw [hEvent] at hRequest
        cases hRequest
        rcases hLooks hFinds with hOff | ⟨menu, hMenu⟩
        · rw [(hWell.hints hints hOverlay.symm).1] at hOff
          cases hOff
        · rw [hMenu] at hOverlay
          cases hOverlay
      · rintro ⟨direction, hRequest, -⟩
        rw [hEvent] at hRequest
        exact hMoves direction (Event.request.inj hRequest) hints hOverlay.symm
  | @hintsMoved direction earlier hRequest hBefore =>
      subst hRequest
      have hPressed := Assisting.press_of_hints hBefore turn.source direction
      exact .moved ⟨direction, hEvent, congrArg Prod.fst hPressed⟩ hBefore
        (Overlay.hints.inj hOverlay)
  | hintsFound hLooks =>
      obtain rfl := Overlay.hints.inj hOverlay
      exact .found ⟨request, hEvent, hLooks, hAnswer, _, hAfter⟩ rfl

theorem brings_of_hints (turn : Turn) (hWell : turn.before.assistant.WellShown)
    (hAfter : turn.after.assistant.overlay = .hints hints) : turn.Brings hints := by
  -- what is no request leaves the hints as they were, if it leaves them at all
  have hOther {event : Event} (hEvent : turn.event = event)
      (hNot : ∀ request, event ≠ .request request)
      (hBefore : turn.before.assistant.overlay = .hints hints) : turn.Brings hints := by
    rw [← hEvent] at hNot
    exact brings_of_not_request hNot hBefore
  cases hEvent : turn.event with
  | request request =>
      have hLast : turn.after = ((request.actions turn.source).run turn.before).2 := by
        rw [after, hEvent]
      have hEnds := @Assisting.request_ends turn.before turn.source request
      rcases hRun : (request.actions turn.source).run turn.before with ⟨failure | answer, last⟩
      all_goals rw [hRun] at hLast
      · obtain ⟨overlay, hLeft, hSet⟩ := (ends_of_error hRun).mp hEnds
        obtain rfl : overlay = .hints hints := by rw [← hAfter, hLast, hSet]
        rcases hLeft with hSame | hHidden
        · exact brings_of_error hEvent (congrArg Prod.fst hRun) hSame.symm
        · cases hHidden
      · obtain ⟨overlay, hShows, hSet⟩ := (ends_of_run hRun).mp hEnds
        obtain rfl : overlay = .hints hints := by rw [← hAfter, hLast, hSet]
        exact brings_of_shows hEvent (congrArg Prod.fst hRun) hAfter hShows hWell
  | hide =>
      rw [after, hEvent] at hAfter
      cases hAfter
  | configure preferences =>
      rw [after, hEvent] at hAfter
      exact hOther hEvent (fun _ => Event.noConfusion) (Assistant.overlay_of_setPreferences hAfter)
  | save | edit =>
      rw [after, hEvent] at hAfter
      exact hOther hEvent (fun _ => Event.noConfusion) hAfter

end Turn

namespace History

variable {turns : List Turn} {workspace : Workspace} {hints : Hints}

/-- The hints remember of the history what they have to. -/
theorem chosen_iff (hHistory : History turns workspace)
    (hHints : workspace.assistant.overlay = .hints hints) (hSeveral : 2 ≤ hints.entries.length) :
    hints.chosen = true ↔ PickedSinceFound turns := by
  induction hHistory generalizing hints with
  | opened => cases hHints
  | @next turns workspace hHistory source event ih =>
      rw [pickedSinceFound_cons]
      cases Turn.brings_of_hints ⟨source, event, workspace⟩ hHistory.wellShown hHints with
      | found hFinds hNone =>
          rw [hNone]
          constructor
          · exact nofun
          · rintro (hPicks | ⟨hNot, -⟩)
            · exact absurd hFinds hPicks.not_findsHints
            · exact absurd hFinds hNot
      | kept hFinds hPicks hBefore =>
          rw [ih hBefore hSeveral, or_iff_right hPicks, and_iff_right hFinds]
      | moved hPicks hBefore hMoved =>
          subst hMoved
          rw [Hints.entries_move] at hSeveral
          exact iff_of_true (Hints.chosen_move hSeveral _) (.inl hPicks)

/-- Whether an entry may be inserted can be read off the history. -/
theorem acceptable?_iff (hHistory : History turns workspace)
    (hHints : workspace.assistant.overlay = .hints hints) {entry : List Char} :
    hints.acceptable? = some entry ↔
      hints.activeEntry? = some entry ∧ (hints.entries = [entry] ∨ PickedSinceFound turns) := by
  have hWell := (hHistory.wellShown.hints hints hHints).2
  rw [Hints.acceptable?_eq_some_iff]
  apply and_congr_right
  intro hActive
  have hMem : entry ∈ hints.entries := List.mem_of_getElem? hActive
  match hEntries : hints.entries with
  | [] =>
      rw [hEntries] at hMem
      cases hMem
  | [only] =>
      rw [hEntries] at hMem
      have hOnly : [only] = [entry] := by rw [List.mem_singleton.mp hMem]
      exact iff_of_true (.inl hOnly) (.inl hOnly)
  | first :: second :: rest =>
      have hSeveral : 2 ≤ hints.entries.length := by
        rw [hEntries]
        exact Nat.le_add_left 2 rest.length
      rw [hHistory.chosen_iff hHints hSeveral]

/-- Enter, Tab and its opposite insert an entry of the hints exactly if it is the active one and
either the only one or one was picked since the hints were found. Of several hints of which none was
picked they insert none, and these hints go away. -/
theorem accept_consented (hHistory : History turns workspace) (source : SymbolSource)
    (key : AcceptKey) :
    ∃ deed : Assisting.Deed,
      (Assisting.press source key.key).run workspace = (deed.actions key).run workspace ∧
      (∀ entry, deed = .hint entry ↔ ∃ hints, workspace.assistant.overlay = .hints hints ∧
        hints.activeEntry? = some entry ∧ (hints.entries = [entry] ∨ PickedSinceFound turns)) ∧
      ∀ hints, workspace.assistant.overlay = .hints hints → 2 ≤ hints.entries.length →
        ¬ PickedSinceFound turns → deed = .layOut ∧
          ((Assisting.press source key.key).run workspace).2.assistant.overlay = .hidden := by
  have hOn (hints : Hints) (hHints : workspace.assistant.overlay = .hints hints) :=
    (hHistory.wellShown.hints hints hHints).1
  obtain ⟨deed, hPress, hHint, hLaidOut⟩ := Assisting.press_deed hOn source key
  refine ⟨deed, hPress, fun entry => (hHint entry).trans ?_, fun hints hHints hSeveral hNot => ?_⟩
  · exact exists_congr fun hints => and_congr_right fun hHints => hHistory.acceptable?_iff hHints
  · have hNone : hints.acceptable? = none := by
      refine Option.eq_none_iff_forall_ne_some.mpr fun entry hEntry => ?_
      rcases ((hHistory.acceptable?_iff hHints).mp hEntry).2 with hOnly | hPicked
      · rw [hOnly, List.length_singleton] at hSeveral
        omega
      · exact hNot hPicked
    rw [hPress]
    exact ⟨hLaidOut hints hHints hNone, deed.hidden_after key workspace⟩

/-- Two hints for one word. Tab moves the line where neither was picked, and inserts the second one
behind a Down. -/
theorem accept_consented_of_two :
    let source : SymbolSource :=
      fun _ => [['v', '\t', 'a', 'b', 'c', 'd'], ['v', '\t', 'a', 'b', 'c', 'e']]
    let opened : Workspace := ⟨.ofText ['a', 'b', 'c'] (.caret 3), .ofFile [] none {}, []⟩
    let looked : Turn := ⟨source, .request .refresh, opened⟩
    let moved : Turn := ⟨source, .request (.press .down), looked.after⟩
    History [looked] looked.after ∧ ¬ PickedSinceFound [looked] ∧
      (Assisting.press source .tab).run looked.after =
        (Assisting.Deed.layOut.actions .tab).run looked.after ∧
      History [moved, looked] moved.after ∧ PickedSinceFound [moved, looked] ∧
      (Assisting.press source .tab).run moved.after =
        ((Assisting.Deed.hint ['a', 'b', 'c', 'e']).actions .tab).run moved.after := by
  intro source opened looked moved
  have hOpened : History [] opened := .opened _ _ _ _
  have hLooked : History [looked] looked.after := hOpened.next source _
  have hMoved : History [moved, looked] moved.after := hLooked.next source _
  let entries : List (List Char) := [['a', 'b', 'c', 'd'], ['a', 'b', 'c', 'e']]
  have hEntries : Candidates.ofRows ['a', 'b', 'c'] (source ⟨.members, [], []⟩) = entries := by
    rw [Candidates.ofRows, List.mergeSort_of_pairwise (by decide)]
    decide
  have hBounds : opened.document.InBounds := Document.inBounds_ofText _ _
  obtain ⟨_, after, hRun, anchor, hShown⟩ := Assisting.refreshHints_yields_matches hBounds source
    rfl rfl rfl rfl rfl (by decide) hEntries (List.cons_ne_nil _ _)
  have hAfter : looked.after = after := congrArg Prod.snd hRun
  rw [← hAfter] at hShown
  have hPressed := Assisting.press_of_hints hShown source .down
  have hMovedAfter : moved.after = looked.after.showing (.hints _) :=
    congrArg Prod.snd (Assisting.run_bind_of_ok hPressed)
  have hPicks : moved.Picks := ⟨.down, rfl, congrArg Prod.fst hPressed⟩
  have hPicked : PickedSinceFound [moved, looked] := pickedSinceFound_cons.mpr (.inl hPicks)
  have hNot : ¬ PickedSinceFound [looked] := by
    rw [pickedSinceFound_cons]
    rintro (⟨direction, hEvent, -⟩ | ⟨-, hNone⟩)
    · cases hEvent
    · exact not_pickedSinceFound_nil hNone
  obtain ⟨first, hFirst, -, hRefused⟩ := accept_consented hLooked source .tab
  obtain ⟨second, hSecond, hHint, -⟩ := accept_consented hMoved source .tab
  obtain ⟨rfl, -⟩ := hRefused _ hShown (Nat.le_refl 2) hNot
  obtain rfl := (hHint ['a', 'b', 'c', 'e']).mpr ⟨_, by rw [hMovedAfter]; rfl, rfl, .inr hPicked⟩
  exact ⟨hLooked, hNot, hFirst, hMoved, hPicked, hSecond⟩

end History

end EditAssist
