import EditAssist.Proofs.Assist.HintList
import EditAssist.Proofs.Assist.MenuRows
import EditAssist.Proofs.Assist.Reacting

/-! Histories of an assistant: whatever is asked of it, and whatever happens around it, one event
after the other. `lookups_due` says which of these events ask the symbol table, and for what.
`overlay_wellFormed` says that in all histories a menu or hints that are shown are well-formed and
have not been turned off. -/
namespace EditAssist

/-- What may happen in the life of an assistant. The text may also be edited behind its back. -/
inductive Event
  | request (request : Request)
  | hide
  | configure (preferences : Preferences)
  | save
  | edit (document : Document)

/-- One event, the workspace that it meets and what the symbol table answers at that time. -/
structure Turn where
  source : SymbolSource
  event : Event
  before : Workspace

/-- The workspace after an event. A request may have failed on the way. -/
def Turn.after (turn : Turn) : Workspace :=
  match turn.event with
  | .request request => ((request.actions turn.source).run turn.before).2
  | .hide => { turn.before with assistant := turn.before.assistant.hide }
  | .configure preferences =>
    { turn.before with assistant := turn.before.assistant.setPreferences preferences }
  | .save => { turn.before with assistant := turn.before.assistant.markSaved turn.before.document }
  | .edit document => { turn.before with document := document }

/-- The turns since a new assistant was set up, newest first, and the workspace that they lead
to. -/
inductive History : List Turn → Workspace → Prop
  | opened (document : Document) (file : List Char) (language : Option Language)
      (preferences : Preferences) : History [] ⟨document, .ofFile file language preferences, []⟩
  | next {turns : List Turn} {workspace : Workspace} (hHistory : History turns workspace)
      (source : SymbolSource) (event : Event) :
      History (⟨source, event, workspace⟩ :: turns) (Turn.after ⟨source, event, workspace⟩)

namespace Assistant

variable {before : Assistant} {overlay : Overlay} {request : Request}

/-- What is shown is well-formed and turned on: menus are for Spin alone, and hints go away with
their preference. -/
structure WellShown (assistant : Assistant) : Prop where
  menu : ∀ menu, assistant.overlay = .menu menu →
    assistant.language = .spin ∧ menu.WellFormed
  hints : ∀ hints, assistant.overlay = .hints hints →
    assistant.preferences.hints = true ∧ hints.WellFormed

theorem wellShown_of_hidden {assistant : Assistant} (hHidden : assistant.overlay = .hidden) :
    assistant.WellShown where
  menu := by
    rw [hHidden]
    exact nofun
  hints := by
    rw [hHidden]
    exact nofun

theorem wellShown_of_menu {assistant : Assistant} {menu : Menu}
    (hMenu : assistant.overlay = .menu menu) (hSpin : assistant.language = .spin)
    (hWell : menu.WellFormed) : assistant.WellShown where
  menu := by
    rw [hMenu]
    rintro _ ⟨⟩
    exact ⟨hSpin, hWell⟩
  hints := by
    rw [hMenu]
    exact nofun

theorem wellShown_of_hints {assistant : Assistant} {hints : Hints}
    (hHints : assistant.overlay = .hints hints) (hOn : assistant.preferences.hints = true)
    (hWell : hints.WellFormed) : assistant.WellShown where
  menu := by
    rw [hHints]
    exact nofun
  hints := by
    rw [hHints]
    rintro _ ⟨⟩
    exact ⟨hOn, hWell⟩

/-- Menus open in Spin alone, and each trigger has a preference of its own. -/
theorem opensMenu_iff {assistant : Assistant} {trigger : Trigger} :
    assistant.opensMenu trigger = true ↔ assistant.language = .spin ∧
      match trigger with
      | .dot => assistant.preferences.dotMenu = true
      | .hash => assistant.preferences.hashMenu = true := by
  cases trigger <;> simp [opensMenu]

theorem Shows.wellShown (h : before.Shows request overlay) (hBefore : before.WellShown) :
    ({ before with overlay := overlay } : Assistant).WellShown := by
  cases h with
  | hidden => exact wellShown_of_hidden rfl
  | kept => exact hBefore
  | hintsMoved _ hHints =>
      obtain ⟨hOn, hWell⟩ := hBefore.hints _ hHints
      exact wellShown_of_hints rfl hOn (hWell.move _)
  | menuMoved _ hMenu =>
      obtain ⟨hSpin, hWell⟩ := hBefore.menu _ hMenu
      exact wellShown_of_menu rfl hSpin (hWell.move _)
  | hintsFound _ hOn hSome => exact wellShown_of_hints rfl hOn (Hints.wellFormed_ofRows hSome _)
  | menuFound _ hOpens hBuild =>
      exact wellShown_of_menu rfl (opensMenu_iff.mp hOpens).1 (Menu.wellFormed_of_build hBuild _ _)

theorem Leaves.wellShown (h : before.Leaves overlay) (hBefore : before.WellShown) :
    ({ before with overlay := overlay } : Assistant).WellShown := by
  rcases h with rfl | rfl
  · exact hBefore
  · exact wellShown_of_hidden rfl

/-- Hints do not outlive their preference. -/
theorem WellShown.setPreferences (hBefore : before.WellShown) (preferences : Preferences) :
    (before.setPreferences preferences).WellShown := by
  simp only [Assistant.setPreferences]
  split
  next hints hHints =>
    split
    next hOn => exact wellShown_of_hints hHints hOn (hBefore.hints hints hHints).2
    next => exact wellShown_of_hidden rfl
  next hOther => exact ⟨hBefore.menu, fun hints hHints => (hOther hints hHints).elim⟩

end Assistant

/-- One event keeps what is shown in shape, whether or not a request fails. -/
theorem Turn.wellShown_after (turn : Turn) (hBefore : turn.before.assistant.WellShown) :
    turn.after.assistant.WellShown := by
  obtain ⟨source, event, before⟩ := turn
  cases event with
  | request request =>
      apply Assisting.assistant_after_request
      · exact fun _ hLeft => hLeft.wellShown hBefore
      · exact fun _ hShown => hShown.wellShown hBefore
  | hide => exact Assistant.wellShown_of_hidden rfl
  | configure preferences => exact hBefore.setPreferences preferences
  | save => exact ⟨hBefore.menu, hBefore.hints⟩
  | edit document => exact hBefore

namespace Assisting

/-- A key asks the symbol table once at most, and only a character asks at all: for the constants
only where `#` opens menus, for the members of an object only where `.` does, and otherwise for
the members of the file, if hints are turned on and the character ends a word of three. The name of
an object has no white space in it. What is neither a key nor a refresh asks nothing. -/
theorem lookups_due (source : SymbolSource) (workspace : Workspace) :
    (∀ key, ∃ asked : Option Lookup,
      let after := ((press source key).run workspace).2
      let dotOpens := workspace.assistant.language = .spin ∧
        workspace.assistant.preferences.dotMenu = true
      after.lookups = workspace.lookups ++ asked.toList ∧ ∀ lookup ∈ asked, ∃ c, key = .char c ∧
        (∀ x ∈ lookup.object, Text.isBlank x = false) ∧
        (lookup.catalogue = .constants → c = '#' ∧ workspace.assistant.language = .spin ∧
          workspace.assistant.preferences.hashMenu = true) ∧
        (lookup.catalogue = .members → lookup.object ≠ [] → c = '.' ∧ dotOpens) ∧
        (lookup.catalogue = .members → ¬ (c = '.' ∧ dotOpens) → lookup.object = [] ∧
          workspace.assistant.preferences.hints = true ∧ after.document.EndsWord 3)) ∧
    ∀ event, (∀ key, event ≠ .request (.press key)) → event ≠ .request .refresh →
      (Turn.after ⟨source, event, workspace⟩).lookups = workspace.lookups := by
  refine ⟨fun key => ?_, fun event hKey hRefresh => ?_⟩
  · obtain ⟨asked, hLookups, hAllowed⟩ := press_asked source key
    refine ⟨asked, hLookups, fun lookup hLookup => ?_⟩
    obtain ⟨c, hChar, hAsks⟩ := hAllowed lookup hLookup
    refine ⟨c, hChar, ?_⟩
    cases hAsks with
    | @menu trigger object hTrigger hOpens hObject =>
        have hOn := Assistant.opensMenu_iff.mp hOpens
        cases trigger with
        | dot => exact ⟨hObject, nofun, fun _ _ => ⟨hTrigger, hOn⟩,
            fun _ hNot => absurd ⟨hTrigger, hOn⟩ hNot⟩
        | hash => exact ⟨hObject, fun _ => ⟨hTrigger, hOn⟩, nofun, nofun⟩
    | hints hPlain hOn hWord =>
        exact ⟨nofun, nofun, fun _ hObject => absurd rfl hObject, fun _ _ => ⟨rfl, hOn, hWord⟩⟩
  · cases event with
    | request request =>
        cases request with
        | press key => exact absurd rfl (hKey key)
        | choose index =>
            change ((acceptMenu index >>= fun _ => pure ()).run workspace).2.lookups = _
            rw [after_ignoring]
            exact acceptMenu_lookups index
        | refresh => exact absurd rfl hRefresh
    | hide | configure | save | edit => rfl

/-- A second trigger puts the first one into the name that it then asks for. A choice from the same
menu asks for nothing. -/
theorem lookups_due_behind_menu :
    let source : SymbolSource := fun _ => []
    let menu : Menu :=
      ⟨[⟨['#'], .trigger⟩, ⟨['g', 'o'], .constant⟩], 1, .hash, .withTrigger, 2, ⟨0, 2⟩⟩
    let workspace : Workspace :=
      { document := .ofText ['o', 'b'] (.caret 2)
        assistant :=
          { file := [], language := .spin, preferences := {}, overlay := .menu menu } }
    let lookup : Lookup := ⟨.members, [], ['o', 'b', '#']⟩
    ((press source (.char '.')).run workspace).2.lookups = [lookup] ∧
      (∀ x ∈ lookup.object, Text.isBlank x = false) ∧
      workspace.assistant.preferences.dotMenu = true ∧
      (Turn.after ⟨source, .request (.choose 1), workspace⟩).lookups = workspace.lookups := by
  intro source menu workspace lookup
  have hAsked : ((press source (.char '.')).run workspace).2.lookups = [lookup] := by
    simp only [source, menu, workspace, lookup]
    rfl
  obtain ⟨hKeys, hOthers⟩ := lookups_due source workspace
  obtain ⟨asked, hLookups, hDue⟩ := hKeys (.char '.')
  obtain rfl : asked = some lookup := by
    rw [hAsked] at hLookups
    cases asked with
    | none => cases hLookups
    | some other => exact congrArg some (List.cons.inj hLookups).1.symm
  obtain ⟨c, -, hBlank, -, hMembers, -⟩ := hDue lookup rfl
  have hDot := (hMembers rfl (List.cons_ne_nil _ _)).2.2
  have hChosen := hOthers (.request (.choose 1)) nofun nofun
  exact ⟨hAsked, hBlank, hDot, hChosen⟩

end Assisting

namespace History

variable {turns : List Turn} {workspace : Workspace}

/-- Whatever happens, what is shown is well-formed. -/
theorem wellShown (hHistory : History turns workspace) : workspace.assistant.WellShown := by
  induction hHistory with
  | opened document file language preferences => exact Assistant.wellShown_of_hidden rfl
  | next _ source event ih => exact Turn.wellShown_after ⟨source, event, _⟩ ih

/-- A menu that is shown at any time belongs to Spin, starts with its trigger and has a symbol
below it; its rows are distinct, trimmed texts, one of them is active, and its width is that of the
widest symbol. Hints that are shown are turned on and not empty, one of them is active, and in
lower case each comes before the next. -/
theorem overlay_wellFormed (hHistory : History turns workspace) :
    (∀ menu, workspace.assistant.overlay = .menu menu →
      workspace.assistant.language = .spin ∧
      2 ≤ menu.items.length ∧
      menu.items.head? = some ⟨[menu.trigger.char], .trigger⟩ ∧
      menu.active < menu.items.length ∧
      (menu.items.map (·.text)).Nodup ∧
      (∀ item ∈ menu.items, Text.Trimmed item.text) ∧
      (∃ item ∈ menu.items.tail, item.text.length = menu.width) ∧
      ∀ item ∈ menu.items.tail, item.text.length ≤ menu.width) ∧
    ∀ hints, workspace.assistant.overlay = .hints hints →
      workspace.assistant.preferences.hints = true ∧
      hints.entries ≠ [] ∧
      hints.active < hints.entries.length ∧
      (hints.entries.map Text.lowercase).Pairwise Text.Precedes := by
  have hShown := hHistory.wellShown
  refine ⟨fun menu hMenu => ?_, fun hints hHints => ?_⟩
  · obtain ⟨hSpin, hWell⟩ := hShown.menu menu hMenu
    have hFirst : menu.items.head? = some ⟨[menu.trigger.char], .trigger⟩ := by
      obtain ⟨rest, hItems⟩ := hWell.trigger
      rw [hItems]
      rfl
    exact ⟨hSpin, hWell.several, hFirst, hWell.active_lt, hWell.listed.distinct,
      hWell.listed.trimmed, hWell.width_reached, hWell.width_most⟩
  · obtain ⟨hOn, hWell⟩ := hShown.hints hints hHints
    exact ⟨hOn, hWell.nonempty, hWell.active_lt, List.pairwise_map.mpr hWell.ascending⟩

/-- Two rows of variables share a name and differ in the room that they leave around it. -/
theorem overlay_wellFormed_of_shared_name :
    let rows := [['v', '\t', 'a', ',', ' ', 'b'], ['v', '\t', 'b', ' ', ',', 'c', 'd']]
    let opened : Workspace := ⟨.ofText [] (.caret 0), .ofFile [] (some .spin) {}, []⟩
    let typed : Turn := ⟨fun _ => rows, .request (.press (.char '.')), opened⟩
    let menu : Menu :=
      ⟨[⟨['.'], .trigger⟩, ⟨['a'], .storage⟩, ⟨['b'], .storage⟩, ⟨['c', 'd'], .storage⟩], 0, .dot,
        .nameOnly, 2, ⟨0, 0⟩⟩
    History [typed] typed.after ∧ typed.after.assistant.overlay = .menu menu ∧
      typed.after.assistant.language = .spin ∧
      2 ≤ menu.items.length ∧
      menu.items.head? = some ⟨[menu.trigger.char], .trigger⟩ ∧
      menu.active < menu.items.length ∧
      (menu.items.map (·.text)).Nodup ∧
      (∀ item ∈ menu.items, Text.Trimmed item.text) ∧
      (∃ item ∈ menu.items.tail, item.text.length = menu.width) ∧
      ∀ item ∈ menu.items.tail, item.text.length ≤ menu.width := by
  intro rows opened typed menu
  have hFirst : Menu.declared ['v', '\t', 'a', ',', ' ', 'b'] = ['a', ',', ' ', 'b'] :=
    Menu.declared_eq_of_plain (by decide) (by decide) (by decide) (by decide)
  have hSecond : Menu.declared ['v', '\t', 'b', ' ', ',', 'c', 'd'] = ['b', ' ', ',', 'c', 'd'] :=
    Menu.declared_eq_of_plain (by decide) (by decide) (by decide) (by decide)
  have hItems : rows.foldl Menu.addRow [⟨[Trigger.dot.char], .trigger⟩] = menu.items := by
    simp only [rows, List.foldl_cons, List.foldl_nil, Menu.addRow, Menu.names, hFirst, hSecond]
    rfl
  have hKept : (Menu.arrange .dot .file rows).filter (fun row =>
      !Menu.leavesOut .dot .file true (Symbol.kind? row)) = rows := by rfl
  have hBuild : Menu.build rows .dot .file {} = some (menu.items, 2) := by
    rw [Menu.build, hKept]
    simp only [hItems]
    rfl
  have hBounds : opened.document.InBounds := Document.inBounds_ofText _ _
  have hPressed : Yields (Assisting.press typed.source (.char '.')) opened fun _ after =>
      after.assistant.overlay = .menu menu := by
    rw [Assisting.press, yields_bind, Assisting.yields_assistant]
    change Yields (Assisting.pressPlain typed.source (.char '.')) opened _
    rw [Assisting.pressPlain, if_neg (by decide), yields_bind, Assisting.yields_assistant]
    change Yields (Assisting.openMenu typed.source .dot >>= fun _ => pure Outcome.handled) opened _
    have hShown := Assisting.openMenu_yields_rows hBounds typed.source .dot rfl rfl rfl rfl rfl
      hBuild
    exact yields_bind.mpr (hShown.mono fun _ _ hMenu => yields_pure.mpr hMenu)
  obtain ⟨_, after, hRun, hMenu⟩ := hPressed
  have hAfter : typed.after = after := congrArg Prod.snd (Assisting.run_bind_of_ok hRun)
  rw [← hAfter] at hMenu
  have hOpened : History [] opened := .opened _ _ _ _
  have hTyped : History [typed] typed.after := hOpened.next typed.source _
  exact ⟨hTyped, hMenu, (overlay_wellFormed hTyped).1 menu hMenu⟩

end History

end EditAssist
