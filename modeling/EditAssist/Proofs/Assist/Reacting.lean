import EditAssist.Assist.Keys
import EditAssist.Proofs.Assist.Opening
import EditAssist.Proofs.Document.Endings
import EditAssist.Proofs.Document.Words

/-! What an assistant does when it is asked to do something: what it may show afterwards, which
question it may put to the symbol table, and when it leaves the document alone. `press_ends` says
this once for every key, whatever the overlay and the document are and whether or not the key
succeeds; in particular, a key that is not handled has edited nothing. -/
namespace EditAssist

open Text

/-- What is asked of an assistant in a document. -/
inductive Request
  | press (key : Key)
  | choose (index : Nat)
  | refresh
  deriving DecidableEq, Repr

/-- The key that moves in a direction. -/
def Direction.key : Direction → Key
  | up => .up
  | down => .down

/-- Characters and refreshes look for hints anew. -/
def Request.looks : Request → Bool
  | press (.char _) | refresh => true
  | _ => false

namespace Assistant

/-- What may be on show after a request that succeeds. A look for hints keeps what was there only
if hints are turned off or a menu is open, and Up and Down never keep hints as they are. -/
inductive Shows (request : Request) (before : Assistant) : Overlay → Prop
  | hidden : Shows request before .hidden
  | kept (hLooks : request.looks = true →
        before.preferences.hints = false ∨ ∃ menu, before.overlay = .menu menu)
      (hMoves : ∀ direction : Direction, request = .press direction.key →
        ∀ hints, before.overlay ≠ .hints hints) :
      Shows request before before.overlay
  | hintsMoved {direction : Direction} {hints : Hints}
      (hRequest : request = .press direction.key) (hBefore : before.overlay = .hints hints) :
      Shows request before (.hints (hints.move direction))
  | menuMoved {direction : Direction} {menu : Menu}
      (hRequest : request = .press direction.key) (hBefore : before.overlay = .menu menu) :
      Shows request before (.menu (menu.move direction))
  | hintsFound {typed : List Char} {rows : List (List Char)} {anchor : Anchor}
      (hLooks : request.looks = true) (hOn : before.preferences.hints = true)
      (hSome : Candidates.ofRows typed rows ≠ []) :
      Shows request before (.hints (.ofEntries (Candidates.ofRows typed rows) anchor))
  | menuFound {trigger : Trigger} {rows : List (List Char)} {scope : Scope}
      {items : List MenuItem} {width : Nat} {anchor : Anchor}
      (hRequest : request = .press (.char trigger.char))
      (hOpens : before.opensMenu trigger = true)
      (hBuild : Menu.build rows trigger scope before.preferences = some (items, width)) :
      Shows request before (.menu ⟨items, 0, trigger, scope.style, width, anchor⟩)

/-- Where nothing was shown, there is nothing to be kept or moved. -/
theorem Shows.of_hidden {request : Request} {before : Assistant} {overlay : Overlay}
    (h : before.hide.Shows request overlay) : before.Shows request overlay := by
  cases h with
  | hidden => exact .hidden
  | kept => exact .hidden
  | hintsMoved _ hBefore => cases hBefore
  | menuMoved _ hBefore => cases hBefore
  | hintsFound hLooks hOn hSome => exact .hintsFound hLooks hOn hSome
  | menuFound hRequest hOpens hBuild => exact .menuFound hRequest hOpens hBuild

/-- A failure leaves what was shown, or nothing. -/
def Leaves (before : Assistant) (overlay : Overlay) : Prop :=
  overlay = before.overlay ∨ overlay = .hidden

end Assistant

/-- A word of at least `size` characters ends at the caret. -/
def Document.EndsWord (size : Nat) (document : Document) : Prop :=
  ∃ before word behind, document.text = before ++ word ++ behind ∧
    (before ++ word).length = document.caret ∧ size ≤ word.length ∧
      (∀ c ∈ word, isWordChar c = true) ∧ ∀ c, behind.head? = some c → isWordChar c = false

/-- The characters back to the start of the word are all word characters. -/
theorem Document.endsWord_of_wordStart {document : Document} {size : Nat}
    (hStop : document.wordStop document.caret = document.caret)
    (hSize : size ≤ document.caret - document.wordStart document.caret) (hSome : 0 < size) :
    document.EndsWord size := by
  have hWithin : document.caret ≤ document.length := by
    rw [wordStart] at hSize
    split at hSize
    · assumption
    · omega
  obtain ⟨front, word, behind, hCut⟩ := exists_wordCut hWithin
  have hLength := hCut.offset_eq
  have hDrop : document.text.drop document.caret = behind := by
    rw [hCut.text_eq, List.drop_left' hLength]
  rw [wordStart_eq hCut] at hSize
  rw [List.length_append] at hLength
  refine ⟨front, word, behind, hCut.text_eq, hCut.offset_eq, by omega, hCut.word_chars, ?_⟩
  intro c hHead
  obtain ⟨rest, hBehind⟩ := List.head?_eq_some_iff.mp hHead
  rw [wordStop, hDrop, hBehind, List.takeWhile_cons] at hStop
  cases hChar : isWordChar c with
  | false => rfl
  | true =>
      rw [hChar, if_pos rfl, List.length_cons] at hStop
      omega

/-- The questions that a character may raise. A trigger with a menu asks for the symbols of the
name before it, any other character asks for the members of the file if a word has been typed. -/
inductive Assistant.Asks (before : Assistant) (after : Document) (c : Char) : Lookup → Prop
  | menu {trigger : Trigger} {object : List Char} (hChar : c = trigger.char)
      (hOpens : before.opensMenu trigger = true) (hObject : ∀ x ∈ object, isBlank x = false) :
      Asks before after c ⟨trigger.catalogue, before.file, object⟩
  | hints (hPlain : ∀ trigger : Trigger, c = trigger.char → before.opensMenu trigger = false)
      (hOn : before.preferences.hints = true) (hWord : after.EndsWord Assisting.minWordLength) :
      Asks before after c ⟨.members, before.file, []⟩

/-- What is shown has no part in it. -/
theorem Assistant.Asks.of_hide {before : Assistant} {after : Document} {c : Char} {lookup : Lookup}
    (h : before.hide.Asks after c lookup) : before.Asks after c lookup := by
  cases h with
  | menu hChar hOpens hObject => exact .menu hChar hOpens hObject
  | hints hPlain hOn hWord => exact .hints hPlain hOn hWord

namespace Workspace

/-- At most one question was asked, and that is one of those allowed. -/
def Asked (allowed : Lookup → Prop) (before after : Workspace) : Prop :=
  ∃ asked : Option Lookup, after.lookups = before.lookups ++ asked.toList ∧
    ∀ lookup ∈ asked, allowed lookup

variable {before middle after : Workspace} {allowed more : Lookup → Prop}

theorem Asked.nothing (hLookups : after.lookups = before.lookups) : before.Asked allowed after :=
  ⟨none, by rw [hLookups, Option.toList_none, List.append_nil], nofun⟩

theorem Asked.mono (hAsked : before.Asked allowed after)
    (hMore : ∀ lookup, allowed lookup → more lookup) : before.Asked more after := by
  obtain ⟨asked, hLookups, hAllowed⟩ := hAsked
  exact ⟨asked, hLookups, fun lookup hLookup => hMore lookup (hAllowed lookup hLookup)⟩

theorem Asked.of_eq (hLookups : middle.lookups = before.lookups)
    (hAsked : middle.Asked allowed after) : before.Asked allowed after := by
  rw [Asked, ← hLookups]
  exact hAsked

/-- What is shown already can be shown again. -/
theorem showing_overlay (workspace : Workspace) :
    workspace.showing workspace.assistant.overlay = workspace :=
  rfl

/-- Neither the assistant nor its questions have changed. -/
structure Quiet (before after : Workspace) : Prop where
  assistant : after.assistant = before.assistant
  lookups : after.lookups = before.lookups

theorem Quiet.trans (hFirst : before.Quiet middle) (hSecond : middle.Quiet after) :
    before.Quiet after :=
  ⟨hSecond.assistant.trans hFirst.assistant, hSecond.lookups.trans hFirst.lookups⟩

/-- The assistant is the same but for what it shows. -/
def Redrawn (shown : Overlay → Prop) (before after : Workspace) : Prop :=
  ∃ overlay, shown overlay ∧ after.assistant = { before.assistant with overlay := overlay }

theorem Redrawn.of_eq {shown : Overlay → Prop} (hAssistant : middle.assistant = before.assistant)
    (hRedrawn : middle.Redrawn shown after) : before.Redrawn shown after := by
  rw [Redrawn, ← hAssistant]
  exact hRedrawn

/-- What a key does to the assistant: only the overlay may be another one, and there may be one
question more. -/
structure Reacted (key : Key) (before : Workspace) (shown : Overlay → Prop)
    (after : Workspace) : Prop where
  redrawn : before.Redrawn shown after
  asked : before.Asked
    (fun lookup => ∃ c, key = .char c ∧ before.assistant.Asks after.document c lookup) after

end Workspace

namespace Editing

variable {document : Document}

/-- A hint that may not be inserted is declined before anything is edited. -/
theorem acceptHint_ends (hints : Hints) (key : AcceptKey) (tabWidth : Nat) :
    Ends (acceptHint hints key tabWidth) document (fun _ => True) fun done after =>
      done = false → after = document := by
  rw [acceptHint]
  split
  · exact ends_pure.mpr fun _ => rfl
  · simp only [ends_bind, ends_current, ends_pure]
    exact ends_of_forall (fun _ => trivial) fun _ _ hDone => Bool.noConfusion hDone

/-- A line is not broken while text is selected, and then nothing is edited. -/
theorem breakLine_ends :
    Ends breakLine document (fun _ => True) fun done after => done = false → after = document := by
  simp only [breakLine, ends_bind, ends_current]
  split
  · exact ends_pure.mpr fun _ => rfl
  · simp only [ends_bind, ends_pure]
    refine ends_ask trivial fun place _ => ends_ask trivial fun line _ => ?_
    exact ends_of_forall (fun _ => trivial) fun _ _ hDone => Bool.noConfusion hDone

end Editing

/-- Does what is asked of the assistant. -/
def Request.actions (source : SymbolSource) : Request → Assisting Unit
  | press key => do
    let _ ← Assisting.press source key
  | choose index => do
    let _ ← Assisting.acceptMenu index
  | refresh => Assisting.refreshHints source

namespace Assisting

open Workspace (Asked Quiet Reacted)

variable {α : Type} {workspace : Workspace}

/-- Whatever is done to the document, the assistant stays as it is. -/
theorem edit_quiet (edits : Editing α) :
    Ends (edit edits) workspace workspace.Quiet fun _ after => workspace.Quiet after :=
  ends_edit.mpr (ends_of_forall (fun _ => ⟨rfl, rfl⟩) fun _ _ => ⟨rfl, rfl⟩)

theorem acceptMenu_ends (index : Nat) :
    Ends (acceptMenu index) workspace (workspace.showing .hidden).Quiet fun _ after =>
      (workspace.showing .hidden).Quiet after := by
  simp only [acceptMenu, ends_bind, ends_assistant, ends_setOverlay]
  split
  · exact edit_quiet _
  · exact ends_pure.mpr ⟨rfl, rfl⟩

theorem acceptHint_ends (key : AcceptKey) :
    Ends (acceptHint key) workspace (workspace.showing .hidden).Quiet fun done after =>
      (workspace.showing .hidden).Quiet after ∧
        (done = false → after.document = workspace.document) := by
  simp only [acceptHint, ends_bind, ends_assistant, ends_setOverlay]
  split
  · split
    · refine ends_edit.mpr ((Editing.acceptHint_ends _ key _).mono ?_ ?_)
      · exact fun _ _ => ⟨rfl, rfl⟩
      · exact fun _ _ hStill => ⟨⟨rfl, rfl⟩, hStill⟩
    · exact ends_pure.mpr ⟨⟨rfl, rfl⟩, fun _ => rfl⟩
  · exact ends_pure.mpr ⟨⟨rfl, rfl⟩, fun _ => rfl⟩

/-- What a look for hints comes to. It asks once at most, and only behind a word that is long
enough. -/
structure HintSearch (before : Workspace) (found : Option Hints) (after : Workspace) : Prop where
  document : after.document = before.document
  assistant : after.assistant = before.assistant
  asked : before.Asked (fun lookup => lookup = ⟨.members, before.assistant.file, []⟩ ∧
    before.document.EndsWord minWordLength) after
  entries : ∀ hints, found = some hints → ∃ typed rows anchor,
    Candidates.ofRows typed rows ≠ [] ∧ hints = .ofEntries (Candidates.ofRows typed rows) anchor

theorem findHints_ends (source : SymbolSource) :
    Ends (findHints source) workspace (HintSearch workspace none) (HintSearch workspace) := by
  have hSilent : HintSearch workspace none workspace := ⟨rfl, rfl, .nothing rfl, nofun⟩
  simp only [findHints, ends_bind, ends_document]
  split
  · exact ends_pure.mpr hSilent
  split
  · exact ends_pure.mpr hSilent
  next hLong =>
  simp only [Bool.or_eq_true, not_or, bne_iff_ne, ne_eq, Decidable.not_not, decide_eq_true_eq,
    Nat.not_lt] at hLong
  have hWord : workspace.document.EndsWord minWordLength :=
    Document.endsWord_of_wordStart hLong.1 hLong.2 (by decide)
  simp only [ends_bind, ends_edit, ends_lookUp]
  refine Editing.ends_ask hSilent fun typed _ => ?_
  generalize hAfter : ({ workspace with
    lookups := workspace.lookups ++ [⟨.members, workspace.assistant.file, []⟩] } : Workspace) =
      after
  have hAsked : HintSearch workspace none after := by
    subst hAfter
    exact ⟨rfl, rfl, ⟨some _, rfl, fun _ h => ⟨(Option.some.inj h).symm, hWord⟩⟩, nofun⟩
  split
  · exact ends_pure.mpr hAsked
  next hSome =>
  simp only [ends_bind, ends_edit]
  refine Editing.ends_ask hAsked fun place _ => ends_pure.mpr ?_
  refine ⟨hAsked.document, hAsked.assistant, hAsked.asked, ?_⟩
  intro hints hHints
  cases hHints
  exact ⟨_, _, _, fun hNil => hSome (List.isEmpty_iff.mpr hNil), rfl⟩

/-- What a refresh of the hints comes to. -/
structure Refreshed (before : Workspace) (shown : Overlay → Prop) (after : Workspace) : Prop where
  document : after.document = before.document
  redrawn : before.Redrawn shown after
  asked : before.Asked (fun lookup => lookup = ⟨.members, before.assistant.file, []⟩ ∧
    before.assistant.preferences.hints = true ∧ before.document.EndsWord minWordLength) after

theorem refreshHints_ends (source : SymbolSource) {request : Request}
    (hLooks : request.looks = true) :
    Ends (refreshHints source) workspace (Refreshed workspace workspace.assistant.Leaves)
      fun _ after => Refreshed workspace (workspace.assistant.Shows request) after := by
  have hStays (direction : Direction) (hRequest : request = .press direction.key) (hints : Hints) :
      workspace.assistant.overlay ≠ .hints hints := by
    subst hRequest
    cases direction <;> cases hLooks
  have hKept (h : workspace.assistant.preferences.hints = false ∨
      ∃ menu, workspace.assistant.overlay = .menu menu) :
      Refreshed workspace (workspace.assistant.Shows request) workspace :=
    ⟨rfl, ⟨_, .kept (fun _ => h) hStays, rfl⟩, .nothing rfl⟩
  simp only [refreshHints, ends_bind, ends_assistant]
  split
  next hOff => exact ends_pure.mpr (hKept (.inl hOff))
  next hMenu _ => exact ends_pure.mpr (hKept (.inr ⟨_, hMenu⟩))
  next hOn _ =>
  have hAsked {found : Option Hints} {after : Workspace}
      (hSearch : HintSearch workspace found after) :=
    hSearch.asked.mono fun _ hLookup => And.intro hLookup.1 (And.intro hOn hLookup.2)
  have hSet {found : Option Hints} {after : Workspace}
      (hSearch : HintSearch workspace found after) {overlay : Overlay}
      (hShown : workspace.assistant.Shows request overlay) :
      Refreshed workspace (workspace.assistant.Shows request) (after.showing overlay) := by
    have hLookups := hAsked hSearch
    refine ⟨hSearch.document, ⟨overlay, hShown, ?_⟩, hLookups⟩
    rw [Workspace.showing, hSearch.assistant]
  rw [ends_bind]
  apply (findHints_ends source).mono
  · intro after hSearch
    exact ⟨hSearch.document, ⟨_, .inl rfl, hSearch.assistant⟩, hAsked hSearch⟩
  · intro found after hSearch
    cases found with
    | none => exact ends_setOverlay.mpr (hSet hSearch .hidden)
    | some hints =>
        obtain ⟨typed, rows, anchor, hSome, rfl⟩ := hSearch.entries hints rfl
        exact ends_setOverlay.mpr (hSet hSearch (.hintsFound hLooks hOn hSome))

/-- The name before a trigger reaches back to white space and has none in it. -/
theorem isBlank_of_mem_nameBefore {before : List Char} {c : Char}
    (hMem : c ∈ Context.nameBefore before) : isBlank c = false := by
  rw [Context.nameBefore, List.mem_reverse] at hMem
  have hAll := List.all_eq_true.mp List.all_takeWhile c hMem
  simpa using hAll

theorem Scope.name_ofName (name : List Char) : (Scope.ofName name).name = name := by
  cases name <;> rfl

/-- What a search for a menu comes to, as far as the assistant goes. -/
structure MenuSearch (trigger : Trigger) (before : Workspace) (found : Option Menu)
    (after : Workspace) : Prop where
  assistant : after.assistant = before.assistant
  asked : before.Asked (fun lookup => ∃ object, (∀ x ∈ object, isBlank x = false) ∧
    lookup = ⟨trigger.catalogue, before.assistant.file, object⟩) after
  menu : ∀ menu, found = some menu → ∃ rows scope items width anchor,
    Menu.build rows trigger scope before.assistant.preferences = some (items, width) ∧
      menu = ⟨items, 0, trigger, scope.style, width, anchor⟩

theorem findMenu_ends (source : SymbolSource) (trigger : Trigger) :
    Ends (findMenu source trigger) workspace (MenuSearch trigger workspace none)
      (MenuSearch trigger workspace) := by
  have hSilent : MenuSearch trigger workspace none workspace := ⟨rfl, .nothing rfl, nofun⟩
  simp only [findMenu, ends_bind, ends_document, ends_edit]
  refine Editing.ends_ask hSilent fun before _ => Editing.ends_ask hSilent fun place _ =>
    Editing.ends_ask hSilent fun line _ => ?_
  split
  · exact ends_pure.mpr hSilent
  simp only [ends_bind, ends_edit, ends_lookUp, ends_assistant]
  refine ends_of_forall (fun _ => ⟨rfl, .nothing rfl, nofun⟩) fun _ edited => ?_
  have hAsked (found : Option Menu) (hMenu : ∀ menu, found = some menu → ∃ rows scope items width
      anchor, Menu.build rows trigger scope workspace.assistant.preferences = some (items, width) ∧
        menu = ⟨items, 0, trigger, scope.style, width, anchor⟩) :
      MenuSearch trigger workspace found { workspace with
        document := edited
        lookups := workspace.lookups ++ [⟨trigger.catalogue, workspace.assistant.file,
          (Scope.ofName (Context.nameBefore (line.take place.column))).name⟩] } := by
    refine ⟨rfl, ⟨some _, rfl, ?_⟩, hMenu⟩
    intro lookup hLookup
    refine ⟨_, ?_, (Option.some.inj hLookup).symm⟩
    rw [Scope.name_ofName]
    exact fun x => isBlank_of_mem_nameBefore
  split
  · exact ends_pure.mpr (hAsked none nofun)
  next items width hBuild =>
  refine ends_pure.mpr (hAsked _ ?_)
  intro menu hMenu
  cases hMenu
  exact ⟨_, _, _, _, _, hBuild, rfl⟩

variable {before middle after : Workspace} {key : Key} {shown : Overlay → Prop}

theorem reacted_of_quiet {overlay : Overlay} (hQuiet : (before.showing overlay).Quiet after)
    (hShown : shown overlay) : before.Reacted key shown after :=
  ⟨⟨overlay, hShown, hQuiet.assistant⟩, .nothing hQuiet.lookups⟩

/-- A failure behind an overlay that has gone away leaves nothing on show. -/
theorem reacted_of_hidden (hQuiet : (before.showing .hidden).Quiet after) :
    before.Reacted key before.assistant.Leaves after :=
  reacted_of_quiet hQuiet (.inr rfl)

/-- How a key is answered: with what the assistant may do for it, and without an edit if it is
still to have its ordinary effect. The keys that a menu passes on are never left over. -/
structure Answered (key : Key) (before : Workspace) (outcome : Outcome) (after : Workspace) :
    Prop where
  reacted : before.Reacted key (before.assistant.Shows (.press key)) after
  untouched : outcome = .unhandled → after.document = before.document
  handled : (key = .backTab ∨ ∃ c, key = .char c) → outcome = .handled

theorem answered_of_quiet {overlay : Overlay} (hQuiet : (before.showing overlay).Quiet after)
    (hShown : before.assistant.Shows (.press key) overlay) : Answered key before .handled after :=
  ⟨reacted_of_quiet hQuiet hShown, nofun, fun _ => rfl⟩

/-- Hints go away before a Tab does anything, and it is always done with. -/
theorem pressTab_ends (accept : AcceptKey) (shift : Shift) :
    Ends (pressTab accept shift) workspace (workspace.Reacted key workspace.assistant.Leaves)
      (Answered key workspace) := by
  simp only [pressTab, ends_bind, ends_assistant]
  apply (acceptHint_ends accept).mono
  · exact fun _ => reacted_of_hidden
  · rintro done middle ⟨hQuiet, -⟩
    cases done with
    | true => exact ends_pure.mpr (answered_of_quiet hQuiet .hidden)
    | false =>
        refine ends_bind.mpr ((edit_quiet _).mono ?_ ?_)
        · exact fun _ hEdit => reacted_of_hidden (hQuiet.trans hEdit)
        · exact fun _ _ hEdit => ends_pure.mpr (answered_of_quiet (hQuiet.trans hEdit) .hidden)

/-- A key that picks a hint does so where hints are shown and does nothing else. -/
theorem pickHint_ends (direction : Direction) :
    Ends (pickHint direction) workspace
      (workspace.Reacted direction.key workspace.assistant.Leaves)
      (Answered direction.key workspace) := by
  simp only [pickHint, ends_bind, ends_assistant]
  split
  next hints hHints =>
    refine ends_bind.mpr (ends_setOverlay.mpr (ends_pure.mpr ?_))
    exact answered_of_quiet ⟨rfl, rfl⟩ (.hintsMoved rfl hHints)
  next hOther =>
    have hKept : workspace.assistant.Shows (.press direction.key) workspace.assistant.overlay :=
      .kept (by cases direction <;> nofun) fun _ _ => hOther
    refine ends_pure.mpr ⟨⟨⟨_, hKept, rfl⟩, .nothing rfl⟩, fun _ => rfl, ?_⟩
    cases direction <;> rintro (hKey | ⟨c, hKey⟩) <;> cases hKey

/-- A closing brace hides what is shown and asks nothing, wherever it goes. -/
theorem typeBrace_quiet :
    Ends typeBrace workspace (workspace.showing .hidden).Quiet fun outcome after =>
      outcome = .handled ∧ (workspace.showing .hidden).Quiet after := by
  simp only [typeBrace, ends_bind, ends_setOverlay, ends_assistant]
  apply (edit_quiet _).mono (fun _ hQuiet => hQuiet)
  intro done middle hQuiet
  cases done with
  | true => exact ends_pure.mpr ⟨rfl, hQuiet⟩
  | false =>
      refine ends_bind.mpr ((edit_quiet _).mono ?_ ?_)
      · exact fun _ hEdit => hQuiet.trans hEdit
      · exact fun _ _ hEdit => ends_pure.mpr ⟨rfl, hQuiet.trans hEdit⟩

theorem typeBrace_ends :
    Ends typeBrace workspace (workspace.Reacted key workspace.assistant.Leaves)
      (Answered key workspace) := by
  apply typeBrace_quiet.mono (fun _ => reacted_of_hidden)
  rintro _ after ⟨rfl, hQuiet⟩
  exact answered_of_quiet hQuiet .hidden

/-- Looking for hints comes after the character has been typed. -/
theorem typeChar_ends (source : SymbolSource) {c : Char}
    (hPlain : ∀ trigger : Trigger, c = trigger.char →
      workspace.assistant.opensMenu trigger = false) :
    Ends (typeChar source c) workspace (workspace.Reacted (.char c) workspace.assistant.Leaves)
      (Answered (.char c) workspace) := by
  simp only [typeChar, ends_bind]
  apply (edit_quiet _).mono
  · exact fun _ hQuiet => ⟨⟨_, .inl rfl, hQuiet.assistant⟩, .nothing hQuiet.lookups⟩
  intro _ middle hQuiet
  have hReacted {shown : Overlay → Prop} {after : Workspace}
      (hRefreshed : Refreshed middle shown after) : workspace.Reacted (.char c) shown after := by
    refine ⟨.of_eq hQuiet.assistant hRefreshed.redrawn, .of_eq hQuiet.lookups ?_⟩
    apply hRefreshed.asked.mono
    rintro lookup ⟨rfl, hOn, hWord⟩
    rw [hQuiet.assistant] at hOn ⊢
    rw [← hRefreshed.document] at hWord
    exact ⟨c, rfl, .hints hPlain hOn hWord⟩
  have hLooks : (Request.press (.char c)).looks = true := rfl
  apply (refreshHints_ends source hLooks).mono
  · rw [hQuiet.assistant]
    exact fun _ => hReacted
  · rw [hQuiet.assistant]
    exact fun _ _ h => ends_pure.mpr ⟨hReacted h, nofun, fun _ => rfl⟩

/-- A search has shown nothing yet. -/
theorem MenuSearch.showing_hidden {trigger : Trigger} {found : Option Menu}
    (hSearch : MenuSearch trigger (before.showing .hidden) found middle) :
    middle.showing .hidden = middle := by
  have hOverlay : middle.assistant.overlay = .hidden := congrArg Assistant.overlay hSearch.assistant
  rw [← hOverlay, middle.showing_overlay]

/-- What is shown after a search is up to what found it. -/
theorem MenuSearch.reacted {trigger : Trigger} {found : Option Menu} {overlay : Overlay}
    (hSearch : MenuSearch trigger (before.showing .hidden) found middle)
    (hOpens : before.assistant.opensMenu trigger = true)
    (hQuiet : (middle.showing overlay).Quiet after) (hShown : shown overlay) :
    before.Reacted (.char trigger.char) shown after := by
  refine ⟨⟨overlay, hShown, ?_⟩, ?_⟩
  · rw [hQuiet.assistant, Workspace.showing, hSearch.assistant]
    rfl
  · obtain ⟨asked, hLookups, hAllowed⟩ := hSearch.asked
    refine ⟨asked, hQuiet.lookups.trans hLookups, fun lookup hLookup => ?_⟩
    obtain ⟨object, hObject, rfl⟩ := hAllowed lookup hLookup
    exact ⟨_, rfl, .menu rfl hOpens hObject⟩

theorem openMenu_ends (source : SymbolSource) {trigger : Trigger}
    (hOpens : workspace.assistant.opensMenu trigger = true) :
    Ends (openMenu source trigger) workspace
      (workspace.Reacted (.char trigger.char) workspace.assistant.Leaves) fun _ after =>
        workspace.Reacted (.char trigger.char)
          (workspace.assistant.Shows (.press (.char trigger.char))) after := by
  simp only [openMenu, ends_bind, ends_setOverlay]
  apply (findMenu_ends source trigger).mono
  · intro middle hSearch
    exact hSearch.reacted hOpens (hSearch.showing_hidden ▸ ⟨rfl, rfl⟩) (.inr rfl)
  intro found middle hSearch
  cases found with
  | some menu =>
      obtain ⟨rows, scope, items, width, anchor, hBuild, rfl⟩ := hSearch.menu menu rfl
      exact ends_setOverlay.mpr
        (hSearch.reacted hOpens ⟨rfl, rfl⟩ (.menuFound rfl hOpens hBuild))
  | none =>
      have hStill := hSearch.showing_hidden
      rw [← hStill]
      apply (edit_quiet _).mono
      · exact fun _ hQuiet => hSearch.reacted hOpens hQuiet (.inr rfl)
      · exact fun _ _ hQuiet => hSearch.reacted hOpens hQuiet .hidden

theorem pressPlain_ends (source : SymbolSource) (key : Key) :
    Ends (pressPlain source key) workspace (workspace.Reacted key workspace.assistant.Leaves)
      (Answered key workspace) := by
  have hLeft {key : Key} (hKey : ¬ (key = .backTab ∨ ∃ c, key = .char c)) :
      Answered key workspace .unhandled (workspace.showing .hidden) :=
    ⟨reacted_of_quiet ⟨rfl, rfl⟩ .hidden, fun _ => rfl, fun h => absurd h hKey⟩
  cases key with
  | enter =>
      rw [pressPlain, ends_bind]
      apply (acceptHint_ends .enter).mono (fun _ => reacted_of_hidden)
      rintro done middle ⟨hQuiet, hStill⟩
      cases done with
      | true => exact ends_pure.mpr (answered_of_quiet hQuiet .hidden)
      | false =>
          refine ends_bind.mpr (ends_edit.mpr (Editing.breakLine_ends.mono ?_ ?_))
          · exact fun _ _ => reacted_of_hidden (hQuiet.trans ⟨rfl, rfl⟩)
          · intro done edited hDeclined
            refine ends_pure.mpr
              ⟨reacted_of_quiet (hQuiet.trans ⟨rfl, rfl⟩) .hidden, ?_, by simp⟩
            intro hOutcome
            cases done with
            | true => cases hOutcome
            | false => exact (hDeclined rfl).trans (hStill rfl)
  | tab => exact pressTab_ends .tab .indent
  | backTab => exact pressTab_ends .backTab .outdent
  | up => exact pickHint_ends .up
  | down => exact pickHint_ends .down
  | escape => exact ends_bind.mpr (ends_setOverlay.mpr (ends_pure.mpr (hLeft (by simp))))
  | backspace => exact ends_bind.mpr (ends_setOverlay.mpr (ends_pure.mpr (hLeft (by simp))))
  | char c =>
      rw [pressPlain]
      split
      · exact typeBrace_ends
      rw [ends_bind, ends_assistant]
      split
      next trigger hTrigger =>
        obtain ⟨hChar, hOpens⟩ := Option.filter_eq_some_iff.mp hTrigger
        obtain rfl := Trigger.ofChar?_eq_some_iff.mp hChar
        refine ends_bind.mpr ((openMenu_ends source hOpens).mono (fun _ h => h) ?_)
        exact fun _ _ hReacted => ends_pure.mpr ⟨hReacted, nofun, fun _ => rfl⟩
      next hNone =>
        refine typeChar_ends source fun trigger hChar => ?_
        rw [Trigger.ofChar?_eq_some_iff.mpr hChar, Option.filter_eq_none_iff] at hNone
        exact Bool.eq_false_iff.mpr (hNone trigger rfl)

/-- Once the menu is gone, nothing that a key shows depends on what was shown before. -/
theorem answered_behind_menu (hQuiet : (before.showing .hidden).Quiet middle) {outcome : Outcome}
    (hKey : key = .backTab ∨ ∃ c, key = .char c) (hAgain : Answered key middle outcome after) :
    Answered key before outcome after := by
  have hHandled := hAgain.handled hKey
  refine ⟨⟨?_, .of_eq hQuiet.lookups ?_⟩, ?_, fun _ => hHandled⟩
  · obtain ⟨overlay, hShown, hAfter⟩ := hAgain.reacted.redrawn
    rw [hQuiet.assistant] at hShown hAfter
    exact ⟨overlay, hShown.of_hidden, hAfter⟩
  · apply hAgain.reacted.asked.mono
    rintro lookup ⟨c, hChar, hAsks⟩
    rw [hQuiet.assistant] at hAsks
    exact ⟨c, hChar, hAsks.of_hide⟩
  · intro hLeft
    rw [hHandled] at hLeft
    cases hLeft

theorem reacted_behind_menu (hQuiet : (before.showing .hidden).Quiet middle)
    (hAgain : middle.Reacted key middle.assistant.Leaves after) :
    before.Reacted key before.assistant.Leaves after := by
  obtain ⟨⟨overlay, hShown, hAfter⟩, hAsked⟩ := hAgain
  rw [hQuiet.assistant] at hShown hAfter hAsked
  refine ⟨⟨overlay, .inr ?_, hAfter⟩, .of_eq hQuiet.lookups ?_⟩
  · rcases hShown with hKept | hHidden
    · exact hKept
    · exact hHidden
  · apply hAsked.mono
    rintro lookup ⟨c, hChar, hAsks⟩
    exact ⟨c, hChar, hAsks.of_hide⟩

theorem pressInMenu_ends (source : SymbolSource) {menu : Menu}
    (hMenu : workspace.assistant.overlay = .menu menu) (key : Key) :
    Ends (pressInMenu source menu key) workspace
      (workspace.Reacted key workspace.assistant.Leaves) (Answered key workspace) := by
  have hMoved (direction : Direction) :
      Answered direction.key workspace .handled (workspace.showing (.menu (menu.move direction))) :=
    answered_of_quiet ⟨rfl, rfl⟩ (.menuMoved rfl hMenu)
  have hChosen {key : Key} : Ends (acceptMenu menu.active) workspace
      (workspace.Reacted key workspace.assistant.Leaves) fun _ after =>
        Answered key workspace .handled after :=
    (acceptMenu_ends menu.active).mono (fun _ => reacted_of_hidden)
      fun _ _ hQuiet => answered_of_quiet hQuiet .hidden
  have hAgain {key : Key} {middle : Workspace} (hQuiet : (workspace.showing .hidden).Quiet middle)
      (hKey : key = .backTab ∨ ∃ c, key = .char c) :
      Ends (pressPlain source key) middle (workspace.Reacted key workspace.assistant.Leaves)
        (Answered key workspace) :=
    (pressPlain_ends source key).mono (fun _ => reacted_behind_menu hQuiet)
      fun _ _ => answered_behind_menu hQuiet hKey
  cases key <;> simp only [pressInMenu, ends_bind, ends_setOverlay, ends_pure]
  case up => exact hMoved .up
  case down => exact hMoved .down
  case enter | tab => exact hChosen
  case escape => exact answered_of_quiet ⟨rfl, rfl⟩ .hidden
  case backspace => exact ⟨reacted_of_quiet ⟨rfl, rfl⟩ .hidden, fun _ => rfl, by simp⟩
  case backTab =>
    apply (acceptMenu_ends 0).mono (fun _ => reacted_of_hidden)
    exact fun _ _ hQuiet => hAgain hQuiet (.inl rfl)
  case char c =>
    apply (acceptMenu_ends 0).mono (fun _ => reacted_of_hidden)
    intro _ middle hQuiet
    split
    · exact ends_pure.mpr (answered_of_quiet hQuiet .hidden)
    · exact hAgain hQuiet (.inr ⟨c, rfl⟩)

/-- Every key of every assistant. -/
theorem press_ends (source : SymbolSource) (key : Key) :
    Ends (press source key) workspace (workspace.Reacted key workspace.assistant.Leaves)
      (Answered key workspace) := by
  simp only [press, ends_bind, ends_assistant]
  split
  next menu hMenu => exact pressInMenu_ends source hMenu key
  next => exact pressPlain_ends source key

/-- What a key asks, whether or not it succeeds. -/
theorem press_asked (source : SymbolSource) (key : Key) :
    let after := ((press source key).run workspace).2
    workspace.Asked
      (fun lookup => ∃ c, key = .char c ∧ workspace.assistant.Asks after.document c lookup)
      after := by
  have hFailed (after : Workspace)
      (h : workspace.Reacted key workspace.assistant.Leaves after) := h.asked
  have hAnswered (outcome : Outcome) (after : Workspace)
      (h : Answered key workspace outcome after) := h.reacted.asked
  exact (press_ends source key).after hFailed hAnswered

/-- A choice from a menu asks nothing. -/
theorem acceptMenu_lookups (index : Nat) :
    ((acceptMenu index).run workspace).2.lookups = workspace.lookups := by
  have hQuiet (after : Workspace) (h : (workspace.showing .hidden).Quiet after) :
      after.lookups = workspace.lookups := h.lookups
  exact (acceptMenu_ends index).after hQuiet fun _ => hQuiet

/-- What becomes of the answer makes no difference to the workspace. -/
theorem after_ignoring (actions : Assisting α) :
    ((actions >>= fun _ => pure ()).run workspace).2 = (actions.run workspace).2 := by
  rw [run_bind]
  rcases actions.run workspace with ⟨_ | _, after⟩ <;> rfl

/-- What a request does to the assistant: it changes the overlay alone. -/
theorem request_ends (source : SymbolSource) (request : Request) :
    Ends (request.actions source) workspace (workspace.Redrawn workspace.assistant.Leaves)
      fun _ after => workspace.Redrawn (workspace.assistant.Shows request) after := by
  cases request with
  | press key =>
      refine ends_bind.mpr ((press_ends source key).mono ?_ ?_)
      · exact fun _ hReacted => hReacted.redrawn
      · exact fun _ _ hAnswered => ends_pure.mpr hAnswered.reacted.redrawn
  | choose index =>
      refine ends_bind.mpr ((acceptMenu_ends index).mono ?_ ?_)
      · exact fun _ hQuiet => ⟨_, .inr rfl, hQuiet.assistant⟩
      · exact fun _ _ hQuiet => ends_pure.mpr ⟨_, .hidden, hQuiet.assistant⟩
  | refresh =>
      have hLooks : Request.refresh.looks = true := rfl
      apply (refreshHints_ends source hLooks).mono
      · exact fun _ hRefreshed => hRefreshed.redrawn
      · exact fun _ _ hRefreshed => hRefreshed.redrawn

/-- What holds of an assistant whatever it may show holds of it after a request. -/
theorem assistant_after_request (source : SymbolSource) (request : Request)
    {post : Assistant → Prop}
    (hLeaves : ∀ overlay, workspace.assistant.Leaves overlay →
      post { workspace.assistant with overlay := overlay })
    (hShows : ∀ overlay, workspace.assistant.Shows request overlay →
      post { workspace.assistant with overlay := overlay }) :
    post ((request.actions source).run workspace).2.assistant := by
  have hRedrawn {shown : Overlay → Prop} (hPost : ∀ overlay, shown overlay →
      post { workspace.assistant with overlay := overlay }) (after : Workspace)
      (h : workspace.Redrawn shown after) : post after.assistant := by
    obtain ⟨overlay, hShown, hAfter⟩ := h
    rw [hAfter]
    exact hPost overlay hShown
  exact (request_ends source request).after (hRedrawn hLeaves) fun _ => hRedrawn hShows

/-- A key that is still to have its ordinary effect has had none on the document: text, selection,
history and open groups are what they were. -/
theorem press_untouched_of_unhandled (source : SymbolSource) (key : Key) {after : Workspace}
    (hLeft : (press source key).run workspace = (.ok .unhandled, after)) :
    after.document = workspace.document := by
  have hAnswered : Answered key workspace .unhandled after :=
    (ends_of_run hLeft).mp (press_ends source key)
  exact hAnswered.untouched rfl

/-- Enter meets two hints of which none was picked, a selection in its way, and an open group. -/
theorem press_untouched_under_hints :
    let group : ChangeGroup := ⟨[⟨0, [], 2⟩], ⟨0, 2⟩⟩
    let workspace : Workspace :=
      { document := ⟨['a', 'b', '\n'], ⟨1, 3⟩, [group], some ⟨⟨[], ⟨1, 3⟩⟩, 1⟩⟩
        assistant :=
          { file := [], language := .spin, preferences := {}
            overlay := .hints (.ofEntries [['a'], ['b']] ⟨0, 0⟩) } }
    let after := workspace.showing .hidden
    (press (fun _ => []) .enter).run workspace = (.ok .unhandled, after) ∧
      after.document = workspace.document := by
  intro group workspace after
  have hLeft : (press (fun _ => []) .enter).run workspace = (.ok .unhandled, after) := by rfl
  exact ⟨hLeft, press_untouched_of_unhandled (fun _ => []) .enter hLeft⟩

end Assisting

end EditAssist
