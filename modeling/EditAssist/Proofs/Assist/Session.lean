import EditAssist.Proofs.Assist.Pressing
import EditAssist.Proofs.Assist.Reacting

/-! What keys cost to undo. Within a session every menu that is shown starts with its trigger,
whatever documents and symbol tables the session has met. So a key that first puts a trigger back
leaves nothing selected for its second part, and two undos take any key back. -/
namespace EditAssist

namespace Assistant

variable {before : Assistant} {overlay : Overlay}

/-- A menu that was found starts with its trigger, and it keeps its rows while it is moved in. -/
theorem Shows.sound {request : Request} (h : before.Shows request overlay)
    (hBefore : before.overlay.Sound) : overlay.Sound := by
  cases h with
  | hidden | hintsMoved | hintsFound => trivial
  | kept => exact hBefore
  | menuMoved _ hMenu =>
      rw [hMenu] at hBefore
      exact hBefore
  | menuFound _ _ hBuild => exact Menu.build_starts hBuild

end Assistant

/-- The assistants that a session can come to. Nothing else sets an overlay. Keys, choices and
looks for hints may meet any document and any symbol table, and may fail on them. -/
inductive Session : Assistant → Prop
  | opened (file : List Char) (language : Option Language) (preferences : Preferences) :
      Session (.ofFile file language preferences)
  | pressed {workspace : Workspace} (hSession : Session workspace.assistant)
      (source : SymbolSource) (key : Key) :
      Session ((Assisting.press source key).run workspace).2.assistant
  | chosen {workspace : Workspace} (hSession : Session workspace.assistant) (index : Nat) :
      Session ((Assisting.acceptMenu index).run workspace).2.assistant
  | refreshed {workspace : Workspace} (hSession : Session workspace.assistant)
      (source : SymbolSource) :
      Session ((Assisting.refreshHints source).run workspace).2.assistant
  | hidden {assistant : Assistant} (hSession : Session assistant) : Session assistant.hide
  | configured {assistant : Assistant} (hSession : Session assistant)
      (preferences : Preferences) : Session (assistant.setPreferences preferences)
  | speaking {assistant : Assistant} (hSession : Session assistant) (language : Language) :
      Session { assistant with language := language }
  | saved {assistant : Assistant} (hSession : Session assistant) (document : Document) :
      Session (assistant.markSaved document)

namespace Session

variable {assistant : Assistant}

/-- What holds where nothing is shown, and goes over from what is shown to all that a request may
show, holds throughout a session. A request that fails leaves what was shown or nothing, and
preferences only hide. -/
theorem overlay_of_shows {shown : Overlay → Prop} (hHidden : shown .hidden)
    (hShows : ∀ {before : Assistant} {request : Request} {overlay : Overlay},
      before.Shows request overlay → shown before.overlay → shown overlay)
    (hSession : Session assistant) : shown assistant.overlay := by
  have hAfter {workspace : Workspace} (source : SymbolSource) (request : Request)
      (hBefore : shown workspace.assistant.overlay) :
      shown ((request.actions source).run workspace).2.assistant.overlay := by
    apply @Assisting.assistant_after_request workspace source request (shown ·.overlay)
    · rintro overlay (rfl | rfl)
      · exact hBefore
      · exact hHidden
    · exact fun overlay hShown => hShows hShown hBefore
  induction hSession with
  | opened file language preferences => exact hHidden
  | pressed _ source key ih =>
      rw [← Assisting.after_ignoring]
      exact hAfter source (.press key) ih
  | chosen _ index ih =>
      rw [← Assisting.after_ignoring]
      exact hAfter (fun _ => []) (.choose index) ih
  | refreshed _ source ih => exact hAfter source .refresh ih
  | hidden _ ih => exact hHidden
  | configured _ preferences ih =>
      simp only [Assistant.setPreferences]
      split
      · split
        · exact ih
        · exact hHidden
      · exact ih
  | speaking _ language ih => exact ih
  | saved _ document ih => exact ih

/-- Menus come from the symbol table alone, so each of them starts with its trigger. -/
theorem sound (hSession : Session assistant) : assistant.overlay.Sound :=
  hSession.overlay_of_shows trivial Assistant.Shows.sound

end Session

open Document (UndoneBy)

/-- A key costs two undos at most. They lead back to the very document from before the key, with
its text, its selection and its history, and a key that costs none has done nothing. -/
theorem press_undoneBy {workspace : Workspace} (hSession : Session workspace.assistant)
    (hBounds : workspace.document.InBounds) (hClosed : workspace.document.pending = none)
    (source : SymbolSource) (key : Key) :
    ∃ outcome after count,
      (Assisting.press source key).run workspace = (.ok outcome, after) ∧ count ≤ 2 ∧
        UndoneBy count workspace.document after.document ∧
          (count = 0 → after.document = workspace.document) := by
  -- the trigger leaves a mere caret, so a key that is pressed after it has nothing to delete
  have hFirst (menu : Menu) (hMenu : workspace.assistant.overlay = .menu menu) :
      Yields (Assisting.acceptMenu 0) workspace fun _ after =>
        Document.Edited 1 workspace.document after.document ∧
          after.document.deletions ≤ 0 := by
    have hSound := hSession.sound
    rw [hMenu] at hSound
    apply Yields.mono (Assisting.acceptMenu_zero_yields hBounds hMenu hSound)
    intro _ after hAccepted
    obtain ⟨hTyped, hEdited, -⟩ := hAccepted
    exact ⟨hEdited, Nat.le_of_eq hTyped.deletions_eq_zero⟩
  obtain ⟨outcome, after, hRun, hEdited⟩ :=
    Assisting.press_yields hBounds source key workspace.document.deletions_le_one hFirst
  obtain ⟨count, hCount, hUndone⟩ := hEdited.undoable.undone hClosed
  refine ⟨outcome, after, count, hRun, hCount, hUndone, ?_⟩
  rintro rfl
  exact Except.ok.inj hUndone.back

/-- A menu is open, and text that has been selected since is in the way of its trigger. -/
theorem press_undoneBy_behind_menu :
    let source : SymbolSource := fun _ => [['f', '\t', 'g', 'o']]
    let shown := ((Assisting.press source (.char '.')).run
      ⟨.ofText [] (.caret 0), .ofFile [] (some .spin) {}, []⟩).2
    let workspace := { shown with document := .ofText ['a', '\n', 'b'] ⟨0, 3⟩ }
    Session workspace.assistant ∧ workspace.document.InBounds ∧
      workspace.document.pending = none ∧
        ∃ outcome after count,
          (Assisting.press source .backTab).run workspace = (.ok outcome, after) ∧ count ≤ 2 ∧
            UndoneBy count workspace.document after.document ∧
              (count = 0 → after.document = workspace.document) := by
  intro source shown workspace
  have hSession : Session workspace.assistant := .pressed (.opened [] (some .spin) {}) source _
  have hBounds : workspace.document.InBounds := ⟨by decide, by decide⟩
  exact ⟨hSession, hBounds, rfl, press_undoneBy hSession hBounds rfl source .backTab⟩

/-- Two undos are needed where a trigger that finds no menu is typed over a selection. -/
example : ((Assisting.press (fun _ => []) (.char '.')).run
    ⟨.ofText ['a'] ⟨0, 1⟩, .ofFile [] (some .spin) {}, []⟩).2.document.undoDepth = 2 := by
  decide

end EditAssist
