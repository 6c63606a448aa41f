import EditAssist.Proofs.Assist.Consent
import EditAssist.Proofs.Assist.Pressing

/-! Typing a closing brace loses no code. The brace goes where the selection is, or white space in
front of it on its line gives way to less of it; either way the characters that are no white space
stay in their order, and the brace joins them at the caret. -/
namespace EditAssist

open Text

namespace Text

/-- The characters of a text that are no white space. -/
def solid (text : List Char) : List Char :=
  text.filter fun c => !isBlank c

@[simp] theorem solid_append (left right : List Char) :
    solid (left ++ right) = solid left ++ solid right :=
  List.filter_append ..

theorem solid_eq_nil {text : List Char} (hBlank : ∀ c ∈ text, isBlank c = true) :
    solid text = [] := by
  rw [solid, List.filter_eq_nil_iff]
  intro c hMem
  simp [hBlank c hMem]

end Text

@[simp] theorem Shift.solid_spaces (count : Nat) : solid (spaces count) = [] :=
  solid_eq_nil fun _ hMem => List.eq_of_mem_replicate hMem ▸ by decide

namespace Document

variable {before after : Document} {tabWidth : Nat} {above lead : List Char}

/-- What is typed joins the text between what is solid on either side of the selection. -/
theorem Typed.solid_eq {text : List Char} (h : Typed text before after) :
    solid after.text = solid (before.text.take before.selection.start) ++ solid text ++
      solid (before.text.drop before.selection.stop) := by
  rw [h.text_eq, solid_append, solid_append]

theorem PulledLeft.solid_eq (h : PulledLeft tabWidth above lead before after) :
    solid after.text = solid (before.text.take before.selection.start) ++ solid ['\x7d'] ++
      solid (before.text.drop before.selection.stop) := by
  have hFront : solid (before.text.take before.caret) = solid above := by
    rw [h.in_front.text_eq, solid_append, solid_eq_nil h.blank, List.append_nil]
  rw [Selection.start_eq_head h.not_selected, Selection.stop_eq_head h.not_selected, h.text_eq,
    solid_append, solid_append, solid_append, Shift.solid_spaces, List.nil_append, ← hFront]
  rfl

end Document

namespace Assisting

open Document (Typed PulledLeft)

variable {workspace : Workspace}

/-- A closing brace, typed where no menu is shown, is one undo, and nothing but white space goes
with what was selected. -/
theorem press_brace_keeps_code (source : SymbolSource) (hBounds : workspace.document.InBounds)
    (hMenu : workspace.assistant.overlay.menu? = none) :
    ∃ after, (press source (.char '\x7d')).run workspace = (.ok .handled, after) ∧
      (Typed ['\x7d'] workspace.document after.document ∨ ∃ above lead,
        PulledLeft workspace.assistant.tabWidth above lead workspace.document after.document) ∧
      (workspace.document.pending = none →
        Document.UndoneBy 1 workspace.document after.document) ∧
      solid after.document.text =
        solid (workspace.document.text.take workspace.document.selection.start) ++
          '\x7d' :: solid (workspace.document.text.drop workspace.document.selection.stop) := by
  have hPlain : pressPlain source (.char '\x7d') = typeBrace := by rw [pressPlain, if_pos rfl]
  obtain ⟨_, after, hRun, rfl, hPlaced, hUndoable, hChanged⟩ := typeBrace_places hBounds
  refine ⟨after, ?_, hPlaced, fun hClosed => hUndoable.undoneBy_of_ne hClosed hChanged, ?_⟩
  · rw [press_of_not_menu hMenu, hPlain]
    exact hRun
  · have hBrace : solid ['\x7d'] = ['\x7d'] := by decide
    rw [List.append_cons, ← hBrace]
    rcases hPlaced with hTyped | ⟨above, lead, hPulled⟩
    · exact hTyped.solid_eq
    · exact hPulled.solid_eq

/-- An open brace above, and white space of another script in front of the caret. -/
theorem press_brace_keeps_code_below_open_brace :
    let source : SymbolSource := fun _ => []
    let workspace : Workspace :=
      ⟨.ofText "\x7b é\n\u3000     x".toList (.caret 10), .ofFile [] (some .spin) {}, []⟩
    workspace.document.InBounds ∧ workspace.assistant.overlay.menu? = none ∧
      workspace.document.pending = none ∧
      ∃ after, (press source (.char '\x7d')).run workspace = (.ok .handled, after) ∧
        Document.UndoneBy 1 workspace.document after.document ∧
        solid after.document.text = "\x7bé\x7dx".toList := by
  intro source workspace
  have hBounds : workspace.document.InBounds := Document.inBounds_ofText _ _
  obtain ⟨after, hRun, -, hUndone, hSolid⟩ := press_brace_keeps_code source hBounds rfl
  refine ⟨hBounds, rfl, rfl, after, hRun, hUndone rfl, ?_⟩
  rw [hSolid]
  decide

end Assisting

end EditAssist
