import EditAssist.Document.Command

/-! Editors: whatever commands can run on. A run keeps every step it made, those inside groups
included, so that two editors can be compared step by step. On a document the run is the one of
`Command.run`, which keeps no steps. -/
namespace EditAssist

/-- What commands need of the thing they run on. -/
class Editor (σ : Type) where
  text : σ → List Char
  selection : σ → Selection
  undoDepth : σ → Nat
  openGroups : σ → Nat
  replace : Range → List Char → σ → Except Failure σ
  select : Selection → σ → Except Failure σ
  openGroup : σ → σ
  closeGroup : σ → Except Failure σ
  undo : σ → Except Failure (Bool × σ)

instance : Editor Document where
  text := Document.text
  selection := Document.selection
  undoDepth := Document.undoDepth
  openGroups := Document.openGroups
  replace := Document.replace
  select := Document.select
  openGroup := Document.openGroup
  closeGroup := Document.closeGroup
  undo := Document.undo

/-- What can be seen of an editor. -/
structure View where
  text : List Char
  selection : Selection
  undoDepth : Nat
  deriving DecidableEq, Repr

/-- One single command and the editor around it. A command that failed has changed nothing. -/
structure Step (σ : Type) where
  command : Command
  before : σ
  after : σ

/-- The steps of a run, oldest first, its answer, and the editor as the run leaves it. -/
structure Course (σ α : Type) where
  steps : List (Step σ)
  answer : α
  final : σ

namespace Editor

variable {σ : Type} [Editor σ]

/-- What can be seen of an editor. -/
def view (editor : σ) : View :=
  ⟨text editor, selection editor, undoDepth editor⟩

/-- Types a text in the place of the selection. -/
def insert (text : List Char) (editor : σ) : Except Failure σ :=
  replace (selection editor).range text editor

/-- Deletes what is selected. -/
def deleteSelection (editor : σ) : Except Failure σ :=
  if (selection editor).isEmpty then .ok editor else replace (selection editor).range [] editor

/-- Moves the caret and selects nothing. -/
def setCaret (offset : Nat) (editor : σ) : Except Failure σ :=
  select (.caret offset) editor

/-- Moves the caret to the start of a line, where lines are counted from one. -/
def goToLine (number : Nat) (editor : σ) : Except Failure σ := do
  let offset ← Document.lineStart { text := text editor } (number - 1)
  setCaret offset editor

/-- The course of one edit. -/
def once (command : Command) (editor : σ) (result : Except Failure σ) :
    Course σ (Except Failure Reply) :=
  match result with
  | .ok edited => ⟨[⟨command, editor, edited⟩], .ok .done, edited⟩
  | .error failure => ⟨[⟨command, editor, editor⟩], .error failure, editor⟩

/-- The course of one undo. -/
def undone (editor : σ) (result : Except Failure (Bool × σ)) : Course σ (Except Failure Reply) :=
  match result with
  | .ok (found, older) => ⟨[⟨.undo, editor, older⟩], .ok (.undone found), older⟩
  | .error failure => ⟨[⟨.undo, editor, editor⟩], .error failure, editor⟩

/-- The course of a group, from what went on inside it. -/
def enclose (editor : σ) (inside : Course σ (List Reply × Option Failure)) :
    Course σ (Except Failure Reply) :=
  let steps := ⟨.openGroup, editor, openGroup editor⟩ :: inside.steps
  match inside.answer.2.filter Failure.isFatal, closeGroup inside.final with
  | some fatal, _ => ⟨steps, .error fatal, inside.final⟩
  | none, .ok closed =>
    ⟨steps ++ [⟨.closeGroup, inside.final, closed⟩],
      .ok (.group inside.answer.1 inside.answer.2), closed⟩
  | none, .error closing =>
    ⟨steps ++ [⟨.closeGroup, inside.final, inside.final⟩],
      .ok (.group inside.answer.1 (some closing)), inside.final⟩

mutual

/-- Runs one command. -/
def run : Command → σ → Course σ (Except Failure Reply)
  | .insert text, editor => once (.insert text) editor (insert text editor)
  | .deleteSelection, editor => once .deleteSelection editor (deleteSelection editor)
  | .replace range text, editor => once (.replace range text) editor (replace range text editor)
  | .select selection, editor => once (.select selection) editor (select selection editor)
  | .setCaret offset, editor => once (.setCaret offset) editor (setCaret offset editor)
  | .goToLine number, editor => once (.goToLine number) editor (goToLine number editor)
  | .openGroup, editor => once .openGroup editor (.ok (openGroup editor))
  | .closeGroup, editor => once .closeGroup editor (closeGroup editor)
  | .undo, editor => undone editor (undo editor)
  | .group body, editor => enclose editor (runAll body (openGroup editor))

/-- Runs commands until one fails, and gives the answers of those before it. -/
def runAll : List Command → σ → Course σ (List Reply × Option Failure)
  | [], editor => ⟨[], ([], none), editor⟩
  | command :: rest, editor =>
    let first := run command editor
    match first.answer with
    | .error failure => ⟨first.steps, ([], some failure), first.final⟩
    | .ok reply =>
      let others := runAll rest first.final
      ⟨first.steps ++ others.steps, (reply :: others.answer.1, others.answer.2), others.final⟩

end

/-- Runs commands one after the other, whether or not they fail. -/
def runEach : List Command → σ → Course σ (List (Except Failure Reply))
  | [], editor => ⟨[], [], editor⟩
  | command :: rest, editor =>
    let first := run command editor
    let others := runEach rest first.final
    ⟨first.steps ++ others.steps, first.answer :: others.answer, others.final⟩

instance (command : Command) : Decidable (command = .undo) :=
  match command with
  | .undo => isTrue rfl
  | .insert _ | .deleteSelection | .replace _ _ | .select _ | .setCaret _ | .goToLine _
  | .openGroup | .closeGroup | .group _ => isFalse nofun

/-- No step of a run undoes anything while a group is open. -/
def UndoesBetweenGroups (steps : List (Step σ)) : Prop :=
  ∀ step ∈ steps, step.command = .undo → openGroups step.before = 0

instance (steps : List (Step σ)) : Decidable (UndoesBetweenGroups steps) :=
  inferInstanceAs (Decidable (∀ step ∈ steps, _))

/-! ### What holds throughout a run -/

/-- What comes of an undo that is a step of a run: it takes back, or it fails and changes
nothing. -/
def Undoes (step : Step σ) : Prop :=
  (∃ found, undo step.before = .ok (found, step.after)) ∨
    ∃ failure, undo step.before = .error failure ∧ step.after = step.before

/-- Every single edit keeps `inv`, and so does every undo that makes an allowed step. -/
structure Keeps (inv : σ → Prop) (allowed : Step σ → Prop) : Prop where
  replace : ∀ {range text editor edited}, inv editor →
    replace range text editor = .ok edited → inv edited
  select : ∀ {selection editor edited}, inv editor →
    select selection editor = .ok edited → inv edited
  openGroup : ∀ {editor}, inv editor → inv (openGroup editor)
  closeGroup : ∀ {editor closed}, inv editor → closeGroup editor = .ok closed → inv closed
  undo : ∀ {editor found older}, inv editor → undo editor = .ok (found, older) →
    allowed ⟨.undo, editor, older⟩ → inv older

/-- `inv` holds before and after every step of a course and at its end. -/
structure Throughout {α : Type} (inv : σ → Prop) (course : Course σ α) : Prop where
  steps : ∀ step ∈ course.steps, inv step.before ∧ inv step.after
  undoes : ∀ step ∈ course.steps, step.command = .undo → Undoes step
  final : inv course.final

section Throughout

variable {inv : σ → Prop} {allowed : Step σ → Prop} {editor : σ}

theorem throughout_once {command : Command} {result : Except Failure σ} (hInv : inv editor)
    (hOther : command ≠ .undo) (hResult : ∀ edited, result = .ok edited → inv edited) :
    Throughout inv (once command editor result) := by
  cases hEdit : result with
  | ok edited =>
      have hEdited := hResult edited hEdit
      refine ⟨?_, ?_, hEdited⟩
      · intro step hMem
        obtain rfl := List.mem_singleton.mp hMem
        exact ⟨hInv, hEdited⟩
      · intro step hMem hUndo
        obtain rfl := List.mem_singleton.mp hMem
        exact absurd hUndo hOther
  | error failure =>
      refine ⟨?_, ?_, hInv⟩
      · intro step hMem
        obtain rfl := List.mem_singleton.mp hMem
        exact ⟨hInv, hInv⟩
      · intro step hMem hUndo
        obtain rfl := List.mem_singleton.mp hMem
        exact absurd hUndo hOther

theorem throughout_undone (hKeeps : Keeps inv allowed) (hInv : inv editor)
    (hAllowed : ∀ step ∈ (undone editor (undo editor)).steps, allowed step) :
    Throughout inv (undone editor (undo editor)) := by
  cases hUndo : undo editor with
  | ok result =>
      obtain ⟨found, older⟩ := result
      rw [hUndo] at hAllowed
      have hOlder := hKeeps.undo hInv hUndo (hAllowed _ (List.mem_singleton_self _))
      refine ⟨?_, ?_, hOlder⟩
      · intro step hMem
        obtain rfl := List.mem_singleton.mp hMem
        exact ⟨hInv, hOlder⟩
      · intro step hMem _
        obtain rfl := List.mem_singleton.mp hMem
        exact .inl ⟨found, hUndo⟩
  | error failure =>
      refine ⟨?_, ?_, hInv⟩
      · intro step hMem
        obtain rfl := List.mem_singleton.mp hMem
        exact ⟨hInv, hInv⟩
      · intro step hMem _
        obtain rfl := List.mem_singleton.mp hMem
        exact .inr ⟨failure, hUndo, rfl⟩

/-- One step more at the start. -/
theorem Throughout.cons {α : Type} {step : Step σ} {steps : List (Step σ)} {answer : α} {final : σ}
    (hBefore : inv step.before) (hAfter : inv step.after) (hOther : step.command ≠ .undo)
    (hRest : Throughout inv ⟨steps, answer, final⟩) :
    Throughout inv ⟨step :: steps, answer, final⟩ := by
  refine ⟨?_, ?_, hRest.final⟩
  · intro other hMem
    rcases List.mem_cons.mp hMem with rfl | hMem
    · exact ⟨hBefore, hAfter⟩
    · exact hRest.steps other hMem
  · intro other hMem hUndo
    rcases List.mem_cons.mp hMem with rfl | hMem
    · exact absurd hUndo hOther
    · exact hRest.undoes other hMem hUndo

theorem Throughout.append {α β γ : Type} {first : Course σ α} {rest : Course σ β} {answer : γ}
    (hFirst : Throughout inv first) (hRest : Throughout inv rest) :
    Throughout inv ⟨first.steps ++ rest.steps, answer, rest.final⟩ := by
  refine ⟨?_, ?_, hRest.final⟩
  · intro step hMem
    rcases List.mem_append.mp hMem with hMem | hMem
    · exact hFirst.steps step hMem
    · exact hRest.steps step hMem
  · intro step hMem hUndo
    rcases List.mem_append.mp hMem with hMem | hMem
    · exact hFirst.undoes step hMem hUndo
    · exact hRest.undoes step hMem hUndo

/-- The answer has no part in it. -/
theorem Throughout.answering {α β : Type} {course : Course σ α} (h : Throughout inv course)
    (answer : β) : Throughout inv ⟨course.steps, answer, course.final⟩ :=
  ⟨h.steps, h.undoes, h.final⟩

theorem throughout_enclose (hKeeps : Keeps inv allowed) (hInv : inv editor)
    {inside : Course σ (List Reply × Option Failure)} (hInside : Throughout inv inside) :
    Throughout inv (enclose editor inside) := by
  have hOpened := hKeeps.openGroup hInv
  simp only [enclose]
  split
  next => exact .cons hInv hOpened nofun (hInside.answering _)
  next closed _ hClose =>
    have hClosed := hKeeps.closeGroup hInside.final hClose
    have hLast : Throughout inv (once .closeGroup inside.final (.ok closed)) :=
      throughout_once hInside.final nofun fun _ hEdited => Except.ok.inj hEdited ▸ hClosed
    exact .cons hInv hOpened nofun (hInside.append hLast)
  next closing _ _ =>
    have hLast : Throughout inv (once .closeGroup inside.final (.error closing)) :=
      throughout_once hInside.final nofun nofun
    exact .cons hInv hOpened nofun (hInside.append hLast)

theorem Keeps.deleteSelection (hKeeps : Keeps inv allowed) (hInv : inv editor) {edited : σ}
    (hEdit : deleteSelection editor = .ok edited) : inv edited := by
  rw [Editor.deleteSelection] at hEdit
  split at hEdit
  · cases hEdit
    exact hInv
  · exact hKeeps.replace hInv hEdit

theorem Keeps.goToLine (hKeeps : Keeps inv allowed) (hInv : inv editor) {number : Nat}
    {edited : σ} (hEdit : goToLine number editor = .ok edited) : inv edited := by
  rw [Editor.goToLine] at hEdit
  cases hStart : Document.lineStart { text := text editor } (number - 1) with
  | error failure =>
      rw [hStart] at hEdit
      cases hEdit
  | ok offset =>
      rw [hStart] at hEdit
      exact hKeeps.select hInv hEdit

mutual

/-- What every single edit keeps holds throughout every command. -/
theorem throughout_run {editor : σ} (hKeeps : Keeps inv allowed) (hInv : inv editor)
    (command : Command) (hAllowed : ∀ step ∈ (run command editor).steps, allowed step) :
    Throughout inv (run command editor) := by
  cases command with
  | insert text => exact throughout_once hInv nofun fun _ => hKeeps.replace hInv
  | deleteSelection => exact throughout_once hInv nofun fun _ => hKeeps.deleteSelection hInv
  | replace range text => exact throughout_once hInv nofun fun _ => hKeeps.replace hInv
  | select selection => exact throughout_once hInv nofun fun _ => hKeeps.select hInv
  | setCaret offset => exact throughout_once hInv nofun fun _ => hKeeps.select hInv
  | goToLine number => exact throughout_once hInv nofun fun _ => hKeeps.goToLine hInv
  | openGroup =>
      have hOpened := hKeeps.openGroup hInv
      have hOther : Command.openGroup ≠ .undo := nofun
      exact throughout_once hInv hOther fun _ hEdited => Except.ok.inj hEdited ▸ hOpened
  | closeGroup => exact throughout_once hInv nofun fun _ => hKeeps.closeGroup hInv
  | undo => exact throughout_undone hKeeps hInv hAllowed
  | group body =>
      refine throughout_enclose hKeeps hInv
        (throughout_runAll hKeeps (hKeeps.openGroup hInv) body fun step hMem => hAllowed step ?_)
      simp only [run, enclose]
      split
      · exact List.mem_cons_of_mem _ hMem
      · exact List.mem_cons_of_mem _ (List.mem_append_left _ hMem)
      · exact List.mem_cons_of_mem _ (List.mem_append_left _ hMem)

/-- So it does throughout every list of commands. -/
theorem throughout_runAll {editor : σ} (hKeeps : Keeps inv allowed) (hInv : inv editor)
    (commands : List Command) (hAllowed : ∀ step ∈ (runAll commands editor).steps, allowed step) :
    Throughout inv (runAll commands editor) := by
  cases commands with
  | nil => exact ⟨nofun, nofun, hInv⟩
  | cons command rest =>
      have hFirst : Throughout inv (run command editor) := by
        refine throughout_run hKeeps hInv command fun step hMem => hAllowed step ?_
        simp only [runAll]
        split
        · exact hMem
        · exact List.mem_append_left _ hMem
      simp only [runAll] at hAllowed ⊢
      split
      next => exact hFirst.answering _
      next reply hReply =>
        rw [hReply] at hAllowed
        exact hFirst.append (throughout_runAll hKeeps hFirst.final rest fun step hMem =>
          hAllowed step (List.mem_append_right _ hMem))

end

theorem throughout_runEach (hKeeps : Keeps inv allowed) (hInv : inv editor)
    (commands : List Command) (hAllowed : ∀ step ∈ (runEach commands editor).steps, allowed step) :
    Throughout inv (runEach commands editor) := by
  induction commands generalizing editor with
  | nil => exact ⟨nofun, nofun, hInv⟩
  | cons command rest ih =>
      simp only [runEach] at hAllowed ⊢
      have hFirst := throughout_run hKeeps hInv command fun step hMem =>
        hAllowed step (List.mem_append_left _ hMem)
      exact hFirst.append (ih hFirst.final fun step hMem =>
        hAllowed step (List.mem_append_right _ hMem))

end Throughout

/-! ### Runs on a document -/

/-- One edit of a document, and the course that it takes. -/
theorem run_act (command : Command) (edit : Document → Except Failure Document)
    (document : Document) :
    Editing.run (do Editing.act edit; return Reply.done) document =
      ((once command document (edit document)).answer,
        (once command document (edit document)).final) := by
  rw [Editing.run_bind]
  cases hEdit : edit document with
  | error failure =>
      rw [Editing.run_act_of_error hEdit]
      rfl
  | ok edited =>
      rw [Editing.run_act_of_ok hEdit]
      rfl

/-- A group of commands, if its body takes the course that it should. -/
theorem run_group {body : List Command} {document : Document}
    (hBody : Command.runAll body document.openGroup =
      ((runAll body document.openGroup).answer, (runAll body document.openGroup).final)) :
    (Command.group body).run.run document =
      ((run (.group body) document).answer, (run (.group body) document).final) := by
  rw [Command.run, Editing.run_ofFunction, hBody, run]
  change _ = ((enclose document (runAll body document.openGroup)).answer,
    (enclose document (runAll body document.openGroup)).final)
  generalize runAll body document.openGroup = inside
  simp only [enclose, closeGroup]
  cases inside.answer.2.filter Failure.isFatal with
  | some fatal => rfl
  | none => cases inside.final.closeGroup <;> rfl

mutual

/-- Commands run on a document as `Command.run` says. -/
theorem run_document (command : Command) (document : Document) :
    command.run.run document = ((run command document).answer, (run command document).final) := by
  cases command with
  | insert text => exact run_act _ _ _
  | deleteSelection => exact run_act _ _ _
  | replace range text => exact run_act _ _ _
  | select selection => exact run_act _ _ _
  | setCaret offset => exact run_act _ _ _
  | goToLine number => exact run_act _ _ _
  | openGroup => exact run_act _ _ _
  | closeGroup => exact run_act _ _ _
  | undo =>
      rw [Command.run, Editing.run_ofFunction, run]
      change _ = ((undone document document.undo).answer, (undone document document.undo).final)
      cases document.undo with
      | error failure => rfl
      | ok result => rfl
  | group body => exact run_group (runAll_document body document.openGroup)

/-- So do lists of commands. -/
theorem runAll_document (commands : List Command) (document : Document) :
    Command.runAll commands document =
      ((runAll commands document).answer, (runAll commands document).final) := by
  cases commands with
  | nil => rfl
  | cons command rest =>
      have hFirst := run_document command document
      rw [Command.runAll, runAll]
      simp only [hFirst]
      cases (run command document).answer with
      | error failure => rfl
      | ok reply =>
          simp only [runAll_document rest (run command document).final]

end

/-- A sequence of commands leaves the document that running them in turn leaves. -/
theorem runEach_document (commands : List Command) (document : Document) :
    (runEach commands document).final =
      commands.foldl (fun document command => (command.run.run document).2) document := by
  induction commands generalizing document with
  | nil => rfl
  | cons command rest ih =>
      rw [List.foldl_cons, run_document, ← ih]
      rfl

end Editor

end EditAssist
