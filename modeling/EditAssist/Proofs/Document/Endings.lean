import EditAssist.Document.Editing

/-! The two ways in which a run may end. `Ends` says what holds of the answer and of the state that
comes with it, and what holds of the state that a failure leaves; the rules follow the ways to put
runs together. -/
namespace EditAssist

/-- If the run gives an answer, `post` holds of it and of the state after it. If the run fails,
`failed` holds of the state in which it stopped. -/
def Ends {σ α : Type} (actions : ExceptT Failure (StateM σ) α) (state : σ) (failed : σ → Prop)
    (post : α → σ → Prop) : Prop :=
  match (ExceptT.run actions).run state with
  | (.ok answer, after) => post answer after
  | (.error _, after) => failed after

section Rules

variable {σ α β : Type} {state : σ} {failed : σ → Prop}

/-- A run has one end only. -/
theorem ends_of_run {actions : ExceptT Failure (StateM σ) α} {answer : α} {after : σ}
    {post : α → σ → Prop} (hRun : (ExceptT.run actions).run state = (.ok answer, after)) :
    Ends actions state failed post ↔ post answer after := by
  rw [Ends, hRun]

theorem ends_of_error {actions : ExceptT Failure (StateM σ) α} {failure : Failure} {after : σ}
    {post : α → σ → Prop} (hRun : (ExceptT.run actions).run state = (.error failure, after)) :
    Ends actions state failed post ↔ failed after := by
  rw [Ends, hRun]

theorem ends_pure {answer : α} {post : α → σ → Prop} :
    Ends (pure answer) state failed post ↔ post answer state :=
  ends_of_run rfl

/-- A failure of the first part is one of the whole. Otherwise the second part goes on from the
answer and the state of the first. -/
theorem ends_bind {first : ExceptT Failure (StateM σ) α}
    {next : α → ExceptT Failure (StateM σ) β} {post : β → σ → Prop} :
    Ends (first >>= next) state failed post ↔
      Ends first state failed fun answer after => Ends (next answer) after failed post := by
  simp only [Ends, ExceptT.run_bind, StateT.run_bind]
  cases StateT.run (ExceptT.run first) state with
  | mk result after => cases result <;> exact Iff.rfl

theorem Ends.mono {actions : ExceptT Failure (StateM σ) α} {post weaker : α → σ → Prop}
    {stopped : σ → Prop} (hEnds : Ends actions state failed post)
    (hFailed : ∀ after, failed after → stopped after)
    (hPost : ∀ answer after, post answer after → weaker answer after) :
    Ends actions state stopped weaker := by
  rw [Ends] at hEnds ⊢
  split at hEnds
  · exact hPost _ _ hEnds
  · exact hFailed _ hEnds

/-- What holds everywhere holds at the end. -/
theorem ends_of_forall {actions : ExceptT Failure (StateM σ) α} {post : α → σ → Prop}
    (hFailed : ∀ after, failed after) (hPost : ∀ answer after, post answer after) :
    Ends actions state failed post := by
  rw [Ends]
  split
  · exact hPost _ _
  · exact hFailed _

/-- What holds at either end holds of the state after the run. -/
theorem Ends.after {actions : ExceptT Failure (StateM σ) α} {post : α → σ → Prop}
    {last : σ → Prop} (hEnds : Ends actions state failed post)
    (hFailed : ∀ after, failed after → last after)
    (hPost : ∀ answer after, post answer after → last after) :
    last ((ExceptT.run actions).run state).2 := by
  rw [Ends] at hEnds
  split at hEnds
  next answer after hRun =>
    rw [hRun]
    exact hPost answer after hEnds
  next failure after hRun =>
    rw [hRun]
    exact hFailed after hEnds

/-- What is known of the ends of a run in two ways is known of them at once. -/
theorem Ends.and {actions : ExceptT Failure (StateM σ) α} {post other : α → σ → Prop}
    {stopped : σ → Prop} (hEnds : Ends actions state failed post)
    (hOther : Ends actions state stopped other) :
    Ends actions state (fun after => failed after ∧ stopped after)
      fun answer after => post answer after ∧ other answer after := by
  rw [Ends] at hEnds hOther ⊢
  split
  next hRun =>
    rw [hRun] at hEnds hOther
    exact ⟨hEnds, hOther⟩
  next hRun =>
    rw [hRun] at hEnds hOther
    exact ⟨hEnds, hOther⟩

end Rules

namespace Editing

variable {α : Type} {document : Document} {failed : Document → Prop}

theorem ends_current {post : Document → Document → Prop} :
    Ends current document failed post ↔ post document document :=
  ends_of_run rfl

/-- A question leaves the document alone whether or not it can be answered. -/
theorem ends_ask {question : Document → Except Failure α} {post : α → Document → Prop}
    (hFailed : failed document)
    (hPost : ∀ answer, question document = .ok answer → post answer document) :
    Ends (ask question) document failed post := by
  cases hQuestion : question document with
  | ok answer =>
      refine (ends_of_run ?_).mpr (hPost answer hQuestion)
      change (ask question).run document = _
      rw [run_ask, hQuestion]
  | error failure =>
      have hRun : (ExceptT.run (ask question)).run document = (.error failure, document) := by
        change (ask question).run document = _
        rw [run_ask, hQuestion]
      exact (ends_of_error hRun).mpr hFailed

/-- An edit that is refused leaves the document alone. -/
theorem ends_act {edit : Document → Except Failure Document} {post : Unit → Document → Prop}
    (hFailed : failed document) (hPost : ∀ edited, edit document = .ok edited → post () edited) :
    Ends (act edit) document failed post := by
  cases hEdit : edit document with
  | ok edited => exact (ends_of_run (run_act_of_ok hEdit)).mpr (hPost edited hEdit)
  | error failure => exact (ends_of_error (run_act_of_error hEdit)).mpr hFailed

end Editing

end EditAssist
