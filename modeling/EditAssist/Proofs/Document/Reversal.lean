import EditAssist.Proofs.Document.Bounds

/-! Changes and the way back. A recorded change restores the text from before it, so a list of
changes does, newest first. `Undoable` carries this through sequences of edits, whether or not a
group is open around them. -/
namespace EditAssist

/-- Takes changes back one after the other, newest first. -/
def Change.revertAll (changes : List Change) (text : List Char) : Except Failure (List Char) :=
  changes.foldlM (fun text change => change.revert text) text

namespace Change

theorem revertAll_cons (change : Change) (older : List Change) (text : List Char) :
    revertAll (change :: older) text = change.revert text >>= revertAll older :=
  rfl

theorem revertAll_append (newer older : List Change) (text : List Char) :
    revertAll (newer ++ older) text = revertAll newer text >>= revertAll older :=
  List.foldlM_append

/-- A piece of text can be put back in the place of what replaced it. -/
theorem revert_splice {text : List Char} {low high : Nat} (inserted : List Char)
    (hLow : low ≤ high) (hHigh : high ≤ text.length) :
    (Change.mk low ((text.take high).drop low) inserted.length).revert
      (text.take low ++ inserted ++ text.drop high) = .ok text := by
  have hTake : (text.take low).length = low := List.length_take_of_le (Nat.le_trans hLow hHigh)
  have hBoth : (text.take low ++ inserted).length = low + inserted.length := by
    rw [List.length_append, hTake]
  have hMiddle : text.take low ++ (text.take high).drop low = text.take high := by
    have h := List.take_append_drop low (text.take high)
    rwa [List.take_take, Nat.min_eq_left hLow] at h
  have hHead : (text.take low ++ inserted ++ text.drop high).take low = text.take low := by
    rw [List.append_assoc, List.take_left' hTake]
  have hTail : (text.take low ++ inserted ++ text.drop high).drop (low + inserted.length) =
      text.drop high :=
    List.drop_left' hBoth
  rw [revert, if_pos, hHead, hTail, hMiddle, List.take_append_drop]
  simp only [List.length_append, hTake]
  omega

end Change

namespace Document

variable {document : Document}

/-- Taking a replacement back restores the text. -/
theorem revert_changed {range : Range} (text : List Char)
    (hHigh : range.high ≤ document.length) :
    Change.revertAll [document.changeOf range text]
      (document.text.take range.low ++ text ++ document.text.drop range.high) =
        .ok document.text := by
  rw [changeOf, Change.revertAll_cons, Change.revert_splice text range.low_le_high hHigh]
  rfl

theorem undo_cons {group : ChangeGroup} {older : List ChangeGroup} {text : List Char}
    (hHistory : document.history = group :: older)
    (hRevert : Change.revertAll group.changes document.text = .ok text) :
    document.undo = .ok (true,
      { document with text := text, selection := group.before, history := older }) := by
  rw [undo, hHistory]
  change (Change.revertAll group.changes document.text >>= _) = _
  rw [hRevert]
  rfl

def undoTimes : (count : Nat) → Document → Except Failure Document
  | 0, document => .ok document
  | count + 1, document => do
    let (_, older) ← document.undo
    undoTimes count older

theorem undoTimes_add (first second : Nat) (document : Document) :
    undoTimes (first + second) document = undoTimes first document >>= undoTimes second := by
  induction first generalizing document with
  | zero =>
      rw [Nat.zero_add]
      rfl
  | succ first ih =>
      rw [Nat.succ_add]
      simp only [undoTimes]
      cases document.undo with
      | error failure => rfl
      | ok result => exact ih result.2

/-- Undoing never touches an open group. -/
theorem undo_pending {found : Bool} {older : Document}
    (hUndo : document.undo = .ok (found, older)) : older.pending = document.pending := by
  rw [undo] at hUndo
  split at hUndo
  · cases hUndo
    rfl
  · next group rest _ =>
      cases hRevert : Change.revertAll group.changes document.text with
      | error failure =>
          change (Change.revertAll group.changes document.text >>= _) = _ at hUndo
          rw [hRevert] at hUndo
          cases hUndo
      | ok text =>
          change (Change.revertAll group.changes document.text >>= _) = _ at hUndo
          rw [hRevert] at hUndo
          cases hUndo
          rfl

theorem undoTimes_pending {count : Nat} {older : Document}
    (hUndo : undoTimes count document = .ok older) : older.pending = document.pending := by
  induction count generalizing document with
  | zero =>
      cases hUndo
      rfl
  | succ count ih =>
      rw [undoTimes] at hUndo
      cases hOnce : document.undo with
      | error failure =>
          rw [hOnce] at hUndo
          cases hUndo
      | ok result =>
          rw [hOnce] at hUndo
          exact (ih hUndo).trans (undo_pending hOnce)

/-- `count` undos lead from `after` back to `before`, history and selection included. -/
structure UndoneBy (count : Nat) (before after : Document) : Prop where
  depth : after.undoDepth = before.undoDepth + count
  back : undoTimes count after = .ok before

theorem UndoneBy.refl (document : Document) : UndoneBy 0 document document :=
  ⟨rfl, rfl⟩

/-- The undos of the later edits come first. -/
theorem UndoneBy.trans {first second : Nat} {before middle after : Document}
    (hFirst : UndoneBy first before middle) (hSecond : UndoneBy second middle after) :
    UndoneBy (first + second) before after where
  depth := by rw [hSecond.depth, hFirst.depth, Nat.add_assoc]
  back := by
    rw [Nat.add_comm, undoTimes_add, hSecond.back]
    exact hFirst.back

/-- One group in the history, whose changes lead back to `before`. -/
theorem undoneBy_one {before after : Document} {changes : List Change}
    (hHistory : after.history = ⟨changes, before.selection⟩ :: before.history)
    (hPending : after.pending = before.pending)
    (hRevert : Change.revertAll changes after.text = .ok before.text) :
    UndoneBy 1 before after where
  depth := by rw [undoDepth, hHistory, List.length_cons, undoDepth]
  back := by
    rw [undoTimes, undo_cons hHistory hRevert]
    simp only [undoTimes, hPending, bind, Except.bind]

/-- The open group of `after` has got `changes` on top of those of `before`, and they lead back
to the text of `before`. Without changes nothing has happened at all. -/
structure Logged (changes : List Change) (before after : Document) : Prop where
  history : after.history = before.history
  pending : after.pending = before.pending.map fun group =>
    { group with group := { group.group with changes := changes ++ group.group.changes } }
  revert : Change.revertAll changes after.text = .ok before.text
  still : changes = [] → after = before

theorem Logged.refl (document : Document) : Logged [] document document where
  history := rfl
  pending := by cases document.pending <;> rfl
  revert := rfl
  still := fun _ => rfl

theorem Logged.trans {older newer : List Change} {before middle after : Document}
    (hOlder : Logged older before middle) (hNewer : Logged newer middle after) :
    Logged (newer ++ older) before after where
  history := hNewer.history.trans hOlder.history
  pending := by
    rw [hNewer.pending, hOlder.pending, Option.map_map]
    congr 1
    funext group
    simp [Function.comp, List.append_assoc]
  revert := by
    rw [Change.revertAll_append, hNewer.revert]
    exact hOlder.revert
  still := by
    intro hNil
    obtain ⟨hNew, hOld⟩ := List.append_eq_nil_iff.mp hNil
    rw [hNewer.still hNew, hOlder.still hOld]

/-- Once something has changed, the selection is free to move: the group remembers the old
one. -/
theorem Logged.select {changes : List Change} {before after : Document}
    (hLogged : Logged changes before after) (hChanged : changes ≠ []) (selection : Selection) :
    Logged changes before { after with selection := selection } where
  history := hLogged.history
  pending := hLogged.pending
  revert := hLogged.revert
  still := fun hNil => absurd hNil hChanged

/-- `after` came from `before` by edits that at most `limit` undos take back. While a group is
open they are all in that group, and none of them can be undone alone. -/
structure Undoable (limit : Nat) (before after : Document) : Prop where
  undone : before.pending = none → ∃ count ≤ limit, UndoneBy count before after
  logged : before.pending ≠ none → ∃ changes, Logged changes before after

namespace Undoable

theorem refl (limit : Nat) (document : Document) : Undoable limit document document where
  undone := fun _ => ⟨0, Nat.zero_le _, .refl document⟩
  logged := fun _ => ⟨[], .refl document⟩

theorem mono {limit larger : Nat} {before after : Document} (h : Undoable limit before after)
    (hLe : limit ≤ larger) : Undoable larger before after where
  undone := by
    intro hClosed
    obtain ⟨count, hCount, hUndone⟩ := h.undone hClosed
    exact ⟨count, Nat.le_trans hCount hLe, hUndone⟩
  logged := h.logged

/-- The number of open groups is the same before and after. -/
theorem openGroups_eq {limit : Nat} {before after : Document}
    (h : Undoable limit before after) : after.openGroups = before.openGroups := by
  cases hBefore : before.pending with
  | none =>
      obtain ⟨count, -, hUndone⟩ := h.undone hBefore
      rw [openGroups, openGroups, ← undoTimes_pending hUndone.back]
  | some group =>
      obtain ⟨changes, hLogged⟩ := h.logged (by simp [hBefore])
      simp [openGroups, hLogged.pending, hBefore]

theorem pending_eq_none_iff {limit : Nat} {before after : Document}
    (h : Undoable limit before after) : after.pending = none ↔ before.pending = none := by
  have hGroups := h.openGroups_eq
  cases hBefore : before.pending <;> cases hAfter : after.pending <;>
    simp [openGroups, hBefore, hAfter] at hGroups ⊢

theorem trans {first second : Nat} {before middle after : Document}
    (hFirst : Undoable first before middle) (hSecond : Undoable second middle after) :
    Undoable (first + second) before after where
  undone := by
    intro hClosed
    obtain ⟨older, hOlder, hBefore⟩ := hFirst.undone hClosed
    obtain ⟨newer, hNewer, hAfter⟩ := hSecond.undone (hFirst.pending_eq_none_iff.mpr hClosed)
    exact ⟨older + newer, by omega, hBefore.trans hAfter⟩
  logged := by
    intro hOpen
    obtain ⟨older, hOlder⟩ := hFirst.logged hOpen
    obtain ⟨newer, hNewer⟩ := hSecond.logged (mt hFirst.pending_eq_none_iff.mp hOpen)
    exact ⟨newer ++ older, hOlder.trans hNewer⟩

end Undoable

theorem changed_text (range : Range) (text : List Char) (document : Document) :
    (document.changed range text).text =
      document.text.take range.low ++ text ++ document.text.drop range.high := by
  simp only [changed, record]
  cases document.pending <;> rfl

theorem changed_selection (range : Range) (text : List Char) (document : Document) :
    (document.changed range text).selection = .caret (range.low + text.length) := by
  simp only [changed, record]
  cases document.pending <;> rfl

theorem changed_history (range : Range) (text : List Char) (document : Document) :
    (document.changed range text).history =
      match document.pending with
      | some _ => document.history
      | none => ⟨[document.changeOf range text], document.selection⟩ :: document.history := by
  simp only [changed, record]
  cases document.pending <;> rfl

theorem changed_pending (range : Range) (text : List Char) (document : Document) :
    (document.changed range text).pending = document.pending.map fun group =>
      { group with
        group := { group.group with
          changes := document.changeOf range text :: group.group.changes } } := by
  simp only [changed, record]
  cases document.pending <;> rfl

/-- A replacement is one more change of the open group. -/
theorem logged_changed {range : Range} (text : List Char) (hHigh : range.high ≤ document.length)
    (hOpen : document.pending ≠ none) :
    Logged [document.changeOf range text] document (document.changed range text) where
  history := by
    rw [changed_history]
    cases hPending : document.pending with
    | none => exact absurd hPending hOpen
    | some group => rfl
  pending := changed_pending range text document
  revert := by
    rw [changed_text]
    exact revert_changed text hHigh
  still := fun hNil => absurd hNil (List.cons_ne_nil _ _)

/-- A replacement is one undo, or one more change of the open group. -/
theorem undoable_changed {range : Range} (text : List Char)
    (hHigh : range.high ≤ document.length) :
    Undoable 1 document (document.changed range text) where
  undone := by
    intro hClosed
    have hHistory := changed_history range text document
    have hPending := changed_pending range text document
    rw [hClosed] at hHistory hPending
    refine ⟨1, Nat.le_refl 1, undoneBy_one hHistory (hPending.trans hClosed.symm) ?_⟩
    rw [changed_text]
    exact revert_changed text hHigh
  logged := fun hOpen => ⟨_, logged_changed text hHigh hOpen⟩

end Document

end EditAssist
