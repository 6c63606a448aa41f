import EditAssist.Assist.Candidates
import EditAssist.Assist.Overlay
import EditAssist.Proofs.Text.Order

/-! The entries of hints. Candidates come in alphabetical order without regard to case, and no two
of them differ in case alone. -/
namespace EditAssist

open Text

/-- The lower case of one entry comes before that of the other. -/
def Candidates.Ascends (left right : List Char) : Prop :=
  Precedes (lowercase left) (lowercase right)

namespace Candidates

/-- What is kept behind an entry comes after it, if all that follows it was sorted. -/
theorem pairwise_dropRepeatsAfter {last : List Char} {rest : List (List Char)}
    (hLast : ∀ entry ∈ rest, atMost (lowercase last) (lowercase entry) = true)
    (hSorted : rest.Pairwise fun left right => atMost (lowercase left) (lowercase right) = true) :
    (last :: dropRepeatsAfter last rest).Pairwise Ascends := by
  induction rest generalizing last with
  | nil => exact List.pairwise_singleton _ _
  | cons entry rest ih =>
      obtain ⟨hEntry, hRest⟩ := List.pairwise_cons.mp hSorted
      rw [dropRepeatsAfter]
      split
      · exact ih (fun other hOther => hLast other (List.mem_cons_of_mem _ hOther)) hRest
      next hOther =>
        have hTail := ih hEntry hRest
        have hFirst : Ascends last entry := by
          refine (atMost_iff.mp (hLast entry List.mem_cons_self)).resolve_right ?_
          intro hSame
          exact hOther (beq_iff_eq.mpr hSame.symm)
        refine List.pairwise_cons.mpr ⟨?_, hTail⟩
        intro later hLater
        rcases List.mem_cons.mp hLater with rfl | hLater
        · exact hFirst
        · exact hFirst.trans ((List.pairwise_cons.mp hTail).1 later hLater)

theorem pairwise_ofRows (typed : List Char) (rows : List (List Char)) :
    (ofRows typed rows).Pairwise Ascends := by
  have hSorted := List.pairwise_mergeSort
    (fun first second third => atMost_trans (lowercase first) (lowercase second) (lowercase third))
    (fun left right => atMost_total (lowercase left) (lowercase right))
    (rows.filterMap (ofRow? typed))
  rw [ofRows]
  cases hAll : (rows.filterMap (ofRow? typed)).mergeSort fun left right =>
      atMost (lowercase left) (lowercase right) with
  | nil => exact List.Pairwise.nil
  | cons entry rest =>
      rw [hAll] at hSorted
      obtain ⟨hEntry, hRest⟩ := List.pairwise_cons.mp hSorted
      exact pairwise_dropRepeatsAfter hEntry hRest

end Candidates

namespace Hints

/-- What hints that are shown are like: one of their entries is active, and the entries come in
strict order. -/
structure WellFormed (hints : Hints) : Prop where
  nonempty : hints.entries ≠ []
  active_lt : hints.active < hints.entries.length
  ascending : hints.entries.Pairwise Candidates.Ascends

theorem wellFormed_ofRows {typed : List Char} {rows : List (List Char)}
    (hSome : Candidates.ofRows typed rows ≠ []) (anchor : Anchor) :
    (ofEntries (Candidates.ofRows typed rows) anchor).WellFormed :=
  ⟨hSome, List.length_pos_iff.mpr hSome, Candidates.pairwise_ofRows typed rows⟩

theorem entries_move (direction : Direction) (hints : Hints) :
    (hints.move direction).entries = hints.entries := by
  simp only [move]
  split <;> rfl

/-- Only where there is a choice is anything picked. -/
theorem chosen_move {hints : Hints} (hSeveral : 2 ≤ hints.entries.length) (direction : Direction) :
    (hints.move direction).chosen = true := by
  simp only [move, dif_neg (Nat.not_lt.mpr hSeveral)]

/-- Moving goes round, so some entry stays active. -/
theorem WellFormed.move {hints : Hints} (h : hints.WellFormed) (direction : Direction) :
    (hints.move direction).WellFormed where
  nonempty := by
    rw [entries_move]
    exact h.nonempty
  active_lt := by
    rw [entries_move]
    simp only [Hints.move]
    split
    · exact h.active_lt
    · cases direction <;> exact Fin.is_lt _
  ascending := by
    rw [entries_move]
    exact h.ascending

/-- What may be inserted is the active entry, and it has no rival or was picked. -/
theorem acceptable?_eq_some_iff {hints : Hints} {entry : List Char} :
    hints.acceptable? = some entry ↔
      hints.activeEntry? = some entry ∧ (hints.entries = [entry] ∨ hints.chosen = true) := by
  have hOnly (hActive : hints.activeEntry? = some entry) :
      hints.entries.length = 1 ↔ hints.entries = [entry] := by
    constructor
    · intro hLength
      obtain ⟨only, hEntries⟩ := List.length_eq_one_iff.mp hLength
      have hMem : entry ∈ hints.entries := List.mem_of_getElem? hActive
      rw [hEntries] at hMem ⊢
      rw [List.mem_singleton.mp hMem]
    · intro hEntries
      rw [hEntries]
      rfl
  rw [acceptable?]
  split
  next hAllowed =>
    constructor
    · intro hActive
      exact ⟨hActive, hAllowed.imp_left (hOnly hActive).mp⟩
    · exact And.left
  next hRefused =>
    constructor
    · exact nofun
    · rintro ⟨hActive, hAllowed⟩
      exact absurd (hAllowed.imp_left (hOnly hActive).mpr) hRefused

end Hints

end EditAssist
