import EditAssist.Proofs.Layout.Carrying

/-! The ends of a selection can also be carried over the lines of a block one after the other, each
line taking away what it loses or adding what it gains. A line may lose more than stands before an
end on it, so the ends are signed on the way. `Drift` goes this way; none of its values is ever
negative, and where it ends the plan for the block has put the selection. -/
namespace EditAssist.Shift

open Text

/-- The ends of a selection on the way over its lines, and the offset at which the last of these
lines starts by then. -/
structure Drift where
  anchor : Int
  head : Int
  limit : Int
  deriving DecidableEq, Repr

/-- How much shorter a line is once it has moved. A line that moves in gets longer. -/
def shrinkage (width : Nat) (shift : Shift) (line : List Char) : Int :=
  line.length - (shift.moveLine width line).length

namespace Drift

/-- One line gets shorter by `loss`. The first line holds the anchor, which stays behind `top`, the
start of the block. The head is behind all lines but the last, and stays behind the start of that
one. -/
def step (top : Nat) (isFirst isLast : Bool) (loss : Int) (drift : Drift) : Drift :=
  let limit := if isLast then drift.limit else drift.limit - loss
  { anchor := if isFirst then max (drift.anchor - loss) top else drift.anchor
    head := max (drift.head - loss) limit
    limit := limit }

/-- All that the ends are on the way, from where they start to where they arrive. The last line
does not move if it is empty. -/
def passage (top width : Nat) (shift : Shift) :
    (isFirst : Bool) → List (List Char) → Drift → List Drift
  | _, [], drift => [drift]
  | isFirst, [line], drift =>
    if line.isEmpty then [drift]
    else [drift, drift.step top isFirst true (shift.shrinkage width line)]
  | isFirst, line :: lines, drift =>
    drift :: passage top width shift false lines
      (drift.step top isFirst false (shift.shrinkage width line))

end Drift

/-- The way of both ends of a selection over the block of lines that it touches. -/
def driftOverBlock (text : List Char) (start stop width : Nat) (shift : Shift) : List Drift :=
  let map := LineMap.ofText text
  let blockStart := (map.start? (map.position start).line).getD 0
  let blockStop :=
    if text[stop - 1]? = some '\n' then stop
    else (map.stop? (map.position stop).line).getD stop
  let lines := rows ((text.take blockStop).drop blockStart)
  Drift.passage blockStart width shift true lines
    ⟨start, stop, blockStop - (lines.getLastD []).length⟩

variable {text above first front last kept below : List Char} {start stop top width : Nat}
  {shift : Shift}

/-- A line loses no more than it has. -/
theorem shrinkage_le (width : Nat) (shift : Shift) (line : List Char) :
    shift.shrinkage width line ≤ line.length := by
  rw [shrinkage]
  omega

/-- A column on a line is carried to where the column lies by then. -/
theorem max_sub_shrinkage (width : Nat) (shift : Shift) (line : List Char) (column : Nat) :
    max (column - shift.shrinkage width line) 0 = shift.moveColumn width line column := by
  have hRemovable := removable_le width line
  cases shift with
  | indent =>
      simp only [shrinkage, moveLine, moveColumn, List.length_append, length_spaces]
      omega
  | outdent =>
      simp only [shrinkage, moveLine, moveColumn, List.length_drop]
      omega

/-- How much shorter lines are all together once they have moved. -/
def shrinkageOfAll (width : Nat) (shift : Shift) (lines : List (List Char)) : Int :=
  lines.flatten.length - (lines.map (shift.moveLine width)).flatten.length

theorem shrinkageOfAll_nil (width : Nat) (shift : Shift) : shift.shrinkageOfAll width [] = 0 :=
  rfl

theorem shrinkageOfAll_cons (width : Nat) (shift : Shift) (line : List Char)
    (lines : List (List Char)) :
    shift.shrinkageOfAll width (line :: lines) =
      shift.shrinkage width line + shift.shrinkageOfAll width lines := by
  simp only [shrinkageOfAll, shrinkage, List.map_cons, List.flatten_cons, List.length_append]
  omega

/-- The rows of a text lose together what the text loses. -/
theorem shrinkageOfAll_rows (width : Nat) (shift : Shift) (front : List Char) :
    shift.shrinkageOfAll width (rows front) =
      front.length - ((mapRows (shift.moveLine width) front).length : Int) := by
  have hBefore := length_intercalate_lines (rows front)
  have hAfter := length_intercalate_lines ((rows front).map (shift.moveLine width))
  rw [intercalate_rows] at hBefore
  rw [List.length_map] at hAfter
  rw [shrinkageOfAll, mapRows, hAfter, hBefore]
  omega

/-- Rows take no more room than their text. -/
theorem length_flatten_rows_le (front : List Char) : (rows front).flatten.length ≤ front.length := by
  have hLength := length_intercalate_lines (rows front)
  rw [intercalate_rows] at hLength
  rw [hLength]
  exact Nat.le_add_right _ _

namespace Drift

variable {drift : Drift} {lines : List (List Char)} {isFirst : Bool} {loss : Int}

/-- The head is behind the limit, the anchor is within the text, and before the limit there is room
for `lines`. -/
structure Sound (drift : Drift) (lines : List (List Char)) : Prop where
  anchor : 0 ≤ drift.anchor
  head : drift.limit ≤ drift.head
  limit : (lines.flatten.length : Int) ≤ drift.limit

/-- No value is negative. -/
def Proper (drift : Drift) : Prop :=
  0 ≤ drift.anchor ∧ 0 ≤ drift.head ∧ 0 ≤ drift.limit

theorem Sound.proper (h : drift.Sound lines) : drift.Proper := by
  have hAnchor := h.anchor
  have hHead := h.head
  have hLimit := h.limit
  refine ⟨hAnchor, ?_, ?_⟩
  · omega
  · omega

/-- A line above the last takes the limit and the head along by as much. -/
theorem step_above (hHead : drift.limit ≤ drift.head) :
    drift.step top isFirst false loss =
      ⟨if isFirst then max (drift.anchor - loss) top else drift.anchor, drift.head - loss,
        drift.limit - loss⟩ := by
  have hBehind : drift.limit - loss ≤ drift.head - loss := Int.sub_le_sub_right hHead loss
  simp only [step, Bool.false_eq_true, if_false, Int.max_eq_left hBehind]

theorem Sound.step {line : List Char} (h : drift.Sound (line :: lines)) (top width : Nat)
    (shift : Shift) (isFirst : Bool) :
    (drift.step top isFirst false (shift.shrinkage width line)).Sound lines := by
  have hLoss := shrinkage_le width shift line
  have hAnchor := h.anchor
  have hHead := h.head
  have hLimit := h.limit
  rw [List.flatten_cons, List.length_append] at hLimit
  rw [step_above hHead]
  refine ⟨?_, Int.sub_le_sub_right hHead _, ?_⟩
  · cases isFirst with
    | false => exact hAnchor
    | true => exact Int.le_trans (Int.natCast_nonneg top) (Int.le_max_right _ _)
  · simp only
    omega

/-- The last line takes the head along, but not above the limit. -/
theorem Sound.arrive (h : drift.Sound []) (top : Nat) (isFirst : Bool) (loss : Int) :
    (drift.step top isFirst true loss).Sound [] := by
  refine ⟨?_, Int.le_max_right _ _, h.limit⟩
  cases isFirst with
  | false => exact h.anchor
  | true => exact Int.le_trans (Int.natCast_nonneg top) (Int.le_max_right _ _)

theorem passage_cons (top width : Nat) (shift : Shift) (isFirst : Bool) (line : List Char)
    (lines : List (List Char)) (last : List Char) (drift : Drift) :
    passage top width shift isFirst (line :: (lines ++ [last])) drift =
      drift :: passage top width shift false (lines ++ [last])
        (drift.step top isFirst false (shift.shrinkage width line)) := by
  cases lines <;> rfl

/-- On the way over lines with room for all of them no value is negative. -/
theorem proper_of_mem_passage (h : drift.Sound lines) (last : List Char) {reached : Drift}
    (hReached : reached ∈ passage top width shift isFirst (lines ++ [last]) drift) :
    reached.Proper := by
  induction lines generalizing drift isFirst with
  | nil =>
      rw [List.nil_append, passage] at hReached
      split at hReached
      · rw [List.mem_singleton.mp hReached]
        exact h.proper
      · rcases List.mem_cons.mp hReached with rfl | hLast
        · exact h.proper
        · rw [List.mem_singleton.mp hLast]
          exact (h.arrive top isFirst _).proper
  | cons line lines ih =>
      rw [List.cons_append, passage_cons] at hReached
      rcases List.mem_cons.mp hReached with rfl | hLater
      · exact h.proper
      · exact ih (h.step top width shift isFirst) hLater

/-- Where the ends arrive after the lines behind the first. -/
theorem getLast?_passage (hHead : drift.limit ≤ drift.head) (lines : List (List Char))
    (last : List Char) :
    (passage top width shift false (lines ++ [last]) drift).getLast? =
      let loss := shift.shrinkageOfAll width lines
      some ⟨drift.anchor,
        if last.isEmpty then drift.head - loss
        else max (drift.head - loss - shift.shrinkage width last) (drift.limit - loss),
        drift.limit - loss⟩ := by
  induction lines generalizing drift with
  | nil =>
      simp only [List.nil_append, passage, shrinkageOfAll_nil, Int.sub_zero]
      split <;> rfl
  | cons line lines ih =>
      have hNext : (drift.step top false false (shift.shrinkage width line)).limit ≤
          (drift.step top false false (shift.shrinkage width line)).head := by
        rw [step_above hHead]
        exact Int.sub_le_sub_right hHead _
      rw [List.cons_append, passage_cons, List.getLast?_cons, ih hNext, step_above hHead]
      simp only [shrinkageOfAll_cons, Option.getD_some, Int.sub_sub, Bool.false_eq_true,
        if_false]

end Drift

section Block

variable (h : Block text start stop above first front last kept below)
include h

/-- The way over a block, read off the text around it. -/
theorem Block.driftOverBlock_eq (width : Nat) (shift : Shift) :
    driftOverBlock text start stop width shift =
      Drift.passage above.length width shift true (rows front ++ [last])
        ⟨start, stop, (above ++ front ++ ['\n']).length⟩ := by
  obtain ⟨_, hStart⟩ := h.start_cut
  have hLimit : ((above.length + (front ++ '\n' :: last).length : Nat) : Int) - last.length =
      (above ++ front ++ ['\n']).length := by
    simp only [List.length_append, List.length_cons, List.length_nil]
    omega
  simp only [driftOverBlock, LineMap.position_eq hStart, LineMap.start?_eq hStart, h.blockStop_eq,
    Option.getD_some, h.content_eq, h.rows_content, List.getLastD_concat, hLimit]

theorem Block.driftOverBlock_proper (width : Nat) (shift : Shift) {reached : Drift}
    (hReached : reached ∈ driftOverBlock text start stop width shift) : reached.Proper := by
  have hStop := h.stop_cut.start_le
  have hRoom := length_flatten_rows_le front
  rw [h.driftOverBlock_eq] at hReached
  refine Drift.proper_of_mem_passage ⟨Int.natCast_nonneg _, Int.ofNat_le.mpr hStop, ?_⟩ last
    hReached
  simp only [List.length_append]
  omega

/-- The ends arrive where the plan puts them. -/
theorem Block.driftOverBlock_arrives (width : Nat) (shift : Shift) :
    ∃ arrived, (driftOverBlock text start stop width shift).getLast? = some arrived ∧
      arrived.anchor = (h.planned width shift).selection.anchor ∧
      arrived.head = (h.planned width shift).selection.head := by
  obtain ⟨_, hStart⟩ := h.start_cut
  obtain ⟨others, hFirst⟩ := h.first_row
  have hStop := h.stop_cut.start_le
  have hLoss := shrinkageOfAll_rows width shift front
  have hAnchor := max_sub_shrinkage width shift first (start - above.length)
  have hHead := max_sub_shrinkage width shift last (stop - (above ++ front ++ ['\n']).length)
  have hBehind : ((above ++ front ++ ['\n']).length : Int) ≤ stop := Int.ofNat_le.mpr hStop
  rw [hFirst, shrinkageOfAll_cons] at hLoss
  rw [h.driftOverBlock_eq, planned, hFirst, List.cons_append, Drift.passage_cons,
    List.getLast?_cons, Drift.step_above hBehind,
    Drift.getLast?_passage (Int.sub_le_sub_right hBehind _)]
  refine ⟨_, rfl, ?_, ?_⟩
  · have := hStart.start_le
    simp only [if_true, Option.getD_some]
    omega
  · simp only [Option.getD_some, List.length_append, List.length_cons, List.length_nil] at hHead ⊢
    rcases h.ends with ⟨rfl, hAt⟩ | ⟨rfl, hAfter⟩
    · simp only [List.length_append, List.length_cons, List.length_nil] at hAt
      simp only [List.isEmpty_nil, if_true]
      omega
    · have hSome : last.isEmpty = false := by
        rw [List.isEmpty_eq_false_iff, ne_eq, h.last_eq_nil_iff]
        omega
      simp only [List.length_append, List.length_cons, List.length_nil] at hAfter
      simp only [hSome, Bool.false_eq_true, if_false]
      omega

end Block

/-- There is a plan for moving lines, and with it the ends of the selection stay on their text:
either end keeps its line, and its column moves with that line if it is touched. Both are within the
edited text. On the way over a block of lines the signed ends are never negative, and they arrive
where the plan puts the selection. -/
theorem plan_keeps_selection_on_text (text : List Char) (selection : Selection) (width : Nat)
    (shift : Shift) (hWidth : 1 ≤ width)
    (hMoves : SpansLines text selection.start selection.stop ∨ shift = .outdent) :
    ∃ planned, plan text selection width shift = .ok planned ∧
      let before := LineMap.ofText text
      let after := LineMap.ofText (planned.applied text)
      let carried (place : Position) : Position :=
        if Touches text selection.start selection.stop place.line then
          ⟨place.line,
            if shift = .indent then place.column + width
            else place.column -
              min width (((rows text)[place.line]?.getD []).takeWhile (· == ' ')).length⟩
        else place
      after.position planned.selection.anchor = carried (before.position selection.start) ∧
      after.position planned.selection.head = carried (before.position selection.stop) ∧
      planned.selection.Within (planned.applied text).length ∧
      (SpansLines text selection.start selection.stop →
        let way := driftOverBlock text (min selection.start text.length)
          (min selection.stop text.length) width shift
        (∀ drift ∈ way, drift.Proper) ∧
        ∃ arrived, way.getLast? = some arrived ∧
          arrived.anchor = planned.selection.anchor ∧
          arrived.head = planned.selection.head) := by
  obtain ⟨planned, hPlan, hCarries⟩ := plan_carries text selection shift hWidth hMoves
  refine ⟨planned, hPlan, ?_⟩
  intro before after carried
  have hCarried (place : Position) :
      carried place = movePlace text selection.start selection.stop width shift place := by
    cases shift <;> rfl
  refine ⟨?_, ?_, hCarries.within, fun hSpans => ?_⟩
  · rw [hCarried]
    exact hCarries.anchor
  · rw [hCarried]
    exact hCarries.head
  · rw [plan_of_spansLines hWidth shift hSpans] at hPlan
    rw [← spansLines_min] at hSpans
    obtain ⟨above, first, front, last, kept, below, hBlock⟩ :=
      exists_block (Nat.min_le_right _ _) hSpans
    rw [hBlock.planBlock_eq width shift] at hPlan
    cases hPlan
    exact ⟨fun _ hDrift => hBlock.driftOverBlock_proper width shift hDrift,
      hBlock.driftOverBlock_arrives width shift⟩

/-- The first line loses more than stands before the selection. -/
theorem plan_keeps_selection_at_line_start :
    let text := [' ', ' ', 'a', '\n', ' ', 'b']
    let selection : Selection := ⟨1, 5⟩
    1 ≤ 4 ∧ SpansLines text selection.start selection.stop ∧
      ∃ planned, plan text selection 4 .outdent = .ok planned ∧
        let after := LineMap.ofText (planned.applied text)
        (LineMap.ofText text).position selection.start = ⟨0, 1⟩ ∧
        after.position planned.selection.anchor = ⟨0, 0⟩ ∧
        (LineMap.ofText text).position selection.stop = ⟨1, 1⟩ ∧
        after.position planned.selection.head = ⟨1, 0⟩ ∧
        driftOverBlock text selection.start selection.stop 4 .outdent =
          [⟨1, 5, 4⟩, ⟨0, 3, 2⟩, ⟨0, 2, 2⟩] ∧
        (0 : Int) = planned.selection.anchor ∧ (2 : Int) = planned.selection.head := by
  intro text selection
  have hSpans : SpansLines text selection.start selection.stop := by decide
  have hWay : driftOverBlock text selection.start selection.stop 4 .outdent =
      [⟨1, 5, 4⟩, ⟨0, 3, 2⟩, ⟨0, 2, 2⟩] := by decide
  obtain ⟨planned, hPlan, hAnchor, hHead, -, hDrift⟩ :=
    plan_keeps_selection_on_text text selection 4 .outdent (by decide) (.inl hSpans)
  obtain ⟨-, arrived, hArrived, hFirst, hLast⟩ := hDrift hSpans
  obtain rfl : ⟨0, 2, 2⟩ = arrived := Option.some.inj ((congrArg _ hWay).symm.trans hArrived)
  exact ⟨by decide, hSpans, planned, hPlan, by decide, hAnchor, by decide, hHead, hWay, hFirst,
    hLast⟩

end EditAssist.Shift
