import EditAssist.Proofs.Spin.ShownForm
import EditAssist.Proofs.Spin.WholeWords

/-! The cuts that lead to the shown form of a declaration come to a single one. A place where the
tail may start is the place of a tail mark or of the first storage size. A cut at such a place keeps
the places before it and makes no new ones, as `mem_tailStarts_cut` says, so the first of them is
where the last cut is made, whichever cut comes first. -/
namespace EditAssist

namespace Text

variable {c : Char} {text : List Char} {index : Nat}

theorem lastIndexOf?_eq_none_iff : lastIndexOf? c text = none ↔ c ∉ text := by
  rw [lastIndexOf?]
  induction text with
  | nil => simp [findLast?]
  | cons first rest ih =>
      rw [findLast?, List.mem_cons, not_or, ← ih]
      cases findLast? [c] rest <;> simp

theorem isGreatest_of_lastIndexOf? (hFound : lastIndexOf? c text = some index) :
    IsGreatest {place | text[place]? = some c} index := by
  induction text generalizing index with
  | nil => cases hFound
  | cons first rest ih =>
      rw [lastIndexOf?, findLast?] at hFound
      split at hFound
      next last hLast =>
        cases hFound
        obtain ⟨hAt, hMost⟩ := ih hLast
        refine ⟨hAt, fun place hPlace => ?_⟩
        cases place with
        | zero => exact Nat.zero_le _
        | succ place => exact Nat.succ_le_succ (hMost hPlace)
      next hNone =>
        split at hFound
        next hHere =>
          cases hFound
          have hFirst : c = first := by simpa using hHere
          refine ⟨congrArg some hFirst.symm, fun place hPlace => ?_⟩
          cases place with
          | zero => exact Nat.le_refl _
          | succ place =>
              have hLater : rest[place]? = some c := hPlace
              exact absurd (List.mem_of_getElem? hLater) (lastIndexOf?_eq_none_iff.mp hNone)
        next => cases hFound

/-- The last `c`, if it is not the first character. -/
theorem filter_lastIndexOf?_eq_none_iff :
    (lastIndexOf? c text).filter (0 < ·) = none ↔ ∀ place, 0 < place → text[place]? ≠ some c := by
  cases hLast : lastIndexOf? c text with
  | none =>
      refine iff_of_true rfl fun place _ hPlace => ?_
      exact lastIndexOf?_eq_none_iff.mp hLast (List.mem_of_getElem? hPlace)
  | some last =>
      obtain ⟨hAt, hMost⟩ := isGreatest_of_lastIndexOf? hLast
      rw [Option.filter_eq_none_iff]
      constructor
      · intro hNot place hPlace hEq
        exact hNot last rfl (decide_eq_true (Nat.lt_of_lt_of_le hPlace (hMost hEq)))
      · rintro hNone last' hEq hPositive
        cases hEq
        exact hNone _ (of_decide_eq_true hPositive) hAt

theorem filter_lastIndexOf?_eq_some_iff :
    (lastIndexOf? c text).filter (0 < ·) = some index ↔
      0 < index ∧ IsGreatest {place | text[place]? = some c} index := by
  rw [Option.filter_eq_some_iff, decide_eq_true_eq, and_comm]
  refine and_congr_right fun _ => ⟨isGreatest_of_lastIndexOf?, fun hLast => ?_⟩
  obtain ⟨found, hFound⟩ := Option.ne_none_iff_exists'.mp
    (mt lastIndexOf?_eq_none_iff.mp (not_not.mpr (List.mem_of_getElem? hLast.1)))
  rw [hFound, (isGreatest_of_lastIndexOf? hFound).unique hLast]

end Text

namespace Declaration

open Text Keyword

variable {marks text : List Char} {start : Nat}

/-- Where the tail of a text may start: behind its first character, at a tail mark or at the first
storage size or `org`. -/
def tailStarts (text : List Char) : Set Nat :=
  {start | 0 < start ∧ ((∃ mark ∈ tailMarks, text[start]? = some mark) ∨
    IsLeast {place | StandsAt stops text place} start)}

theorem mem_tailStarts :
    start ∈ tailStarts text ↔ 0 < start ∧ ((∃ mark ∈ tailMarks, text[start]? = some mark) ∨
      IsLeast {place | StandsAt stops text place} start) :=
  Iff.rfl

theorem lt_length_of_mem_tailStarts (hStart : start ∈ tailStarts text) : start < text.length := by
  obtain ⟨-, ⟨mark, -, hAt⟩ | hStop⟩ := hStart
  · exact (List.getElem?_eq_some_iff.mp hAt).1
  · exact hStop.1.lt_length worded_stops

/-- No word goes on across a place where the tail may start. -/
theorem seam_of_mem_tailStarts (hStart : start ∈ tailStarts text) :
    wordContinues (text.take start).reverse = false ∨ wordContinues (text.drop start) = false := by
  obtain ⟨-, ⟨mark, hMark, hAt⟩ | hStop⟩ := hStart
  · right
    have hPlain : ∀ mark ∈ tailMarks, isWordChar mark = false := by decide
    rw [wordContinues_eq, List.head?_drop, hAt]
    exact hPlain mark hMark
  · left
    obtain ⟨before, word, behind, rfl, rfl, -, hStarts, -⟩ := hStop.1
    rwa [List.append_assoc, List.take_left]

section Front

variable {front gap rest : List Char} {place : Nat} (hGap : ∀ c ∈ gap, isBlank c = true)
include hGap

/-- The tail marks of a front are those of the whole text before its end. -/
theorem mark_front_iff :
    (∃ mark ∈ tailMarks, front[place]? = some mark) ↔
      (∃ mark ∈ tailMarks, (front ++ gap ++ rest)[place]? = some mark) ∧
        place < (front ++ gap).length := by
  have hPlain : ∀ mark ∈ tailMarks, isBlank mark = false := by decide
  constructor
  · rintro ⟨mark, hMark, hAt⟩
    have hPlace : place < front.length := (List.getElem?_eq_some_iff.mp hAt).1
    refine ⟨⟨mark, hMark, ?_⟩, by rw [List.length_append]; omega⟩
    rw [List.append_assoc, List.getElem?_append_left hPlace, hAt]
  · rintro ⟨⟨mark, hMark, hAt⟩, hPlace⟩
    rw [List.getElem?_append_left hPlace, List.getElem?_append] at hAt
    split at hAt
    · exact ⟨mark, hMark, hAt⟩
    · have hBlank := hGap mark (List.mem_of_getElem? hAt)
      rw [hPlain mark hMark] at hBlank
      cases hBlank

/-- The first storage size of a front is that of the whole text, if it stands before the end. -/
theorem isLeast_standsAt_front_iff
    (hSeam : wordContinues (front ++ gap).reverse = false ∨ wordContinues rest = false) :
    IsLeast {index | StandsAt stops front index} place ↔
      IsLeast {index | StandsAt stops (front ++ gap ++ rest) index} place ∧
        place < (front ++ gap).length := by
  have hStops (index : Nat) : StandsAt stops front index ↔
      StandsAt stops (front ++ gap ++ rest) index ∧ index < (front ++ gap).length :=
    standsAt_front_iff worded_stops hGap hSeam
  constructor
  · rintro ⟨hAt, hLeast⟩
    obtain ⟨hAtText, hPlace⟩ := (hStops place).mp hAt
    refine ⟨⟨hAtText, fun index hIndex => ?_⟩, hPlace⟩
    by_cases hBefore : index < (front ++ gap).length
    · exact hLeast ((hStops index).mpr ⟨hIndex, hBefore⟩)
    · omega
  · rintro ⟨⟨hAt, hLeast⟩, hPlace⟩
    refine ⟨(hStops place).mpr ⟨hAt, hPlace⟩, fun index hIndex => ?_⟩
    exact hLeast ((hStops index).mp hIndex).1

end Front

/-- After a cut the tail may start just where it could start before the cut. -/
theorem mem_tailStarts_cut (hText : Folded text) (hStart : start ∈ tailStarts text) {place : Nat} :
    place ∈ tailStarts (trim (text.take start)) ↔ place ∈ tailStarts text ∧ place < start := by
  obtain ⟨gap, hTake, hGap⟩ := hText.exists_take_eq start
  have hSeam := seam_of_mem_tailStarts hStart
  have hSplit := (List.take_append_drop start text).symm
  have hLength := List.length_take_of_le (Nat.le_of_lt (lt_length_of_mem_tailStarts hStart))
  rw [hTake] at hSeam hSplit hLength
  rw [mem_tailStarts, mem_tailStarts, mark_front_iff hGap, isLeast_standsAt_front_iff hGap hSeam,
    ← hSplit, hLength, ← or_and_right, and_assoc]

/-- One cut as `cutTail` makes it, where the tail marks are tried in some other order. -/
def cutTailTrying (marks text : List Char) : List Char :=
  let kept :=
    match (lastIndexOf? ')' text).filter (0 < ·) with
    | some close => text.take (close + 1)
    | none =>
      match marks.findSome? fun mark => (lastIndexOf? mark text).filter (0 < ·) with
      | some i => text.take i
      | none =>
        match (Keyword.find? Keyword.stops text).filter (0 < ·) with
        | some i => text.take i
        | none => text
  trim kept

/-- Cuts, trying the marks in the given order, until a cut no longer shortens the text. -/
def cutAllTrying (marks text : List Char) : List Char :=
  if (cutTailTrying marks text).length < text.length then
    cutAllTrying marks (cutTailTrying marks text)
  else text
termination_by text.length

theorem cutTailTrying_tailMarks (text : List Char) : cutTailTrying tailMarks text = cutTail text :=
  rfl

theorem cutAllTrying_tailMarks (text : List Char) : cutAllTrying tailMarks text = cutAll text := by
  fun_induction cutAll text with
  | case1 text hShorter ih =>
      rw [cutAllTrying, cutTailTrying_tailMarks, if_pos hShorter, ih]
  | case2 text hLength => rw [cutAllTrying, cutTailTrying_tailMarks, if_neg hLength]

/-- Without a closing parenthesis a cut is made at some place where the tail may start, or there is
no such place and nothing is cut. -/
theorem cutTailTrying_cases (hMarks : marks.Perm tailMarks) (hText : Folded text)
    (hOpen : ∀ place, 0 < place → text[place]? ≠ some ')') :
    (∃ start ∈ tailStarts text, cutTailTrying marks text = trim (text.take start)) ∨
      tailStarts text = ∅ ∧ cutTailTrying marks text = text := by
  rw [cutTailTrying, filter_lastIndexOf?_eq_none_iff.mpr hOpen]
  dsimp only
  split
  next start hMark =>
    obtain ⟨mark, hMem, hLast⟩ := List.exists_of_findSome?_eq_some hMark
    obtain ⟨hPositive, hGreatest⟩ := filter_lastIndexOf?_eq_some_iff.mp hLast
    exact .inl ⟨start, ⟨hPositive, .inl ⟨mark, hMarks.mem_iff.mp hMem, hGreatest.1⟩⟩, rfl⟩
  next hNoMark =>
    split
    next start hStop =>
      obtain ⟨hFound, hPositive⟩ := Option.filter_eq_some_iff.mp hStop
      exact .inl ⟨start, ⟨of_decide_eq_true hPositive,
        .inr ((find?_eq_some_iff worded_stops).mp hFound)⟩, rfl⟩
    next hNoStop =>
      refine .inr ⟨Set.eq_empty_of_forall_notMem ?_, hText.trim_eq⟩
      rintro start ⟨hPositive, ⟨mark, hMark, hAt⟩ | hStop⟩
      · have hNone := List.findSome?_eq_none_iff.mp hNoMark mark (hMarks.mem_iff.mpr hMark)
        exact filter_lastIndexOf?_eq_none_iff.mp hNone start hPositive hAt
      · have hFound := (find?_eq_some_iff worded_stops).mpr hStop
        rw [hFound, Option.filter_eq_none_iff] at hNoStop
        exact hNoStop start rfl (decide_eq_true hPositive)

/-- A cut behind the place where the tail first may start leaves that place the first, and leaves
all that stands before it. -/
theorem isLeast_tailStarts_cut (hText : Folded text) {cut : Nat} (hCut : cut ∈ tailStarts text)
    (hStart : IsLeast (tailStarts text) start) (hBefore : start < cut) :
    IsLeast (tailStarts (trim (text.take cut))) start ∧
      (trim (text.take cut)).take start = text.take start := by
  have hKept := (mem_tailStarts_cut hText hCut).mpr ⟨hStart.1, hBefore⟩
  refine ⟨⟨hKept, fun place hPlace => hStart.2 ((mem_tailStarts_cut hText hCut).mp hPlace).1⟩, ?_⟩
  obtain ⟨gap, hTake, -⟩ := hText.exists_take_eq cut
  rw [← List.take_append_of_le_length (Nat.le_of_lt (lt_length_of_mem_tailStarts hKept)), ← hTake,
    List.take_take, Nat.min_eq_left (Nat.le_of_lt hBefore)]

/-- A cut where the tail first may start leaves no such place. -/
theorem tailStarts_cut_eq_empty (hText : Folded text) (hStart : IsLeast (tailStarts text) start) :
    tailStarts (trim (text.take start)) = ∅ := by
  refine Set.eq_empty_of_forall_notMem fun place hPlace => ?_
  obtain ⟨hMem, hBefore⟩ := (mem_tailStarts_cut hText hStart.1).mp hPlace
  exact absurd (hStart.2 hMem) (Nat.not_le_of_lt hBefore)

/-- Whatever the order of the marks, the cuts come to one cut where the tail first may start. -/
theorem cutAllTrying_open (hMarks : marks.Perm tailMarks) (hText : Folded text)
    (hOpen : ∀ place, 0 < place → text[place]? ≠ some ')') :
    (∀ start, IsLeast (tailStarts text) start → cutAllTrying marks text = trim (text.take start)) ∧
      (tailStarts text = ∅ → cutAllTrying marks text = text) := by
  fun_induction cutAllTrying marks text with
  | case1 text hShorter ih =>
      rcases cutTailTrying_cases hMarks hText hOpen with ⟨cut, hCut, hEq⟩ | ⟨-, hEq⟩
      · rw [hEq] at ih ⊢
        have hStillOpen : ∀ place, 0 < place → (trim (text.take cut))[place]? ≠ some ')' := by
          intro place hPlace hAt
          obtain ⟨rest, hRest⟩ := hText.trim_take_prefix cut
          apply hOpen place hPlace
          rw [← hRest, List.getElem?_append_left (List.getElem?_eq_some_iff.mp hAt).1, hAt]
        obtain ⟨hLater, hLast⟩ := ih (hText.trim (List.take_prefix cut text).isInfix) hStillOpen
        refine ⟨fun start hStart => ?_, fun hNone => ?_⟩
        · -- the cut is made at the first start already, or the first start is left for a later one
          rcases Nat.lt_or_eq_of_le (hStart.2 hCut) with hBefore | rfl
          · obtain ⟨hStill, hSame⟩ := isLeast_tailStarts_cut hText hCut hStart hBefore
            rw [hLater start hStill, hSame]
          · exact hLast (tailStarts_cut_eq_empty hText hStart)
        · rw [hNone] at hCut
          exact absurd hCut (Set.notMem_empty _)
      · rw [hEq] at hShorter
        exact absurd hShorter (Nat.lt_irrefl _)
  | case2 text hLength =>
      rcases cutTailTrying_cases hMarks hText hOpen with ⟨cut, hCut, hEq⟩ | ⟨hNone, -⟩
      · have hPlace := lt_length_of_mem_tailStarts hCut
        have hTrim := length_trim_le (text.take cut)
        rw [← hEq, List.length_take] at hTrim
        omega
      · refine ⟨fun start hStart => ?_, fun _ => rfl⟩
        rw [hNone] at hStart
        exact absurd hStart.1 (Set.notMem_empty _)

/-- The tail first starts behind a front that holds no tail mark and in which no storage size is the
first. -/
theorem isLeast_tailStarts {front rest : List Char}
    (hStart : front.length ∈ tailStarts (front ++ rest)) (hMarks : ∀ c ∈ front, c ∉ tailMarks)
    (hStops : ∀ place < front.length, 0 < place →
      ¬ IsLeast {index | StandsAt stops (front ++ rest) index} place) :
    IsLeast (tailStarts (front ++ rest)) front.length := by
  refine ⟨hStart, ?_⟩
  rintro place ⟨hPlace, hTail⟩
  by_contra hBefore
  rw [Nat.not_le] at hBefore
  rcases hTail with ⟨mark, hMark, hAt⟩ | hStop
  · rw [List.getElem?_append_left hBefore] at hAt
    exact hMarks mark (List.mem_of_getElem? hAt) hMark
  · exact hStops place hBefore hPlace hStop

/-- Nothing is cut where there is no tail mark and no storage size is the first. -/
theorem cutAll_of_unmarked (hText : Folded text) (hOpen : ∀ place : Nat, text[place]? ≠ some ')')
    (hMarks : ∀ c ∈ text, c ∉ tailMarks)
    (hStops : ∀ place, 0 < place → ¬ IsLeast {index | StandsAt stops text index} place) :
    cutAll text = text := by
  obtain ⟨-, hKept⟩ := cutAllTrying_open (List.Perm.refl tailMarks) hText fun place _ => hOpen place
  rw [← cutAllTrying_tailMarks, hKept]
  refine Set.eq_empty_of_forall_notMem ?_
  rintro place ⟨hPlace, ⟨mark, hMark, hAt⟩ | hStop⟩
  · exact hMarks mark (List.mem_of_getElem? hAt) hMark
  · exact hStops place hPlace hStop

/-- What stands before the tail is left, without the white space between. -/
theorem cutAll_of_front {front gap rest : List Char} (hText : Folded (front ++ gap ++ rest))
    (hOpen : ∀ place : Nat, (front ++ gap ++ rest)[place]? ≠ some ')') (hFront : Trimmed front)
    (hGap : ∀ c ∈ gap, isBlank c = true)
    (hStart : IsLeast (tailStarts (front ++ gap ++ rest)) (front ++ gap).length) :
    cutAll (front ++ gap ++ rest) = front := by
  obtain ⟨hCut, -⟩ := cutAllTrying_open (List.Perm.refl tailMarks) hText fun place _ => hOpen place
  rw [← cutAllTrying_tailMarks, hCut _ hStart, List.take_left]
  have hTrim := hFront.trim_between (List.forall_mem_nil _) hGap
  rwa [List.nil_append] at hTrim

section Closed

variable {close : Nat} (hPositive : 0 < close)
  (hClose : IsGreatest {place | text[place]? = some ')'} close) (hText : Folded text)
include hClose hText

/-- There is nothing to trim about a text that ends with a closing parenthesis. -/
theorem trimmed_take_close : Trimmed (text.take (close + 1)) := by
  have hAt : text[close]? = some ')' := hClose.1
  have hLast : text.take (close + 1) = text.take close ++ [')'] := by
    rw [List.take_add_one, hAt, Option.toList_some]
  refine ⟨?_, ?_, ?_⟩
  · rw [hLast]
    exact List.append_ne_nil_of_right_ne_nil _ (List.cons_ne_nil _ _)
  · intro c hHead
    have hSome : text ≠ [] := List.ne_nil_of_mem (List.mem_of_getElem? hAt)
    exact (hText.trimmed hSome).head c (head?_eq_of_isPrefix (List.take_prefix _ text) hHead)
  · intro c hEnd
    rw [hLast, List.getLast?_concat] at hEnd
    cases hEnd
    decide

include hPositive

theorem cutTailTrying_closed : cutTailTrying marks text = text.take (close + 1) := by
  rw [cutTailTrying, filter_lastIndexOf?_eq_some_iff.mpr ⟨hPositive, hClose⟩]
  exact (trimmed_take_close hClose hText).trim_eq

/-- The cut behind the last closing parenthesis is the only one. -/
theorem cutAllTrying_closed : cutAllTrying marks text = text.take (close + 1) := by
  rw [cutAllTrying, cutTailTrying_closed hPositive hClose hText]
  split
  · have hKept : Folded (text.take (close + 1)) := by
      rw [← (trimmed_take_close hClose hText).trim_eq]
      exact hText.trim (List.take_prefix _ text).isInfix
    have hStill : IsGreatest {place | (text.take (close + 1))[place]? = some ')'} close := by
      refine ⟨(List.getElem?_take_of_lt (Nat.lt_succ_self close)).trans hClose.1, ?_⟩
      intro place hPlace
      have hLength := (List.getElem?_eq_some_iff.mp hPlace).1
      rw [List.length_take] at hLength
      omega
    rw [cutAllTrying, cutTailTrying_closed hPositive hStill hKept, List.take_take,
      Nat.min_self, if_neg (Nat.lt_irrefl _)]
  next hLength =>
    rw [List.length_take] at hLength
    exact (List.take_of_length_le (by omega)).symm

end Closed

/-- The order in which the marks are tried makes no difference. -/
theorem cutAllTrying_eq (hMarks : marks.Perm tailMarks) (hText : Folded text) :
    cutAllTrying marks text = cutAll text := by
  classical
  rw [← cutAllTrying_tailMarks]
  cases hClose : (lastIndexOf? ')' text).filter (0 < ·) with
  | some close =>
      obtain ⟨hPositive, hLast⟩ := filter_lastIndexOf?_eq_some_iff.mp hClose
      rw [cutAllTrying_closed hPositive hLast hText, cutAllTrying_closed hPositive hLast hText]
  | none =>
      have hOpen := filter_lastIndexOf?_eq_none_iff.mp hClose
      obtain ⟨hCut, hKept⟩ := cutAllTrying_open hMarks hText hOpen
      obtain ⟨hCutSame, hKeptSame⟩ := cutAllTrying_open (List.Perm.refl tailMarks) hText hOpen
      by_cases hNone : tailStarts text = ∅
      · rw [hKept hNone, hKeptSame hNone]
      · have hFirst := (Set.nonempty_iff_ne_empty.mpr hNone).isLeast_natFind
        rw [hCut _ hFirst, hCutSame _ hFirst]

/-- The repeated cuts come to a single one. Where a closing parenthesis stands behind the first
character of a declaration, its shown form ends with the last of them. Else it ends, trimmed, where
the tail first may start, and is all of the declaration where the tail may start nowhere. The order
in which the tail marks are tried makes no difference. -/
theorem shown_cuts_once (row : List Char) {marks : List Char} (hMarks : marks.Perm tailMarks) :
    let declared := foldBlanks (Symbol.declaration row)
    shown row = cutAllTrying marks declared ∧
    (∀ close, 0 < close → IsGreatest {place | declared[place]? = some ')'} close →
      shown row = declared.take (close + 1)) ∧
    ((∀ place, 0 < place → declared[place]? ≠ some ')') →
      (∀ start, IsLeast (tailStarts declared) start → shown row = trim (declared.take start)) ∧
      (tailStarts declared = ∅ → shown row = declared)) := by
  intro declared
  have hFolded : Folded declared := folded_foldBlanks _
  have hShown : shown row = cutAllTrying marks declared := (cutAllTrying_eq hMarks hFolded).symm
  refine ⟨hShown, fun close hPositive hClose => ?_, fun hOpen => ?_⟩
  · rw [hShown, cutAllTrying_closed hPositive hClose hFolded]
  · rw [hShown]
    exact cutAllTrying_open hMarks hFolded hOpen

/-- Four marks and a storage size follow the name, and each order of the marks cuts before all. -/
theorem shown_cuts_once_before_colon :
    let row := ['x', '\t', 'D', 'A', 'T', ' ', ' ', 't', ' ', ':', '=', '[', '2', ']', '|', ' ',
      'L', 'o', 'n', 'g']
    let declared := ['D', 'A', 'T', ' ', 't', ' ', ':', '=', '[', '2', ']', '|', ' ',
      'L', 'o', 'n', 'g']
    ['=', '[', '|', ':'].Perm tailMarks ∧ foldBlanks (Symbol.declaration row) = declared ∧
      (∀ place, 0 < place → declared[place]? ≠ some ')') ∧ IsLeast (tailStarts declared) 6 ∧
      shown row = ['D', 'A', 'T', ' ', 't'] ∧
      cutAllTrying ['=', '[', '|', ':'] declared = ['D', 'A', 'T', ' ', 't'] := by
  intro row declared
  have hMarks : ['=', '[', '|', ':'].Perm tailMarks := by decide
  have hFold : foldBlanks (Symbol.declaration row) = declared := by cbv
  have hOpen : ∀ place, 0 < place → declared[place]? ≠ some ')' := by
    intro place _ hAt
    exact absurd (List.mem_of_getElem? hAt) (by decide)
  have hStart : IsLeast (tailStarts declared) 6 := by
    refine ⟨⟨by decide, .inl ⟨':', by decide, rfl⟩⟩, ?_⟩
    rintro place ⟨-, ⟨mark, hMark, hAt⟩ | hStop⟩
    · have hBefore : ∀ place < 6, ∀ mark ∈ tailMarks, declared[place]? ≠ some mark := by decide
      exact Nat.le_of_not_lt fun hLess => hBefore place hLess mark hMark hAt
    · have hFound : Keyword.find? stops declared = some 13 := by cbv
      rw [(find?_eq_some_iff worded_stops).mpr hStop] at hFound
      cases hFound
      decide
  obtain ⟨hOrder, -, hCut⟩ := shown_cuts_once row hMarks
  rw [hFold] at hOrder hCut
  have hShown : shown row = ['D', 'A', 'T', ' ', 't'] := by
    rw [(hCut hOpen).1 6 hStart]
    decide
  exact ⟨hMarks, hFold, hOpen, hStart, hShown, hOrder ▸ hShown⟩

end Declaration

end EditAssist
