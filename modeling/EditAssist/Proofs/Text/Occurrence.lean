import Mathlib.Data.List.Infix
import EditAssist.Text.Search

/-! Searches through texts that are put together from parts. A part that no search for a pattern
ends in, whatever follows it, is passed over as a whole: then the pattern is found where it is found
in the rest. A text that is joined with a mark is cut at that mark into the joined parts, if the
search for the mark passes over each of them. -/
namespace EditAssist.Text

variable {pattern text left right part rest : List Char} {c : Char} {index : Nat}

theorem find?_nil (hPattern : pattern ≠ []) : find? pattern [] = none := by
  rw [find?, if_neg (mt List.isEmpty_iff.mp hPattern)]

theorem find?_cons_of_not_isPrefix (hHere : ¬ pattern <+: c :: rest) :
    find? pattern (c :: rest) = (find? pattern rest).map (· + 1) := by
  rw [find?, if_neg (mt List.isPrefixOf_iff_prefix.mp hHere)]

theorem find?_eq_none_iff : find? pattern text = none ↔ ¬ pattern <:+: text := by
  induction text with
  | nil =>
      cases pattern with
      | nil => simp [find?]
      | cons first later => simp [find?]
  | cons c rest ih =>
      rw [List.infix_cons_iff]
      by_cases hHere : pattern <+: c :: rest
      · rw [find?, if_pos (List.isPrefixOf_iff_prefix.mpr hHere)]
        exact iff_of_false (Option.some_ne_none 0) fun hNot => hNot (.inl hHere)
      · rw [find?_cons_of_not_isPrefix hHere, Option.map_eq_none_iff, ih]
        exact ⟨fun hLater => not_or.mpr ⟨hHere, hLater⟩, fun hNot => (not_or.mp hNot).2⟩

theorem occursIn_iff : occursIn pattern text = true ↔ pattern <:+: text := by
  rw [occursIn, Option.isSome_iff_ne_none, ne_eq, find?_eq_none_iff, Classical.not_not]

theorem occursIn_singleton (c : Char) (text : List Char) :
    occursIn [c] text = decide (c ∈ text) := by
  rw [Bool.eq_iff_iff, occursIn_iff, decide_eq_true_eq, List.singleton_infix_iff]

theorem findLast?_le (hFound : findLast? pattern text = some index) :
    index + pattern.length ≤ text.length := by
  induction text generalizing index with
  | nil =>
      rw [findLast?] at hFound
      split at hFound
      next hEmpty =>
        cases hFound
        rw [List.isEmpty_iff.mp hEmpty]
        exact Nat.le_refl _
      next => cases hFound
  | cons c rest ih =>
      rw [findLast?] at hFound
      split at hFound
      next found hRest =>
        cases hFound
        have := ih hRest
        rw [List.length_cons]
        omega
      next =>
        split at hFound
        next hHere =>
          cases hFound
          rw [Nat.zero_add]
          exact (List.isPrefixOf_iff_prefix.mp hHere).length_le
        next => cases hFound

theorem find?_le (hFound : find? pattern text = some index) :
    index + pattern.length ≤ text.length := by
  obtain ⟨hIndex, hPrefix, -⟩ := find?_eq_some_iff.mp hFound
  have := hPrefix.length_le
  rw [List.length_drop] at this
  omega

/-- What follows a first occurrence makes no difference to it. -/
theorem find?_append_of_eq_some (hFound : find? pattern left = some index) (right : List Char) :
    find? pattern (left ++ right) = some index := by
  obtain ⟨hLe, hAt, hFirst⟩ := find?_eq_some_iff.mp hFound
  have hRoom : pattern.length ≤ left.length - index := by
    rw [← List.length_drop]
    exact hAt.length_le
  refine find?_eq_some_iff.mpr ⟨?_, ?_, ?_⟩
  · rw [List.length_append]
    omega
  · rw [List.drop_append_of_le_length hLe]
    exact hAt.trans (List.prefix_append _ _)
  · intro place hBefore hOccurs
    rw [List.drop_append_of_le_length (by omega)] at hOccurs
    have hWithin : pattern.length ≤ (left.drop place).length := by
      rw [List.length_drop]
      omega
    exact hFirst place hBefore
      (List.prefix_of_prefix_length_le hOccurs (List.prefix_append _ _) hWithin)

theorem isPrefixOf_append_singleton (hc : c ∉ pattern) (text : List Char) :
    pattern.isPrefixOf (text ++ [c]) = pattern.isPrefixOf text := by
  rw [Bool.eq_iff_iff, List.isPrefixOf_iff_prefix, List.isPrefixOf_iff_prefix,
    List.prefix_concat_iff]
  refine or_iff_right ?_
  rintro rfl
  exact hc (List.mem_append_right _ List.mem_cons_self)

/-- A pattern is found where it was, if a character that it has not is put behind the text. -/
theorem find?_append_singleton (hPattern : pattern ≠ []) (hc : c ∉ pattern) (text : List Char) :
    find? pattern (text ++ [c]) = find? pattern text := by
  induction text with
  | nil =>
      obtain ⟨first, later, rfl⟩ := List.exists_cons_of_ne_nil hPattern
      rw [List.mem_cons, not_or] at hc
      simp [find?, Ne.symm hc.1]
  | cons first rest ih =>
      have hHere := isPrefixOf_append_singleton hc (first :: rest)
      rw [List.cons_append] at hHere
      rw [List.cons_append, find?, find?, hHere, ih]

theorem findLast?_append_singleton (hPattern : pattern ≠ []) (hc : c ∉ pattern)
    (text : List Char) : findLast? pattern (text ++ [c]) = findLast? pattern text := by
  induction text with
  | nil =>
      obtain ⟨first, later, rfl⟩ := List.exists_cons_of_ne_nil hPattern
      rw [List.mem_cons, not_or] at hc
      simp [findLast?, Ne.symm hc.1]
  | cons first rest ih =>
      have hHere := isPrefixOf_append_singleton hc (first :: rest)
      rw [List.cons_append] at hHere
      rw [List.cons_append, findLast?, findLast?, hHere, ih]

/-- No search for the pattern ends in the part, whatever follows it. -/
def Passes (pattern part : List Char) : Prop :=
  ∀ rest, find? pattern (part ++ rest) = (find? pattern rest).map (· + part.length)

theorem passes_nil (pattern : List Char) : Passes pattern [] := by
  intro rest
  simp

theorem Passes.cons (hPart : Passes pattern part)
    (hHere : ∀ rest, ¬ pattern <+: c :: (part ++ rest)) : Passes pattern (c :: part) := by
  intro rest
  rw [List.cons_append, find?_cons_of_not_isPrefix (hHere rest), hPart rest, Option.map_map]
  rfl

theorem Passes.append (hLeft : Passes pattern left) (hRight : Passes pattern right) :
    Passes pattern (left ++ right) := by
  intro rest
  rw [List.append_assoc, hLeft, hRight, Option.map_map, List.length_append]
  congr 1
  funext index
  simp only [Function.comp_apply]
  omega

/-- A part without the first character of the pattern is passed over. -/
theorem passes_of_not_mem (hPart : c ∉ part) (later : List Char) : Passes (c :: later) part := by
  induction part with
  | nil => exact passes_nil _
  | cons first part ih =>
      rw [List.mem_cons, not_or] at hPart
      refine (ih hPart.2).cons fun rest hHere => hPart.1 ?_
      exact (List.cons_prefix_cons.mp hHere).1

/-- A part that does not hold the pattern is passed over together with a gap behind it, if that has
no character of the pattern. -/
theorem passes_append_gap {gap : List Char} (hPart : ¬ pattern <:+: part) (hSome : gap ≠ [])
    (hGap : ∀ c ∈ gap, c ∉ pattern) : Passes pattern (part ++ gap) := by
  induction part with
  | nil =>
      have hPattern : pattern ≠ [] := by
        rintro rfl
        exact hPart (List.infix_refl _)
      obtain ⟨first, later, rfl⟩ := List.exists_cons_of_ne_nil hPattern
      exact passes_of_not_mem (fun hMem => hGap first hMem List.mem_cons_self) later
  | cons first part ih =>
      rw [List.infix_cons_iff, not_or] at hPart
      refine (ih hPart.2).cons fun rest hHere => ?_
      obtain ⟨tail, hTail⟩ := hHere
      rw [List.append_assoc, ← List.cons_append] at hTail
      rcases List.append_eq_append_iff.mp hTail with ⟨back, hBack, -⟩ | ⟨back, hBack, hRest⟩
      · exact hPart.1 ⟨back, hBack.symm⟩
      -- what is left of the pattern behind the part starts with the first character of the gap
      · cases back with
        | nil =>
            rw [List.append_nil] at hBack
            exact hPart.1 (hBack ▸ List.prefix_rfl)
        | cons other back =>
            obtain ⟨c, more, rfl⟩ := List.exists_cons_of_ne_nil hSome
            obtain ⟨rfl, -⟩ := List.cons.inj hRest
            refine hGap c List.mem_cons_self ?_
            rw [hBack]
            exact List.mem_append_right _ List.mem_cons_self

/-- What stands behind an occurrence is shorter than the whole. -/
theorem length_behind_lt {mark : List Char} (hMark : mark ≠ [])
    (hFound : find? mark text = some index) :
    text.length - (index + mark.length) < text.length := by
  obtain ⟨hLe, hAt, -⟩ := find?_eq_some_iff.mp hFound
  have hRoom := hAt.length_le
  have hSome := List.length_pos_iff.mpr hMark
  rw [List.length_drop] at hRoom
  omega

/-- The parts of a text between the places where a mark stands, found from the front. -/
def cutAt (mark text : List Char) : List (List Char) :=
  match hFound : find? mark text with
  | none => [text]
  | some index =>
    if hMark : mark = [] then [text]
    else
      have := length_behind_lt hMark hFound
      text.take index :: cutAt mark (text.drop (index + mark.length))
termination_by text.length

section CutAt

variable {mark : List Char} (hMark : mark ≠ []) (hPart : Passes mark part)
include hMark hPart

theorem cutAt_of_passes : cutAt mark part = [part] := by
  have hNone : find? mark part = none := by
    have hPassed := hPart []
    rwa [List.append_nil, find?_nil hMark] at hPassed
  rw [cutAt]
  split
  next => rfl
  next hFound =>
    rw [hNone] at hFound
    cases hFound

theorem cutAt_append (rest : List Char) :
    cutAt mark (part ++ (mark ++ rest)) = part :: cutAt mark rest := by
  have hHere : find? mark (mark ++ rest) = some 0 :=
    find?_eq_some_iff.mpr ⟨Nat.zero_le _, List.prefix_append _ _, nofun⟩
  have hFirst : find? mark (part ++ (mark ++ rest)) = some part.length := by
    rw [hPart, hHere, Option.map_some, Nat.zero_add]
  rw [cutAt]
  split
  next hNone =>
    rw [hFirst] at hNone
    cases hNone
  next hFound =>
    rw [hFirst] at hFound
    cases hFound
    have hBehind : (part ++ (mark ++ rest)).drop (part.length + mark.length) = rest := by
      rw [← List.append_assoc, ← List.length_append, List.drop_left]
    simp only [hMark, ↓reduceDIte, List.take_left, hBehind]

end CutAt

/-- Parts that the search for the mark passes over are read off what they are joined to. -/
theorem cutAt_intercalate {mark : List Char} (hMark : mark ≠ []) {parts : List (List Char)}
    (hParts : ∀ part ∈ parts, Passes mark part) (hSome : parts ≠ []) :
    cutAt mark (mark.intercalate parts) = parts := by
  induction parts with
  | nil => exact absurd rfl hSome
  | cons part parts ih =>
      rw [List.forall_mem_cons] at hParts
      by_cases hLater : parts = []
      · subst hLater
        rw [List.intercalate_singleton]
        exact cutAt_of_passes hMark hParts.1
      · rw [List.intercalate_cons_of_ne_nil hLater, List.append_assoc, cutAt_append hMark hParts.1,
          ih hParts.2 hLater]

end EditAssist.Text
