import EditAssist.Assist.Candidates
import EditAssist.Proofs.Spin.SingleCut
import EditAssist.Proofs.Text.Occurrence

/-! Where a row of the symbol table holds what is typed, and what becomes a candidate there. The
candidate starts with the word of the first match and ends at the first delimiter of that word,
which may stand before the match. So a candidate holds what is typed if and only if no delimiter is
typed and none stands between the start of the word and the match. -/
namespace EditAssist.Candidates

open Text

variable {typed row text before lead found behind left right word : List Char} {c : Char}

/-- Whether `text` holds what is typed, in any case of plain letters. -/
def holds (typed text : List Char) : Bool :=
  occursIn (asciiLower typed) (asciiLower text)

theorem holds_iff : holds typed text = true ↔ asciiLower typed <:+: asciiLower text :=
  occursIn_iff

/-- Where the last word of a text starts, if words end at spaces. -/
def lastWordStart (text : List Char) : Nat :=
  ((lastIndexOf? ' ' text).map (· + 1)).getD 0

/-- There is no space before the text or one at its end. -/
def EndsAtSpace (before : List Char) : Prop :=
  before = [] ∨ ∃ front, before = front ++ [' ']

theorem lastWordStart_append (hBefore : EndsAtSpace before) (hLead : ' ' ∉ lead) :
    lastWordStart (before ++ lead) = before.length := by
  rw [lastWordStart]
  rcases hBefore with rfl | ⟨front, rfl⟩
  · rw [List.nil_append, lastIndexOf?_eq_none_iff.mpr hLead]
    rfl
  have hAt : (front ++ [' '] ++ lead)[front.length]? = some ' ' := by simp
  cases hLast : lastIndexOf? ' ' (front ++ [' '] ++ lead) with
  | none => exact absurd (List.mem_of_getElem? hAt) (lastIndexOf?_eq_none_iff.mp hLast)
  | some last =>
      have hGreatest := isGreatest_of_lastIndexOf? hLast
      have hHere : (front ++ [' '] ++ lead)[last]? = some ' ' := hGreatest.1
      have hFirst : front.length ≤ last := hGreatest.2 hAt
      have hNotLater : last < (front ++ [' ']).length := by
        by_contra hLater
        rw [List.getElem?_append_right (Nat.not_lt.mp hLater)] at hHere
        exact hLead (List.mem_of_getElem? hHere)
      rw [List.length_append, List.length_singleton] at hNotLater ⊢
      simp only [Option.map_some, Option.getD_some]
      omega

theorem exists_lastWord (text : List Char) :
    ∃ before lead, text = before ++ lead ∧ EndsAtSpace before ∧ ' ' ∉ lead := by
  induction text with
  | nil => exact ⟨[], [], rfl, .inl rfl, List.not_mem_nil⟩
  | cons c rest ih =>
      obtain ⟨before, lead, rfl, hBefore, hLead⟩ := ih
      rcases hBefore with rfl | ⟨front, rfl⟩
      · by_cases hSpace : c = ' '
        · exact ⟨[c], lead, rfl, .inr ⟨[], by rw [hSpace]; rfl⟩, hLead⟩
        · refine ⟨[], c :: lead, rfl, .inl rfl, ?_⟩
          exact List.not_mem_cons_of_ne_of_not_mem (Ne.symm hSpace) hLead
      · exact ⟨c :: front ++ [' '], lead, rfl, .inr ⟨c :: front, rfl⟩, hLead⟩

theorem lastWordStart_append_space (left right : List Char) :
    lastWordStart (left ++ ' ' :: right) = left.length + 1 + lastWordStart right := by
  obtain ⟨before, lead, rfl, hBefore, hLead⟩ := exists_lastWord right
  have hEnds : EndsAtSpace (left ++ ' ' :: before) := by
    rcases hBefore with rfl | ⟨front, rfl⟩
    · exact .inr ⟨left, rfl⟩
    · exact .inr ⟨left ++ ' ' :: front, by simp⟩
  rw [lastWordStart_append hBefore hLead, ← List.cons_append, ← List.append_assoc,
    lastWordStart_append hEnds hLead, List.length_append, List.length_cons]
  omega

/-- The identifier at the place where a text first holds what is typed. -/
def matched? (typed text : List Char) : Option (List Char) :=
  (find? (asciiLower typed) (asciiLower text)).map fun hit =>
    Declaration.identifier (text.drop (lastWordStart (text.take hit)))

/-- The candidate of a row is what is matched in its declaration, unless that is nothing or what is
typed already. -/
theorem ofRow?_eq (typed row : List Char) :
    ofRow? typed row =
      (matched? typed (foldBlanks (Symbol.declaration row))).filter fun candidate =>
        !(candidate.isEmpty || candidate == typed) := by
  simp only [ofRow?, matched?, lastWordStart]
  cases find? (asciiLower typed) (asciiLower (foldBlanks (Symbol.declaration row))) with
  | none => rfl
  | some hit =>
      simp only [Option.bind_some, Option.map_some, Option.filter_some]
      generalize Declaration.identifier _ = candidate
      cases candidate.isEmpty || candidate == typed <;> rfl

/-- No letter case makes a delimiter. -/
theorem toLower_mem_delimiters_iff :
    c.toLower ∈ Declaration.delimiters ↔ c ∈ Declaration.delimiters := by
  by_cases hCapital : c.val ≥ 'A'.val ∧ c.val ≤ 'Z'.val
  · have hTable : ∀ code ∈ List.range' 65 26,
        (Char.ofNat code).toLower ∉ Declaration.delimiters ∧
          Char.ofNat code ∉ Declaration.delimiters := by decide
    have hFirst : 65 ≤ c.toNat := UInt32.le_iff_toNat_le.mp hCapital.1
    have hLast : c.toNat ≤ 90 := UInt32.le_iff_toNat_le.mp hCapital.2
    have hCode := hTable c.toNat (List.mem_range'_1.mpr ⟨hFirst, by omega⟩)
    rw [Char.ofNat_toNat] at hCode
    exact iff_of_false hCode.1 hCode.2
  · rw [Char.toLower, dif_neg hCapital]

/-- The characters that may stand in a candidate. -/
def Plain (name : List Char) : Prop :=
  ∀ c ∈ name, isBlank c = false ∧ c ∉ Declaration.delimiters

/-- Up to the first delimiter of a folded text there is nothing to trim. -/
theorem plain_takeWhile (hText : ∀ c ∈ text, isBlank c = true → c = ' ') :
    Plain (text.takeWhile (!Declaration.delimiters.contains ·)) := by
  intro c hMem
  have hOther : c ∉ Declaration.delimiters := by
    simpa using List.all_eq_true.mp List.all_takeWhile c hMem
  refine ⟨?_, hOther⟩
  rw [← Bool.not_eq_true]
  intro hBlank
  obtain rfl := hText c (List.takeWhile_subset _ hMem) hBlank
  exact hOther (by decide)

theorem trim_of_clear (hText : ∀ c ∈ text, isBlank c = false) : trim text = text := by
  by_cases hSome : text = []
  · subst hSome
    rfl
  · exact (trimmed_of_word hSome hText).trim_eq

theorem identifier_eq (hText : ∀ c ∈ text, isBlank c = true → c = ' ') :
    Declaration.identifier text = text.takeWhile (!Declaration.delimiters.contains ·) :=
  trim_of_clear fun c hMem => (plain_takeWhile hText c hMem).1

/-- The first place where a text holds what is typed: it is `found` there, and `lead` is what stands
between the last space before it and it. -/
structure FirstMatch (typed text before lead found behind : List Char) : Prop where
  text_eq : text = before ++ (lead ++ (found ++ behind))
  same : eqIgnoringCase found typed = true
  before_ends : EndsAtSpace before
  lead_clear : ' ' ∉ lead
  first : ∀ place < (before ++ lead).length, ¬ asciiLower typed <+: (asciiLower text).drop place

/-- The word of the match has no white space but spaces. -/
theorem FirstMatch.isBlank_imp (h : FirstMatch typed text before lead found behind)
    (hText : Folded text) : ∀ c ∈ lead ++ (found ++ behind), isBlank c = true → c = ' ' := by
  intro c hMem
  apply hText.plain
  rw [h.text_eq]
  exact List.mem_append_right _ hMem

/-- What is matched is the word of the first match up to its first delimiter. -/
theorem exists_firstMatch {candidate : List Char} (hText : Folded text)
    (hMatched : matched? typed text = some candidate) :
    ∃ before lead found behind, FirstMatch typed text before lead found behind ∧
      candidate = (lead ++ (found ++ behind)).takeWhile (!Declaration.delimiters.contains ·) := by
  obtain ⟨hit, hFound, rfl⟩ := Option.map_eq_some_iff.mp hMatched
  obtain ⟨hLe, hAt, hFirst⟩ := find?_eq_some_iff.mp hFound
  obtain ⟨before, lead, hTake, hBefore, hLead⟩ := exists_lastWord (text.take hit)
  rw [length_asciiLower] at hLe
  have hLength : (before ++ lead).length = hit := by
    rw [← hTake, List.length_take_of_le hLe]
  have hSplit : text = before ++ (lead ++ ((text.drop hit).take typed.length ++
      (text.drop hit).drop typed.length)) := by
    rw [List.take_append_drop, ← List.append_assoc, ← hTake, List.take_append_drop]
  have hSame : eqIgnoringCase ((text.drop hit).take typed.length) typed = true := by
    have hFront := List.prefix_iff_eq_take.mp hAt
    rw [eqIgnoringCase, beq_iff_eq, hFront, length_asciiLower]
    simp only [asciiLower, List.map_take, List.map_drop]
  have hMatch : FirstMatch typed text before lead ((text.drop hit).take typed.length)
      ((text.drop hit).drop typed.length) :=
    ⟨hSplit, hSame, hBefore, hLead, fun place hPlace => hFirst place (hLength ▸ hPlace)⟩
  refine ⟨before, lead, _, _, hMatch, ?_⟩
  rw [← identifier_eq (hMatch.isBlank_imp hText), hTake, lastWordStart_append hBefore hLead]
  conv_lhs => rw [hSplit, List.drop_left]

theorem exists_firstMatch_of_ofRow? {candidate : List Char}
    (hCandidate : ofRow? typed row = some candidate) :
    ∃ before lead found behind,
      FirstMatch typed (foldBlanks (Symbol.declaration row)) before lead found behind ∧
      candidate = (lead ++ (found ++ behind)).takeWhile (!Declaration.delimiters.contains ·) := by
  rw [ofRow?_eq] at hCandidate
  exact exists_firstMatch (folded_foldBlanks _) (Option.filter_eq_some_iff.mp hCandidate).1

/-- A candidate is a plain name that is not typed yet. -/
theorem plain_of_ofRow? {candidate : List Char} (hCandidate : ofRow? typed row = some candidate) :
    candidate ≠ [] ∧ candidate ≠ typed ∧ Plain candidate := by
  obtain ⟨before, lead, found, behind, hMatch, hWord⟩ := exists_firstMatch_of_ofRow? hCandidate
  rw [ofRow?_eq, Option.filter_eq_some_iff] at hCandidate
  have hNew : candidate ≠ [] ∧ candidate ≠ typed := by simpa using hCandidate.2
  refine ⟨hNew.1, hNew.2, ?_⟩
  rw [hWord]
  exact plain_takeWhile (hMatch.isBlank_imp (folded_foldBlanks _))

namespace FirstMatch

variable {name : List Char} (h : FirstMatch typed text before lead found behind)
include h

/-- What is found has a delimiter where what is typed has one. -/
theorem found_clear_iff :
    (∀ c ∈ found, c ∉ Declaration.delimiters) ↔ ∀ c ∈ typed, c ∉ Declaration.delimiters := by
  have hLower (name : List Char) : (∀ c ∈ name, c ∉ Declaration.delimiters) ↔
      ∀ c ∈ asciiLower name, c ∉ Declaration.delimiters := by
    simp only [asciiLower, List.forall_mem_map, toLower_mem_delimiters_iff]
  rw [hLower, hLower typed, beq_iff_eq.mp h.same]

/-- A front of the word that holds what is typed reaches to the end of the first match. -/
theorem isPrefix_of_holds (hName : name <+: lead ++ (found ++ behind))
    (hHolds : holds typed name = true) : lead ++ found <+: name := by
  obtain ⟨front, tail, hFront⟩ := holds_iff.mp hHolds
  obtain ⟨rest, hRest⟩ := hName
  have hText : asciiLower text =
      asciiLower before ++ front ++ (asciiLower typed ++ (tail ++ asciiLower rest)) := by
    rw [h.text_eq, ← hRest, asciiLower_append, asciiLower_append, ← hFront]
    simp only [List.append_assoc]
  have hPlace : lead.length ≤ front.length := by
    by_contra hBefore
    refine h.first (before ++ front).length ?_ ⟨tail ++ asciiLower rest, ?_⟩
    · simp only [List.length_append]
      omega
    · rw [hText, List.drop_left' (by simp)]
  have hLengths := congrArg List.length hFront
  have hFound := congrArg List.length (beq_iff_eq.mp h.same)
  simp only [List.length_append, length_asciiLower] at hLengths hFound
  refine List.prefix_of_prefix_length_le ⟨behind, ?_⟩ ⟨rest, hRest⟩ ?_
  · rw [List.append_assoc]
  · rw [List.length_append]
    omega

/-- Up to its first delimiter the word of the first match holds what is typed if and only if no
delimiter is typed and none stands before the match. -/
theorem holds_takeWhile_iff :
    holds typed ((lead ++ (found ++ behind)).takeWhile (!Declaration.delimiters.contains ·)) =
      true ↔ ∀ c ∈ typed ++ lead, c ∉ Declaration.delimiters := by
  rw [List.forall_mem_append, ← h.found_clear_iff]
  constructor
  · intro hHolds
    have hWithin := h.isPrefix_of_holds (List.takeWhile_prefix _) hHolds
    have hClear : ∀ c ∈ lead ++ found, c ∉ Declaration.delimiters := by
      intro c hMem
      simpa using List.all_eq_true.mp List.all_takeWhile c (hWithin.subset hMem)
    rw [List.forall_mem_append] at hClear
    exact hClear.symm
  · rintro ⟨hFound, hLead⟩
    have hClear : ∀ c ∈ lead ++ found, (!Declaration.delimiters.contains c) = true := by
      intro c hMem
      rcases List.mem_append.mp hMem with hBefore | hHere
      · simpa using hLead c hBefore
      · simpa using hFound c hHere
    rw [← List.append_assoc, List.takeWhile_append_of_pos hClear, holds_iff, asciiLower_append,
      asciiLower_append, beq_iff_eq.mp h.same]
    exact List.infix_append _ _ _

end FirstMatch

end EditAssist.Candidates
