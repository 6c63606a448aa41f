import EditAssist.Proofs.Spin.Bands

/-! Headers that stand outside all comments. The braces of a row are counted before its header is
looked at, so a header that goes before a comment on its own row is taken to be inside it, unless
the comment is closed on that row. Its rows then go to the section above. -/
namespace EditAssist.Band

open Text

/-- The depth of comment braces before a row. -/
def depthBefore (lines : List (List Char)) (line : Nat) : Nat :=
  (lines.take line).foldl depthAfter 0

variable {lines : List (List Char)} {bands : List Band} {band : Band} {row text : List Char}
  {line stop : Nat} {kind : Section}

/-- A row outside all comments leaves none open if it closes what it opens. -/
theorem depthAfter_zero_eq_zero_iff (row : List Char) :
    depthAfter 0 row = 0 ↔ ('{' ∈ row → '}' ∈ row) := by
  rw [depthAfter]
  by_cases hOpens : '{' ∈ row <;> by_cases hCloses : '}' ∈ row <;> simp [hOpens, hCloses]

/-- Outside all comments a header counts if its row leaves no comment open. -/
theorem headerAt?_of_closed (hRow : lines[line]? = some row) (hClosed : depthBefore lines line = 0) :
    headerAt? lines line =
      if '{' ∈ row → '}' ∈ row then Section.ofHeader? row else none := by
  obtain ⟨hLine, rfl⟩ := List.getElem?_eq_some_iff.mp hRow
  rw [headerAt?_eq hLine]
  change (if depthAfter (depthBefore lines line) lines[line] = 0 then _ else none) = _
  rw [hClosed]
  simp only [depthAfter_zero_eq_zero_iff]

namespace Tiles

theorem pos (h : Tiles lines bands stop) : 0 < stop := by
  cases h with
  | first hSome => exact hSome
  | next _ _ hSome => exact Nat.zero_lt_of_lt hSome

/-- Every row belongs to a band. -/
theorem exists_mem_of_lt (h : Tiles lines bands stop) (hLine : line < stop) :
    ∃ band ∈ bands, band.first ≤ line ∧ line < band.stop := by
  induction h with
  | first => exact ⟨_, List.mem_singleton_self _, Nat.zero_le line, hLine⟩
  | @next _ start _ _ _ _ _ _ ih =>
      rcases Nat.lt_or_ge line start with hBefore | hBehind
      · obtain ⟨band, hMem, hBand⟩ := ih hBefore
        exact ⟨band, List.mem_cons_of_mem _ hMem, hBand⟩
      · exact ⟨_, List.mem_cons_self, hBehind, hLine⟩

/-- The first band has the kind of the first header, if the first row has one. -/
theorem kind_of_first_eq_zero (h : Tiles lines bands stop) (hMem : band ∈ bands)
    (hFirst : band.first = 0) : band.kind = (headerAt? lines 0).getD .con := by
  obtain ⟨newer, older, rfl⟩ := List.append_of_mem hMem
  cases h.of_suffix (List.suffix_append newer (band :: older)) with
  | first => rfl
  | next hOlder => exact absurd hFirst (Nat.ne_of_gt hOlder.pos)

theorem exists_mem_first_iff (h : Tiles lines bands stop) :
    (∃ band ∈ bands, band.first = 0 ∧ band.kind = kind) ↔
      (headerAt? lines 0).getD .con = kind := by
  constructor
  · rintro ⟨band, hMem, hFirst, rfl⟩
    exact (h.kind_of_first_eq_zero hMem hFirst).symm
  · rintro rfl
    obtain ⟨band, hMem, hFirst, -⟩ := h.exists_mem_of_lt h.pos
    have hZero := Nat.le_zero.mp hFirst
    exact ⟨band, hMem, hZero, h.kind_of_first_eq_zero hMem hZero⟩

/-- A band of some kind starts at every header of this kind, and a `CON` band starts at a first row
without a header. -/
theorem starts_iff (h : Tiles lines bands lines.length) :
    (∃ band ∈ bands, band.first = line ∧ band.kind = kind) ↔
      headerAt? lines line = some kind ∨
        (line = 0 ∧ headerAt? lines line = none ∧ kind = .con) := by
  rcases Nat.eq_zero_or_pos line with rfl | hBehind
  · rw [h.exists_mem_first_iff]
    cases headerAt? lines 0 <;> simp [eq_comm]
  · rw [h.exists_mem_iff hBehind]
    exact (or_iff_left fun hFirst => Nat.ne_of_gt hBehind hFirst.1).symm

end Tiles

/-- What becomes of a header outside all comments. A band of its kind starts at its row if the row
closes the comment that it opens, if any; a `CON` header on the first row starts one all the same.
Behind the first row, a header that goes before an open comment is passed over, and its row belongs
to a band that has started above. -/
theorem header_starts_band (hRow : (rows text)[line]? = some row)
    (hClosed : depthBefore (rows text) line = 0) (hHeader : Section.ofHeader? row = some kind) :
    ((∃ band ∈ ofText text, band.first = line ∧ band.kind = kind) ↔
      ('{' ∈ row → '}' ∈ row) ∨ (line = 0 ∧ kind = .con)) ∧
    (0 < line → '{' ∈ row → '}' ∉ row →
      ∃ band ∈ ofText text, band.first < line ∧ line < band.stop) := by
  have hTiles := tiles_reverse_ofText text
  have hAt := headerAt?_of_closed hRow hClosed
  rw [hHeader] at hAt
  have hMem (band : Band) : band ∈ ofText text ↔ band ∈ (ofText text).reverse :=
    List.mem_reverse.symm
  simp only [hMem]
  constructor
  · rw [hTiles.starts_iff, hAt]
    by_cases hKept : '{' ∈ row → '}' ∈ row
    · rw [if_pos hKept]
      exact iff_of_true (.inl rfl) (.inl hKept)
    · rw [if_neg hKept]
      simp only [reduceCtorEq, true_and, false_or, hKept]
  · intro hBehind hOpens hLeft
    rw [if_neg fun hKept => hLeft (hKept hOpens)] at hAt
    obtain ⟨hLine, -⟩ := List.getElem?_eq_some_iff.mp hRow
    obtain ⟨band, hMem, hFirst, hStop⟩ := hTiles.exists_mem_of_lt hLine
    refine ⟨band, hMem, Nat.lt_of_le_of_ne hFirst ?_, hStop⟩
    rintro rfl
    rw [hTiles.headerAt?_of_mem hMem hBehind] at hAt
    cases hAt

/-- A comment that the row closes leaves the header alone, and one that goes on below takes it. -/
theorem header_starts_band_beside_comments :
    let text := "CON\nPUB a \x7b x \x7d\nPRI b \x7b\n\x7d".toList
    (∃ band ∈ ofText text, band.first = 1 ∧ band.kind = .pub) ∧
      ∃ band ∈ ofText text, band.first < 2 ∧ 2 < band.stop := by
  intro text
  have hKept : (rows text)[1]? = some "PUB a \x7b x \x7d".toList := by decide
  have hLost : (rows text)[2]? = some "PRI b \x7b".toList := by decide
  constructor
  · exact (@header_starts_band _ _ _ .pub hKept (by decide) (by decide)).1.mpr (.inl (by decide))
  · exact (@header_starts_band _ _ _ .pri hLost (by decide) (by decide)).2 (by decide) (by decide)
      (by decide)

/-- No comment is open before the second row, which is a header, and still the only band is the one
of the first row. -/
theorem header_lost_before_comment :
    let text := "CON\nPUB a \x7b\n\x7d".toList
    depthBefore (rows text) 1 = 0 ∧ (rows text)[1]?.bind Section.ofHeader? = some .pub ∧
      ofText text = [⟨.con, 0, 3, false⟩] ∧
      ¬ ∀ text line kind, depthBefore (rows text) line = 0 →
        (rows text)[line]?.bind Section.ofHeader? = some kind →
        ∃ band ∈ ofText text, band.first = line ∧ band.kind = kind := by
  intro text
  have hClosed : depthBefore (rows text) 1 = 0 := by decide
  have hHeader : (rows text)[1]?.bind Section.ofHeader? = some .pub := by decide
  have hBands : ofText text = [⟨.con, 0, 3, false⟩] := by decide
  refine ⟨hClosed, hHeader, hBands, fun hClaim => ?_⟩
  obtain ⟨band, hMem, hFirst, -⟩ := hClaim text 1 .pub hClosed hHeader
  rw [hBands] at hMem
  obtain rfl := List.mem_singleton.mp hMem
  cases hFirst

end EditAssist.Band
