import EditAssist.Proofs.Text.LineCut
import EditAssist.Spin.Section

/-! The bands of a text tile its rows. `Tiles` describes the bands of the first rows, newest first,
by the headers among these rows alone; reading one more row leaves such a tiling, so all rows have
one. What `ofText_tiles` says of every band is read off it. -/
namespace EditAssist.Band

open Text

/-- The depth of comment braces after all rows through `line`. -/
def depthThrough (lines : List (List Char)) (line : Nat) : Nat :=
  (lines.take (line + 1)).foldl depthAfter 0

/-- The section that a row opens, unless a comment is open after it. -/
def headerAt? (lines : List (List Char)) (line : Nat) : Option Section :=
  if depthThrough lines line = 0 then lines[line]?.bind Section.ofHeader? else none

variable {lines : List (List Char)} {bands newer older : List Band} {band : Band}
  {line stop : Nat} {kind : Section}

theorem depthThrough_eq (hLine : line < lines.length) :
    depthThrough lines line = depthAfter ((lines.take line).foldl depthAfter 0) lines[line] := by
  rw [depthThrough, List.take_succ_eq_append_getElem hLine, List.foldl_append]
  rfl

/-- What a row opens depends on it and on the comments that are open before it. -/
theorem headerAt?_eq (hLine : line < lines.length) :
    headerAt? lines line =
      if depthAfter ((lines.take line).foldl depthAfter 0) lines[line] = 0 then
        Section.ofHeader? lines[line]
      else none := by
  rw [headerAt?, depthThrough_eq hLine, List.getElem?_eq_getElem hLine, Option.bind_some]

/-- A row that is not there opens nothing. -/
theorem headerAt?_of_le (hLine : lines.length ≤ line) : headerAt? lines line = none := by
  rw [headerAt?, List.getElem?_eq_none hLine, Option.bind_none, ite_self]

theorem headerAt?_eq_some_iff :
    headerAt? lines line = some kind ↔
      depthThrough lines line = 0 ∧ lines[line]?.bind Section.ofHeader? = some kind := by
  rw [headerAt?]
  split
  next hClosed => exact (and_iff_right hClosed).symm
  next hOpen => exact ⟨nofun, fun h => absurd h.1 hOpen⟩

/-- The bands of the rows before `stop`, newest first. The oldest one starts at the first row, with
or without a header; every other one starts at a header, and no header lies within a band. -/
inductive Tiles (lines : List (List Char)) : List Band → Nat → Prop
  | first {stop : Nat} (hSome : 0 < stop)
      (hRest : ∀ line, 0 < line → line < stop → headerAt? lines line = none) :
      Tiles lines [⟨(headerAt? lines 0).getD .con, 0, stop, false⟩] stop
  | next {older : List Band} {start stop : Nat} {kind : Section}
      (hOlder : Tiles lines older start) (hHeader : headerAt? lines start = some kind)
      (hSome : start < stop)
      (hRest : ∀ line, start < line → line < stop → headerAt? lines line = none) :
      Tiles lines (⟨kind, start, stop, Cut.toneAfter kind older⟩ :: older) stop

namespace Tiles

/-- Where the newest band stops, the tiling does. -/
theorem stop_eq (h : Tiles lines (band :: older) stop) : band.stop = stop := by
  cases h <;> rfl

/-- Without its newest bands a tiling is one of fewer rows. -/
theorem of_suffix (h : Tiles lines bands stop) (hSuffix : band :: older <:+ bands) :
    Tiles lines (band :: older) band.stop := by
  induction h with
  | first hSome hRest =>
      rcases List.suffix_cons_iff.mp hSuffix with hAll | hNone
      · cases hAll
        exact .first hSome hRest
      · cases List.suffix_nil.mp hNone
  | next hOlder hHeader hSome hRest ih =>
      rcases List.suffix_cons_iff.mp hSuffix with hAll | hLess
      · cases hAll
        exact .next hOlder hHeader hSome hRest
      · exact ih hLess

/-- The newest band begins where the one before it stops, and takes its tone from it. -/
theorem newest (h : Tiles lines (band :: older) stop) :
    band.first < band.stop ∧ band.first = (older.head?.map (·.stop)).getD 0 ∧
      (older = [] → band.kind = (headerAt? lines 0).getD .con) ∧
      band.alternate = Cut.toneAfter band.kind older := by
  cases h with
  | first hSome => exact ⟨hSome, rfl, fun _ => rfl, rfl⟩
  | next hOlder _ hSome =>
      cases older with
      | nil => cases hOlder
      | cons before older => exact ⟨hSome, hOlder.stop_eq.symm, nofun, rfl⟩

/-- A row without a header goes to the newest band. -/
theorem extend (h : Tiles lines (band :: older) stop) (hPlain : headerAt? lines stop = none) :
    Tiles lines ({ band with stop := stop + 1 } :: older) (stop + 1) := by
  have hLonger {start : Nat}
      (hRest : ∀ line, start < line → line < stop → headerAt? lines line = none) (line : Nat)
      (hAfter : start < line) (hBefore : line < stop + 1) : headerAt? lines line = none := by
    rcases Nat.lt_succ_iff_lt_or_eq.mp hBefore with hWithin | rfl
    · exact hRest line hAfter hWithin
    · exact hPlain
  cases h with
  | first hSome hRest => exact .first (Nat.lt_succ_of_lt hSome) (hLonger hRest)
  | next hOlder hHeader hSome hRest =>
      exact .next hOlder hHeader (Nat.lt_succ_of_lt hSome) (hLonger hRest)

/-- A band behind the first row starts at a header, and has its kind. -/
theorem headerAt?_of_mem (h : Tiles lines bands stop) (hMem : band ∈ bands)
    (hFirst : 0 < band.first) : headerAt? lines band.first = some band.kind := by
  obtain ⟨newer, older, rfl⟩ := List.append_of_mem hMem
  cases h.of_suffix (List.suffix_append newer (band :: older)) with
  | first => exact absurd hFirst (Nat.lt_irrefl 0)
  | next _ hHeader => exact hHeader

/-- Every header behind the first row starts a band. -/
theorem exists_mem_of_headerAt? (h : Tiles lines bands stop) (hLine : 0 < line)
    (hStop : line < stop) (hHeader : headerAt? lines line = some kind) :
    ∃ band ∈ bands, band.first = line ∧ band.kind = kind := by
  induction h with
  | first hSome hRest =>
      rw [hRest line hLine hStop] at hHeader
      cases hHeader
  | @next older start stop _ hOlder hStart hSome hRest ih =>
      rcases Nat.lt_trichotomy line start with hBefore | rfl | hAfter
      · obtain ⟨band, hMem, hBand⟩ := ih hBefore
        exact ⟨band, List.mem_cons_of_mem _ hMem, hBand⟩
      · exact ⟨_, List.mem_cons_self, rfl, Option.some.inj (hStart.symm.trans hHeader)⟩
      · rw [hRest line hAfter hStop] at hHeader
        cases hHeader

/-- Behind the first row, the bands start where the headers are. -/
theorem exists_mem_iff (h : Tiles lines bands lines.length) (hLine : 0 < line) :
    (∃ band ∈ bands, band.first = line ∧ band.kind = kind) ↔ headerAt? lines line = some kind := by
  constructor
  · rintro ⟨band, hMem, rfl, rfl⟩
    exact h.headerAt?_of_mem hMem hLine
  · intro hHeader
    refine h.exists_mem_of_headerAt? hLine (Nat.not_le.mp fun hPast => ?_) hHeader
    rw [headerAt?_of_le hPast] at hHeader
    cases hHeader

end Tiles

namespace Cut

/-- The cut has read the first `count` rows, and its bands tile them. -/
structure Reads (lines : List (List Char)) (count : Nat) (cut : Cut) : Prop where
  count_eq : cut.count = count
  depth_eq : cut.depth = (lines.take count).foldl depthAfter 0
  tiles : Tiles lines cut.close count
  first_lt : cut.first < count

theorem next_of_none {cut : Cut} {row : List Char}
    (hHeader : (if depthAfter cut.depth row = 0 then Section.ofHeader? row else none) = none) :
    cut.next row = { cut with depth := depthAfter cut.depth row, count := cut.count + 1 } := by
  simp only [next, hHeader]

theorem next_of_some {cut : Cut} {row : List Char}
    (hHeader : (if depthAfter cut.depth row = 0 then Section.ofHeader? row else none) = some kind) :
    cut.next row =
      ⟨cut.close, kind, cut.count, toneAfter kind cut.close, depthAfter cut.depth row,
        cut.count + 1⟩ := by
  simp only [next, hHeader]

/-- The first row opens the first band, whether or not it is a header. -/
theorem reads_first {row : List Char} {rest : List (List Char)} :
    Reads (row :: rest) 1 (start.next row) := by
  have hHeader : headerAt? (row :: rest) 0 =
      if depthAfter start.depth row = 0 then Section.ofHeader? row else none :=
    headerAt?_eq (Nat.succ_pos _)
  have hRest (line : Nat) (hAfter : 0 < line) (hBefore : line < 1) :
      headerAt? (row :: rest) line = none := by omega
  have hTiles := Tiles.first Nat.one_pos hRest
  cases hKind : headerAt? (row :: rest) 0 with
  | none =>
      rw [hKind] at hTiles
      rw [next_of_none (hHeader.symm.trans hKind)]
      exact ⟨rfl, rfl, hTiles, Nat.one_pos⟩
  | some kind =>
      rw [hKind] at hTiles
      rw [next_of_some (hHeader.symm.trans hKind)]
      exact ⟨rfl, rfl, hTiles, Nat.one_pos⟩

theorem close_of_lt {cut : Cut} (hSome : cut.first < cut.count) :
    cut.close = ⟨cut.kind, cut.first, cut.count, cut.alternate⟩ :: cut.finished :=
  if_pos hSome

/-- One row more: a header closes the open band and opens the next, and any other row goes to the
open band. -/
theorem Reads.next {cut : Cut} {count : Nat} (h : Reads lines count cut)
    (hCount : count < lines.length) : Reads lines (count + 1) (cut.next lines[count]) := by
  obtain ⟨rfl, hDepth, hTiles, hFirst⟩ := h
  have hAfter := depthThrough_eq hCount
  have hHeader := headerAt?_eq hCount
  rw [← hDepth] at hAfter hHeader
  have hGrown : cut.first < cut.count + 1 := Nat.lt_succ_of_lt hFirst
  cases hKind : headerAt? lines cut.count with
  | none =>
      rw [next_of_none (hHeader.symm.trans hKind)]
      refine ⟨rfl, hAfter.symm, ?_, hGrown⟩
      rw [close_of_lt hFirst] at hTiles
      rw [close_of_lt hGrown]
      exact hTiles.extend hKind
  | some kind =>
      rw [next_of_some (hHeader.symm.trans hKind)]
      refine ⟨rfl, hAfter.symm, ?_, Nat.lt_succ_self _⟩
      rw [close_of_lt (Nat.lt_succ_self _)]
      exact .next hTiles hKind (Nat.lt_succ_self _) fun line hBehind hBefore =>
        absurd hBehind (Nat.not_lt.mpr (Nat.le_of_lt_succ hBefore))

/-- All rows are read, one after the other. -/
theorem reads_foldl {row : List Char} {rest : List (List Char)} (count : Nat)
    (hCount : count ≤ rest.length) :
    Reads (row :: rest) (count + 1) (((row :: rest).take (count + 1)).foldl next start) := by
  induction count with
  | zero => exact reads_first
  | succ count ih =>
      have hRow : count + 1 < (row :: rest).length := Nat.succ_lt_succ hCount
      rw [List.take_succ_eq_append_getElem hRow, List.foldl_append]
      exact (ih (Nat.le_of_succ_le hCount)).next hRow

end Cut

/-- The bands of a text, from its last row to its first, tile all its rows. -/
theorem tiles_reverse_ofText (text : List Char) :
    Tiles (rows text) (ofText text).reverse (rows text).length := by
  have hLength := length_rows text
  rw [ofText, List.reverse_reverse]
  cases hRows : rows text with
  | nil =>
      rw [hRows] at hLength
      cases hLength
  | cons row rest =>
      have hReads := @Cut.reads_foldl row rest rest.length (Nat.le_refl _)
      rw [← List.length_cons, List.take_length] at hReads
      exact hReads.tiles

/-- A new band takes the other tone behind a plain band of its kind. -/
theorem toneAfter_eq_true_iff (kind : Section) (older : List Band) :
    Cut.toneAfter kind older = true ↔
      ∃ before, older.head? = some before ∧ before.kind = kind ∧ before.alternate = false := by
  cases older with
  | nil => exact ⟨nofun, nofun⟩
  | cons before older => simp [Cut.toneAfter]

/-- The bands of a text: each one starts where the one before it stops, the first one at the first
row, and the last one stops behind the last row. Behind the first row a band starts where a header
stands and no comment is open after its row; it has the kind of that header. The first band has the
kind of such a header too, and is a `CON` band without one. A band has the other tone if the band
before it has the same kind and has not. -/
theorem ofText_tiles (text : List Char) :
    ofText text ≠ [] ∧
    (∀ earlier band later, ofText text = earlier ++ band :: later →
      band.first < band.stop ∧
      band.first = (earlier.getLast?.map (·.stop)).getD 0 ∧
      (later = [] → band.stop = text.count '\n' + 1 ∧
        band.stop = (Document.ofText text (.caret 0)).lineCount) ∧
      (earlier = [] → band.kind = (headerAt? (rows text) 0).getD .con) ∧
      (band.alternate = true ↔ ∃ before, earlier.getLast? = some before ∧
        before.kind = band.kind ∧ before.alternate = false)) ∧
    ∀ line kind, 0 < line → ((∃ band ∈ ofText text, band.first = line ∧ band.kind = kind) ↔
      depthThrough (rows text) line = 0 ∧
        (rows text)[line]?.bind Section.ofHeader? = some kind) := by
  have hTiles := tiles_reverse_ofText text
  refine ⟨?_, fun earlier band later hSplit => ?_, fun line kind hLine => ?_⟩
  · intro hNil
    rw [hNil] at hTiles
    cases hTiles
  · rw [hSplit, List.reverse_append, List.reverse_cons, List.append_assoc, List.singleton_append]
      at hTiles
    have hHere := hTiles.of_suffix (List.suffix_append later.reverse (band :: earlier.reverse))
    obtain ⟨hSome, hFirst, hKind, hTone⟩ := hHere.newest
    rw [List.head?_reverse] at hFirst
    refine ⟨hSome, hFirst, ?_, fun hNil => hKind (List.reverse_eq_nil_iff.mpr hNil), ?_⟩
    · rintro rfl
      have hStop := hTiles.stop_eq.trans (length_rows text)
      exact ⟨hStop, hStop⟩
    · rw [hTone, toneAfter_eq_true_iff, List.head?_reverse]
  · rw [← headerAt?_eq_some_iff, ← hTiles.exists_mem_iff hLine]
    simp only [List.mem_reverse]

/-- A comment hides a header, the band before the first header is a `CON` band, and a third band of
a kind has the first tone again. -/
example :
    ofText ['\'', '\n', 'p', 'u', 'b', '\n', '{', '\n', 'd', 'a', 't', '\n', '}', '\n', 'P', 'u', 'b',
      '\n', 'P', 'U', 'B'] =
      [⟨.con, 0, 1, false⟩, ⟨.pub, 1, 5, false⟩, ⟨.pub, 5, 6, true⟩, ⟨.pub, 6, 7, false⟩] := by
  decide

end EditAssist.Band
