import EditAssist.Proofs.Assist.CandidateList
import EditAssist.Proofs.Assist.Consent
import EditAssist.Proofs.Assist.Session

/-! Tooltips can be read back. Nothing in their markup is escaped, so it is the delimiters of
identifiers that keep entries and marks apart: every mark starts with a character that no candidate
has. A session shows no entries but candidates, and moving in them leaves one of them active. -/
namespace EditAssist

open Text

namespace Hints

variable {hints : Hints} {entry : List Char}

/-- A row of a tooltip without the marks of bold type around it, and whether it has them. -/
def readRow (row : List Char) : List Char × Bool :=
  if ['<', 'b', '>'] <+: row ∧ ['<', '/', 'b', '>'] <:+ row then
    ((row.drop 3).take (row.length - 7), true)
  else (row, false)

/-- The rows of a tooltip, and which of them are in bold type. -/
def readMarkup (markup : List Char) : List (List Char × Bool) :=
  (cutAt lineBreak markup).map readRow

theorem readRow_bold (entry : List Char) : readRow (bold entry) = (entry, true) := by
  have hFront : ['<', 'b', '>'] <+: bold entry :=
    (List.prefix_append _ entry).trans (List.prefix_append _ _)
  have hBack : ['<', '/', 'b', '>'] <:+ bold entry := List.suffix_append _ _
  have hLength : (bold entry).length - 7 = entry.length := by simp [bold]
  have hDrop : (bold entry).drop 3 = entry ++ ['<', '/', 'b', '>'] := by simp [bold]
  rw [readRow, if_pos ⟨hFront, hBack⟩, hLength, hDrop, List.take_left]

theorem readRow_of_not_mem (hPlain : '<' ∉ entry) : readRow entry = (entry, false) := by
  rw [readRow, if_neg]
  rintro ⟨hFront, -⟩
  exact hPlain (hFront.mem List.mem_cons_self)

/-- The mark between rows is found neither within bold type nor across its ends. -/
theorem passes_bold (hPlain : '<' ∉ entry) : Passes lineBreak (bold entry) := by
  -- both marks of bold type start like the one between rows and differ from it within themselves
  have hOpen : Passes lineBreak ['<', 'b', '>'] :=
    (passes_of_not_mem (by decide) _).cons fun rest => by simp
  have hClose : Passes lineBreak ['<', '/', 'b', '>'] :=
    (passes_of_not_mem (by decide) _).cons fun rest => by simp
  exact (hOpen.append (passes_of_not_mem hPlain _)).append hClose

/-- A tooltip gives back its entries and which of them is active, if no entry can start a mark. -/
theorem readMarkup_markup (hPlain : ∀ entry ∈ hints.entries, '<' ∉ entry)
    (hSome : hints.entries ≠ []) :
    readMarkup hints.markup =
      hints.entries.mapIdx fun index entry => (entry, index == hints.active) := by
  have hRows (row : List Char) (hRow : row ∈ hints.entries.mapIdx fun index entry =>
      if index = hints.active then bold entry else entry) : Passes lineBreak row := by
    obtain ⟨index, hIndex, rfl⟩ := List.mem_mapIdx.mp hRow
    have hEntry := hPlain _ (List.getElem_mem hIndex)
    split
    · exact passes_bold hEntry
    · exact passes_of_not_mem hEntry _
  rw [readMarkup, markup, cutAt_intercalate (by decide) hRows (by simpa using hSome)]
  refine List.ext_getElem (by simp) fun index hIndex _ => ?_
  rw [List.length_map, List.length_mapIdx] at hIndex
  simp only [List.getElem_map, List.getElem_mapIdx]
  by_cases hActive : index = hints.active
  · rw [if_pos hActive, readRow_bold, beq_iff_eq.mpr hActive]
  · rw [if_neg hActive, readRow_of_not_mem (hPlain _ (List.getElem_mem hIndex)),
      beq_eq_false_iff_ne.mpr hActive]

/-- Hints that a look for them may have found, whichever of their entries is active by now. -/
structure Found (hints : Hints) : Prop extends hints.WellFormed where
  candidates : ∃ typed rows, hints.entries = Candidates.ofRows typed rows

theorem found_ofRows {typed : List Char} {rows : List (List Char)}
    (hSome : Candidates.ofRows typed rows ≠ []) (anchor : Anchor) :
    (ofEntries (Candidates.ofRows typed rows) anchor).Found :=
  ⟨wellFormed_ofRows hSome anchor, typed, rows, rfl⟩

theorem Found.move (h : hints.Found) (direction : Direction) : (hints.move direction).Found where
  toWellFormed := h.toWellFormed.move direction
  candidates := by
    rw [entries_move]
    exact h.candidates

/-- No entry has an angle bracket, a slash or an ampersand: all of them are delimiters. -/
theorem Found.plain (h : hints.Found) :
    ∀ entry ∈ hints.entries, ∀ c ∈ ['<', '>', '/', '&'], c ∉ entry := by
  obtain ⟨typed, rows, hEntries⟩ := h.candidates
  intro entry hEntry c hMark hMem
  rw [hEntries] at hEntry
  obtain ⟨row, -, hCandidate⟩ := Candidates.exists_row_of_mem_ofRows hEntry
  have hNone : c ∉ Declaration.delimiters := ((Candidates.plain_of_ofRow? hCandidate).2.2 c hMem).2
  exact hNone ((by decide : ['<', '>', '/', '&'] ⊆ Declaration.delimiters) hMark)

end Hints

/-- If hints are shown, a look for them may have found them. -/
def Overlay.HintsFound (overlay : Overlay) : Prop :=
  ∀ hints, overlay = .hints hints → hints.Found

theorem Assistant.Shows.hintsFound_of {before : Assistant} {request : Request} {overlay : Overlay}
    (h : before.Shows request overlay) (hBefore : before.overlay.HintsFound) :
    overlay.HintsFound := by
  cases h with
  | hidden | menuMoved | menuFound => exact nofun
  | kept => exact hBefore
  | hintsMoved _ hHints =>
      rintro _ ⟨⟩
      exact (hBefore _ hHints).move _
  | hintsFound _ _ hSome =>
      rintro _ ⟨⟩
      exact Hints.found_ofRows hSome _

namespace Session

variable {assistant : Assistant}

/-- Every tooltip of a session can be read back, whatever the symbol table has in it: cut at the
marks between rows it gives the entries, in bold type the active one and no other. There is an
active one, and no entry has a character that could start, end or close a mark. -/
theorem tooltip_readable (hSession : Session assistant) {hints : Hints}
    (hHints : assistant.overlay = .hints hints) :
    hints.active < hints.entries.length ∧
      Hints.readMarkup hints.markup =
        hints.entries.mapIdx (fun index entry => (entry, index == hints.active)) ∧
      ∀ entry ∈ hints.entries, ∀ c ∈ ['<', '>', '/', '&'], c ∉ entry := by
  have hShown : assistant.overlay.HintsFound :=
    hSession.overlay_of_shows nofun Assistant.Shows.hintsFound_of
  have hFound : hints.Found := hShown hints hHints
  have hPlain (entry : List Char) (hEntry : entry ∈ hints.entries) : '<' ∉ entry :=
    hFound.plain entry hEntry '<' List.mem_cons_self
  exact ⟨hFound.active_lt, Hints.readMarkup_markup hPlain hFound.nonempty, hFound.plain⟩

/-- A row with markup in it gives a plain entry, which Down makes the active one. -/
theorem tooltip_readable_of_marked_row :
    let count := ['c', 'o', 'u', 'n', 't']
    let counter := ['c', 'o', 'u', 'n', 't', 'e', 'r']
    let source : SymbolSource := fun _ =>
      [['v', '\t'] ++ count, ['v', '\t'] ++ counter ++ Hints.lineBreak ++ Hints.bold ['x']]
    let opened : Workspace := ⟨.ofText ['c', 'o', 'u'] (.caret 3), .ofFile [] none {}, []⟩
    let looked := ((Assisting.refreshHints source).run opened).2
    let moved := ((Assisting.press source .down).run looked).2
    Session moved.assistant ∧ ∃ hints, moved.assistant.overlay = .hints hints ∧
      hints.markup = count ++ Hints.lineBreak ++ Hints.bold counter ∧
      Hints.readMarkup hints.markup = [(count, false), (counter, true)] := by
  intro count counter source opened looked moved
  have hOpened : Session opened.assistant := .opened _ _ _
  have hLooked : Session looked.assistant := hOpened.refreshed source
  have hMoved : Session moved.assistant := hLooked.pressed source .down
  have hEntries : Candidates.ofRows ['c', 'o', 'u'] (source ⟨.members, [], []⟩) =
      [count, counter] :=
    (Candidates.ofRows_of_pairwise (by decide)).trans (by decide)
  have hBounds : opened.document.InBounds := Document.inBounds_ofText _ _
  obtain ⟨_, after, hRun, anchor, hShown⟩ := Assisting.refreshHints_yields_matches hBounds source
    rfl rfl rfl rfl rfl (by decide) hEntries (List.cons_ne_nil _ _)
  have hAfter : looked = after := congrArg Prod.snd hRun
  rw [← hAfter] at hShown
  have hPressed : moved = looked.showing _ :=
    congrArg Prod.snd (Assisting.press_of_hints hShown source .down)
  have hHints : moved.assistant.overlay =
      .hints (Hints.move .down (.ofEntries [count, counter] anchor)) := by
    rw [hPressed]
    rfl
  obtain ⟨-, hRead, -⟩ := tooltip_readable hMoved hHints
  exact ⟨hMoved, _, hHints, rfl, hRead⟩

end Session

end EditAssist
