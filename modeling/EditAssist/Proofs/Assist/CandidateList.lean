import EditAssist.Proofs.Assist.HintList
import EditAssist.Proofs.Assist.Matching

/-! What the list of candidates is like. `mem_ofRows_iff` says which candidates are listed: of those
with one lower case the one of the earliest row, because sorting is stable and of neighbours the
first one stays. So the rows alone, and not their order, decide which lower cases are listed. -/
namespace EditAssist.Candidates

open Text

variable {typed key : List Char} {rows entries : List (List Char)}

/-- What is dropped repeats something that is kept before it. -/
theorem find?_dropRepeatsAfter (key last : List Char) (entries : List (List Char)) :
    (last :: dropRepeatsAfter last entries).find? (lowercase · == key) =
      (last :: entries).find? (lowercase · == key) := by
  induction entries generalizing last with
  | nil => rfl
  | cons entry entries ih =>
      rw [dropRepeatsAfter]
      split
      next hSame =>
        have hLater := ih last
        simp only [List.find?_cons, beq_iff_eq.mp hSame] at hLater ⊢
        rw [hLater]
        split <;> rfl
      next =>
        have hLater := ih entry
        simp only [List.find?_cons] at hLater ⊢
        rw [hLater]

theorem find?_dropRepeats (key : List Char) (entries : List (List Char)) :
    (dropRepeats entries).find? (lowercase · == key) = entries.find? (lowercase · == key) := by
  cases entries with
  | nil => rfl
  | cons entry entries => exact find?_dropRepeatsAfter key entry entries

/-- Sorting leaves the entries of one lower case in their order. -/
theorem filter_mergeSort (key : List Char) (entries : List (List Char)) :
    (entries.mergeSort fun left right => atMost (lowercase left) (lowercase right)).filter
      (lowercase · == key) = entries.filter (lowercase · == key) := by
  have hSame : (entries.filter (lowercase · == key)).Pairwise fun left right =>
      atMost (lowercase left) (lowercase right) = true := by
    refine List.pairwise_of_forall_mem_list fun left hLeft right hRight => ?_
    have hLeftKey := beq_iff_eq.mp (List.mem_filter.mp hLeft).2
    have hRightKey := beq_iff_eq.mp (List.mem_filter.mp hRight).2
    exact atMost_iff.mpr (.inr (hLeftKey.trans hRightKey.symm))
  have hKept := List.sublist_mergeSort
    (fun first second third => atMost_trans (lowercase first) (lowercase second) (lowercase third))
    (fun left right => atMost_total (lowercase left) (lowercase right)) hSame
    List.filter_sublist
  have hFiltered := hKept.filter (lowercase · == key)
  rw [List.filter_filter] at hFiltered
  simp only [Bool.and_self] at hFiltered
  have hLength := ((List.mergeSort_perm entries fun left right =>
    atMost (lowercase left) (lowercase right)).filter (lowercase · == key)).length_eq
  exact (hFiltered.eq_of_length hLength.symm).symm

/-- Where the rows give their candidates in order, there is nothing to be sorted. -/
theorem ofRows_of_pairwise (hOrder : (rows.filterMap (ofRow? typed)).Pairwise fun left right =>
    atMost (lowercase left) (lowercase right) = true) :
    ofRows typed rows = dropRepeats (rows.filterMap (ofRow? typed)) := by
  rw [ofRows, List.mergeSort_of_pairwise hOrder]

/-- The entry with some lower case is the first candidate with it that a row gives. -/
theorem find?_ofRows (typed : List Char) (rows : List (List Char)) (key : List Char) :
    (ofRows typed rows).find? (lowercase · == key) =
      (rows.filterMap (ofRow? typed)).find? (lowercase · == key) := by
  rw [ofRows, find?_dropRepeats, ← List.head?_filter, filter_mergeSort, List.head?_filter]

theorem pairwise_lowercase_ofRows (typed : List Char) (rows : List (List Char)) :
    ((ofRows typed rows).map lowercase).Pairwise Precedes :=
  List.pairwise_map.mpr (pairwise_ofRows typed rows)

theorem mem_map_lowercase_ofRows :
    key ∈ (ofRows typed rows).map lowercase ↔
      ∃ row ∈ rows, ∃ candidate, ofRow? typed row = some candidate ∧ lowercase candidate = key := by
  have hFound := congrArg Option.isSome (find?_ofRows typed rows key)
  rw [Bool.eq_iff_iff, List.find?_isSome, List.find?_isSome] at hFound
  simp only [beq_iff_eq, List.mem_filterMap] at hFound
  rw [List.mem_map, hFound]
  constructor
  · rintro ⟨candidate, ⟨row, hRow, hCandidate⟩, hKey⟩
    exact ⟨row, hRow, candidate, hCandidate, hKey⟩
  · rintro ⟨row, hRow, candidate, hCandidate, hKey⟩
    exact ⟨candidate, ⟨row, hRow, hCandidate⟩, hKey⟩

/-- A candidate is listed if and only if it is the first one with its lower case. -/
theorem mem_ofRows_iff {entry : List Char} :
    entry ∈ ofRows typed rows ↔
      (rows.filterMap (ofRow? typed)).find? (lowercase · == lowercase entry) = some entry := by
  rw [← find?_ofRows]
  refine ⟨fun hMem => ?_, List.mem_of_find?_eq_some⟩
  have hDistinct : ((ofRows typed rows).map lowercase).Nodup :=
    (pairwise_lowercase_ofRows typed rows).imp Precedes.ne
  have hSome : ((ofRows typed rows).find? (lowercase · == lowercase entry)).isSome = true :=
    List.find?_isSome.mpr ⟨entry, hMem, beq_iff_eq.mpr rfl⟩
  obtain ⟨other, hOther⟩ := Option.isSome_iff_exists.mp hSome
  have hKey : lowercase other = lowercase entry := by simpa using List.find?_some hOther
  rw [hOther, List.inj_on_of_nodup_map hDistinct (List.mem_of_find?_eq_some hOther) hMem hKey]

theorem exists_row_of_mem_ofRows {entry : List Char} (hMem : entry ∈ ofRows typed rows) :
    ∃ row ∈ rows, ofRow? typed row = some entry :=
  List.mem_filterMap.mp (List.mem_of_find?_eq_some (mem_ofRows_iff.mp hMem))

/-- Which lower cases are listed does not depend on the order of the rows. -/
theorem map_lowercase_ofRows_of_perm {others : List (List Char)} (hPerm : rows.Perm others) :
    (ofRows typed others).map lowercase = (ofRows typed rows).map lowercase := by
  have hRows := pairwise_lowercase_ofRows typed rows
  have hOthers := pairwise_lowercase_ofRows typed others
  refine List.Perm.eq_of_pairwise (fun left right _ _ hLeft hRight => ?_) hOthers hRows ?_
  · exact absurd rfl (Precedes.trans hLeft hRight).ne
  · refine (List.perm_ext_iff_of_nodup (hOthers.imp Precedes.ne) (hRows.imp Precedes.ne)).mpr ?_
    intro key
    simp only [mem_map_lowercase_ofRows, hPerm.mem_iff]

/-- Every candidate is the front of a word in which a row first holds what is typed, up to the first
delimiter of that word. It holds what is typed if and only if no delimiter is typed and none stands
in the word before the match. -/
theorem ofRows_match_typed (typed : List Char) (rows : List (List Char)) :
    ∀ candidate ∈ ofRows typed rows, ∃ row ∈ rows, ∃ before lead found behind,
      FirstMatch typed (foldBlanks (Symbol.declaration row)) before lead found behind ∧
      candidate = (lead ++ (found ++ behind)).takeWhile (!Declaration.delimiters.contains ·) ∧
      (holds typed candidate = true ↔ ∀ c ∈ typed ++ lead, c ∉ Declaration.delimiters) := by
  intro candidate hMem
  obtain ⟨row, hRow, hCandidate⟩ := exists_row_of_mem_ofRows hMem
  obtain ⟨before, lead, found, behind, hMatch, hWord⟩ := exists_firstMatch_of_ofRow? hCandidate
  exact ⟨row, hRow, before, lead, found, behind, hMatch, hWord, hWord ▸ hMatch.holds_takeWhile_iff⟩

/-- Of two rows the one holds what is typed behind an underscore, the other behind a parenthesis. -/
theorem ofRows_match_typed_behind_marks :
    let typed := ['c', 'o', 'u']
    let label := ['x', '\t', 'D', 'A', 'T', ' ', 'm', 'y', '_', 'C', 'o', 'u', 'n', 't', ' ', '0']
    let method := ['f', '\t', 'P', 'U', 'B', ' ', 'g', 'o', '(', 'c', 'o', 'u', 'n', 't', ')']
    let entries := [['g', 'o'], ['m', 'y', '_', 'C', 'o', 'u', 'n', 't']]
    ofRows typed [method, label] = entries ∧ entries.map (holds typed) = [false, true] ∧
      ∀ candidate ∈ entries, ∃ row ∈ [method, label], ∃ before lead found behind,
        FirstMatch typed (foldBlanks (Symbol.declaration row)) before lead found behind ∧
        candidate = (lead ++ (found ++ behind)).takeWhile (!Declaration.delimiters.contains ·) ∧
        (holds typed candidate = true ↔ ∀ c ∈ typed ++ lead, c ∉ Declaration.delimiters) := by
  intro typed label method entries
  have hEntries : ofRows typed [method, label] = entries :=
    (ofRows_of_pairwise (by decide)).trans (by decide)
  have hAll := ofRows_match_typed typed [method, label]
  rw [hEntries] at hAll
  exact ⟨hEntries, by decide, hAll⟩

/-- A parameter that is typed in full gives the name of its method, which does not hold it. -/
theorem ofRows_stop_before_match :
    let typed := ['a', 'b', 'c']
    let method := ['f', '\t', 'P', 'U', 'B', ' ', 'g', 'o', '(', 'a', 'b', 'c', ')']
    ofRows typed [method] = [['g', 'o']] ∧ holds typed ['g', 'o'] = false := by
  intro typed method
  exact ⟨(ofRows_of_pairwise (by decide)).trans (by decide), by decide⟩

/-- What the list of candidates is. Each is a name without white space and delimiters, neither empty
nor what is typed; their lower cases ascend; of the candidates with one lower case that of the
earliest row is listed and no other; and the same rows in another order list the same lower
cases. -/
theorem ofRows_listed (typed : List Char) (rows : List (List Char)) :
    (∀ entry ∈ ofRows typed rows, entry ≠ [] ∧ entry ≠ typed ∧
      ∀ c ∈ entry, isBlank c = false ∧ c ∉ Declaration.delimiters) ∧
    ((ofRows typed rows).map lowercase).Pairwise Precedes ∧
    (∀ entry, entry ∈ ofRows typed rows ↔
      (rows.filterMap (ofRow? typed)).find? (lowercase · == lowercase entry) = some entry) ∧
    ∀ others : List (List Char), rows.Perm others →
      (ofRows typed others).map lowercase = (ofRows typed rows).map lowercase := by
  refine ⟨fun entry hEntry => ?_, pairwise_lowercase_ofRows typed rows, fun _ => mem_ofRows_iff,
    fun _ => map_lowercase_ofRows_of_perm⟩
  obtain ⟨row, -, hCandidate⟩ := exists_row_of_mem_ofRows hEntry
  exact plain_of_ofRow? hCandidate

/-- Which spelling is listed depends on the order of the rows, and the name that is typed already
does not count. -/
theorem ofRows_listed_in_two_orders :
    let typed := ['a', 'b']
    let small := ['v', '\t', 'a', 'b']
    let large := ['v', '\t', 'l', 'o', 'n', 'g', ' ', 'A', 'B', '[', '2', ']']
    let mixed := ['c', '\t', 'A', 'b', '=', '1']
    [small, large, mixed].Perm [mixed, small, large] ∧
      ofRows typed [small, large, mixed] = [['A', 'B']] ∧
      ofRows typed [mixed, small, large] = [['A', 'b']] ∧
      (ofRows typed [mixed, small, large]).map lowercase =
        (ofRows typed [small, large, mixed]).map lowercase ∧
      ∀ entry ∈ [['A', 'B']], entry ≠ [] ∧ entry ≠ typed ∧
        ∀ c ∈ entry, isBlank c = false ∧ c ∉ Declaration.delimiters := by
  intro typed small large mixed
  have hPerm : [small, large, mixed].Perm [mixed, small, large] := by decide
  have hFirst : ofRows typed [small, large, mixed] = [['A', 'B']] :=
    (ofRows_of_pairwise (by decide)).trans (by decide)
  have hSecond : ofRows typed [mixed, small, large] = [['A', 'b']] :=
    (ofRows_of_pairwise (by decide)).trans (by decide)
  obtain ⟨hNames, -, -, hOrders⟩ := ofRows_listed typed [small, large, mixed]
  rw [hFirst] at hNames
  exact ⟨hPerm, hFirst, hSecond, hOrders _ hPerm, hNames⟩

end EditAssist.Candidates
