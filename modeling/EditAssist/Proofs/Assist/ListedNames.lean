import EditAssist.Proofs.Assist.GatheredNames
import EditAssist.Proofs.Spin.NameLists

/-! The rows of a menu for a declaration of several names. A row of the symbol table lists just the
names that the shown form of its declaration is left with, and each of them is in the menu. -/
namespace EditAssist.Menu

open Text Declaration

variable {trigger : Trigger} {scope : Scope} {preferences : Preferences} {rows : List (List Char)}

/-- The menu goes through all of its rows. -/
theorem mem_arrange {row : List Char} : row ∈ arrange trigger scope rows ↔ row ∈ rows := by
  cases trigger with
  | hash => exact List.mem_mergeSort
  | dot =>
    cases scope with
    | object => exact Iff.rfl
    | file =>
        simp only [arrange, List.mem_append, List.mem_filter, ← and_or_left]
        exact and_iff_left (by cases Symbol.kind? row == some .object <;> simp)

/-- A name that a row lists is in the menu, unless the menu leaves out the row. -/
theorem mem_namedBy {row name : List Char} (hRow : row ∈ rows)
    (hKept : leavesOut trigger scope preferences.hashMenu (Symbol.kind? row) = false)
    (hName : name ∈ names row) (hSome : name ≠ []) (hOther : name ≠ [trigger.char]) :
    ⟨name, .ofKind (Symbol.kind? row)⟩ ∈
      namedBy trigger scope preferences (arrange trigger scope rows) := by
  have hEntry : ⟨name, .ofKind (Symbol.kind? row)⟩ ∈ entriesOf row :=
    List.mem_map_of_mem (List.mem_filter.mpr ⟨hName, by simpa using hSome⟩)
  refine List.mem_filter.mpr ⟨List.mem_flatMap.mpr ⟨row, ?_, hEntry⟩, by simpa using hOther⟩
  exact List.mem_filter.mpr ⟨mem_arrange.mpr hRow, by rw [hKept]; rfl⟩

/-- What a menu is made from is listed by one of its rows. -/
theorem exists_row_of_mem_namedBy {entry : MenuItem}
    (hEntry : entry ∈ namedBy trigger scope preferences (arrange trigger scope rows)) :
    ∃ row ∈ rows, entry.text ∈ names row := by
  obtain ⟨row, hRow, hEntry⟩ := List.mem_flatMap.mp (List.mem_filter.mp hEntry).1
  obtain ⟨name, hName, rfl⟩ := List.mem_map.mp hEntry
  exact ⟨row, mem_arrange.mp (List.mem_filter.mp hRow).1, (List.mem_filter.mp hName).1⟩

/-- A row declares the names that are reached, and these are cut no more. -/
theorem declared_row {list : NameList} (hLed : list.category = none ∨ list.size = none)
    (kind : Symbol.Kind) :
    declared (list.row kind) = Declarator.list (Declarator.reached list.declarators) := by
  obtain ⟨hFolded, hSome⟩ := list.front.unled.folded_text
  have hRest : dropCategory (shown (list.row kind)) = list.front.unled.text := by
    rw [list.shown_row, list.cutAll_text hLed, list.front.dropCategory_text]
  rw [declared, hRest, if_neg (List.isEmpty_iff.not.mpr hSome), shown_of_folded hFolded,
    list.front.unled.cutAll_text (.inl rfl)]
  exact congrArg Declarator.list
    (Declarator.reached_eq_self fun _ => Declarator.suffix_of_mem_reached)

/-- A row whose declaration is cut to its section declares that. -/
theorem declared_row_of_both {list : NameList} {word size : List Char}
    (hCategory : list.category = some word) (hSize : list.size = some size) (kind : Symbol.Kind) :
    declared (list.row kind) = word := by
  have hWhole : shown (list.row kind) = word := by
    rw [list.shown_row, list.cutAll_text_of_both hCategory hSize]
  rw [declared, hWhole, NameList.dropCategory_section (list.category_spells word hCategory)]
  rfl

/-- A row lists the names that are shown for its declaration. -/
theorem names_row (list : NameList) {kind : Symbol.Kind} (hKind : kind.declaresSeveral = true) :
    names (list.row kind) = list.shownNames := by
  rw [names, list.kind?_row, if_pos (by simpa using hKind)]
  by_cases hLed : list.category = none ∨ list.size = none
  · rw [declared_row hLed, NameList.shownNames_of_led hLed]
    have hGap : ∀ c ∈ ([] : List Char), c = ' ' := List.forall_mem_nil _
    exact Declarator.splitOn_list (Declarator.reached_ne_nil list.nonempty)
      (fun _ => Declarator.suffix_of_mem_reached) hGap
  · rw [not_or] at hLed
    obtain ⟨word, hCategory⟩ := Option.ne_none_iff_exists'.mp hLed.1
    obtain ⟨size, hSize⟩ := Option.ne_none_iff_exists'.mp hLed.2
    have hWord := NameList.isWord_of_mem_shownNames
      (NameList.shownNames_of_both hCategory hSize ▸ List.mem_singleton_self word)
    have hComma : ',' ∉ word := fun hMem => absurd (hWord.2 ',' hMem) (by decide)
    rw [declared_row_of_both hCategory hSize, NameList.shownNames_of_both hCategory hSize,
      List.splitOn_eq_singleton hComma, List.map_singleton,
      (trimmed_of_word hWord.1 (isBlank_of_word hWord.2)).trim_eq]

/-- What becomes of the names that one row declares. The row lists the names up to the first that is
followed by a bound or an initial value, or its section alone if a storage size follows that; each
of these is in the menu, and what else is in the menu comes from another row. So every name is
listed if and only if not both a section and a size lead the names and nothing follows any of them
but the last. -/
theorem build_lists_names {kind : Symbol.Kind} (hKind : kind.declaresSeveral = true)
    (list : NameList) {rows : List (List Char)} (hRow : list.row kind ∈ rows) {trigger : Trigger}
    {scope : Scope} {preferences : Preferences}
    (hKept : leavesOut trigger scope preferences.hashMenu (some kind) = false) :
    names (list.row kind) = list.shownNames ∧
    (list.shownNames = list.declarators.map (·.name) ↔
      (list.category = none ∨ list.size = none) ∧
        ∀ declarator ∈ list.declarators.dropLast, declarator.suffix = .none) ∧
    ∃ items width, build rows trigger scope preferences = some (items, width) ∧
      (∀ name ∈ list.shownNames, ∃ item ∈ items, item.text = name) ∧
      ∀ item ∈ items.tail, item.text ∉ list.shownNames →
        ∃ row ∈ rows, row ≠ list.row kind ∧ item.text ∈ names row := by
  have hNames := names_row list hKind
  refine ⟨hNames, list.shownNames_eq_iff, ?_⟩
  have hNamed : ∀ name ∈ list.shownNames, ⟨name, .ofKind (some kind)⟩ ∈
      namedBy trigger scope preferences (arrange trigger scope rows) := by
    intro name hName
    obtain ⟨hSome, hWord⟩ := NameList.isWord_of_mem_shownNames hName
    have hOther : name ≠ [trigger.char] := by
      rintro rfl
      exact absurd (hWord _ List.mem_cons_self) (by cases trigger <;> decide)
    rw [← list.kind?_row kind] at hKept ⊢
    exact mem_namedBy hRow hKept (hNames ▸ hName) hSome hOther
  obtain ⟨first, hFirst⟩ := List.exists_mem_of_ne_nil _ list.shownNames_ne_nil
  rcases build_cases rows trigger scope preferences with ⟨hNone, -⟩ | ⟨chosen, -, hChosen, hBuild⟩
  · exact absurd (hNone ▸ hNamed first hFirst) List.not_mem_nil
  · refine ⟨_, _, hBuild, fun name hName => ?_, fun item hItem hOther => ?_⟩
    · obtain ⟨item, hItem, hText⟩ := hChosen.complete _ (hNamed name hName)
      exact ⟨item, List.mem_cons_of_mem _ hItem, hText⟩
    · obtain ⟨row, hRow, hName⟩ := exists_row_of_mem_namedBy (hChosen.mem hItem)
      refine ⟨row, hRow, ?_, hName⟩
      rintro rfl
      exact hOther (hNames ▸ hName)

/-- Three constants are listed, of which the last has a value. -/
theorem build_lists_names_of_constants :
    let one : Declarator := ⟨['A'], .none, by decide, by decide, by decide⟩
    let two : Declarator := ⟨['b', '_', '1'], .none, by decide, by decide, by decide⟩
    let three : Declarator :=
      ⟨['C'], .value ⟨['1', '2'], by decide, by decide⟩, by decide, by decide, by decide⟩
    let list : NameList :=
      ⟨some ['C', 'o', 'n'], none, [one, two, three], by decide, by decide, List.cons_ne_nil _ _⟩
    let row := ['c', '\t', 'C', 'o', 'n', ' ', 'A', ',', ' ', 'b', '_', '1', ',', ' ', 'C', ' ',
      '=', ' ', '1', '2']
    let object := ['o', '\t', 'O', 'B', 'J', ' ', 'A']
    list.row .constant = row ∧ names row = [['A'], ['b', '_', '1'], ['C']] ∧
      ∃ items width, build [object, row] .hash .file {} = some (items, width) ∧
        ∀ name ∈ [['A'], ['b', '_', '1'], ['C']], ∃ item ∈ items, item.text = name := by
  intro one two three list row object
  have hRow : list.row .constant = row := rfl
  have hMem : list.row .constant ∈ [object, row] := hRow ▸ List.mem_cons_of_mem _ List.mem_cons_self
  have hKept : leavesOut .hash .file ({} : Preferences).hashMenu (some .constant) = false := rfl
  obtain ⟨hNames, hAll, items, width, hBuild, hListed, -⟩ := build_lists_names rfl list hMem hKept
  have hShown : list.shownNames = [['A'], ['b', '_', '1'], ['C']] := by
    refine hAll.mpr ⟨.inr rfl, ?_⟩
    intro declarator hDeclarator
    have hEither : declarator = one ∨ declarator = two := by simpa [list] using hDeclarator
    rcases hEither with rfl | rfl <;> rfl
  rw [hShown] at hNames hListed
  exact ⟨hRow, hRow ▸ hNames, items, width, hBuild, hListed⟩

/-- A name behind an array bound is lost, and so is one whose section and size both lead it. -/
theorem build_loses_names :
    let array : Declarator :=
      ⟨['a'], .bound ⟨['4'], by decide, by decide⟩, by decide, by decide, by decide⟩
    let plain : Declarator := ⟨['b'], .none, by decide, by decide, by decide⟩
    let long := ['l', 'o', 'n', 'g']
    let arrays : NameList :=
      ⟨none, some long, [array, plain], by decide, by decide, List.cons_ne_nil _ _⟩
    let led : NameList :=
      ⟨some ['V', 'A', 'R'], some long, [plain], by decide, by decide, List.cons_ne_nil _ _⟩
    leavesOut .dot .file ({} : Preferences).hashMenu (some .storage) = false ∧
      arrays.row .storage =
        ['v', '\t', 'l', 'o', 'n', 'g', ' ', 'a', '[', '4', ']', ',', ' ', 'b'] ∧
      build [arrays.row .storage] .dot .file {} = some ([⟨['.'], .trigger⟩, ⟨['a'], .storage⟩], 1) ∧
      led.row .storage = ['v', '\t', 'V', 'A', 'R', ' ', 'l', 'o', 'n', 'g', ' ', 'b'] ∧
      build [led.row .storage] .dot .file {} =
        some ([⟨['.'], .trigger⟩, ⟨['V', 'A', 'R'], .storage⟩], 3) := by
  intro array plain long arrays led
  refine ⟨rfl, rfl, ?_, rfl, ?_⟩
  · have hRow : arrays.row .storage =
        ['v', '\t', 'l', 'o', 'n', 'g', ' ', 'a', '[', '4', ']', ',', ' ', 'b'] := rfl
    rw [hRow]
    cbv
  · have hRow : led.row .storage =
        ['v', '\t', 'V', 'A', 'R', ' ', 'l', 'o', 'n', 'g', ' ', 'b'] := rfl
    rw [hRow]
    cbv

end EditAssist.Menu
