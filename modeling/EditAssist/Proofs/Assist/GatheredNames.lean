import Mathlib
import EditAssist.Proofs.Assist.MenuRows
import EditAssist.Proofs.Text.Order

/-! The names that a menu gathers from its rows. Adding a name either repeats an earlier one or
makes it the last of the rows, so the rows of a menu are at all times the first entries with each
text that were added so far. From that follow what `build_gathers` says of the names, and that the
menu of sorted rows does not depend on the order in which they came. -/
namespace EditAssist

open Text

namespace Menu

variable {trigger : Trigger} {scope : Scope} {rows ordered : List (List Char)}
  {entries chosen items : List MenuItem} {entry : MenuItem}

/-- Whether a row declares an object. -/
def declaresObject (row : List Char) : Bool :=
  Symbol.kind? row == some .object

/-- The order in which a menu goes through its rows. The file's own dot menu starts with objects and
leaves it at that, a hash menu goes by the alphabet, and the members of an object stay as they
come. -/
def Arranged (trigger : Trigger) (scope : Scope) (rows ordered : List (List Char)) : Prop :=
  match trigger, scope with
  | .dot, .object _ => ordered = rows
  | .dot, .file =>
    (ordered.Pairwise fun first second => declaresObject second → declaresObject first) ∧
    ∀ isObject : Bool,
      ordered.filter (declaresObject · == isObject) = rows.filter (declaresObject · == isObject)
  | .hash, _ => ordered.Perm rows ∧ ordered.Pairwise fun first second => atMost first second

/-- All rows can be put into that order. -/
theorem arranged_arrange (trigger : Trigger) (scope : Scope) (rows : List (List Char)) :
    Arranged trigger scope rows (arrange trigger scope rows) := by
  cases trigger with
  | hash =>
      exact ⟨List.mergeSort_perm rows atMost,
        List.pairwise_mergeSort atMost_trans atMost_total rows⟩
  | dot =>
    cases scope with
    | object => rfl
    | file =>
        have hArrange : arrange .dot .file rows =
          rows.filter declaresObject ++ rows.filter (!declaresObject ·) := rfl
        rw [hArrange]
        refine ⟨List.pairwise_append.mpr ⟨?_, ?_, ?_⟩, fun isObject => ?_⟩
        · exact List.pairwise_of_forall_mem_list fun first hFirst _ _ _ =>
            (List.mem_filter.mp hFirst).2
        · refine List.pairwise_of_forall_mem_list fun _ _ second hSecond hObject => ?_
          simp [hObject] at hSecond
        · exact fun first hFirst _ _ _ => (List.mem_filter.mp hFirst).2
        · rw [List.filter_append, List.filter_filter, List.filter_filter]
          cases isObject <;> simp

theorem filter_append_filter {p : List Char → Bool}
    (hOrdered : ordered.Pairwise fun first second => p second → p first) :
    ordered.filter p ++ ordered.filter (!p ·) = ordered := by
  induction ordered with
  | nil => rfl
  | cons row rest ih =>
      obtain ⟨hRow, hRest⟩ := List.pairwise_cons.mp hOrdered
      cases hFirst : p row with
      | true =>
        rw [List.filter_cons_of_pos hFirst, List.filter_cons_of_neg (by simp [hFirst]),
          List.cons_append, ih hRest]
      | false =>
        have hNone : ∀ other ∈ rest, p other = false := by
          intro other hOther
          rw [← Bool.not_eq_true]
          intro hHolds
          rw [hRow other hOther hHolds] at hFirst
          cases hFirst
        rw [List.filter_cons_of_neg (by simp [hFirst]),
          List.filter_eq_nil_iff.mpr (by simpa using hNone), List.nil_append,
          List.filter_eq_self.mpr (by simpa [hFirst] using hNone)]

/-- The order leaves nothing open. -/
theorem Arranged.eq_arrange (h : Arranged trigger scope rows ordered) :
    ordered = arrange trigger scope rows := by
  cases trigger with
  | hash =>
      obtain ⟨hPerm, hSorted⟩ := h
      refine List.Perm.eq_of_pairwise (fun _ _ _ _ => atMost_antisymm) hSorted
        (List.pairwise_mergeSort atMost_trans atMost_total rows) ?_
      exact hPerm.trans (List.mergeSort_perm rows atMost).symm
  | dot =>
    cases scope with
    | object => exact h
    | file =>
        obtain ⟨hFirst, hSame⟩ := h
        have hTrue := hSame true
        have hFalse := hSame false
        simp only [beq_true, beq_false] at hTrue hFalse
        rw [← filter_append_filter hFirst, hTrue, hFalse]
        rfl

/-- `chosen` holds the first entry with each text, and these come in the order of the entries. -/
structure FirstOfEach (entries chosen : List MenuItem) : Prop where
  complete : ∀ entry ∈ entries, ∃ item ∈ chosen, item.text = entry.text
  first : ∀ item ∈ chosen, entries.find? (·.text == item.text) = some item
  ordered : chosen.Pairwise fun earlier later =>
    entries.findIdx (·.text == earlier.text) < entries.findIdx (·.text == later.text)

namespace FirstOfEach

theorem mem (h : FirstOfEach entries chosen) {item : MenuItem} (hItem : item ∈ chosen) :
    item ∈ entries :=
  List.mem_of_find?_eq_some (h.first item hItem)

/-- No two chosen entries have the same text. -/
theorem nodup (h : FirstOfEach entries chosen) : (chosen.map (·.text)).Nodup := by
  rw [List.nodup_iff_pairwise_ne, List.pairwise_map]
  refine h.ordered.imp fun hLess hSame => ?_
  rw [hSame] at hLess
  exact Nat.lt_irrefl _ hLess

theorem findIdx_lt (h : FirstOfEach entries chosen) {item : MenuItem} (hItem : item ∈ chosen) :
    entries.findIdx (·.text == item.text) < entries.length :=
  List.findIdx_lt_length_of_exists ⟨item, h.mem hItem, beq_self_eq_true _⟩

theorem findIdx_append (h : FirstOfEach entries chosen) {item : MenuItem} (hItem : item ∈ chosen)
    (more : List MenuItem) :
    (entries ++ more).findIdx (·.text == item.text) = entries.findIdx (·.text == item.text) := by
  rw [List.findIdx_append, if_pos (h.findIdx_lt hItem)]

/-- An entry whose text was there before is not chosen. -/
theorem repeated (h : FirstOfEach entries chosen) (hOld : ∃ item ∈ chosen, item.text = entry.text) :
    FirstOfEach (entries ++ [entry]) chosen where
  complete := by
    intro other hOther
    rcases List.mem_append.mp hOther with hBefore | hLast
    · exact h.complete other hBefore
    · obtain rfl := List.mem_singleton.mp hLast
      exact hOld
  first := by
    intro item hItem
    rw [List.find?_append, h.first item hItem, Option.some_or]
  ordered := h.ordered.imp_of_mem fun hEarlier hLater hLess => by
    rwa [h.findIdx_append hEarlier, h.findIdx_append hLater]

/-- An entry whose text is new is chosen after all others. -/
theorem fresh (h : FirstOfEach entries chosen) (hNew : ∀ item ∈ chosen, item.text ≠ entry.text) :
    FirstOfEach (entries ++ [entry]) (chosen ++ [entry]) := by
  have hAbsent : ∀ other ∈ entries, ¬ (other.text == entry.text) = true := by
    intro other hOther hSame
    obtain ⟨item, hItem, hText⟩ := h.complete other hOther
    exact hNew item hItem (hText.trans (beq_iff_eq.mp hSame))
  refine ⟨?_, ?_, ?_⟩
  · intro other hOther
    rcases List.mem_append.mp hOther with hBefore | hLast
    · obtain ⟨item, hItem, hSame⟩ := h.complete other hBefore
      exact ⟨item, List.mem_append_left _ hItem, hSame⟩
    · exact ⟨other, List.mem_append_right _ hLast, rfl⟩
  · intro item hItem
    rw [List.find?_append]
    rcases List.mem_append.mp hItem with hBefore | hLast
    · rw [h.first item hBefore, Option.some_or]
    · obtain rfl := List.mem_singleton.mp hLast
      rw [List.find?_eq_none.mpr hAbsent, Option.none_or]
      simp
  · rw [List.pairwise_append]
    refine ⟨?_, List.pairwise_singleton _ _, ?_⟩
    · exact h.ordered.imp_of_mem fun hEarlier hLater hLess => by
        rwa [h.findIdx_append hEarlier, h.findIdx_append hLater]
    · intro earlier hEarlier later hLater
      obtain rfl := List.mem_singleton.mp hLater
      have hBehind : entries.findIdx (·.text == later.text) = entries.length := by
        rw [List.findIdx_eq_length]
        exact fun other hOther => (Bool.not_eq_true _).mp (hAbsent other hOther)
      rw [h.findIdx_append hEarlier, List.findIdx_append, hBehind, if_neg (Nat.lt_irrefl _)]
      exact Nat.lt_of_lt_of_le (h.findIdx_lt hEarlier) (Nat.le_add_left _ _)

end FirstOfEach

/-- The entries that a row adds, those whose name is empty left out. -/
def entriesOf (row : List Char) : List MenuItem :=
  ((names row).filter (!·.isEmpty)).map fun name => ⟨name, .ofKind (Symbol.kind? row)⟩

/-- The rows of a menu are its trigger and the first entry with each other text. -/
def Gathers (trigger : Trigger) (entries items : List MenuItem) : Prop :=
  ∃ chosen, items = ⟨[trigger.char], .trigger⟩ :: chosen ∧
    FirstOfEach (entries.filter (·.text != [trigger.char])) chosen

theorem gathers_nothing (trigger : Trigger) : Gathers trigger [] [⟨[trigger.char], .trigger⟩] :=
  ⟨[], rfl, nofun, nofun, List.Pairwise.nil⟩

theorem addName_of_old {name : List Char} (hOld : ∃ item ∈ items, item.text = name) (icon : Icon) :
    addName icon items name = items := by
  obtain ⟨item, hItem, hSame⟩ := hOld
  rw [addName, if_pos]
  rw [Bool.or_eq_true, List.any_eq_true]
  exact .inr ⟨item, hItem, beq_iff_eq.mpr hSame⟩

theorem addName_of_new {name : List Char} (hSome : name ≠ [])
    (hNew : ∀ item ∈ items, item.text ≠ name) (icon : Icon) :
    addName icon items name = items ++ [⟨name, icon⟩] := by
  rw [addName, if_neg]
  rw [Bool.or_eq_true, List.any_eq_true, List.isEmpty_iff, not_or]
  refine ⟨hSome, ?_⟩
  rintro ⟨item, hItem, hSame⟩
  exact hNew item hItem (beq_iff_eq.mp hSame)

/-- A name is gathered unless it is empty. -/
theorem Gathers.addName (h : Gathers trigger entries items) {name : List Char} (hSome : name ≠ [])
    (icon : Icon) : Gathers trigger (entries ++ [⟨name, icon⟩]) (addName icon items name) := by
  obtain ⟨chosen, rfl, hChosen⟩ := h
  by_cases hTrigger : name = [trigger.char]
  · rw [addName_of_old ⟨_, List.mem_cons_self, hTrigger.symm⟩]
    refine ⟨chosen, rfl, ?_⟩
    rwa [List.filter_append, List.filter_cons_of_neg (by simpa using hTrigger), List.filter_nil,
      List.append_nil]
  have hKept : (entries ++ [MenuItem.mk name icon]).filter (·.text != [trigger.char]) =
      entries.filter (·.text != [trigger.char]) ++ [⟨name, icon⟩] := by
    rw [List.filter_append, List.filter_cons_of_pos (by simpa using hTrigger), List.filter_nil]
  by_cases hOld : ∃ item ∈ chosen, item.text = name
  · obtain ⟨item, hItem, hSame⟩ := hOld
    rw [addName_of_old ⟨item, List.mem_cons_of_mem _ hItem, hSame⟩]
    exact ⟨chosen, rfl, hKept ▸ hChosen.repeated ⟨item, hItem, hSame⟩⟩
  · rw [not_exists] at hOld
    have hNew : ∀ item ∈ chosen, item.text ≠ name :=
      fun item hItem hSame => hOld item ⟨hItem, hSame⟩
    rw [addName_of_new hSome (List.forall_mem_cons.mpr ⟨Ne.symm hTrigger, hNew⟩)]
    exact ⟨chosen ++ [⟨name, icon⟩], rfl, hKept ▸ hChosen.fresh hNew⟩

theorem Gathers.addNames (h : Gathers trigger entries items) (icon : Icon)
    (names : List (List Char)) :
    Gathers trigger (entries ++ (names.filter (!·.isEmpty)).map (⟨·, icon⟩))
      (names.foldl (Menu.addName icon) items) := by
  induction names generalizing entries items with
  | nil => simpa using h
  | cons name names ih =>
      rw [List.foldl_cons]
      by_cases hSome : name = []
      · subst hSome
        exact ih h
      · rw [List.filter_cons_of_pos (by simpa using hSome), List.map_cons, List.append_cons]
        exact ih (h.addName hSome icon)

/-- What a menu has after all rows comes from their names. -/
theorem Gathers.addRows (h : Gathers trigger entries items) (rows : List (List Char)) :
    Gathers trigger (entries ++ rows.flatMap entriesOf) (rows.foldl addRow items) := by
  induction rows generalizing entries items with
  | nil => simpa using h
  | cons row rows ih =>
      rw [List.foldl_cons, List.flatMap_cons, ← List.append_assoc]
      exact ih (h.addNames _ (names row))

/-- What the rows add to a menu besides its trigger, in the order of the rows. -/
def namedBy (trigger : Trigger) (scope : Scope) (preferences : Preferences)
    (ordered : List (List Char)) : List MenuItem :=
  let kept := ordered.filter fun row =>
    !leavesOut trigger scope preferences.hashMenu (Symbol.kind? row)
  (kept.flatMap entriesOf).filter (·.text != [trigger.char])

theorem FirstOfEach.eq_nil_iff (h : FirstOfEach entries chosen) : chosen = [] ↔ entries = [] := by
  rw [List.eq_nil_iff_forall_not_mem, List.eq_nil_iff_forall_not_mem]
  constructor
  · intro hNone entry hEntry
    obtain ⟨item, hItem, -⟩ := h.complete entry hEntry
    exact hNone item hItem
  · intro hNone item hItem
    exact hNone item (h.mem hItem)

/-- There is a menu if and only if its rows name anything, and then it holds the first entry with
each text behind its trigger. -/
theorem build_cases (rows : List (List Char)) (trigger : Trigger) (scope : Scope)
    (preferences : Preferences) :
    let named := namedBy trigger scope preferences (arrange trigger scope rows)
    (named = [] ∧ build rows trigger scope preferences = none) ∨
      ∃ chosen, chosen ≠ [] ∧ FirstOfEach named chosen ∧
        build rows trigger scope preferences =
          some (⟨[trigger.char], .trigger⟩ :: chosen, widest chosen) := by
  intro named
  obtain ⟨chosen, hItems, hChosen⟩ := (gathers_nothing trigger).addRows
    ((arrange trigger scope rows).filter fun row =>
      !leavesOut trigger scope preferences.hashMenu (Symbol.kind? row))
  have hFirst : FirstOfEach named chosen := hChosen
  rw [build, hItems]
  by_cases hNone : chosen = []
  · subst hNone
    exact .inl ⟨hFirst.eq_nil_iff.mp rfl, rfl⟩
  · refine .inr ⟨chosen, hNone, hFirst, if_pos ?_⟩
    exact Nat.succ_lt_succ (List.length_pos_iff.mpr hNone)

/-- A menu neither loses nor repeats a name that its rows declare. There is no menu if and only if
they declare none but the trigger. Else the rows of the menu behind its trigger are the first entry
with each other name, once each and in the order of the rows, and the width is that of the widest of
them. -/
theorem build_gathers {rows ordered : List (List Char)} {trigger : Trigger} {scope : Scope}
    (hOrdered : Arranged trigger scope rows ordered) (preferences : Preferences) :
    let named := namedBy trigger scope preferences ordered
    (build rows trigger scope preferences = none ↔ named = []) ∧
    ∀ items width, build rows trigger scope preferences = some (items, width) →
      ∃ chosen, items = ⟨[trigger.char], .trigger⟩ :: chosen ∧
        FirstOfEach named chosen ∧ (chosen.map (·.text)).Nodup ∧
        (∃ item ∈ chosen, item.text.length = width) ∧
        ∀ item ∈ chosen, item.text.length ≤ width := by
  intro named
  obtain rfl := hOrdered.eq_arrange
  rcases build_cases rows trigger scope preferences with
    ⟨hNone, hBuild⟩ | ⟨chosen, hSome, hChosen, hBuild⟩
  · rw [hBuild]
    exact ⟨iff_of_true rfl hNone, nofun⟩
  · rw [hBuild]
    refine ⟨iff_of_false nofun (mt hChosen.eq_nil_iff.mpr hSome), ?_⟩
    rintro items width ⟨⟩
    obtain ⟨hReached, hMost⟩ := widest_spec hSome
    exact ⟨chosen, rfl, hChosen, hChosen.nodup, hReached, hMost⟩

/-- An object comes first and gives its icon to a name that a variable has too; an empty piece and a
row that is the trigger itself add nothing. -/
theorem build_gathers_shared_name :
    let object := ['o', '\t', 'O', 'B', 'J', ' ', 'a']
    let storage := ['v', '\t', 'l', 'o', 'n', 'g', ' ', 'a', ',', ',', 'b', 'c']
    let rows := [storage, ['.'], object]
    let ordered := [object, storage, ['.']]
    let chosen : List MenuItem := [⟨['a'], .object⟩, ⟨['b', 'c'], .storage⟩]
    Arranged .dot .file rows ordered ∧
      build rows .dot .file {} = some (⟨['.'], .trigger⟩ :: chosen, 2) ∧
      FirstOfEach (namedBy .dot .file {} ordered) chosen := by
  intro object storage rows ordered chosen
  have hOrdered : Arranged .dot .file rows ordered := by
    refine ⟨?_, ?_⟩
    · decide
    · decide
  have hBuild : build rows .dot .file {} = some (⟨['.'], .trigger⟩ :: chosen, 2) := by cbv
  obtain ⟨-, hMenu⟩ := build_gathers hOrdered {}
  obtain ⟨found, hItems, hFirst, -⟩ := hMenu _ _ hBuild
  obtain rfl : chosen = found := (List.cons.inj hItems).2
  exact ⟨hOrdered, hBuild, hFirst⟩

/-- A hash menu does not depend on the order in which its rows come: sorting fixes which of two rows
with one name is the first. -/
theorem build_hash_ignores_order {rows others : List (List Char)} (hPerm : rows.Perm others)
    (scope : Scope) (preferences : Preferences) :
    build rows .hash scope preferences = build others .hash scope preferences := by
  obtain ⟨hSame, hAscends⟩ := arranged_arrange .hash scope rows
  have hSorted : Arranged .hash scope others (arrange .hash scope rows) :=
    ⟨hSame.trans hPerm, hAscends⟩
  rw [build, build, hSorted.eq_arrange]

/-- The constant gives its icon to the name, also where the variable comes first. -/
theorem build_hash_ignores_order_of_shared_name :
    let constant := ['c', '\t', 'C', 'O', 'N', ' ', 'A', ' ', '=', ' ', '1']
    let storage := ['v', '\t', 'l', 'o', 'n', 'g', ' ', 'A']
    [storage, constant].Perm [constant, storage] ∧
      build [storage, constant] .hash .file {} =
        some ([⟨['#'], .trigger⟩, ⟨['A'], .constant⟩], 1) := by
  intro constant storage
  have hPerm : [storage, constant].Perm [constant, storage] := by decide
  have hSorted : arrange .hash .file [constant, storage] = [constant, storage] :=
    List.mergeSort_of_pairwise (by decide)
  refine ⟨hPerm, ?_⟩
  rw [build_hash_ignores_order hPerm, build, hSorted]
  cbv

end Menu

end EditAssist
