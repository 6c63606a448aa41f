import EditAssist.Assist.Menu
import EditAssist.Proofs.Spin.ShownForm
import EditAssist.Proofs.Text.Occurrence

/-! The rows of a menu. Whatever the symbol table answers, the first row of a menu is its trigger,
and choosing that row inserts the trigger alone; no two rows are the same, and none is empty or has
white space around it. Besides, the arguments of a call lie within the text that was chosen. -/
namespace EditAssist

open Text

/-- The first row is the trigger itself. -/
def Menu.HoldsTrigger (menu : Menu) : Prop :=
  ∃ rest, menu.items = ⟨[menu.trigger.char], .trigger⟩ :: rest

/-- A menu that is shown starts with its trigger. -/
def Overlay.Sound : Overlay → Prop
  | .menu list => list.HoldsTrigger
  | _ => True

namespace Menu

variable {items : List MenuItem} {trigger : Trigger}

/-- A row that names a symbol and nothing else is shown as it is. -/
theorem declared_eq_of_plain {row text : List Char}
    (hRow : foldBlanks (Symbol.declaration row) = text)
    (hText : foldBlanks (Symbol.declaration text) = text) (hCut : Declaration.cutTail text = text)
    (hPlain : Declaration.dropCategory text = text) : declared row = text := by
  have hWhole := Declaration.cutAll_of_cutTail hCut
  simp only [declared, Declaration.shown, hRow, hWhole, hPlain, hText]
  split <;> rfl

theorem prefix_addName (icon : Icon) (items : List MenuItem) (name : List Char) :
    items <+: addName icon items name := by
  rw [addName]
  split
  · exact List.prefix_rfl
  · exact List.prefix_append _ _

/-- Rows are only ever added behind those that are there. -/
theorem prefix_foldl {α : Type} {add : List MenuItem → α → List MenuItem}
    (hAdd : ∀ items entry, items <+: add items entry) (entries : List α)
    (items : List MenuItem) : items <+: entries.foldl add items := by
  induction entries generalizing items with
  | nil => exact List.prefix_rfl
  | cons entry entries ih => exact (hAdd items entry).trans (ih (add items entry))

theorem prefix_addRow (items : List MenuItem) (row : List Char) : items <+: addRow items row :=
  prefix_foldl (prefix_addName _) _ _

theorem build_starts {rows : List (List Char)} {scope : Scope} {preferences : Preferences}
    {width : Nat} (hBuild : build rows trigger scope preferences = some (items, width)) :
    ∃ rest, items = ⟨[trigger.char], .trigger⟩ :: rest := by
  simp only [build] at hBuild
  split at hBuild
  · obtain ⟨rfl, -⟩ := Prod.mk.inj (Option.some.inj hBuild)
    obtain ⟨rest, hRest⟩ := prefix_foldl prefix_addRow
      ((arrange trigger scope rows).filter fun row =>
        !leavesOut trigger scope preferences.hashMenu (Symbol.kind? row))
      [⟨[trigger.char], .trigger⟩]
    exact ⟨rest, hRest.symm⟩
  · cases hBuild

/-- No two rows have the same text, and every text is trimmed. -/
structure Listed (items : List MenuItem) : Prop where
  distinct : (items.map (·.text)).Nodup
  trimmed : ∀ item ∈ items, Trimmed item.text

theorem listed_trigger (trigger : Trigger) : Listed [⟨[trigger.char], .trigger⟩] := by
  refine ⟨List.pairwise_singleton _ _, ?_⟩
  intro item hItem
  obtain rfl := List.mem_singleton.mp hItem
  have hBlank : isBlank trigger.char = false := by cases trigger <;> decide
  refine ⟨List.cons_ne_nil _ _, ?_, ?_⟩
  all_goals
    intro c hEnd
    obtain rfl : trigger.char = c := Option.some.inj hEnd
    exact hBlank

theorem Listed.addName {name : List Char} (hListed : Listed items) (icon : Icon)
    (hName : name ≠ [] → Trimmed name) : Listed (addName icon items name) := by
  rw [Menu.addName]
  split
  · exact hListed
  next hNew =>
  rw [Bool.or_eq_true, not_or, List.isEmpty_iff] at hNew
  obtain ⟨hSome, hFresh⟩ := hNew
  refine ⟨?_, ?_⟩
  · rw [List.map_append, List.nodup_append]
    refine ⟨hListed.distinct, List.pairwise_singleton _ _, ?_⟩
    intro text hText other hOther hSame
    obtain ⟨item, hItem, rfl⟩ := List.mem_map.mp hText
    obtain rfl := List.mem_singleton.mp hOther
    exact hFresh (List.any_eq_true.mpr ⟨item, hItem, beq_iff_eq.mpr hSame⟩)
  · intro item hItem
    rcases List.mem_append.mp hItem with hOld | hLast
    · exact hListed.trimmed item hOld
    · obtain rfl := List.mem_singleton.mp hLast
      exact hName hSome

/-- Whether or not a row declares several names, each of them was trimmed. -/
theorem trimmed_of_mem_names {row name : List Char} (hName : name ∈ names row)
    (hSome : name ≠ []) : Trimmed name := by
  obtain ⟨text, rfl⟩ : ∃ text, name = trim text := by
    rw [names] at hName
    split at hName
    · obtain ⟨text, -, hText⟩ := List.mem_map.mp hName
      exact ⟨text, hText.symm⟩
    · exact ⟨_, List.mem_singleton.mp hName⟩
  exact trimmed_trim hSome

theorem Listed.addRow (hListed : Listed items) (row : List Char) : Listed (addRow items row) :=
  List.foldlRecOn _ _ hListed fun _ hSoFar _ hName =>
    hSoFar.addName _ (trimmed_of_mem_names hName)

/-- The width is that of some row, and no row is wider. -/
theorem widest_spec (hSome : items ≠ []) :
    (∃ item ∈ items, item.text.length = widest items) ∧
      ∀ item ∈ items, item.text.length ≤ widest items := by
  have hMax : (0 :: items.map (·.text.length)).max? = some (widest items) := by
    rw [List.max?_cons', List.foldl_map]
    rfl
  obtain ⟨hMem, hMost⟩ := List.max?_eq_some_iff.mp hMax
  have hRows (item : MenuItem) (hItem : item ∈ items) : item.text.length ≤ widest items :=
    hMost _ (List.mem_cons_of_mem _ (List.mem_map_of_mem hItem))
  refine ⟨?_, hRows⟩
  rcases List.mem_cons.mp hMem with hZero | hFound
  · -- rows without text are as wide as none
    obtain ⟨item, rest, rfl⟩ := List.exists_cons_of_ne_nil hSome
    refine ⟨item, List.mem_cons_self, Nat.le_antisymm (hRows item List.mem_cons_self) ?_⟩
    rw [hZero]
    exact Nat.zero_le _
  · exact List.mem_map.mp hFound

/-- What a menu that is shown is like: it has a symbol besides its trigger, one of its rows is
active, and its width is that of the widest row behind the trigger. -/
structure WellFormed (menu : Menu) : Prop where
  trigger : menu.HoldsTrigger
  several : 2 ≤ menu.items.length
  active_lt : menu.active < menu.items.length
  listed : Listed menu.items
  width_reached : ∃ item ∈ menu.items.tail, item.text.length = menu.width
  width_most : ∀ item ∈ menu.items.tail, item.text.length ≤ menu.width

theorem wellFormed_of_build {rows : List (List Char)} {scope : Scope} {preferences : Preferences}
    {width : Nat} (hBuild : build rows trigger scope preferences = some (items, width))
    (style : InsertStyle) (anchor : Anchor) :
    (Menu.mk items 0 trigger style width anchor).WellFormed := by
  have hTrigger := build_starts hBuild
  simp only [build] at hBuild
  split at hBuild
  next hSeveral =>
    obtain ⟨rfl, rfl⟩ := Prod.mk.inj (Option.some.inj hBuild)
    have hListed : Listed _ :=
      List.foldlRecOn ((arrange trigger scope rows).filter fun row =>
        !leavesOut trigger scope preferences.hashMenu (Symbol.kind? row)) addRow
        (listed_trigger trigger) fun _ hSoFar row _ => hSoFar.addRow row
    have hTail : (List.tail _ : List MenuItem) ≠ [] :=
      List.ne_nil_of_length_pos (Nat.lt_of_lt_of_eq (Nat.sub_pos_of_lt hSeveral)
        List.length_tail.symm)
    obtain ⟨hReached, hMost⟩ := widest_spec hTail
    exact ⟨hTrigger, hSeveral, Nat.lt_of_succ_lt hSeveral, hListed, hReached, hMost⟩
  next => cases hBuild

/-- Moving stops at either end, so some row stays active. -/
theorem WellFormed.move {menu : Menu} (h : menu.WellFormed) (direction : Direction) :
    (menu.move direction).WellFormed where
  trigger := h.trigger
  several := h.several
  active_lt := by
    have hActive := h.active_lt
    cases direction with
    | up => exact Nat.lt_of_le_of_lt (Nat.sub_le _ _) hActive
    | down =>
        have hLast : menu.items.length - 1 < menu.items.length := by omega
        exact Nat.lt_of_le_of_lt (Nat.min_le_right _ _) hLast
  listed := h.listed
  width_reached := h.width_reached
  width_most := h.width_most

/-- Neither style of insertion changes the row of the trigger. -/
theorem insertion?_zero {menu : Menu} (hTrigger : menu.HoldsTrigger) :
    menu.insertion? 0 = some [menu.trigger.char] := by
  obtain ⟨rest, hItems⟩ := hTrigger
  have hName : trim (Declaration.dropCategory [menu.trigger.char]) = [menu.trigger.char] := by
    cases menu.trigger <;> decide
  rw [insertion?, hItems, List.getElem?_cons_zero, Option.map_some]
  cases menu.style with
  | nameOnly => exact congrArg some hName
  | withTrigger => rfl

/-- A trigger is no call. -/
theorem arguments?_trigger (trigger : Trigger) : arguments? [trigger.char] = none := by
  cases trigger <;> decide

end Menu

/-- The arguments of a call lie within the text, behind its opening parenthesis. -/
theorem Menu.arguments?_bounds {text : List Char} {range : Range}
    (hRange : arguments? text = some range) :
    0 < range.start ∧ range.start ≤ range.stop ∧ range.stop ≤ text.length := by
  simp only [arguments?] at hRange
  cases hFirst : find? ['('] text with
  | none =>
      rw [hFirst] at hRange
      cases hRange
  | some first =>
      have hOpen := find?_le hFirst
      rw [hFirst, Option.bind_some] at hRange
      split at hRange
      · cases hRange
      cases hRange
      cases hLast : (lastIndexOf? ')' text).filter (first + 1 ≤ ·) with
      | none => exact ⟨Nat.succ_pos _, Nat.le_refl _, hOpen⟩
      | some last =>
          obtain ⟨hIndex, hBehind⟩ := Option.filter_eq_some_iff.mp hLast
          have hClose := findLast?_le hIndex
          exact ⟨Nat.succ_pos _, of_decide_eq_true hBehind, Nat.le_of_succ_le hClose⟩

end EditAssist
