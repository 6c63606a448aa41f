import Mathlib
import EditAssist.Proofs.Assist.MenuRows

/-! What is inserted for a row of a menu. The words that say what a symbol is, a section and a
storage size, are dropped when a row is made and once more when it is inserted. So a row inserts the
text that it shows if and only if no such word leads that text, as `insertion?_shows` says; the row
of a declaration that names nothing shows such a word alone, and inserts nothing. -/
namespace EditAssist

open Text

namespace Declaration

/-- Neither a section nor a storage size leads the text. -/
def Bare (text : List Char) : Prop :=
  Keyword.leading? Keyword.sections text = none ∧ Keyword.leading? Keyword.sizes text = none

instance (text : List Char) : Decidable (Bare text) :=
  inferInstanceAs (Decidable (_ ∧ _))

theorem dropLeading_of_none {set : List (List Char)} {text : List Char}
    (hNone : Keyword.leading? set text = none) : dropLeading set text = text := by
  rw [dropLeading, hNone]

theorem length_dropLeading_le (set : List (List Char)) (text : List Char) :
    (dropLeading set text).length ≤ text.length := by
  rw [dropLeading]
  split
  · exact (List.drop_suffix _ _).length_le
  · exact Nat.le_refl _

/-- A leading keyword is dropped, and that leaves less of the text. -/
theorem length_dropLeading_lt {set : List (List Char)} {text : List Char} (hSome : text ≠ [])
    (hLed : Keyword.leading? set text ≠ none) : (dropLeading set text).length < text.length := by
  obtain ⟨keyword, hKeyword⟩ := Option.ne_none_iff_exists'.mp hLed
  have hPositive := List.length_pos_iff.mpr hSome
  simp only [dropLeading, hKeyword, List.length_drop]
  omega

theorem dropCategory_of_bare {text : List Char} (hBare : Bare text) : dropCategory text = text := by
  rw [dropCategory, dropLeading_of_none hBare.1, dropLeading_of_none hBare.2]

theorem length_dropCategory_lt {text : List Char} (hSome : text ≠ []) (hLed : ¬ Bare text) :
    (dropCategory text).length < text.length := by
  by_cases hSection : Keyword.leading? Keyword.sections text = none
  · have hSize : Keyword.leading? Keyword.sizes text ≠ none := fun hNone => hLed ⟨hSection, hNone⟩
    rw [dropCategory, dropLeading_of_none hSection]
    exact length_dropLeading_lt hSome hSize
  · exact Nat.lt_of_le_of_lt (length_dropLeading_le _ _) (length_dropLeading_lt hSome hSection)

end Declaration

/-- What stands before the name that is inserted. -/
def InsertStyle.lead (trigger : Trigger) : InsertStyle → List Char
  | withTrigger => [trigger.char]
  | nameOnly => []

namespace Menu

variable {menu : Menu} {index : Nat} {item : MenuItem}

/-- Behind the row of the trigger, every row inserts a name. -/
theorem insertion?_of_pos (hIndex : 0 < index) (hItem : menu.items[index]? = some item) :
    menu.insertion? index = some (menu.style.lead menu.trigger ++
      trim (Declaration.dropCategory item.text)) := by
  rw [insertion?, hItem, Option.map_some]
  cases menu.style with
  | nameOnly => rfl
  | withTrigger => exact congrArg some (if_neg (Nat.ne_of_gt hIndex))

/-- A row behind that of the trigger inserts the text that it shows, after the trigger if the style
says so, unless a section or a storage size leads that text: then it inserts less. -/
theorem insertion?_shows {rows : List (List Char)} {trigger : Trigger} {scope : Scope}
    {preferences : Preferences} {items : List MenuItem} {width : Nat}
    (hBuild : build rows trigger scope preferences = some (items, width))
    (hItems : menu.items = items) (hIndex : 0 < index) (hItem : items[index]? = some item) :
    ∃ name, menu.insertion? index = some (menu.style.lead menu.trigger ++ name) ∧
      (Declaration.Bare item.text → name = item.text ∧ name ≠ []) ∧
      (¬ Declaration.Bare item.text → name.length < item.text.length) := by
  subst hItems
  have hListed := (wellFormed_of_build hBuild menu.style menu.anchor).listed
  have hTrimmed : Trimmed item.text := hListed.trimmed item (List.mem_of_getElem? hItem)
  refine ⟨_, insertion?_of_pos hIndex hItem, fun hBare => ?_, fun hLed => ?_⟩
  · rw [Declaration.dropCategory_of_bare hBare, hTrimmed.trim_eq]
    exact ⟨rfl, hTrimmed.nonempty⟩
  · exact Nat.lt_of_le_of_lt (length_trim_le _)
      (Declaration.length_dropCategory_lt hTrimmed.nonempty hLed)

/-- The second constant of a row that declares two: a group is shown by its names. -/
theorem insertion?_shows_second_constant :
    let rows := [['e', '\t', 'C', 'O', 'N', ' ', 'R', 'E', 'D', ',', ' ', 'T', 'A', 'N']]
    let items : List MenuItem :=
      [⟨['#'], .trigger⟩, ⟨['R', 'E', 'D'], .constant⟩, ⟨['T', 'A', 'N'], .constant⟩]
    let menu : Menu := ⟨items, 0, .hash, .withTrigger, 3, ⟨0, 0⟩⟩
    build rows .hash (.object ['o']) {} = some (items, 3) ∧ menu.items = items ∧ 0 < 2 ∧
      items[2]? = some ⟨['T', 'A', 'N'], .constant⟩ ∧ Declaration.Bare ['T', 'A', 'N'] ∧
      menu.insertion? 2 = some ['#', 'T', 'A', 'N'] := by
  intro rows items menu
  have hBuild : build rows .hash (.object ['o']) {} = some (items, 3) := by cbv
  have hTwo : 0 < 2 := Nat.zero_lt_two
  have hItems : menu.items = items := rfl
  have hItem : items[2]? = some ⟨['T', 'A', 'N'], .constant⟩ := rfl
  have hBare : Declaration.Bare ['T', 'A', 'N'] := by cbv
  obtain ⟨name, hInserted, hShown, -⟩ := insertion?_shows hBuild hItems hTwo hItem
  obtain rfl : name = ['T', 'A', 'N'] := (hShown hBare).1
  exact ⟨hBuild, hItems, hTwo, hItem, hBare, hInserted⟩

/-- Not every row inserts what it shows: a row that declares nothing shows the name of its section
and inserts the empty text. -/
theorem insertion?_nothing_for_bare_section :
    let rows := [['v', '\t', 'V', 'A', 'R', ' ', 'l', 'o', 'n', 'g', ' ', 'i']]
    let items : List MenuItem := [⟨['.'], .trigger⟩, ⟨['V', 'A', 'R'], .storage⟩]
    let menu : Menu := ⟨items, 0, .dot, Scope.file.style, 3, ⟨0, 5⟩⟩
    build rows .dot .file {} = some (items, 3) ∧ menu.insertion? 1 = some [] ∧
      ¬ ∀ rows trigger scope preferences items width,
        build rows trigger scope preferences = some (items, width) →
        ∀ anchor index item, 0 < index → items[index]? = some item →
          (Menu.mk items 0 trigger scope.style width anchor).insertion? index =
            some (scope.style.lead trigger ++ item.text) := by
  intro rows items menu
  have hBuild : build rows .dot .file {} = some (items, 3) := by cbv
  have hNothing : menu.insertion? 1 = some [] := by cbv
  refine ⟨hBuild, hNothing, fun hAll => ?_⟩
  have hShown := hAll rows .dot .file {} items 3 hBuild ⟨0, 5⟩ 1 _ Nat.one_pos rfl
  rw [hNothing] at hShown
  cases hShown

end Menu

end EditAssist
