import EditAssist.Proofs.Assist.Accepting
import EditAssist.Proofs.Spin.SingleCut
import EditAssist.Proofs.Text.Occurrence

/-! Which part of an inserted row is selected: the arguments of a call, up to the last parenthesis
that closes, and nothing but a caret behind a row that calls nothing. -/
namespace EditAssist

namespace Text

variable {c : Char} {left back text : List Char} {index : Nat}

theorem lastIndexOf?_append_cons (hBack : c ∉ back) :
    lastIndexOf? c (left ++ c :: back) = some left.length := by
  have hNone : findLast? [c] back = none := lastIndexOf?_eq_none_iff.mpr hBack
  rw [lastIndexOf?]
  induction left with
  | nil => simp [findLast?, hNone]
  | cons first left ih => rw [List.cons_append, findLast?, ih, List.length_cons]

/-- A text that holds `c` goes on without it behind the last one. -/
theorem exists_last_of_mem (hMem : c ∈ text) :
    ∃ left back, text = left ++ c :: back ∧ c ∉ back := by
  obtain ⟨behind, before, hText, hBehind⟩ :=
    List.eq_append_cons_of_mem (List.mem_reverse.mpr hMem)
  refine ⟨before.reverse, behind.reverse, ?_, mt List.mem_reverse.mp hBehind⟩
  rw [← List.reverse_reverse text, hText]
  simp

end Text

namespace Menu

open Text

variable {text front rest args back : List Char} {start : Nat}

/-- `text` is a call: `front` stands before its first opening parenthesis, `rest` behind it, and
`front` is more than triggers. -/
structure Calls (text front rest : List Char) : Prop where
  text_eq : text = front ++ '(' :: rest
  first : '(' ∉ front
  named : ∃ c ∈ front, c ≠ '.' ∧ c ≠ '#'

theorem all_trigger_eq_false_iff :
    (front.all fun c => c == '.' || c == '#') = false ↔ ∃ c ∈ front, c ≠ '.' ∧ c ≠ '#' := by
  simp

theorem find?_of_first (hText : text = front ++ '(' :: rest) (hFirst : '(' ∉ front) :
    find? ['('] text = some front.length := by
  rw [hText, passes_of_not_mem hFirst []]
  simp [find?]

theorem arguments?_of_calls (h : Calls text front rest) :
    arguments? text = some ⟨front.length + 1,
      ((lastIndexOf? ')' text).filter (front.length + 1 ≤ ·)).getD (front.length + 1)⟩ := by
  have hTake : text.take front.length = front := by rw [h.text_eq, List.take_left]
  simp only [arguments?, find?_of_first h.text_eq h.first, Option.bind_some, hTake,
    all_trigger_eq_false_iff.mpr h.named, Bool.false_eq_true, ↓reduceIte]

/-- The arguments go on to the last closing parenthesis, over those in between. -/
theorem arguments?_closed (h : Calls text front (args ++ ')' :: back)) (hBack : ')' ∉ back) :
    arguments? text = some ⟨(front ++ ['(']).length, (front ++ '(' :: args).length⟩ := by
  have hLast : lastIndexOf? ')' text = some (front ++ '(' :: args).length := by
    rw [h.text_eq, ← List.cons_append, ← List.append_assoc]
    exact lastIndexOf?_append_cons hBack
  have hBehind : front.length + 1 ≤ (front ++ '(' :: args).length := by simp
  rw [arguments?_of_calls h, hLast, Option.filter_some, if_pos (decide_eq_true hBehind)]
  simp

/-- A parenthesis that closes before the first one that opens counts for nothing. -/
theorem arguments?_open (h : Calls text front rest) (hRest : ')' ∉ rest) :
    arguments? text = some ⟨(front ++ ['(']).length, (front ++ ['(']).length⟩ := by
  have hNone : (lastIndexOf? ')' text).filter (front.length + 1 ≤ ·) = none := by
    rw [Option.filter_eq_none_iff]
    intro index hIndex hBehind
    have hAt : text[index]? = some ')' := (isGreatest_of_lastIndexOf? hIndex).1
    have hLe : (front ++ ['(']).length ≤ index := by simpa using hBehind
    rw [h.text_eq, List.append_cons, List.getElem?_append_right hLe] at hAt
    exact hRest (List.mem_of_getElem? hAt)
  rw [arguments?_of_calls h, hNone]
  simp

theorem arguments?_eq_none_iff :
    arguments? text = none ↔ ∀ front rest, ¬ Calls text front rest := by
  constructor
  · intro hNone front rest hCalls
    rw [arguments?_of_calls hCalls] at hNone
    cases hNone
  · intro hPlain
    by_cases hOpens : '(' ∈ text
    · obtain ⟨front, rest, hText, hFirst⟩ := List.eq_append_cons_of_mem hOpens
      have hTake : text.take front.length = front := by rw [hText, List.take_left]
      have hTriggers : (front.all fun c => c == '.' || c == '#') = true := by
        rw [← Bool.not_eq_false, all_trigger_eq_false_iff]
        exact fun hNamed => hPlain front rest ⟨hText, hFirst, hNamed⟩
      rw [arguments?, find?_of_first hText hFirst, Option.bind_some, hTake, if_pos hTriggers]
    · have hNone : find? ['('] text = none :=
        find?_eq_none_iff.mpr (mt (List.singleton_infix_iff _ _).mp hOpens)
      rw [arguments?, hNone, Option.bind_none]

/-- What is selected of a text that was inserted at `start`. -/
inductive Selects (start : Nat) (text : List Char) : Selection → Prop
  | arguments {front args back : List Char} (call : Calls text front (args ++ ')' :: back))
      (last : ')' ∉ back) :
      Selects start text
        ⟨start + (front ++ ['(']).length, start + (front ++ '(' :: args).length⟩
  | unclosed {front rest : List Char} (call : Calls text front rest) (never : ')' ∉ rest) :
      Selects start text (.caret (start + (front ++ ['(']).length))
  | plain (noCall : ∀ front rest, ¬ Calls text front rest) :
      Selects start text (.caret (start + text.length))

theorem selects_selectionIn (start : Nat) (text : List Char) :
    Selects start text (selectionIn text start) := by
  by_cases hCalls : ∃ front rest, Calls text front rest
  · obtain ⟨front, rest, hCall⟩ := hCalls
    by_cases hCloses : ')' ∈ rest
    · obtain ⟨args, back, rfl, hBack⟩ := exists_last_of_mem hCloses
      rw [selectionIn_of_some (arguments?_closed hCall hBack)]
      exact .arguments hCall hBack
    · rw [selectionIn_of_some (arguments?_open hCall hCloses)]
      exact .unclosed hCall hCloses
  · have hPlain (front rest : List Char) : ¬ Calls text front rest :=
      fun hCall => hCalls ⟨front, rest, hCall⟩
    rw [selectionIn_of_none (arguments?_eq_none_iff.mpr hPlain)]
    exact .plain hPlain

/-- Nothing beside the inserted text is selected. -/
theorem Selects.inside {selection : Selection} (h : Selects start text selection) :
    start ≤ selection.start ∧ selection.stop ≤ start + text.length := by
  cases h with
  | @arguments front args back call last =>
      rw [Selection.start, Selection.stop, call.text_eq]
      simp only [List.length_append, List.length_cons, List.length_nil]
      omega
  | @unclosed front rest call never =>
      rw [Selection.start_caret, Selection.stop_caret, call.text_eq]
      simp only [List.length_append, List.length_cons, List.length_nil]
      omega
  | plain noCall =>
      rw [Selection.start_caret, Selection.stop_caret]
      exact ⟨Nat.le_add_right _ _, Nat.le_refl _⟩

theorem insertion?_isSome_iff {menu : Menu} {index : Nat} :
    (menu.insertion? index).isSome ↔ index < menu.items.length := by
  simp [insertion?]

end Menu

namespace Editing

variable {document : Document}

/-- Inserting a row that is there is one splice in the place of the selection. Of what was inserted
the arguments of a call are selected, and a row that is not there changes nothing. -/
theorem acceptMenu_splices (hBounds : document.InBounds) (menu : Menu) (index : Nat) :
    (menu.items.length ≤ index →
      (acceptMenu menu index).run document = (.ok false, document)) ∧
    (index < menu.items.length →
      ∃ text after, menu.insertion? index = some text ∧
        (acceptMenu menu index).run document = (.ok true, after) ∧
        after.text = document.text.take document.selection.start ++ text ++
          document.text.drop document.selection.stop ∧
        Document.Undoable 1 document after ∧
        Menu.Selects document.selection.start text after.selection ∧
        document.selection.start ≤ after.selection.start ∧
        after.selection.stop ≤ document.selection.start + text.length) := by
  constructor
  · intro hNoRow
    have hNone : menu.insertion? index = none := by
      rw [← Option.not_isSome_iff_eq_none, Menu.insertion?_isSome_iff]
      exact Nat.not_lt_of_ge hNoRow
    rw [acceptMenu, hNone]
    rfl
  · intro hRow
    obtain ⟨text, hText⟩ := Option.isSome_iff_exists.mp (Menu.insertion?_isSome_iff.mpr hRow)
    obtain ⟨done, after, hRun, rfl, hEdited, hWritten, hSelection⟩ :=
      acceptMenu_places hBounds hText
    have hSelects : Menu.Selects document.selection.start text after.selection := by
      rw [hSelection]
      exact Menu.selects_selectionIn _ _
    exact ⟨text, after, hText, hRun, hWritten, hEdited.undoable, hSelects, hSelects.inside⟩

/-- A selection that was drawn from right to left gives way to a call with several closing
parentheses. -/
theorem acceptMenu_splices_over_reversed_selection :
    let document := Document.ofText "é := xy".toList ⟨7, 5⟩
    let menu : Menu :=
      ⟨[⟨['.'], .trigger⟩, ⟨"wait(f(é), 2)".toList, .ofKind none⟩], 0, .dot, .withTrigger, 13,
        ⟨0, 5⟩⟩
    document.InBounds ∧
      ∃ text after, (acceptMenu menu 1).run document = (.ok true, after) ∧
        after.text = "é := .wait(f(é), 2)".toList ∧
        Menu.Selects 5 text after.selection := by
  intro document menu
  have hBounds : document.InBounds := Document.inBounds_ofText _ _
  obtain ⟨text, after, hText, hRun, hWritten, -, hSelects, -⟩ :=
    (acceptMenu_splices hBounds menu 1).2 (by decide)
  refine ⟨hBounds, text, after, hRun, ?_, hSelects⟩
  have hRow : menu.insertion? 1 = some ".wait(f(é), 2)".toList := by decide
  rw [hRow] at hText
  cases hText
  exact hWritten

end Editing

end EditAssist
