import EditAssist.Proofs.Assist.Pressing

/-! Typed text arrives as it was typed. A menu holds its trigger back, but whatever key comes next
puts it where it belongs, so `typeText_echoes` needs to know nothing of what the symbol table
answers. -/
namespace EditAssist.Assisting

open Document (Typed)

variable {workspace : Workspace}

/-- One character more, behind what the menu holds back. A menu whose own trigger is pressed gives
up that trigger and drops the key, which is why the two must differ. -/
theorem press_char_yields (hBounds : workspace.document.InBounds)
    (hSound : workspace.assistant.overlay.Sound) (source : SymbolSource) {c : Char}
    (hBrace : c ≠ '\x7d') (hRepeat : workspace.assistant.overlay.held ≠ [c]) :
    Yields (press source (.char c)) workspace fun _ after =>
      (∃ text, Typed text workspace.document after.document ∧
        text ++ after.assistant.overlay.held = workspace.assistant.overlay.held ++ [c]) ∧
      after.assistant.overlay.Sound := by
  simp only [press, yields_bind, yields_assistant]
  split
  next menu hMenu =>
    rw [hMenu] at hSound hRepeat ⊢
    have hOther : c ≠ menu.trigger.char := by
      intro hSame
      exact hRepeat (by rw [hSame]; rfl)
    simp only [pressInMenu, yields_bind, if_neg hOther]
    apply Yields.mono (acceptMenu_zero_yields hBounds hMenu hSound)
    intro _ middle hAccepted
    obtain ⟨hTrigger, hEdited, hHidden⟩ := hAccepted
    apply Yields.mono (pressPlain_char_yields hEdited.inBounds source hBrace)
    intro _ after hPressed
    obtain ⟨⟨text, hTyped, hText⟩, hAfter⟩ := hPressed.2 (by rw [hHidden]; rfl)
    refine ⟨⟨_, hTrigger.trans hBounds hTyped, ?_⟩, hAfter⟩
    rw [List.append_assoc, hText]
    rfl
  next hOther =>
    have hNone := Overlay.menu?_eq_none hOther
    apply Yields.mono (pressPlain_char_yields hBounds source hBrace)
    intro _ after hPressed
    obtain ⟨hTyped, hAfter⟩ := hPressed.2 hNone
    rw [Overlay.held_of_menu?_eq_none hNone]
    exact ⟨hTyped, hAfter⟩

/-- No trigger is typed twice in a row. -/
def NoDoubledTrigger (text : List Char) : Prop :=
  ∀ trigger : Trigger, ¬ [trigger.char, trigger.char] <:+: text

theorem NoDoubledTrigger.suffix {text rest : List Char} (h : NoDoubledTrigger text)
    (hSuffix : rest <:+ text) : NoDoubledTrigger rest :=
  fun trigger hInside => h trigger (hInside.trans hSuffix.isInfix)

/-- What a menu holds back is a trigger, so it is not typed again at once. -/
theorem held_ne_of_noDoubledTrigger {overlay : Overlay} {c : Char} {rest : List Char}
    (h : NoDoubledTrigger (overlay.held ++ c :: rest)) : overlay.held ≠ [c] := by
  intro hHeld
  cases overlay with
  | menu list =>
      obtain rfl : list.trigger.char = c := List.head_eq_of_cons_eq hHeld
      exact h list.trigger ⟨[], rest, rfl⟩
  | hidden | hints list => cases hHeld

theorem typeText_cons {source : SymbolSource} {c : Char} {rest : List Char} {outcome : Outcome}
    {outcomes : List Outcome} {after finished : Workspace}
    (hPress : (press source (.char c)).run workspace = (.ok outcome, after))
    (hRest : (typeText source rest).run after = ((outcomes, none), finished)) :
    (typeText source (c :: rest)).run workspace = ((outcome :: outcomes, none), finished) := by
  change typeText source rest after = ((outcomes, none), finished) at hRest
  change typeText source (c :: rest) workspace = _
  simp only [typeText, hPress, hRest]

/-- What has been typed and what a menu holds back are together the text so far. Each character
moves the border between the two and keeps that. -/
theorem typeText_echoes_from (hBounds : workspace.document.InBounds)
    (hSound : workspace.assistant.overlay.Sound) (source : SymbolSource) {text : List Char}
    (hStart : text = [] → workspace.document.selection.isEmpty = true)
    (hBrace : '\x7d' ∉ text)
    (hRepeat : NoDoubledTrigger (workspace.assistant.overlay.held ++ text)) :
    ∃ outcomes after, (typeText source text).run workspace = ((outcomes, none), after) ∧
      ∃ typed, Typed typed workspace.document after.document ∧
        typed ++ after.assistant.overlay.held = workspace.assistant.overlay.held ++ text := by
  -- on the text still to come; what the last menu held back goes along in `held`
  induction text generalizing workspace with
  | nil =>
      exact ⟨[], workspace, rfl, [], .refl (hStart rfl), by rw [List.append_nil, List.nil_append]⟩
  | cons c rest ih =>
      rw [List.mem_cons, not_or] at hBrace
      obtain ⟨outcome, middle, hPress, ⟨first, hFirst, hHeld⟩, hMiddle⟩ :=
        press_char_yields hBounds hSound source (Ne.symm hBrace.1)
          (held_ne_of_noDoubledTrigger hRepeat)
      have hSplit : workspace.assistant.overlay.held ++ c :: rest =
          first ++ (middle.assistant.overlay.held ++ rest) := by
        rw [← List.append_assoc, hHeld, List.append_assoc, List.singleton_append]
      have hSuffix : NoDoubledTrigger (middle.assistant.overlay.held ++ rest) :=
        hRepeat.suffix ⟨first, hSplit.symm⟩
      obtain ⟨outcomes, after, hRest, second, hSecond, hText⟩ :=
        ih (hFirst.inBounds hBounds) hMiddle (fun _ => hFirst.isEmpty_selection) hBrace.2 hSuffix
      refine ⟨outcome :: outcomes, after, typeText_cons hPress hRest, first ++ second,
        hFirst.trans hBounds hSecond, ?_⟩
      rw [hSplit, List.append_assoc, hText]

/-- Text without closing braces and without doubled triggers arrives as it was typed, in the place
of what was selected. If it ends with a menu open, its last character is the trigger that this
menu holds back. -/
theorem typeText_echoes (source : SymbolSource) (hBounds : workspace.document.InBounds)
    (hOverlay : workspace.assistant.overlay.menu? = none) {text : List Char} (hText : text ≠ [])
    (hBrace : '\x7d' ∉ text) (hRepeat : NoDoubledTrigger text) :
    ∃ outcomes after, (typeText source text).run workspace = ((outcomes, none), after) ∧
      Typed (if after.assistant.overlay.menu?.isSome then text.dropLast else text)
        workspace.document after.document := by
  have hHeld := Overlay.held_of_menu?_eq_none hOverlay
  obtain ⟨outcomes, after, hRun, typed, hTyped, hAll⟩ := typeText_echoes_from hBounds
    (Overlay.sound_of_menu?_eq_none hOverlay) source (fun hNil => absurd hNil hText) hBrace
    (by rwa [hHeld])
  refine ⟨outcomes, after, hRun, ?_⟩
  rw [hHeld, List.nil_append] at hAll
  cases hMenu : after.assistant.overlay.menu? with
  | none =>
      rw [Overlay.held_of_menu?_eq_none hMenu, List.append_nil] at hAll
      rw [← hAll]
      exact hTyped
  | some menu =>
      have hLast : after.assistant.overlay.held = [menu.trigger.char] := by
        rw [Overlay.held, hMenu]
        rfl
      rw [hLast] at hAll
      rw [← hAll, Option.isSome_some, if_pos rfl, List.dropLast_concat]
      exact hTyped

/-- An object, a comma and a second trigger over selected text, with a symbol for every question. -/
theorem typeText_echoes_over_selection :
    let source : SymbolSource := fun _ => [['f', '\t', 'g', 'o']]
    let workspace : Workspace :=
      ⟨.ofText ['a', 'b', 'c'] ⟨3, 1⟩, .ofFile [] (some .spin) {}, []⟩
    let text := ['o', '.', ',', '#']
    workspace.document.InBounds ∧ workspace.assistant.overlay.menu? = none ∧ text ≠ [] ∧
      '\x7d' ∉ text ∧ NoDoubledTrigger text ∧
        ∃ outcomes after, (typeText source text).run workspace = ((outcomes, none), after) ∧
          Typed (if after.assistant.overlay.menu?.isSome then text.dropLast else text)
            workspace.document after.document := by
  intro source workspace text
  have hBounds : workspace.document.InBounds := Document.inBounds_ofText _ _
  have hBrace : '\x7d' ∉ text := by decide
  have hRepeat : NoDoubledTrigger text := fun trigger => by cases trigger <;> decide
  exact ⟨hBounds, rfl, List.cons_ne_nil _ _, hBrace, hRepeat,
    typeText_echoes source hBounds rfl (List.cons_ne_nil _ _) hBrace hRepeat⟩

end EditAssist.Assisting
