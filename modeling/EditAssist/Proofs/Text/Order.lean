import EditAssist.Text.Order

/-! The order of texts is total, so sorting by it puts every text behind all that precede it. -/
namespace EditAssist.Text

/-- `left` comes before `right` and is not the same text: at the first place where they differ it
has the smaller code point, or it ends there. -/
def Precedes : (left right : List Char) → Prop :=
  List.Lex fun a b => a.toNat < b.toNat

theorem atMost_iff {left right : List Char} :
    atMost left right = true ↔ Precedes left right ∨ left = right := by
  induction left generalizing right with
  | nil => cases right <;> simp [atMost, Precedes]
  | cons a left ih =>
      cases right with
      | nil => simp [atMost, Precedes]
      | cons b right =>
          have hTail := @ih right
          simp only [Precedes] at hTail
          simp only [atMost, Precedes, List.cons_lex_cons_iff, Bool.or_eq_true, decide_eq_true_eq,
            Bool.and_eq_true, beq_iff_eq, List.cons.injEq, hTail, and_or_left, or_assoc]

theorem Precedes.trans {first second third : List Char} (hFirst : Precedes first second)
    (hSecond : Precedes second third) : Precedes first third :=
  List.lex_trans Nat.lt_trans hFirst hSecond

theorem Precedes.ne {left right : List Char} (h : Precedes left right) : left ≠ right := by
  rintro rfl
  exact List.lex_irrefl (fun c => Nat.lt_irrefl c.toNat) left h

/-- Of two texts one comes no later than the other. -/
theorem atMost_total (left right : List Char) :
    (atMost left right || atMost right left) = true := by
  induction left generalizing right with
  | nil => rfl
  | cons a left ih =>
      cases right with
      | nil => rfl
      | cons b right =>
          have hTail := ih right
          rcases Nat.lt_trichotomy a.toNat b.toNat with hLess | hSame | hMore
          · simp [atMost, hLess]
          · obtain rfl : a = b := Char.toNat_inj.mp hSame
            simpa [atMost] using hTail
          · simp [atMost, hMore]

theorem atMost_antisymm {left right : List Char} (hLeft : atMost left right = true)
    (hRight : atMost right left = true) : left = right := by
  induction left generalizing right with
  | nil =>
      cases right with
      | nil => rfl
      | cons b right => cases hRight
  | cons a left ih =>
      cases right with
      | nil => cases hLeft
      | cons b right =>
          simp only [atMost, Bool.or_eq_true, decide_eq_true_eq, Bool.and_eq_true, beq_iff_eq]
            at hLeft hRight
          rcases hLeft with hLess | ⟨rfl, hLeft⟩
          · rcases hRight with hMore | ⟨rfl, -⟩
            · exact absurd hMore (Nat.lt_asymm hLess)
            · exact absurd hLess (Nat.lt_irrefl _)
          · rcases hRight with hMore | ⟨-, hRight⟩
            · exact absurd hMore (Nat.lt_irrefl _)
            · rw [ih hLeft hRight]

theorem atMost_trans (first second third : List Char) (hFirst : atMost first second = true)
    (hSecond : atMost second third = true) : atMost first third = true := by
  induction first generalizing second third with
  | nil => rfl
  | cons a first ih =>
      cases second with
      | nil => cases hFirst
      | cons b second =>
          cases third with
          | nil => cases hSecond
          | cons c third =>
              simp only [atMost, Bool.or_eq_true, decide_eq_true_eq, Bool.and_eq_true, beq_iff_eq]
                at hFirst hSecond ⊢
              rcases hFirst with hLess | ⟨rfl, hRest⟩
              · rcases hSecond with hMore | ⟨rfl, -⟩
                · exact .inl (Nat.lt_trans hLess hMore)
                · exact .inl hLess
              · rcases hSecond with hMore | ⟨rfl, hEnd⟩
                · exact .inl hMore
                · exact .inr ⟨rfl, ih second third hRest hEnd⟩

end EditAssist.Text
