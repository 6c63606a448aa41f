/-! Where one text occurs in another. Places are character indices. -/
namespace EditAssist.Text

/-- The index of the first occurrence. The empty pattern occurs everywhere. -/
def find? (pattern : List Char) : List Char → Option Nat
  | [] => if pattern.isEmpty then some 0 else none
  | c :: rest =>
    if pattern.isPrefixOf (c :: rest) then some 0
    else (find? pattern rest).map (· + 1)

/-- The index of the last occurrence. -/
def findLast? (pattern : List Char) : List Char → Option Nat
  | [] => if pattern.isEmpty then some 0 else none
  | c :: rest =>
    match findLast? pattern rest with
    | some i => some (i + 1)
    | none => if pattern.isPrefixOf (c :: rest) then some 0 else none

/-- Whether `pattern` occurs in `text`. -/
def occursIn (pattern text : List Char) : Bool :=
  (find? pattern text).isSome

/-- The index of the last `c`. -/
def lastIndexOf? (c : Char) (text : List Char) : Option Nat :=
  findLast? [c] text

/-- The number of bytes that `text` takes in UTF-8. -/
def utf8Size (text : List Char) : Nat :=
  text.foldl (fun size c => size + c.utf8Size) 0

/-- The first occurrence is one, and no earlier index is. -/
theorem find?_eq_some_iff {pattern text : List Char} {i : Nat} :
    find? pattern text = some i ↔
      i ≤ text.length ∧ pattern <+: text.drop i ∧ ∀ j < i, ¬ pattern <+: text.drop j := by
  induction text generalizing i with
  | nil =>
    cases pattern with
    | nil =>
      simp only [find?, List.isEmpty_nil, ↓reduceIte, Option.some.injEq, List.length_nil,
        Nat.le_zero_eq, List.nil_prefix, not_true_eq_false, true_and]
      constructor
      · rintro rfl
        exact ⟨rfl, by omega⟩
      · rintro ⟨rfl, _⟩
        rfl
    | cons c rest => simp [find?]
  | cons c rest ih =>
    by_cases hHere : pattern <+: c :: rest
    · have hTest : pattern.isPrefixOf (c :: rest) = true := List.isPrefixOf_iff_prefix.mpr hHere
      simp only [find?, hTest, ↓reduceIte, Option.some.injEq]
      constructor
      · rintro rfl
        exact ⟨by omega, by simpa using hHere, by omega⟩
      · rintro ⟨_, _, hFirst⟩
        cases i with
        | zero => rfl
        | succ i => exact absurd (by simpa using hHere) (hFirst 0 (by omega))
    · have hTest : pattern.isPrefixOf (c :: rest) = false := by
        rw [← Bool.not_eq_true, List.isPrefixOf_iff_prefix]
        exact hHere
      simp only [find?, hTest, Bool.false_eq_true, ↓reduceIte, Option.map_eq_some_iff]
      constructor
      · rintro ⟨j, hj, rfl⟩
        obtain ⟨hLe, hAt, hFirst⟩ := ih.mp hj
        refine ⟨by simpa using hLe, by simpa using hAt, ?_⟩
        intro k hk
        cases k with
        | zero => simpa using hHere
        | succ k => simpa using hFirst k (by omega)
      · rintro ⟨hLe, hAt, hFirst⟩
        cases i with
        | zero => exact absurd (by simpa using hAt) hHere
        | succ i =>
          refine ⟨i, ih.mpr ⟨by simpa using hLe, by simpa using hAt, ?_⟩, rfl⟩
          intro k hk
          simpa using hFirst (k + 1) (by omega)

end EditAssist.Text
