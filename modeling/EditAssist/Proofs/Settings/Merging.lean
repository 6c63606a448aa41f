import Mathlib.Data.List.Induction
import EditAssist.Proofs.Settings.Sections

/-! Settings merged one document after the other. Each preference ends as what the last document
that sets it says, whatever else that document and the others hold. The naturals of a document are
taken to fit words, as they do in every document that was read (`Json.inWords_read?`). -/
namespace EditAssist.Preferences

variable {α : Type} {preferences start : Preferences} {document : Json} {documents : List Json}
  {sets : Json → α → Prop} {first final : α}

/-- `final` is what the last document that sets a value sets, or the first value if none does. -/
def LastSet (sets : Json → α → Prop) (first : α) (documents : List Json) (final : α) : Prop :=
  (∃ earlier document later, documents = earlier ++ document :: later ∧ sets document final ∧
    ∀ other ∈ later, ∀ value, ¬ sets other value) ∨
  (final = first ∧ ∀ document ∈ documents, ∀ value, ¬ sets document value)

theorem LastSet.overwrite (hSets : sets document final) :
    LastSet sets first (documents ++ [document]) final :=
  .inl ⟨documents, document, [], rfl, hSets, nofun⟩

theorem LastSet.keep (h : LastSet sets first documents final)
    (hNone : ∀ value, ¬ sets document value) :
    LastSet sets first (documents ++ [document]) final := by
  have hLast {later : List Json} (hLater : ∀ other ∈ later, ∀ value, ¬ sets other value) :
      ∀ other ∈ later ++ [document], ∀ value, ¬ sets other value := by
    intro other hMem
    rcases List.mem_append.mp hMem with hBefore | hHere
    · exact hLater other hBefore
    · rw [List.mem_singleton.mp hHere]
      exact hNone
  rcases h with ⟨earlier, last, later, rfl, hSets, hLater⟩ | ⟨hFirst, hBefore⟩
  · exact .inl ⟨earlier, last, later ++ [document], by simp, hSets, hLast hLater⟩
  · exact .inr ⟨hFirst, hLast hBefore⟩

/-- The width that a document gives to tab stops. -/
def width? (document : Json) : Option Nat :=
  (((sectionOf document).field? tabWidthKey).bind Json.natural?).filter (0 < ·)

/-- The truth value that a document gives to a key. -/
def flag? (key : List Char) (document : Json) : Option Bool :=
  ((sectionOf document).field? key).bind Json.bool?

/-- Each preference gives way to what the document sets for it, and to nothing else. -/
theorem merge_eq (preferences : Preferences) (document : Json) :
    preferences.merge document =
      { tabWidth := (width? document).getD preferences.tabWidth
        hints := (flag? hintsKey document).getD preferences.hints
        dotMenu := (flag? dotMenuKey document).getD preferences.dotMenu
        hashMenu := (flag? hashMenuKey document).getD preferences.hashMenu } := by
  simp only [merge, width?, flag?, Json.field?]
  cases (sectionOf document).fields? with
  | none => rfl
  | some fields => rfl

theorem check_eq_ok_iff : preferences.check = .ok () ↔ 0 < preferences.tabWidth := by
  rw [check]
  split
  next hZero => simp [hZero]
  next hSome => simp [Nat.pos_of_ne_zero hSome]

theorem width?_pos {width : Nat} (hWidth : width? document = some width) : 0 < width := by
  simpa using (Option.filter_eq_some_iff.mp hWidth).2

theorem width?_eq_some_iff (hWords : document.InWords) {width : Nat} :
    width? document = some width ↔ SetsWidth document width := by
  have hGiven : ((sectionOf document).field? tabWidthKey).bind Json.natural? = some width ↔
      Sets document tabWidthKey (.natural width) := by
    simp only [sets_iff, Option.bind_eq_some_iff, Json.natural?_eq_some_iff, exists_eq_right]
  rw [width?, Option.filter_eq_some_iff, hGiven, SetsWidth, decide_eq_true_eq]
  refine and_congr_right fun hSets => ?_
  have hBinds : (sectionOf document).Binds tabWidthKey (.natural width) :=
    Json.field?_eq_some_iff.mp (sets_iff.mp hSets)
  have hFits := Json.inWords_natural_iff.mp ((inWords_sectionOf hWords).binds hBinds)
  exact (and_iff_left hFits).symm

theorem flag?_eq_some_iff {key : List Char} {flag : Bool} :
    flag? key document = some flag ↔ SetsFlag key document flag := by
  simp only [flag?, SetsFlag, sets_iff, Option.bind_eq_some_iff, Json.bool?_eq_some_iff,
    exists_eq_right]

/-- What holds of one document holds of a run: a preference that every document either sets or
leaves alone ends as the last document that sets it says. -/
theorem lastSet_merged {view : Preferences → α} {given? : Json → Option α}
    (hView : ∀ preferences document,
      view (merge preferences document) = (given? document).getD (view preferences))
    (hSets : ∀ document ∈ documents, ∀ value, given? document = some value ↔ sets document value)
    (start : Preferences) :
    LastSet sets (view start) documents (view (documents.foldl merge start)) := by
  induction documents using List.reverseRecOn with
  | nil => exact .inr ⟨rfl, nofun⟩
  | append_singleton documents document ih =>
      have hLast := hSets document (by simp)
      have hMerged := ih fun other hMem => hSets other (List.mem_append_left _ hMem)
      rw [List.foldl_append, List.foldl_cons, List.foldl_nil, hView]
      cases hGiven : given? document with
      | some value => exact .overwrite ((hLast value).mp hGiven)
      | none =>
          refine hMerged.keep fun value hValue => ?_
          rw [(hLast value).mpr hValue] at hGiven
          cases hGiven

/-- A tab stop keeps some width. -/
theorem check_merge (hCheck : preferences.check = .ok ()) (document : Json) :
    (preferences.merge document).check = .ok () := by
  rw [check_eq_ok_iff] at hCheck ⊢
  rw [merge_eq]
  cases hWidth : width? document with
  | none => exact hCheck
  | some width => exact width?_pos hWidth

theorem check_merged (hCheck : start.check = .ok ()) (documents : List Json) :
    (documents.foldl merge start).check = .ok () := by
  induction documents generalizing start with
  | nil => exact hCheck
  | cons document documents ih => exact ih (check_merge hCheck document)

/-- A document that was merged last has nothing left to set. -/
theorem merge_merge (preferences : Preferences) (document : Json) :
    (preferences.merge document).merge document = preferences.merge document := by
  have hAgain {α : Type} (given : Option α) (value : α) :
      given.getD (given.getD value) = given.getD value := by
    cases given <;> rfl
  simp only [merge_eq, hAgain]

/-- For every preference the last document that sets it decides. A value of another shape, a width
of zero and a document without an object for the editor set nothing and stand in the way of nothing.
So preferences that pass their check go on passing it, and merging a document once more changes
nothing. -/
theorem merge_last_wins (start : Preferences) (documents : List Json)
    (hWords : ∀ document ∈ documents, document.InWords) :
    let final := documents.foldl merge start
    LastSet SetsWidth start.tabWidth documents final.tabWidth ∧
      LastSet (SetsFlag hintsKey) start.hints documents final.hints ∧
      LastSet (SetsFlag dotMenuKey) start.dotMenu documents final.dotMenu ∧
      LastSet (SetsFlag hashMenuKey) start.hashMenu documents final.hashMenu ∧
      (start.check = .ok () → final.check = .ok ()) ∧
      ∀ document, (final.merge document).merge document = final.merge document := by
  intro final
  refine ⟨?_, ?_, ?_, ?_, fun hCheck => check_merged hCheck documents, merge_merge final⟩
  · exact lastSet_merged (fun _ _ => by rw [merge_eq])
      (fun document hMem _ => width?_eq_some_iff (hWords document hMem)) start
  · exact lastSet_merged (fun _ _ => by rw [merge_eq]) (fun _ _ _ => flag?_eq_some_iff) start
  · exact lastSet_merged (fun _ _ => by rw [merge_eq]) (fun _ _ _ => flag?_eq_some_iff) start
  · exact lastSet_merged (fun _ _ => by rw [merge_eq]) (fun _ _ _ => flag?_eq_some_iff) start

/-- A document that sets some keys and fails for others, one whose editor part is no object, and one
that gives a key twice, first with a value that would do. -/
theorem merge_last_wins_of_three :
    let mixed : Json := .object [(sectionKey, .object [(tabWidthKey, .natural 8),
      (hintsKey, .string "no".toList), (dotMenuKey, .bool false)]), (hintsKey, .bool false)]
    let shapeless : Json := .object [(sectionKey, .null), (tabWidthKey, .natural 2)]
    let repeated : Json := .object [(tabWidthKey, .natural 3), (tabWidthKey, .natural 0),
      (dotMenuKey, .otherNumber)]
    let documents := [mixed, shapeless, repeated]
    let final := documents.foldl merge {}
    (∀ document ∈ documents, document.InWords) ∧
      LastSet SetsWidth 4 documents 8 ∧ LastSet (SetsFlag hintsKey) true documents true ∧
      LastSet (SetsFlag dotMenuKey) true documents false ∧
      LastSet (SetsFlag hashMenuKey) true documents true ∧
      ({} : Preferences).check = .ok () ∧ final.check = .ok () ∧
      (final.merge mixed).merge mixed = final.merge mixed := by
  intro mixed shapeless repeated documents final
  have hWords : ∀ document ∈ documents, document.InWords := by
    simp [documents, mixed, shapeless, repeated, Json.inWords_object_iff, Json.inWords_natural_iff,
      Json.Numeral.wordBound, Json.InWords.bool, Json.InWords.string, Json.InWords.null,
      Json.InWords.otherNumber]
  have hFinal : documents.foldl merge {} = { tabWidth := 8, dotMenu := false } := by decide
  obtain ⟨hWidth, hHints, hDot, hHash, hCheck, hTwice⟩ := merge_last_wins {} documents hWords
  have hStart : ({} : Preferences).check = .ok () := rfl
  rw [hFinal] at hWidth hHints hDot hHash
  exact ⟨hWords, hWidth, hHints, hDot, hHash, hStart, hCheck hStart, hTwice mixed⟩

end EditAssist.Preferences
