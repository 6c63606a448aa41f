import EditAssist.Settings.Preferences

/-! What a settings document says. The part of it that is about the editor is one value, and a key
stands for the value of its last field there. -/
namespace EditAssist

namespace Json

variable {key : List Char} {json value : Json} {fields : List (List Char × Json)}

/-- The value is an object, and of its fields with that key the last one holds `value`. -/
def Binds (json : Json) (key : List Char) (value : Json) : Prop :=
  ∃ before after, json = .object (before ++ (key, value) :: after) ∧ ∀ field ∈ after, field.1 ≠ key

theorem lookup?_eq_some_iff :
    lookup? key fields = some value ↔
      ∃ before after, fields = before ++ (key, value) :: after ∧
        ∀ field ∈ after, field.1 ≠ key := by
  constructor
  · intro hFound
    obtain ⟨⟨other, found⟩, hLast, rfl⟩ := Option.map_eq_some_iff.mp hFound
    obtain ⟨hKey, after, before, hFields, hAfter⟩ := List.find?_eq_some_iff_append.mp hLast
    obtain rfl : other = key := beq_iff_eq.mp hKey
    refine ⟨before.reverse, after.reverse, ?_, fun field hMem => ?_⟩
    · rw [← List.reverse_reverse fields, hFields]
      simp
    · simpa using hAfter field (List.mem_reverse.mp hMem)
  · rintro ⟨before, after, rfl, hAfter⟩
    have hNone : after.reverse.find? (fun field => field.1 == key) = none := by
      rw [List.find?_eq_none]
      intro field hMem
      simpa using hAfter field (List.mem_reverse.mp hMem)
    simp [lookup?, List.find?_append, hNone]

theorem field?_eq_some_iff : json.field? key = some value ↔ json.Binds key value := by
  cases json with
  | object fields =>
      refine lookup?_eq_some_iff.trans (exists_congr fun before => exists_congr fun after => ?_)
      rw [object.injEq]
  | null | bool | natural | otherNumber | string | array =>
      refine iff_of_false nofun ?_
      rintro ⟨_, _, hObject, -⟩
      cases hObject

theorem natural?_eq_some_iff {number : Nat} :
    json.natural? = some number ↔ json = .natural number := by
  cases json <;> simp [natural?]

theorem bool?_eq_some_iff {flag : Bool} : json.bool? = some flag ↔ json = .bool flag := by
  cases json <;> simp [bool?]

/-- Every natural in the value fits a word of 64 bits. -/
inductive InWords : Json → Prop
  | null : InWords .null
  | bool (flag : Bool) : InWords (.bool flag)
  | natural {number : Nat} (hNumber : number < Numeral.wordBound) : InWords (.natural number)
  | otherNumber : InWords .otherNumber
  | string (text : List Char) : InWords (.string text)
  | array {items : List Json} (hItems : ∀ item ∈ items, InWords item) : InWords (.array items)
  | object {fields : List (List Char × Json)} (hFields : ∀ field ∈ fields, InWords field.2) :
      InWords (.object fields)

theorem inWords_natural_iff {number : Nat} :
    (natural number).InWords ↔ number < Numeral.wordBound :=
  ⟨fun h => by cases h; assumption, .natural⟩

theorem inWords_object_iff : (object fields).InWords ↔ ∀ field ∈ fields, field.2.InWords :=
  ⟨fun h => by cases h; assumption, .object⟩

theorem InWords.binds (h : json.InWords) (hBinds : json.Binds key value) : value.InWords := by
  obtain ⟨before, after, rfl, -⟩ := hBinds
  exact inWords_object_iff.mp h (key, value) (List.mem_append_right _ List.mem_cons_self)

end Json

namespace Preferences

variable {document part value : Json} {key : List Char}

/-- `part` is what the document has under the key of the editor, or the whole document if it has
nothing there. -/
def IsSection (document part : Json) : Prop :=
  document.Binds sectionKey part ∨
    (part = document ∧ ∀ value, ¬ document.Binds sectionKey value)

theorem isSection_iff : IsSection document part ↔ sectionOf document = part := by
  rw [IsSection, sectionOf]
  simp only [← Json.field?_eq_some_iff]
  cases document.field? sectionKey with
  | none => simp [eq_comm]
  | some found => simp

theorem inWords_sectionOf (h : document.InWords) : (sectionOf document).InWords := by
  rcases isSection_iff.mpr (Eq.refl (sectionOf document)) with hBinds | ⟨hSame, -⟩
  · exact h.binds hBinds
  · rw [hSame]
    exact h

/-- The document has an object for the editor, and `key` stands for `value` there. -/
def Sets (document : Json) (key : List Char) (value : Json) : Prop :=
  ∃ part, IsSection document part ∧ part.Binds key value

theorem sets_iff : Sets document key value ↔ (sectionOf document).field? key = some value := by
  simp only [Sets, isSection_iff, exists_eq_left', Json.field?_eq_some_iff]

/-- A width for a tab stop: a natural of at least 1 that fits a word of 64 bits. -/
def SetsWidth (document : Json) (width : Nat) : Prop :=
  Sets document tabWidthKey (.natural width) ∧ 1 ≤ width ∧ width < Json.Numeral.wordBound

/-- A truth value for a key. -/
def SetsFlag (key : List Char) (document : Json) (flag : Bool) : Prop :=
  Sets document key (.bool flag)

end Preferences

end EditAssist
