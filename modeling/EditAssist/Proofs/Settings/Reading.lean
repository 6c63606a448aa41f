import EditAssist.Proofs.Settings.Sections

/-! Documents that were read hold no naturals but words of 64 bits. The numerals bring none that is
larger, and the reader only moves values from its tokens into containers. -/
namespace EditAssist.Json

variable {token : Token} {text rest : List Char}

namespace Numeral

/-- A significand takes in digits only as long as it stays a word. -/
theorem accumulate_lt {value : Nat} (hValue : value < wordBound) (digits : List Nat) :
    (accumulate value digits).1 < wordBound := by
  induction digits generalizing value with
  | nil => exact hValue
  | cons digit digits ih =>
      rw [accumulate]
      split
      next hNext => exact ih hNext
      next => exact hValue

theorem natural?_lt {numeral : Numeral} {value : Nat} (h : numeral.natural? = some value) :
    value < wordBound := by
  simp only [natural?] at h
  split at h
  · cases h
    exact accumulate_lt (by decide) numeral.whole
  · cases h

end Numeral

namespace Token

/-- A natural among the tokens fits a word. -/
def InWords : Token → Prop
  | natural number => number < Numeral.wordBound
  | _ => True

theorem inWords_readString? (h : readString? text = some (token, rest)) : token.InWords := by
  simp only [readString?, Option.bind_eq_bind, Option.bind_eq_some_iff] at h
  obtain ⟨_, -, _, -, hToken⟩ := h
  cases hToken
  trivial

theorem inWords_readNumber? (h : readNumber? text = some (token, rest)) : token.InWords := by
  simp only [readNumber?, Option.bind_eq_bind, Option.bind_eq_some_iff] at h
  obtain ⟨⟨numeral, tail⟩, -, hToken⟩ := h
  split at hToken
  · cases hToken
  split at hToken
  next hNatural =>
    cases hToken
    exact Numeral.natural?_lt hNatural
  next =>
    cases hToken
    trivial

theorem inWords_readHere? (h : readHere? text = some (token, rest)) : token.InWords := by
  rw [readHere?.eq_def] at h
  split at h
  case h_8 => exact inWords_readString? h
  case h_12 => exact inWords_readNumber? h
  all_goals
    cases h
    try trivial

theorem inWords_readAll? {tokens : List Token} (h : readAll? text = some tokens) :
    ∀ token ∈ tokens, token.InWords := by
  fun_induction readAll? text generalizing tokens with
  | case1 text hEnd =>
      cases h
      exact nofun
  | case2 => cases h
  | case3 text hMore token rest hRead hShorter ih =>
      obtain ⟨later, hLater, rfl⟩ := Option.map_eq_some_iff.mp h
      exact List.forall_mem_cons.mpr ⟨inWords_readHere? hRead, ih hLater⟩
  | case4 => cases h

end Token

/-- What an open container holds so far fits words. -/
def Frame.InWords : Frame → Prop
  | items before => ∀ item ∈ before, item.InWords
  | field before _ => ∀ field ∈ before, field.2.InWords

namespace Reading

/-- All that has been read so far fits words. -/
def InWords : Reading → Prop
  | atValue stack | atFirstItem stack => ∀ frame ∈ stack, frame.InWords
  | atKey _ fields stack | atColon fields _ stack | afterField fields stack =>
    (∀ field ∈ fields, field.2.InWords) ∧ ∀ frame ∈ stack, frame.InWords
  | afterItem items stack => (∀ item ∈ items, item.InWords) ∧ ∀ frame ∈ stack, frame.InWords
  | done value => value.InWords

variable {reading next : Reading} {stack : List Frame}

theorem inWords_put {value : Json} (hValue : value.InWords)
    (hStack : ∀ frame ∈ stack, frame.InWords) : (put value stack).InWords := by
  cases stack with
  | nil => exact hValue
  | cons frame stack =>
      obtain ⟨hFrame, hOuter⟩ := List.forall_mem_cons.mp hStack
      cases frame with
      | items before => exact ⟨List.forall_mem_cons.mpr ⟨hValue, hFrame⟩, hOuter⟩
      | field before key => exact ⟨List.forall_mem_cons.mpr ⟨hValue, hFrame⟩, hOuter⟩

theorem inWords_begin? (hToken : token.InWords) (hStack : ∀ frame ∈ stack, frame.InWords)
    (hNext : begin? token stack = some next) : next.InWords := by
  cases token with
  | null =>
      cases hNext
      exact inWords_put .null hStack
  | bool flag =>
      cases hNext
      exact inWords_put (.bool flag) hStack
  | natural number =>
      cases hNext
      exact inWords_put (.natural hToken) hStack
  | otherNumber =>
      cases hNext
      exact inWords_put .otherNumber hStack
  | string value =>
      cases hNext
      exact inWords_put (.string value) hStack
  | openBracket =>
      rw [begin?] at hNext
      split at hNext
      · cases hNext
        exact hStack
      · cases hNext
  | openBrace =>
      rw [begin?] at hNext
      split at hNext
      · cases hNext
        exact ⟨nofun, hStack⟩
      · cases hNext
  | closeBrace | closeBracket | comma | colon => cases hNext

/-- One more token leaves only words behind. -/
theorem inWords_step? (hReading : reading.InWords) (hToken : token.InWords)
    (hNext : reading.step? token = some next) : next.InWords := by
  rw [step?.eq_def] at hNext
  split at hNext
  next stack _ => exact inWords_begin? hToken hReading hNext
  next stack _ =>
    -- an array ends before its first item
    cases hNext
    exact inWords_put (.array nofun) hReading
  next stack _ =>
    have hFrame : (Frame.items []).InWords := List.forall_mem_nil _
    exact inWords_begin? hToken (List.forall_mem_cons.mpr ⟨hFrame, hReading⟩) hNext
  next before stack =>
    -- an object ends before its first key
    cases hNext
    exact inWords_put (.object nofun) hReading.2
  next isFirst before stack key =>
    cases hNext
    exact hReading
  next before key stack =>
    cases hNext
    exact List.forall_mem_cons.mpr hReading
  next items stack =>
    cases hNext
    exact List.forall_mem_cons.mpr hReading
  next items stack =>
    cases hNext
    refine inWords_put (.array fun item hMem => ?_) hReading.2
    exact hReading.1 item (List.mem_reverse.mp hMem)
  next fields stack =>
    cases hNext
    exact hReading
  next fields stack =>
    cases hNext
    refine inWords_put (.object fun field hMem => ?_) hReading.2
    exact hReading.1 field (List.mem_reverse.mp hMem)
  next => cases hNext

/-- Tokens that bring only words leave only words behind. -/
theorem inWords_foldlM {tokens : List Token} (hReading : reading.InWords)
    (hTokens : ∀ token ∈ tokens, token.InWords)
    (hNext : tokens.foldlM step? reading = some next) : next.InWords := by
  induction tokens generalizing reading with
  | nil =>
      cases hNext
      exact hReading
  | cons token tokens ih =>
      obtain ⟨hToken, hLater⟩ := List.forall_mem_cons.mp hTokens
      rw [List.foldlM_cons, Option.bind_eq_bind, Option.bind_eq_some_iff] at hNext
      obtain ⟨middle, hMiddle, hRest⟩ := hNext
      exact ih (inWords_step? hReading hToken hMiddle) hLater hRest

end Reading

/-- What was read from a text holds no natural but words of 64 bits. -/
theorem inWords_read? {document : Json} (h : read? text = some document) : document.InWords := by
  obtain ⟨tokens, hTokens, hValue⟩ := Option.bind_eq_some_iff.mp h
  rw [ofTokens?] at hValue
  split at hValue
  next value hDone =>
    cases hValue
    have hStart : (Reading.atValue []).InWords := nofun
    exact Reading.inWords_foldlM hStart (Token.inWords_readAll? hTokens) hDone
  next => cases hValue

end EditAssist.Json
