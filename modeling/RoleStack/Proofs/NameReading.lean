import RoleStack.Proofs.Naming
import Mathlib.Data.List.TakeWhile

/-!
# Reading names

A number is read from its digits, perhaps with zeros and a plus sign before them, and from nothing
else. So a made name reads as what it was made from, whatever its base, and a text reads as a name
exactly if it is that name up to such padding of its two numbers.
-/

namespace RoleStack

/-! ### Numbers -/

/-- What may stand before the digits of a number without a change to it. -/
def IsPadding (text : List Char) : Prop :=
  ∃ zeros, text = List.replicate zeros '0' ∨ text = '+' :: List.replicate zeros '0'

theorem isPadding_nil : IsPadding [] := ⟨0, .inl rfl⟩

section Numbers

variable {text : List Char} {value word : UInt64}

theorem toNat_of_isDigit {digit : Char} (h : digit.isDigit = true) :
    48 ≤ digit.toNat ∧ digit.toNat ≤ 57 := by
  simpa [Char.isDigit, UInt32.le_iff_toNat_le] using h

/-- The library's equation with the number that `readWordDigits` subtracts. -/
theorem ofDigitChars_cons (digit : Char) (rest : List Char) (start : Nat) :
    Nat.ofDigitChars 10 (digit :: rest) start =
      Nat.ofDigitChars 10 rest (10 * start + (digit.toNat - 48)) :=
  Nat.ofDigitChars_cons

theorem toDigits_of_isDigit {digit : Char} (h : digit.isDigit = true) :
    Nat.toDigits 10 (digit.toNat - 48) = [digit] := by
  have hbounds := toNat_of_isDigit h
  have hlt : digit.toNat - 48 < 10 := by omega
  have hchar : (digit.toNat - 48).digitChar = digit := by
    apply Char.toNat_inj.mp
    rw [Nat.toNat_digitChar_of_lt_ten hlt]
    omega
  rw [Nat.toDigits_of_lt_base hlt, hchar]

theorem le_ofDigitChars (text : List Char) (start : Nat) :
    start ≤ Nat.ofDigitChars 10 text start := by
  have hpower : start ≤ 10 ^ text.length * start :=
    Nat.le_mul_of_pos_left start (Nat.pow_pos (by decide))
  rw [Nat.ofDigitChars_eq_ofDigitChars_zero]
  omega

/-- Digits that follow a number that is not zero continue it. -/
theorem toDigits_ofDigitChars {start : Nat} (hstart : 0 < start)
    (hdigits : ∀ char ∈ text, char.isDigit = true) :
    Nat.toDigits 10 (Nat.ofDigitChars 10 text start) = Nat.toDigits 10 start ++ text := by
  induction text generalizing start with
  | nil => simp
  | cons digit rest ih =>
      obtain ⟨hdigit, hrest⟩ := List.forall_mem_cons.mp hdigits
      have hbounds := toNat_of_isDigit hdigit
      have hlt : digit.toNat - 48 < 10 := by omega
      rw [ofDigitChars_cons, ih (by omega) hrest,
        ← Nat.toDigits_append_toDigits (by decide) hstart hlt, toDigits_of_isDigit hdigit,
        List.append_assoc, List.singleton_append]

theorem exists_zeros (hne : text ≠ []) (hdigits : ∀ char ∈ text, char.isDigit = true) :
    ∃ zeros, text =
      List.replicate zeros '0' ++ Nat.toDigits 10 (Nat.ofDigitChars 10 text 0) := by
  induction text with
  | nil => exact absurd rfl hne
  | cons digit rest ih =>
      obtain ⟨hdigit, hrest⟩ := List.forall_mem_cons.mp hdigits
      by_cases hzero : digit = '0'
      · subst hzero
        by_cases hempty : rest = []
        · subst hempty
          exact ⟨0, rfl⟩
        · obtain ⟨zeros, hzeros⟩ := ih hempty hrest
          exact ⟨zeros + 1, congrArg (List.cons '0') hzeros⟩
      · have hpos : 0 < digit.toNat - 48 := by
          have hbounds := toNat_of_isDigit hdigit
          have hvalue : digit.toNat ≠ 48 := fun hsame => hzero (Char.toNat_inj.mp hsame)
          omega
        refine ⟨0, ?_⟩
        rw [ofDigitChars_cons, Nat.mul_zero, Nat.zero_add, toDigits_ofDigitChars hpos hrest,
          toDigits_of_isDigit hdigit]
        rfl

theorem readWordDigits_eq_ok_iff :
    readWordDigits value text = .ok word ↔
      (∀ char ∈ text, char.isDigit = true) ∧
        Nat.ofDigitChars 10 text value.toNat = word.toNat := by
  induction text generalizing value with
  | nil => simp [readWordDigits, UInt64.toNat_inj]
  | cons digit rest ih =>
      rw [readWordDigits, List.forall_mem_cons, ofDigitChars_cons]
      by_cases hdigit : digit.isDigit = true
      · simp only [hdigit, if_true, true_and]
        split
        · rename_i hlt
          rw [ih, UInt64.toNat_ofNat_of_lt' hlt]
        · -- Digits only make a number larger, so one that is too large stays so.
          rename_i hlarge
          have hle := le_ofDigitChars rest (10 * value.toNat + (digit.toNat - 48))
          have hword := word.toNat_lt_size
          simp only [reduceCtorEq, false_iff, not_and]
          intro _ hsame
          omega
      · simp [hdigit]

theorem readWord_of_digits (hne : text ≠ []) (hdigits : ∀ char ∈ text, char.isDigit = true) :
    readWord text = readWordDigits 0 text := by
  unfold readWord
  split
  · exact absurd rfl hne
  · exact absurd (hdigits '+' (by simp)) (by decide)
  · exact absurd (hdigits '+' (by simp)) (by decide)
  · rfl

theorem readWord_plus (hne : text ≠ []) : readWord ('+' :: text) = readWordDigits 0 text := by
  cases text with
  | nil => exact absurd rfl hne
  | cons digit rest => rfl

/-- A number has one spelling without padding. -/
theorem readWord_eq_ok_iff :
    readWord text = .ok word ↔
      ∃ padding, IsPadding padding ∧ text = padding ++ (toString word.toNat).toList := by
  rw [Nat.toString_eq_repr, Nat.toList_repr]
  constructor
  · intro h
    have hzeros : ∀ digits, digits ≠ [] → readWordDigits 0 digits = .ok word →
        ∃ zeros, digits = List.replicate zeros '0' ++ Nat.toDigits 10 word.toNat := by
      intro digits hne hread
      obtain ⟨hdigits, hvalue⟩ := readWordDigits_eq_ok_iff.mp hread
      rw [← hvalue]
      exact exists_zeros hne hdigits
    unfold readWord at h
    split at h
    · cases h
    · cases h
    · rename_i digits hne
      obtain ⟨zeros, hdigits⟩ := hzeros digits (fun hempty => hne (hempty ▸ rfl)) h
      exact ⟨'+' :: List.replicate zeros '0', ⟨zeros, .inr rfl⟩, congrArg (List.cons '+') hdigits⟩
    · rename_i hne _ _
      obtain ⟨zeros, hdigits⟩ := hzeros _ hne h
      exact ⟨_, ⟨zeros, .inl rfl⟩, hdigits⟩
  · rintro ⟨padding, ⟨zeros, hpadding⟩, rfl⟩
    have hne : List.replicate zeros '0' ++ Nat.toDigits 10 word.toNat ≠ [] := by
      simp [Nat.toDigits_ne_nil]
    have hdigits : ∀ char ∈ List.replicate zeros '0' ++ Nat.toDigits 10 word.toNat,
        char.isDigit = true := by
      intro char hchar
      rcases List.mem_append.mp hchar with hzero | hdigit
      · rw [List.eq_of_mem_replicate hzero]
        rfl
      · exact Nat.isDigit_of_mem_toDigits (by decide) (by decide) hdigit
    have hread : readWordDigits 0 (List.replicate zeros '0' ++ Nat.toDigits 10 word.toNat) =
        .ok word := by
      rw [readWordDigits_eq_ok_iff]
      refine ⟨hdigits, ?_⟩
      rw [Nat.ofDigitChars_append, Nat.ofDigitChars_replicate_zero]
      exact Nat.ofDigitChars_ten_toDigits
    rcases hpadding with rfl | rfl
    · rw [readWord_of_digits hne hdigits, hread]
    · rw [List.cons_append, readWord_plus hne, hread]

end Numbers

/-! ### Names -/

namespace ClassName

section Cuts

variable {text before after : List Char}

theorem eq_of_splitLast? (h : splitLast? text = some (before, after)) :
    text = before ++ separator ++ after := by
  induction text generalizing before with
  | nil => cases h
  | cons char rest ih =>
      simp only [splitLast?] at h
      split at h
      · rename_i before' after' hrest
        obtain ⟨rfl, rfl⟩ := Prod.mk.inj (Option.some.inj h)
        rw [ih hrest]
        rfl
      · split at h
        · rename_i hseparator
          obtain ⟨rfl, rfl⟩ := Prod.mk.inj (Option.some.inj h)
          exact (List.prefix_iff_eq_append.mp (List.isPrefixOf_iff_prefix.mp hseparator)).symm
        · cases h

theorem splitLast?_eq_none (h : 'r' ∉ text) : splitLast? text = none := by
  induction text with
  | nil => rfl
  | cons char rest ih =>
      have hstarts : separator.isPrefixOf (char :: rest) = false := by
        rw [← Bool.not_eq_true, List.isPrefixOf_iff_prefix]
        intro hseparator
        exact h (hseparator.subset (by decide))
      rw [splitLast?, ih fun hmem => h (List.mem_cons_of_mem _ hmem)]
      simp [hstarts]

theorem splitLast?_append_eq_none {letters : List Char} (hletters : '_' ∉ letters)
    (h : splitLast? after = none) : splitLast? (letters ++ after) = none := by
  induction letters with
  | nil => exact h
  | cons char rest ih =>
      obtain ⟨hchar, hrest⟩ : '_' ≠ char ∧ '_' ∉ rest := by simpa using hletters
      have hstarts : separator.isPrefixOf (char :: (rest ++ after)) = false := by
        simp [separator, List.isPrefixOf, hchar]
      rw [List.cons_append, splitLast?, ih hrest]
      simp [hstarts]

/-- The base may hold separators, or end in a part of one. -/
theorem splitLast?_append (h : 'r' ∉ after) (before : List Char) :
    splitLast? (before ++ separator ++ after) = some (before, after) := by
  induction before with
  | nil =>
      have hunderscore : splitLast? ('_' :: after) = none := splitLast?_eq_none (by simp [h])
      have hlast : splitLast? (['r', 'o', 'l', 'e', 'd'] ++ '_' :: after) = none :=
        splitLast?_append_eq_none (by decide) hunderscore
      have hstarts : separator.isPrefixOf (separator ++ after) = true :=
        List.isPrefixOf_iff_prefix.mpr (List.prefix_append _ _)
      change splitLast? ('_' :: (['r', 'o', 'l', 'e', 'd'] ++ '_' :: after)) = _
      rw [splitLast?, hlast]
      exact if_pos hstarts
  | cons char rest ih =>
      rw [List.cons_append, List.cons_append, splitLast?, ih]

theorem splitFirst?_eq_some_iff :
    splitFirst? text = some (before, after) ↔ '_' ∉ before ∧ text = before ++ '_' :: after := by
  constructor
  · intro h
    unfold splitFirst? at h
    split at h
    · cases h
    · rename_i mark rest hrest
      obtain ⟨rfl, rfl⟩ := Prod.mk.inj (Option.some.inj h)
      have hmark : mark = '_' := by
        have hhead := List.head?_dropWhile_not (fun char => decide (char ≠ '_')) text
        rw [hrest] at hhead
        simpa using hhead
      refine ⟨fun hmem => ?_, ?_⟩
      · simpa using List.mem_takeWhile_imp hmem
      · rw [hmark] at hrest
        rw [← hrest, List.takeWhile_append_dropWhile]
  · rintro ⟨hbefore, rfl⟩
    have hkept : ∀ char ∈ before, decide (char ≠ '_') = true := by
      intro char hchar
      exact decide_eq_true fun hsame => hbefore (hsame ▸ hchar)
    rw [splitFirst?, List.dropWhile_append_of_pos hkept, List.takeWhile_append_of_pos hkept]
    simp

end Cuts

/-- The text of the name with something before its counter and before its engine's number. -/
def padded (name : ClassName) (counterPadding enginePadding : List Char) : List Char :=
  name.base.toList ++ separator ++
    (counterPadding ++ (toString name.counter).toList ++
      '_' :: (enginePadding ++ name.engine.display.toList))

theorem chars_eq_padded (name : ClassName) : name.chars = name.padded [] [] := by
  rw [chars, padded, List.append_assoc]
  rfl

theorem toList_display (name : ClassName) : name.display.toList = name.padded [] [] := by
  rw [display, String.toList_ofList, chars_eq_padded]

/-- Padding shows. -/
theorem padded_eq_chars_iff (name : ClassName) (counterPadding enginePadding : List Char) :
    name.padded counterPadding enginePadding = name.chars ↔
      counterPadding = [] ∧ enginePadding = [] := by
  constructor
  · intro h
    have hlength := congrArg List.length h
    rw [chars_eq_padded] at hlength
    simp only [padded, List.length_append, List.length_cons, List.length_nil] at hlength
    exact ⟨List.eq_nil_of_length_eq_zero (by omega), List.eq_nil_of_length_eq_zero (by omega)⟩
  · rintro ⟨rfl, rfl⟩
    exact name.chars_eq_padded.symm

section Reading

variable {text : List Char} {name : ClassName}

/-- Neither the mark between the two numbers nor a letter of the separator is part of a number. -/
theorem notMem_number {char : Char} (hdigit : char.isDigit = false) (hplus : char ≠ '+')
    {padding : List Char} (hpadding : IsPadding padding) (number : Nat) :
    char ∉ padding ++ (toString number).toList := by
  have hzero : char ≠ '0' := by
    rintro rfl
    cases hdigit
  have hdigits : char ∉ (toString number).toList := by
    rw [Nat.toString_eq_repr, Nat.toList_repr]
    intro hmem
    rw [Nat.isDigit_of_mem_toDigits (by decide) (by decide) hmem] at hdigit
    cases hdigit
  obtain ⟨zeros, rfl | rfl⟩ := hpadding
  · rw [List.mem_append, not_or]
    exact ⟨fun hmem => hzero (List.eq_of_mem_replicate hmem), hdigits⟩
  · rw [List.cons_append, List.mem_cons, List.mem_append, not_or, not_or]
    exact ⟨hplus, fun hmem => hzero (List.eq_of_mem_replicate hmem), hdigits⟩

theorem parseChars?_padded (hbase : name.base ≠ "") (hcounter : name.counter < UInt64.size)
    {counterPadding enginePadding : List Char} (hpadding : IsPadding counterPadding)
    (hpadding' : IsPadding enginePadding) :
    parseChars? (name.padded counterPadding enginePadding) = some name := by
  obtain ⟨base, counter, ⟨engine⟩⟩ := name
  have hempty : base.toList.isEmpty = false := by
    simpa using hbase
  have hread : readWord (counterPadding ++ (toString counter).toList) =
      .ok (UInt64.ofNat counter) := by
    rw [readWord_eq_ok_iff]
    exact ⟨counterPadding, hpadding, by rw [UInt64.toNat_ofNat_of_lt' hcounter]⟩
  have hread' : readWord (enginePadding ++ (EngineId.mk engine).display.toList) = .ok engine :=
    readWord_eq_ok_iff.mpr ⟨enginePadding, hpadding', rfl⟩
  have hletter : 'r' ∉ counterPadding ++ (toString counter).toList ++
      '_' :: (enginePadding ++ (EngineId.mk engine).display.toList) := by
    rw [List.mem_append, List.mem_cons, not_or, not_or]
    exact ⟨notMem_number rfl (by decide) hpadding _, by decide,
      notMem_number rfl (by decide) hpadding' _⟩
  rw [padded, parseChars?, splitLast?_append hletter, Option.bind_eq_bind, Option.bind_some]
  simp only
  rw [splitFirst?_eq_some_iff.mpr ⟨notMem_number rfl (by decide) hpadding _, rfl⟩]
  simp only [Option.bind_some, Option.bind_eq_bind, hempty, hread, hread', Except.toOption,
    UInt64.toNat_ofNat_of_lt' hcounter, String.ofList_toList, Bool.false_eq_true, if_false]

theorem exists_padding_of_toOption {number : List Char} {word : UInt64}
    (h : (readWord number).toOption = some word) :
    ∃ padding, IsPadding padding ∧ number = padding ++ (toString word.toNat).toList := by
  cases hread : readWord number with
  | error error =>
      rw [hread] at h
      cases h
  | ok found =>
      rw [hread] at h
      obtain rfl := Option.some.inj h
      exact readWord_eq_ok_iff.mp hread

theorem exists_padded_of_parseChars? (h : parseChars? text = some name) :
    name.base ≠ "" ∧ name.counter < UInt64.size ∧
      ∃ counterPadding enginePadding, IsPadding counterPadding ∧ IsPadding enginePadding ∧
        text = name.padded counterPadding enginePadding := by
  simp only [parseChars?, Option.bind_eq_bind, Option.bind_eq_some_iff] at h
  obtain ⟨⟨base, rest⟩, hsplit, ⟨counter, engine⟩, hnumbers, h⟩ := h
  split at h
  · cases h
  · rename_i hbase
    simp only [Option.bind_eq_some_iff] at h
    obtain ⟨counterWord, hcounter, engineWord, hengine, hname⟩ := h
    obtain rfl := Option.some.inj hname
    obtain ⟨counterPadding, hpadding, rfl⟩ := exists_padding_of_toOption hcounter
    obtain ⟨enginePadding, hpadding', rfl⟩ := exists_padding_of_toOption hengine
    obtain ⟨-, rfl⟩ := splitFirst?_eq_some_iff.mp hnumbers
    refine ⟨?_, counterWord.toNat_lt_size, counterPadding, enginePadding, hpadding, hpadding', ?_⟩
    · intro hempty
      simp only at hempty
      rw [String.ofList_eq_empty_iff] at hempty
      exact hbase (List.isEmpty_iff.mpr hempty)
    · rw [eq_of_splitLast? hsplit, padded, String.toList_ofList]
      rfl

end Reading

/-- Names with a base and with a counter of 64 bits can be read back. -/
theorem parse?_display {name : ClassName} (hbase : name.base ≠ "")
    (hcounter : name.counter < UInt64.size) : parse? name.display = some name := by
  rw [parse?, toList_display]
  exact parseChars?_padded hbase hcounter isPadding_nil isPadding_nil

/-- A text reads as a name exactly if it is the name's own text up to padding of the two numbers, and
it is written again as that text exactly if there is no padding. -/
theorem parse?_up_to_padding (text : String) (name : ClassName) :
    (parse? text = some name ↔
      name.base ≠ "" ∧ name.counter < UInt64.size ∧
        ∃ counterPadding enginePadding, IsPadding counterPadding ∧ IsPadding enginePadding ∧
          text.toList = name.padded counterPadding enginePadding) ∧
    (∀ counterPadding enginePadding, name.padded counterPadding enginePadding = name.display.toList ↔
      counterPadding = [] ∧ enginePadding = []) := by
  refine ⟨⟨exists_padded_of_parseChars?, ?_⟩, ?_⟩
  · rintro ⟨hbase, hcounter, counterPadding, enginePadding, hpadding, hpadding', htext⟩
    rw [parse?, htext]
    exact parseChars?_padded hbase hcounter hpadding hpadding'
  · intro counterPadding enginePadding
    rw [toList_display, ← chars_eq_padded]
    exact name.padded_eq_chars_iff counterPadding enginePadding

/-- A plus sign is read and not written. -/
theorem plus_sign_not_kept :
    parse? "A_roled_+1_2" = some ⟨"A", 1, ⟨2⟩⟩ ∧
      (ClassName.mk "A" 1 ⟨2⟩).display ≠ "A_roled_+1_2" := by
  decide +kernel

end ClassName

end RoleStack
