import RoleStack.Identity
import Mathlib.Data.Nat.Digits.Lemmas

/-!
# The text of an agent's number

A text is read as an agent exactly if it has the 32 digits of the number, each in either case: by
themselves, hyphenated, hyphenated in braces, or hyphenated behind the name space. So the text that is
written for an agent is read as this agent.
-/

namespace RoleStack

/-! ### Hexadecimal digits -/

namespace Reader

variable {char : Char} {chars : List Char} {digit : Nat}

theorem hexDigit_lt (h : digit < 16) : (Json.hexDigit digit).toNat < 128 := by
  revert digit
  decide

theorem hexValue?_eq_none (h : 128 ≤ char.toNat) : hexValue? char = none := by
  have above (bound : Char) (hbound : bound.toNat < 128) : ¬char ≤ bound := fun hle => by
    have hle : char.toNat ≤ bound.toNat := by simpa using UInt32.le_iff_toNat_le.mp hle
    omega
  simp [hexValue?, above '9' (by decide), above 'f' (by decide), above 'F' (by decide)]

theorem toLower_eq_self (h : 128 ≤ char.toNat) : char.toLower = char := by
  refine dif_neg fun hupper => ?_
  have hle : char.toNat ≤ 90 := by simpa using UInt32.le_iff_toNat_le.mp hupper.2
  omega

theorem hexValue?_eq_some_iff :
    hexValue? char = some digit ↔ digit < 16 ∧ char.toLower = Json.hexDigit digit := by
  by_cases hascii : char.toNat < 128
  · have hvalue : ∀ code < 128, ∀ digit < 16, hexValue? (Char.ofNat code) = some digit ↔
        (Char.ofNat code).toLower = Json.hexDigit digit := by decide
    have hbound : ∀ code < 128, ∀ digit ∈ hexValue? (Char.ofNat code), digit < 16 := by decide
    have hvalue := hvalue char.toNat hascii
    have hbound := hbound char.toNat hascii
    rw [Char.ofNat_toNat] at hvalue hbound
    exact ⟨fun h => ⟨hbound digit h, (hvalue digit (hbound digit h)).mp h⟩,
      fun h => (hvalue digit h.1).mpr h.2⟩
  · rw [not_lt] at hascii
    rw [hexValue?_eq_none hascii, toLower_eq_self hascii]
    constructor
    · nofun
    · rintro ⟨hdigit, rfl⟩
      exact absurd (hexDigit_lt hdigit) (by omega)

theorem toLower_ne_of_isHexDigit (h : isHexDigit char = true) : char.toLower ≠ 'u' := by
  obtain ⟨digit, hvalue⟩ := Option.isSome_iff_exists.mp h
  obtain ⟨hdigit, hlower⟩ := hexValue?_eq_some_iff.mp hvalue
  have hdigits : ∀ digit < 16, Json.hexDigit digit ≠ 'u' := by decide
  rw [hlower]
  exact hdigits digit hdigit

/-- The values of the characters, where one that is no digit counts as zero. -/
def digitValues (chars : List Char) : List Nat :=
  chars.map fun char => (hexValue? char).getD 0

theorem digitsValue_eq_ofDigits (base : Nat) (chars : List Char) :
    digitsValue base chars = Nat.ofDigits base (digitValues chars).reverse := by
  rw [Nat.ofDigits_eq_foldr, List.foldr_reverse, digitValues, List.foldl_map]
  simp only [digitsValue, Nat.cast_id, Nat.add_comm]

theorem lt_of_mem_digitValues (hhex : ∀ char ∈ chars, isHexDigit char = true)
    (h : digit ∈ digitValues chars) : digit < 16 := by
  obtain ⟨char, hchar, rfl⟩ := List.mem_map.mp h
  obtain ⟨digit, hvalue⟩ := Option.isSome_iff_exists.mp (hhex char hchar)
  rw [hvalue]
  exact (hexValue?_eq_some_iff.mp hvalue).1

theorem map_toLower_eq (hhex : ∀ char ∈ chars, isHexDigit char = true) :
    chars.map Char.toLower = (digitValues chars).map Json.hexDigit := by
  rw [digitValues, List.map_map]
  refine List.map_congr_left fun char hchar => ?_
  obtain ⟨digit, hvalue⟩ := Option.isSome_iff_exists.mp (hhex char hchar)
  rw [Function.comp_apply, hvalue]
  exact (hexValue?_eq_some_iff.mp hvalue).2

theorem digitValues_of_map_toLower {values : List Nat} (hlt : ∀ value ∈ values, value < 16)
    (h : chars.map Char.toLower = values.map Json.hexDigit) :
    (∀ char ∈ chars, isHexDigit char = true) ∧ digitValues chars = values := by
  induction chars generalizing values with
  | nil =>
      obtain rfl := List.map_eq_nil_iff.mp h.symm
      exact ⟨nofun, rfl⟩
  | cons char rest ih =>
      obtain ⟨value, values, rfl⟩ := List.exists_cons_of_ne_nil (l := values) (by rintro rfl; cases h)
      obtain ⟨hvalue, hvalues⟩ := List.forall_mem_cons.mp hlt
      obtain ⟨hchar, hrest⟩ := List.cons.inj h
      have hread := hexValue?_eq_some_iff.mpr ⟨hvalue, hchar⟩
      obtain ⟨hhex, hsame⟩ := ih hvalues hrest
      refine ⟨List.forall_mem_cons.mpr ⟨by rw [isHexDigit, hread]; rfl, hhex⟩, ?_⟩
      rw [← hsame]
      simp only [digitValues, List.map_cons, hread, Option.getD_some]

end Reader

namespace AgentId

open Reader

variable {agent : AgentId} {digits text : List Char}

/-! ### The digits of a number -/

@[simp]
theorem length_digits (agent : AgentId) : agent.digits.length = 32 := by
  rw [digits, List.length_map, List.length_range]

theorem lt_of_mem_digits {digit : Nat} (h : digit ∈ agent.digits) : digit < 16 := by
  obtain ⟨place, -, rfl⟩ := List.mem_map.mp h
  exact Nat.mod_lt _ (by decide)

/-- The last `count` places of a number, the most significant first. -/
def places (count value : Nat) : List Nat :=
  (List.range count).map fun place => value / 16 ^ (count - 1 - place) % 16

theorem places_succ (count value : Nat) :
    places (count + 1) value = value / 16 ^ count % 16 :: places count value := by
  rw [places, List.range_succ_eq_map, List.map_cons, List.map_map]
  congr 1
  refine List.map_congr_left fun place _ => ?_
  simp only [Function.comp_apply, Nat.add_sub_cancel, Nat.sub_sub, Nat.add_comm 1 place]

theorem ofDigits_places (count value : Nat) :
    Nat.ofDigits 16 (places count value).reverse = value % 16 ^ count := by
  induction count with
  | zero => simp [places, Nat.mod_one]
  | succ count ih =>
      have hlength : (places count value).length = count := by simp [places]
      rw [places_succ, Nat.ofDigits_reverse_cons, ih, hlength, Nat.mod_pow_succ]

theorem ofDigits_digits (agent : AgentId) :
    Nat.ofDigits 16 agent.digits.reverse = agent.bits.toNat := by
  have hdigits : agent.digits = places 32 agent.bits.toNat := rfl
  rw [hdigits, ofDigits_places]
  exact Nat.mod_eq_of_lt agent.bits.isLt

theorem eq_digits_of_ofDigits {digits : List Nat} (hlength : digits.length = 32)
    (hlt : ∀ digit ∈ digits, digit < 16)
    (hvalue : Nat.ofDigits 16 digits.reverse = agent.bits.toNat) : digits = agent.digits := by
  rw [← List.reverse_inj]
  refine Nat.ofDigits_inj_of_len_eq (b := 16) (by decide) ?_ ?_ ?_ ?_
  · rw [List.length_reverse, List.length_reverse, hlength, length_digits]
  · exact fun digit h => hlt digit (List.mem_reverse.mp h)
  · exact fun digit h => lt_of_mem_digits (List.mem_reverse.mp h)
  · rw [hvalue, ofDigits_digits]

/-- The digits of the agent's number, each in either case. -/
def HasDigits (agent : AgentId) (digits : List Char) : Prop :=
  digits.map Char.toLower = agent.digits.map Json.hexDigit

theorem HasDigits.length_eq (h : agent.HasDigits digits) : digits.length = 32 := by
  simpa using congrArg List.length h

theorem hasDigits_iff : agent.HasDigits digits ↔
    (∀ char ∈ digits, isHexDigit char = true) ∧ digitValues digits = agent.digits := by
  constructor
  · exact digitValues_of_map_toLower fun digit => lt_of_mem_digits
  · rintro ⟨hhex, hvalues⟩
    rw [HasDigits, map_toLower_eq hhex, hvalues]

theorem ofDigits_eq_some_iff : ofDigits digits = some agent ↔ agent.HasDigits digits := by
  constructor
  · intro h
    rw [ofDigits] at h
    split at h
    · rename_i hform
      obtain ⟨hlength, hhex⟩ := hform
      rw [List.all_eq_true] at hhex
      obtain rfl := Option.some.inj h
      have hlt : ∀ digit ∈ digitValues digits, digit < 16 := fun digit => lt_of_mem_digitValues hhex
      have hvalues : (digitValues digits).length = 32 := by rw [digitValues, List.length_map, hlength]
      refine hasDigits_iff.mpr ⟨hhex, eq_digits_of_ofDigits hvalues hlt ?_⟩
      have hsmall : digitsValue 16 digits < 2 ^ 128 := by
        rw [digitsValue_eq_ofDigits]
        calc Nat.ofDigits 16 (digitValues digits).reverse
            < 16 ^ (digitValues digits).reverse.length :=
              Nat.ofDigits_lt_base_pow_length (by decide) fun digit hmem =>
                hlt digit (List.mem_reverse.mp hmem)
          _ = 2 ^ 128 := by
            rw [List.length_reverse, hvalues]
            norm_num
      rw [← digitsValue_eq_ofDigits, BitVec.toNat_ofNat, Nat.mod_eq_of_lt hsmall]
    · cases h
  · intro h
    obtain ⟨hhex, hvalues⟩ := hasDigits_iff.mp h
    rw [ofDigits, if_pos ⟨h.length_eq, List.all_eq_true.mpr hhex⟩, digitsValue_eq_ofDigits, hvalues,
      ofDigits_digits, BitVec.ofNat_toNat, BitVec.setWidth_eq]

/-! ### Hyphens -/

/-- The digits with hyphens after 8, 12, 16 and 20 of them. -/
def hyphenate (digits : List Char) : List Char :=
  let group (start size : Nat) : List Char := (digits.drop start).take size
  ['-'].intercalate [group 0 8, group 8 4, group 12 4, group 16 4, group 20 12]

theorem toList_text (agent : AgentId) :
    agent.text.toList = hyphenate (agent.digits.map Json.hexDigit) := by
  simp only [text, hyphenate, String.toList_intercalate, List.map_cons, List.map_nil,
    String.toList_ofList]
  rfl

/-- The groups between the hyphens. -/
structure Groups where
  first : List Char
  second : List Char
  third : List Char
  fourth : List Char
  fifth : List Char
  length_first : first.length = 8
  length_second : second.length = 4
  length_third : third.length = 4
  length_fourth : fourth.length = 4
  length_fifth : fifth.length = 12

namespace Groups

attribute [simp] length_first length_second length_third length_fourth length_fifth

def joined (groups : Groups) : List Char :=
  groups.first ++ (groups.second ++ (groups.third ++ (groups.fourth ++ groups.fifth)))

def hyphenated (groups : Groups) : List Char :=
  groups.first ++ '-' :: (groups.second ++ '-' ::
    (groups.third ++ '-' :: (groups.fourth ++ '-' :: groups.fifth)))

theorem exists_joined_eq (h : digits.length = 32) : ∃ groups : Groups, groups.joined = digits := by
  have cut (start size : Nat) :
      (digits.drop start).take size ++ digits.drop (start + size) = digits.drop start := by
    rw [← List.drop_drop, List.take_append_drop]
  refine ⟨⟨digits.take 8, (digits.drop 8).take 4, (digits.drop 12).take 4, (digits.drop 16).take 4,
    digits.drop 20, ?_, ?_, ?_, ?_, ?_⟩, ?_⟩
  case refine_6 => simp only [joined, cut, List.take_append_drop]
  all_goals simp [h]

theorem exists_hyphenated_eq (hlength : text.length = 36) (hfirst : text[8]? = some '-')
    (hsecond : text[13]? = some '-') (hthird : text[18]? = some '-')
    (hfourth : text[23]? = some '-') : ∃ groups : Groups, groups.hyphenated = text := by
  have cut (start size : Nat) (hhyphen : text[start + size]? = some '-') :
      (text.drop start).take size ++ '-' :: text.drop (start + size + 1) = text.drop start := by
    obtain ⟨hlt, hchar⟩ := List.getElem?_eq_some_iff.mp hhyphen
    rw [← hchar, ← List.drop_eq_getElem_cons hlt, ← List.drop_drop, List.take_append_drop]
  refine ⟨⟨(text.drop 0).take 8, (text.drop 9).take 4, (text.drop 14).take 4,
    (text.drop 19).take 4, text.drop 24, ?_, ?_, ?_, ?_, ?_⟩, ?_⟩
  case refine_6 =>
    rw [hyphenated, cut 19 4 hfourth, cut 14 4 hthird, cut 9 4 hsecond, cut 0 8 hfirst,
      List.drop_zero]
  all_goals simp [hlength]

theorem hyphenate_joined (groups : Groups) : hyphenate groups.joined = groups.hyphenated := by
  simp [hyphenate, joined, hyphenated, List.drop_append, List.take_of_length_le,
    List.drop_of_length_le]

theorem ofHyphenated_hyphenated (groups : Groups) :
    ofHyphenated groups.hyphenated = ofDigits groups.joined := by
  simp [ofHyphenated, hyphenated, joined, List.drop_append, List.take_of_length_le,
    List.drop_of_length_le]

end Groups

theorem ofHyphenated_eq_some_iff :
    ofHyphenated text = some agent ↔ ∃ digits, agent.HasDigits digits ∧ text = hyphenate digits := by
  constructor
  · intro h
    obtain ⟨groups, rfl⟩ : ∃ groups : Groups, groups.hyphenated = text := by
      rw [ofHyphenated] at h
      split at h
      · rename_i hform
        obtain ⟨hlength, hfirst, hsecond, hthird, hfourth⟩ := hform
        exact Groups.exists_hyphenated_eq hlength hfirst hsecond hthird hfourth
      · cases h
    rw [Groups.ofHyphenated_hyphenated, ofDigits_eq_some_iff] at h
    exact ⟨groups.joined, h, groups.hyphenate_joined.symm⟩
  · rintro ⟨digits, hdigits, rfl⟩
    obtain ⟨groups, rfl⟩ := Groups.exists_joined_eq hdigits.length_eq
    rw [Groups.hyphenate_joined, Groups.ofHyphenated_hyphenated, ofDigits_eq_some_iff]
    exact hdigits

/-! ### Spellings -/

/-- The texts that stand for the agent. -/
inductive Spelling (agent : AgentId) : List Char → Prop where
  | plain {digits : List Char} (h : agent.HasDigits digits) : Spelling agent digits
  | hyphenated {digits : List Char} (h : agent.HasDigits digits) :
      Spelling agent (hyphenate digits)
  | braced {digits : List Char} (h : agent.HasDigits digits) :
      Spelling agent ('\x7b' :: hyphenate digits ++ ['\x7d'])
  /-- The name space may be written in either case too. -/
  | named {space digits : List Char} (hspace : space.map Char.toLower = nameSpace)
      (h : agent.HasDigits digits) : Spelling agent (space ++ hyphenate digits)

theorem length_hyphenate (h : digits.length = 32) : (hyphenate digits).length = 36 := by
  obtain ⟨groups, rfl⟩ := Groups.exists_joined_eq h
  simp [Groups.hyphenate_joined, Groups.hyphenated]

theorem HasDigits.exists_hyphenate_eq (h : agent.HasDigits digits) :
    ∃ char rest, hyphenate digits = char :: rest ∧ isHexDigit char = true := by
  obtain ⟨groups, rfl⟩ := Groups.exists_joined_eq h.length_eq
  obtain ⟨char, rest, hfirst⟩ := List.exists_cons_of_length_eq_add_one groups.length_first
  have hhex : isHexDigit char = true :=
    (hasDigits_iff.mp h).1 char (by simp [Groups.joined, hfirst])
  rw [Groups.hyphenate_joined, Groups.hyphenated, hfirst]
  exact ⟨char, _, rfl, hhex⟩

theorem length_of_map_toLower {space : List Char} (h : space.map Char.toLower = nameSpace) :
    space.length = nameSpace.length := by
  rw [← h, List.length_map]

/-- A text without an opening brace. -/
theorem parse?_of_not_braced {text : String} (h : ∀ rest, text.toList ≠ '\x7b' :: rest) :
    parse? text =
      if text.toList.length = 32 then ofDigits text.toList
      else if (text.toList.take nameSpace.length).map Char.toLower = nameSpace then
        ofHyphenated (text.toList.drop nameSpace.length)
      else ofHyphenated text.toList := by
  rw [parse?]
  split
  · rename_i rest hbrace
    exact absurd hbrace (h rest)
  · rfl

theorem spelling_of_parse? {text : String} (h : parse? text = some agent) :
    agent.Spelling text.toList := by
  by_cases hbrace : ∃ rest, text.toList = '\x7b' :: rest
  · obtain ⟨rest, hbrace⟩ := hbrace
    rw [parse?, hbrace] at h
    split at h
    · rename_i opened hopened
      obtain rfl := (List.cons.inj hopened).2
      split at h
      · rename_i hlast
        obtain ⟨digits, hdigits, hrest⟩ := ofHyphenated_eq_some_iff.mp h
        rw [hbrace, ← List.dropLast_append_getLast? _ hlast, hrest]
        exact .braced hdigits
      · cases h
    · rename_i hother
      exact absurd rfl (hother rest)
  · rw [not_exists] at hbrace
    rw [parse?_of_not_braced hbrace] at h
    split at h
    · exact .plain (ofDigits_eq_some_iff.mp h)
    · split at h
      · rename_i hspace
        obtain ⟨digits, hdigits, hrest⟩ := ofHyphenated_eq_some_iff.mp h
        rw [← List.take_append_drop nameSpace.length text.toList, hrest]
        exact .named hspace hdigits
      · obtain ⟨digits, hdigits, htext⟩ := ofHyphenated_eq_some_iff.mp h
        rw [htext]
        exact .hyphenated hdigits

theorem parse?_of_spelling {text : String} (h : agent.Spelling text.toList) :
    parse? text = some agent := by
  generalize hchars : text.toList = chars at h
  cases h with
  | plain hdigits =>
      have hopening : ∀ rest, text.toList ≠ '\x7b' :: rest := by
        rw [hchars]
        rintro rest rfl
        exact absurd ((hasDigits_iff.mp hdigits).1 '\x7b' (by simp)) (by decide)
      rw [parse?_of_not_braced hopening, hchars, if_pos hdigits.length_eq, ofDigits_eq_some_iff]
      exact hdigits
  | @hyphenated digits hdigits =>
      obtain ⟨char, rest, htext, hhex⟩ := hdigits.exists_hyphenate_eq
      have hopening : ∀ rest, text.toList ≠ '\x7b' :: rest := by
        rw [hchars, htext]
        rintro rest hsame
        obtain rfl := (List.cons.inj hsame).1
        exact absurd hhex (by decide)
      have hlength : (hyphenate digits).length ≠ 32 := by
        rw [length_hyphenate hdigits.length_eq]
        decide
      have hspace : ((hyphenate digits).take nameSpace.length).map Char.toLower ≠ nameSpace := by
        rw [htext]
        exact fun hsame => toLower_ne_of_isHexDigit hhex (List.cons.inj hsame).1
      rw [parse?_of_not_braced hopening, hchars, if_neg hlength, if_neg hspace,
        ofHyphenated_eq_some_iff]
      exact ⟨digits, hdigits, rfl⟩
  | @braced digits hdigits =>
      rw [parse?, hchars]
      simp only [List.cons_append, List.getLast?_concat, List.dropLast_concat, if_true,
        ofHyphenated_eq_some_iff]
      exact ⟨digits, hdigits, rfl⟩
  | @named space digits hspace hdigits =>
      have hopening : ∀ rest, text.toList ≠ '\x7b' :: rest := by
        obtain ⟨char, tail, rfl⟩ := List.exists_cons_of_length_eq_add_one
          (length_of_map_toLower hspace)
        rw [hchars]
        rintro rest hsame
        obtain rfl := (List.cons.inj hsame).1
        exact absurd (List.cons.inj hspace).1 (by decide)
      have hlength : (space ++ hyphenate digits).length ≠ 32 := by
        rw [List.length_append, length_hyphenate hdigits.length_eq]
        omega
      rw [parse?_of_not_braced hopening, hchars, if_neg hlength,
        List.take_left' (length_of_map_toLower hspace), if_pos hspace,
        List.drop_left' (length_of_map_toLower hspace), ofHyphenated_eq_some_iff]
      exact ⟨digits, hdigits, rfl⟩

theorem parse?_eq_some_iff {text : String} :
    parse? text = some agent ↔ agent.Spelling text.toList :=
  ⟨spelling_of_parse?, parse?_of_spelling⟩

theorem hasDigits_digits (agent : AgentId) :
    agent.HasDigits (agent.digits.map Json.hexDigit) := by
  have hlower : ∀ digit < 16, (Json.hexDigit digit).toLower = Json.hexDigit digit := by decide
  rw [HasDigits, List.map_map]
  exact List.map_congr_left fun digit hmem => hlower digit (lt_of_mem_digits hmem)

theorem parse?_text (agent : AgentId) : parse? agent.text = some agent := by
  rw [parse?_eq_some_iff, toList_text]
  exact .hyphenated agent.hasDigits_digits

end AgentId

end RoleStack
