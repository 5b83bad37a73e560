import Mathlib.Data.Nat.Digits.Lemmas
import Blueprint.Json.Printer
import Blueprint.Json.Reader
import Blueprint.Proofs.Token.Spelled

/-!
# Reading what was written

A value that is written on one line is read back as it was, whatever follows it: every text
character by character through its escapes, every whole number digit by digit, lists and objects
item by item and member by member in their order. Numbers that are kept as they are written are left
out.
-/

namespace Blueprint.Json

open Blueprint.Text

variable {rest : List Char}

/-! ## Texts -/

/-- A character is read back from the way it is written. -/
theorem readText_escapedChar (c : Char) (rest : List Char) :
    readText (escapedChar c ++ rest) = (readText rest).map fun read => (c :: read.1, read.2) := by
  have hshort : ∀ mark written : Char, mark ≠ 'u' → shortEscape? mark = some written →
      readText ('\\' :: mark :: rest) =
        (readText rest).map fun read => (written :: read.1, read.2) := by
    intro mark written hu he
    rw [readText]
    · rw [he]
      cases readText rest <;> rfl
    · exact fun _ _ _ _ _ hm _ => hu hm
  unfold escapedChar
  split
  · rename_i h
    exact h ▸ hshort '"' '"' (by decide) rfl
  split
  · rename_i h
    exact h ▸ hshort '\\' '\\' (by decide) rfl
  split
  · rename_i h
    exact h ▸ hshort 'n' '\n' (by decide) rfl
  split
  · rename_i h
    exact h ▸ hshort 'r' '\r' (by decide) rfl
  split
  · rename_i h
    exact h ▸ hshort 't' '\t' (by decide) rfl
  split
  · rename_i h
    exact h ▸ hshort 'b' '\x08' (by decide) rfl
  split
  · rename_i h
    exact h ▸ hshort 'f' '\x0c' (by decide) rfl
  split
  · rename_i h
    have hn : Literal.hexNumber? (CodePoint.hexDigits 4 c.toNat) = some c.toNat :=
      Literal.hexNumber?_of_isNumeral (by omega) (Literal.isNumeral_hexDigits 4 c.toNat)
    have hsurrogate : ¬(0xD800 ≤ c.toNat ∧ c.toNat < 0xE000) := by omega
    simp only [CodePoint.hexDigits, List.nil_append, List.cons_append] at hn
    simp only [unitEscape, CodePoint.hexDigits, List.nil_append, List.cons_append]
    rw [readText, hn]
    simp only [if_neg hsurrogate, Char.ofNat_toNat]
    cases readText rest <;> rfl
  · rename_i hquote hslash _ _ _ _ _ hcontrol
    rw [List.singleton_append, readText]
    · rw [if_neg hcontrol]
      cases readText rest <;> rfl
    · exact hquote
    · exact fun _ _ _ _ _ he _ => hslash he
    · exact fun _ _ he _ => hslash he

/-- A text is read back from the way it is written. -/
theorem readText_quoted (text rest : List Char) :
    readText (text.flatMap escapedChar ++ '"' :: rest) = some (text, rest) := by
  induction text with
  | nil => rfl
  | cons c text ih =>
    rw [List.flatMap_cons, List.append_assoc, readText_escapedChar, ih]
    rfl

/-! ## Numbers -/

/-- What may follow a value inside of another one, or nothing. -/
def Ends (rest : List Char) : Prop :=
  ∀ c ∈ rest.head?, c = ',' ∨ c = ']' ∨ c = '}'

/-- Nothing follows the last value. -/
theorem ends_nil : Ends [] := nofun

/-- A comma follows a value. -/
theorem ends_comma (rest : List Char) : Ends (',' :: rest) := by
  rintro c ⟨⟩
  exact .inl rfl

/-- The end of a list follows a value. -/
theorem ends_bracket (rest : List Char) : Ends (']' :: rest) := by
  rintro c ⟨⟩
  exact .inr (.inl rfl)

/-- The end of an object follows a value. -/
theorem ends_brace (rest : List Char) : Ends ('}' :: rest) := by
  rintro c ⟨⟩
  exact .inr (.inr rfl)

/-- No digits follow a value. -/
theorem Ends.readDigits (hr : Ends rest) {digits : List Char}
    (hd : ∀ c ∈ digits, c.isDigit = true) : readDigits (digits ++ rest) = (digits, rest) := by
  have htake : rest.takeWhile Char.isDigit = [] ∧ rest.dropWhile Char.isDigit = rest := by
    cases rest with
    | nil => exact ⟨rfl, rfl⟩
    | cons c rest =>
      have hc : c.isDigit = false := by
        rcases hr c rfl with rfl | rfl | rfl <;> rfl
      simp [hc]
  unfold Json.readDigits
  rw [List.takeWhile_append_of_pos hd, List.dropWhile_append_of_pos hd, htake.1, htake.2,
    List.append_nil]

/-- No fraction follows a value. -/
theorem Ends.readFraction (hr : Ends rest) : readFraction rest = some ([], rest) := by
  cases rest with
  | nil => rfl
  | cons c rest => rcases hr c rfl with rfl | rfl | rfl <;> rfl

/-- No exponent follows a value. -/
theorem Ends.readExponent (hr : Ends rest) : readExponent rest = some ([], rest) := by
  cases rest with
  | nil => rfl
  | cons c rest => rcases hr c rfl with rfl | rfl | rfl <;> rfl

/-- The decimal digits of a number other than zero do not start with a zero. -/
theorem head?_toDigits_ne {n : Nat} (h : 0 < n) : (Nat.toDigits 10 n).head? ≠ some '0' := by
  induction n using Nat.strongRecOn with
  | ind n ih =>
    by_cases hn : n < 10
    · rw [Nat.toDigits_of_lt_base hn]
      interval_cases n <;> decide
    · have hq : 0 < n / 10 := Nat.div_pos (by omega) (by decide)
      obtain ⟨c, more, he⟩ := List.exists_cons_of_ne_nil
        (Nat.toDigits_ne_nil (n := n / 10) (b := 10))
      have hi := ih (n / 10) (by omega) hq
      rw [Nat.toDigits_of_base_le (by decide) (by omega), he]
      rw [he] at hi
      exact hi

/-- The decimal digits of a number are in order. -/
theorem wholeDigitsFit_toDigits (n : Nat) : wholeDigitsFit (Nat.toDigits 10 n) = true := by
  rcases Nat.eq_zero_or_pos n with rfl | hn
  · decide
  · have hh := head?_toDigits_ne hn
    obtain ⟨c, more, he⟩ := List.exists_cons_of_ne_nil (Nat.toDigits_ne_nil (n := n) (b := 10))
    rw [he] at hh ⊢
    have hc : c ≠ '0' := fun h => hh (congrArg some h)
    unfold wholeDigitsFit
    split <;> simp_all

/-- A number is read back from its decimal digits. -/
theorem ofDigits_toDigits (n : Nat) :
    Number.ofDigits 10 ((Nat.toDigits 10 n).map fun c => c.toNat - 48) = n := by
  calc
    Number.ofDigits 10 ((Nat.toDigits 10 n).map fun c => c.toNat - 48) =
        Nat.ofDigitChars 10 (Nat.toDigits 10 n) 0 := by
      simp only [Number.ofDigits, List.foldl_map, Nat.ofDigitChars, Nat.mul_comm 10]
      rfl
    _ = n := Nat.ofDigitChars_ten_toDigits

/-- A number is read back from its decimal digits, with or without a sign before them. -/
theorem readNumber_integerText (value : Int) (hr : Ends rest) :
    readNumber (integerText value ++ rest) = some (.number value, rest) := by
  have hdigits : ∀ c ∈ Nat.toDigits 10 value.natAbs, c.isDigit = true := fun c hc =>
    Nat.isDigit_of_mem_toDigits (by decide) (by decide) hc
  have hread := hr.readDigits hdigits
  unfold integerText
  by_cases hv : value < 0
  · have he : -|value| = value := by rw [abs_of_neg hv, neg_neg]
    rw [if_pos hv, List.cons_append, readNumber]
    simp only [hread, wholeDigitsFit_toDigits, guard, hr.readFraction, ofDigits_toDigits]
    simp [hr.readExponent, he]
  · have he : ((value.natAbs : Nat) : Int) = value := by omega
    rw [if_neg hv, readNumber]
    · simp only [hread, wholeDigitsFit_toDigits, guard, hr.readFraction, ofDigits_toDigits]
      simp [hr.readExponent, he]
    · intro more hm
      obtain ⟨c, digits, hc⟩ := List.exists_cons_of_ne_nil
        (Nat.toDigits_ne_nil (n := value.natAbs) (b := 10))
      rw [hc, List.cons_append] at hm
      have hsign := hdigits c (hc ▸ List.mem_cons_self)
      rw [(List.cons.inj hm).1] at hsign
      cases hsign

/-! ## Values -/

mutual

/-- Whether all numbers in a value are whole. -/
def isWhole : Json → Bool
  | .decimal _ => false
  | .array items => areWhole items
  | .object members => haveWhole members
  | .null | .bool _ | .number _ | .string _ => true

/-- Whether all numbers in some values are whole. -/
def areWhole : List Json → Bool
  | [] => true
  | item :: items => item.isWhole && areWhole items

/-- Whether all numbers in the values of some members are whole. -/
def haveWhole : List (String × Json) → Bool
  | [] => true
  | (_, value) :: members => value.isWhole && haveWhole members

end

/-- How a value starts: with no blank and not with the end of a list. -/
def Starts (c : Char) : Prop := isGap c = false ∧ c ≠ ']'

/-- A digit starts a value. -/
theorem starts_of_isDigit {c : Char} (h : c.isDigit = true) : Starts c := by
  have hne : ∀ other : Char, other.isDigit = false → c ≠ other := by
    rintro other ho rfl
    rw [h] at ho
    cases ho
  refine ⟨?_, hne ']' rfl⟩
  simp only [isGap, Bool.or_eq_false_iff, beq_eq_false_iff_ne]
  exact ⟨⟨⟨hne ' ' rfl, hne '\t' rfl⟩, hne '\n' rfl⟩, hne '\r' rfl⟩

/-- A whole number starts with its sign or a digit. -/
theorem integerText_head (value : Int) :
    ∃ c more, integerText value = c :: more ∧ (c = '-' ∨ c.isDigit = true) := by
  unfold integerText
  split
  · exact ⟨'-', _, rfl, .inl rfl⟩
  · obtain ⟨c, more, he⟩ := List.exists_cons_of_ne_nil
      (Nat.toDigits_ne_nil (n := value.natAbs) (b := 10))
    exact ⟨c, more, he, .inr (Nat.isDigit_of_mem_toDigits (by decide) (by decide)
      (he ▸ List.mem_cons_self))⟩

/-- A value starts as values do. -/
theorem compact_head {value : Json} (hw : value.isWhole = true) :
    ∃ c more, compact escapedChar value = c :: more ∧ Starts c := by
  match value with
  | .null | .bool true | .bool false | .string _ | .array [] | .array (_ :: _) | .object []
  | .object ((_, _) :: _) => exact ⟨_, _, rfl, rfl, by decide⟩
  | .number value =>
    obtain ⟨c, more, he, hc⟩ := integerText_head value
    refine ⟨c, more, he, ?_⟩
    rcases hc with rfl | hd
    · exact ⟨rfl, by decide⟩
    · exact starts_of_isDigit hd

/-- No blanks come before a value. -/
theorem skipGaps_compact {value : Json} (hw : value.isWhole = true) (rest : List Char) :
    skipGaps (compact escapedChar value ++ rest) = compact escapedChar value ++ rest := by
  obtain ⟨c, more, he, hc⟩ := compact_head hw
  rw [he, List.cons_append, skipGaps, List.dropWhile_cons_of_neg]
  rw [hc.1]
  decide

/-- A value has a character. -/
theorem compact_pos {value : Json} (hw : value.isWhole = true) :
    0 < (compact escapedChar value).length := by
  obtain ⟨c, more, he, -⟩ := compact_head hw
  rw [he]
  exact Nat.succ_pos _

/-- The end of a list is written with a character. -/
theorem compactItems_pos (items : List Json) : 0 < (compactItems escapedChar items).length := by
  cases items <;> exact Nat.succ_pos _

/-- The end of an object is written with a character. -/
theorem compactMembers_pos (members : List (String × Json)) :
    0 < (compactMembers escapedChar members).length := by
  match members with
  | [] | (_, _) :: _ => exact Nat.succ_pos _

/-- What follows an item of a list ends it. -/
theorem ends_compactItems (items : List Json) (rest : List Char) :
    Ends (compactItems escapedChar items ++ rest) := by
  cases items with
  | nil => exact ends_bracket rest
  | cons => exact ends_comma _

/-- What follows a member of an object ends it. -/
theorem ends_compactMembers (members : List (String × Json)) (rest : List Char) :
    Ends (compactMembers escapedChar members ++ rest) := by
  match members with
  | [] => exact ends_brace rest
  | (_, _) :: _ => exact ends_comma _

/-- A whole number is read as one. -/
theorem readValue_integerText (value : Int) (steps : Nat) (hr : Ends rest) :
    readValue (steps + 1) (integerText value ++ rest) = some (.number value, rest) := by
  have hskip : skipGaps (integerText value ++ rest) = integerText value ++ rest :=
    skipGaps_compact (rfl : (Json.number value).isWhole = true) rest
  have hread := readNumber_integerText value hr
  obtain ⟨c, more, he, hc⟩ := integerText_head value
  rw [readValue, hskip]
  rw [he, List.cons_append] at hread ⊢
  -- The other sorts of values start with other characters.
  have hne : ∀ other : Char, other ≠ '-' → other.isDigit = false → c ≠ other := by
    rintro other hs ho rfl
    rcases hc with rfl | hd
    · exact hs rfl
    · rw [ho] at hd
      cases hd
  split
  · rename_i h
    exact absurd (List.cons.inj h).1 (hne '{' (by decide) rfl)
  · rename_i h
    exact absurd (List.cons.inj h).1 (hne '[' (by decide) rfl)
  · rename_i h
    exact absurd (List.cons.inj h).1 (hne '"' (by decide) rfl)
  · rename_i h
    exact absurd (List.cons.inj h).1 (hne 'n' (by decide) rfl)
  · rename_i h
    exact absurd (List.cons.inj h).1 (hne 't' (by decide) rfl)
  · rename_i h
    exact absurd (List.cons.inj h).1 (hne 'f' (by decide) rfl)
  · exact hread

/-- A text is read as one. -/
theorem readValue_quoted (text : String) (steps : Nat) (rest : List Char) :
    readValue (steps + 1) (quoted escapedChar text ++ rest) = some (.string text, rest) := by
  have hread := readText_quoted text.toList rest
  have hskip : skipGaps (quoted escapedChar text ++ rest) = quoted escapedChar text ++ rest := rfl
  have he : quoted escapedChar text ++ rest =
      '"' :: (text.toList.flatMap escapedChar ++ '"' :: rest) := by simp [quoted]
  rw [readValue, hskip, he]
  simp [hread]

/-- In so many steps, values of no more characters are read back. -/
def RereadsValues (steps : Nat) : Prop :=
  ∀ (value : Json) (rest : List Char), value.isWhole = true →
    (compact escapedChar value).length ≤ steps → Ends rest →
    readValue steps (compact escapedChar value ++ rest) = some (value, rest)

/-- In so many steps, the items of lists are read back if they have no more characters. -/
def RereadsItems (steps : Nat) : Prop :=
  ∀ (item : Json) (items : List Json) (rest : List Char), areWhole (item :: items) = true →
    (compact escapedChar item).length + (compactItems escapedChar items).length ≤ steps →
    readItems steps (compact escapedChar item ++ (compactItems escapedChar items ++ rest)) =
      some (item :: items, rest)

/-- In so many steps, the members of objects are read back if they have no more characters. -/
def RereadsMembers (steps : Nat) : Prop :=
  ∀ (name : String) (value : Json) (members : List (String × Json)) (rest : List Char),
    haveWhole ((name, value) :: members) = true →
    (compact escapedChar value).length + (compactMembers escapedChar members).length ≤ steps →
    readMembers steps
        (quoted escapedChar name ++ ':' :: (compact escapedChar value ++
          (compactMembers escapedChar members ++ rest))) =
      some ((name, value) :: members, rest)

variable {steps : Nat}

/-- With one more step a value is read back from its items or members. -/
theorem rereadsValues_succ (hi : RereadsItems steps) (hm : RereadsMembers steps) :
    RereadsValues (steps + 1) := by
  intro value rest hw hs hr
  match value with
  | .null | .bool true | .bool false | .array [] | .object [] =>
    rw [readValue, skipGaps_compact hw]
    rfl
  | .string text => exact readValue_quoted text steps rest
  | .number value => exact readValue_integerText value steps hr
  | .array (item :: items) =>
    have hl : (compact escapedChar item).length + (compactItems escapedChar items).length ≤
        steps := by
      simp only [compact, List.length_cons, List.length_append] at hs
      omega
    have hread := hi item items rest hw hl
    have hw' : item.isWhole = true := (Bool.and_eq_true_iff.mp hw).1
    obtain ⟨c, more, he, hc⟩ := compact_head hw'
    rw [readValue, skipGaps_compact hw]
    simp only [compact, List.cons_append, List.append_assoc]
    rw [skipGaps_compact hw']
    rw [he, List.cons_append] at hread ⊢
    split
    · rename_i hend
      exact absurd (List.cons.inj hend).1 hc.2
    · rw [hread]
      rfl
  | .object ((name, value) :: members) =>
    have hl : (compact escapedChar value).length +
        (compactMembers escapedChar members).length ≤ steps := by
      simp only [compact, List.length_cons, List.length_append] at hs
      omega
    have hread := hm name value members rest hw hl
    rw [readValue, skipGaps_compact hw]
    simp only [compact, List.cons_append, List.append_assoc]
    show (readMembers steps (quoted escapedChar name ++ _)).bind _ = _
    rw [hread]
    rfl

/-- With one more step the items of a list are read back from the first of them. -/
theorem rereadsItems_succ (hv : RereadsValues steps) (hi : RereadsItems steps) :
    RereadsItems (steps + 1) := by
  intro item items rest hw hs
  obtain ⟨hitem, hitems⟩ := Bool.and_eq_true_iff.mp hw
  have hpos := compactItems_pos items
  rw [readItems, hv item _ hitem (by omega) (ends_compactItems items rest)]
  match items with
  | [] => rfl
  | next :: items =>
    have hl : (compact escapedChar next).length + (compactItems escapedChar items).length ≤
        steps := by
      simp only [compactItems, List.length_cons, List.length_append] at hs
      omega
    have hread := hi next items rest hitems hl
    simp only [compactItems, List.cons_append, List.append_assoc]
    show (readItems steps _).bind _ = _
    rw [hread]
    rfl

/-- With one more step the members of an object are read back from the first of them. -/
theorem rereadsMembers_succ (hv : RereadsValues steps) (hm : RereadsMembers steps) :
    RereadsMembers (steps + 1) := by
  intro name value members rest hw hs
  obtain ⟨hvalue, hmembers⟩ := Bool.and_eq_true_iff.mp hw
  have hpos := compactMembers_pos members
  have hquoted : quoted escapedChar name ++ ':' :: (compact escapedChar value ++
        (compactMembers escapedChar members ++ rest)) =
      '"' :: (name.toList.flatMap escapedChar ++ '"' :: ':' :: (compact escapedChar value ++
        (compactMembers escapedChar members ++ rest))) := by simp [quoted]
  rw [readMembers, hquoted]
  show (readText _).bind _ = _
  rw [readText_quoted]
  show (readValue steps _).bind _ = _
  rw [hv value _ hvalue (by omega) (ends_compactMembers members rest)]
  match members with
  | [] =>
    show some ([(String.ofList name.toList, value)], rest) = _
    rw [String.ofList_toList]
  | (other, next) :: members =>
    have hl : (compact escapedChar next).length +
        (compactMembers escapedChar members).length ≤ steps := by
      simp only [compactMembers, List.length_cons, List.length_append] at hs
      omega
    have hread := hm other next members rest hmembers hl
    simp only [compactMembers, List.cons_append, List.append_assoc]
    show (readMembers steps _).bind _ = _
    rw [hread]
    show some ((String.ofList name.toList, value) :: _, rest) = _
    rw [String.ofList_toList]

/-- Everything is read back in as many steps as it has characters. -/
theorem rereads (steps : Nat) :
    RereadsValues steps ∧ RereadsItems steps ∧ RereadsMembers steps := by
  induction steps with
  | zero =>
    refine ⟨fun value rest hw hs => ?_, fun item items rest _ hs => ?_,
      fun name value members rest _ hs => ?_⟩
    · have := compact_pos hw
      omega
    · have := compactItems_pos items
      omega
    · have := compactMembers_pos members
      omega
  | succ steps ih =>
    obtain ⟨hv, hi, hm⟩ := ih
    exact ⟨rereadsValues_succ hi hm, rereadsItems_succ hv hi, rereadsMembers_succ hv hm⟩

/-- A value is read back from its text. -/
theorem parse?_render {value : Json} (hw : value.isWhole = true) :
    parse? value.render = some value := by
  have htext : value.render.toList = compact escapedChar value := String.toList_ofList
  have hs : (compact escapedChar value).length ≤ 2 * value.render.length + 2 := by
    rw [← htext, String.length_toList]
    omega
  have hread := (rereads _).1 value [] hw hs ends_nil
  rw [List.append_nil] at hread
  rw [parse?, htext, hread]
  rfl

end Blueprint.Json
