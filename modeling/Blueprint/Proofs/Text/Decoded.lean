import Mathlib.Data.List.Basic
import Mathlib.Data.List.TakeWhile
import Blueprint.Text.Utf8

/-!
# What is decoded as UTF-8

Octets are decoded exactly if they are the UTF-8 form of some text, and then that text is what they
are decoded to. The form of a character has one octet, or a first octet that tells how many there
are, a second one that fits it, and octets that continue the character.
-/

namespace Blueprint.Text.Utf8

variable {first second : UInt8} {more rest : List UInt8}

/-! ## The octets of a character -/

/-- When a second octet fits the first one, by their numbers. -/
theorem secondFits_iff : secondFits first second = true ↔
    (0x80 ≤ second.toNat ∧ second.toNat < 0xC0) ∧
      (first.toNat = 0xE0 → 0xA0 ≤ second.toNat) ∧ (first.toNat = 0xED → second.toNat < 0xA0) ∧
      (first.toNat = 0xF0 → 0x90 ≤ second.toNat) ∧ (first.toNat = 0xF4 → second.toNat < 0x90) := by
  simp only [secondFits, isContinuation, Bool.and_eq_true, Bool.not_eq_true', Bool.and_eq_false_iff,
    decide_eq_true_eq, decide_eq_false_iff_not, beq_eq_false_iff_ne, ne_eq, ← UInt8.toNat_inj,
    UInt8.reduceToNat]
  omega

/-- How many octets a character has by the number of its first one. -/
theorem width?_eq_some_iff {width : Nat} : width? first = some width ↔
    width = 1 ∧ first.toNat < 0x80 ∨
      width = 2 ∧ 0xC2 ≤ first.toNat ∧ first.toNat < 0xE0 ∨
      width = 3 ∧ 0xE0 ≤ first.toNat ∧ first.toNat < 0xF0 ∨
      width = 4 ∧ 0xF0 ≤ first.toNat ∧ first.toNat < 0xF5 := by
  unfold width?
  dsimp only
  repeat' split
  all_goals
    simp only [Option.some.injEq, reduceCtorEq, false_iff]
    omega

/-- The octets of a character that has several: the first one tells how many there are, the second
one fits it, and the others continue the character. -/
structure Wide (first second : UInt8) (more : List UInt8) : Prop where
  /-- The first octet tells the count of octets. -/
  width_eq : width? first = some (more.length + 2)
  /-- The second octet fits the first one. -/
  fits : secondFits first second = true
  /-- The others continue the character. -/
  continues : ∀ byte ∈ more, isContinuation byte = true

/-- The octet with the number of an octet is that octet. -/
theorem ofNat_eq {number : Nat} {byte : UInt8} (h : number = byte.toNat) :
    UInt8.ofNat number = byte := by
  rw [h, UInt8.ofNat_toNat]

/-- A number that is no surrogate and not too large is that of a character. -/
theorem exists_toNat_eq (code : Nat) (h : code.isValidChar) : ∃ c : Char, c.val.toNat = code :=
  ⟨Char.ofNat code, by rw [Char.ofNat, dif_pos h]; rfl⟩

/-- The number that two octets write. -/
theorem codeOf_two (a b : UInt8) :
    codeOf [a, b] = (a.toNat - 0xC0) * 64 + (b.toNat - 0x80) := rfl

/-- The number that three octets write. -/
theorem codeOf_three (a b c : UInt8) : codeOf [a, b, c] =
    ((a.toNat - 0xE0) * 64 + (b.toNat - 0x80)) * 64 + (c.toNat - 0x80) := rfl

/-- The number that four octets write. -/
theorem codeOf_four (a b c d : UInt8) : codeOf [a, b, c, d] =
    (((a.toNat - 0xF0) * 64 + (b.toNat - 0x80)) * 64 + (c.toNat - 0x80)) * 64 +
      (d.toNat - 0x80) := rfl

/-- The last six digits of a number to the base two go into an octet that continues a character. -/
theorem isContinuation_ofNat (number : Nat) :
    isContinuation (UInt8.ofNat (number % 0x40 + 0x80)) = true := by
  simp only [isContinuation, Bool.and_eq_true, decide_eq_true_eq]
  rw [UInt8.toNat_ofNat']
  omega

/-- The number that octets of this form write is that of a character, which is written in them. -/
theorem Wide.encodes (h : Wide first second more) :
    (codeOf (first :: second :: more)).isValidChar ∧
      ∀ c : Char, c.val.toNat = codeOf (first :: second :: more) →
        String.utf8EncodeChar c = first :: second :: more := by
  obtain ⟨hw, hf, hc⟩ := h
  rw [secondFits_iff] at hf
  rw [width?_eq_some_iff] at hw
  simp only [isContinuation, Bool.and_eq_true, decide_eq_true_eq] at hc
  unfold String.utf8EncodeChar Nat.isValidChar
  dsimp only
  have hcount : more.length = 0 ∨ more.length = 1 ∨ more.length = 2 := by omega
  rcases hcount with hl | hl | hl
  · obtain rfl := List.length_eq_zero_iff.mp hl
    rw [codeOf_two]
    refine ⟨by omega, fun c hn => ?_⟩
    rw [hn, if_neg (by omega), if_pos (by omega)]
    simp only [List.cons.injEq, and_true]
    exact ⟨ofNat_eq (by omega), ofNat_eq (by omega)⟩
  · obtain ⟨third, rfl⟩ := List.length_eq_one_iff.mp hl
    have ht := hc third List.mem_cons_self
    rw [codeOf_three]
    refine ⟨by omega, fun c hn => ?_⟩
    rw [hn, if_neg (by omega), if_neg (by omega), if_pos (by omega)]
    simp only [List.cons.injEq, and_true]
    exact ⟨ofNat_eq (by omega), ofNat_eq (by omega), ofNat_eq (by omega)⟩
  · obtain ⟨third, fourth, rfl⟩ := List.length_eq_two.mp hl
    have ht := hc third List.mem_cons_self
    have hu := hc fourth (List.mem_cons_of_mem _ List.mem_cons_self)
    rw [codeOf_four]
    refine ⟨by omega, fun c hn => ?_⟩
    rw [hn, if_neg (by omega), if_neg (by omega), if_neg (by omega)]
    simp only [List.cons.injEq, and_true]
    exact ⟨ofNat_eq (by omega), ofNat_eq (by omega), ofNat_eq (by omega), ofNat_eq (by omega)⟩

/-- Octets of this form are those of a character. -/
theorem Wide.exists_char (h : Wide first second more) :
    ∃ c, String.utf8EncodeChar c = first :: second :: more := by
  obtain ⟨c, hn⟩ := exists_toNat_eq _ h.encodes.1
  exact ⟨c, h.encodes.2 c hn⟩

/-- A character with several octets is written in octets of this form, which write its number. -/
theorem exists_wide {c : Char} (h : 0x80 ≤ c.val.toNat) :
    ∃ first second more, String.utf8EncodeChar c = first :: second :: more ∧
      Wide first second more ∧ codeOf (first :: second :: more) = c.val.toNat := by
  have hvalid : c.val.toNat.isValidChar := c.valid
  unfold Nat.isValidChar at hvalid
  unfold String.utf8EncodeChar
  dsimp only
  rw [if_neg (by omega)]
  split
  · refine ⟨_, _, [], rfl, ⟨?_, ?_, nofun⟩, ?_⟩
    · rw [width?_eq_some_iff, UInt8.toNat_ofNat']
      refine .inr (.inl ⟨rfl, ?_, ?_⟩) <;> omega
    · rw [secondFits_iff, UInt8.toNat_ofNat', UInt8.toNat_ofNat']
      omega
    · rw [codeOf_two, UInt8.toNat_ofNat', UInt8.toNat_ofNat']
      omega
  split
  · refine ⟨_, _, [_], rfl, ⟨?_, ?_, ?_⟩, ?_⟩
    · rw [width?_eq_some_iff, UInt8.toNat_ofNat']
      refine .inr (.inr (.inl ⟨rfl, ?_, ?_⟩)) <;> omega
    · rw [secondFits_iff, UInt8.toNat_ofNat', UInt8.toNat_ofNat']
      omega
    · exact List.forall_mem_singleton.mpr (isContinuation_ofNat _)
    · rw [codeOf_three, UInt8.toNat_ofNat', UInt8.toNat_ofNat', UInt8.toNat_ofNat']
      omega
  · refine ⟨_, _, [_, _], rfl, ⟨?_, ?_, ?_⟩, ?_⟩
    · rw [width?_eq_some_iff, UInt8.toNat_ofNat']
      refine .inr (.inr (.inr ⟨rfl, ?_, ?_⟩)) <;> omega
    · rw [secondFits_iff, UInt8.toNat_ofNat', UInt8.toNat_ofNat']
      omega
    · exact List.forall_mem_cons.mpr
        ⟨isContinuation_ofNat _, List.forall_mem_singleton.mpr (isContinuation_ofNat _)⟩
    · rw [codeOf_four, UInt8.toNat_ofNat', UInt8.toNat_ofNat', UInt8.toNat_ofNat',
        UInt8.toNat_ofNat']
      omega

/-! ## Reading -/

/-- The octets of a character behind its first one are passed over. -/
theorem decodeFrom_skip (position : Nat) (octets rest : List UInt8) :
    decodeFrom position octets.length (octets ++ rest) =
      decodeFrom (position + octets.length) 0 rest := by
  induction octets generalizing position with
  | nil => rfl
  | cons first octets ih =>
    rw [List.length_cons, List.cons_append, decodeFrom, ih]
    congr 1
    omega

/-- The octets that make up a character are the good ones at the start. -/
theorem Wide.goodBytes_eq (h : Wide first second more) (rest : List UInt8) :
    goodBytes first (more.length + 2) (second :: more ++ rest) = first :: second :: more := by
  rw [List.cons_append, goodBytes, if_pos h.fits, Nat.add_sub_cancel, List.take_left]
  rw [List.takeWhile_eq_self_iff.mpr h.continues]

/-- Where there are as many good octets as a character has, they make it up. -/
theorem exists_wide_of_goodBytes {width : Nat} (hw : width? first = some (width + 2))
    (hl : (goodBytes first (width + 2) rest).length = width + 2) :
    ∃ second more left, rest = second :: more ++ left ∧ Wide first second more := by
  unfold goodBytes at hl
  split at hl
  · rename_i second behind
    split at hl
    · rename_i hf
      rw [List.length_cons, List.length_cons, Nat.add_sub_cancel] at hl
      have hprefix := List.takeWhile_prefix isContinuation (l := behind.take width)
      have htake := List.length_take_le width behind
      have hall := hprefix.eq_of_length (by
        have := hprefix.length_le
        omega)
      rw [hall] at hl
      refine ⟨second, behind.take width, behind.drop width, ?_, ?_, hf, ?_⟩
      · rw [List.cons_append, List.take_append_drop]
      · rw [hw]
        congr 1
        omega
      · exact List.takeWhile_eq_self_iff.mp hall
    · cases hl
  · cases hl

/-- Where the first octet tells that there are several, a character is read from the good ones. -/
theorem decodeFrom_several {width : Nat} (hw : width? first = some (width + 2)) (position : Nat) :
    decodeFrom position 0 (first :: rest) =
      if (goodBytes first (width + 2) rest).length = width + 2 then
        (decodeFrom (position + 1) (width + 1) rest).map
          (Char.ofNat (codeOf (goodBytes first (width + 2) rest)) :: ·)
      else .error ⟨position, first, (goodBytes first (width + 2) rest).length,
        if rest.length + 1 = (goodBytes first (width + 2) rest).length then .unexpectedEnd
        else .invalidContinuation⟩ := by
  rw [decodeFrom, hw]
  rfl

/-- A character is read from its octets, and then what follows. -/
theorem decodeFrom_encodeChar (position : Nat) (c : Char) (rest : List UInt8) :
    decodeFrom position 0 (String.utf8EncodeChar c ++ rest) =
      (decodeFrom (position + (String.utf8EncodeChar c).length) 0 rest).map (c :: ·) := by
  have hc : Char.ofNat c.val.toNat = c := Char.ofNat_toNat c
  by_cases h : c.val.toNat < 0x80
  · have he : String.utf8EncodeChar c = [UInt8.ofNat c.val.toNat] := if_pos (Nat.le_of_lt_succ h)
    have hn : (UInt8.ofNat c.val.toNat).toNat = c.val.toNat := by
      rw [UInt8.toNat_ofNat']
      omega
    have hw : width? (UInt8.ofNat c.val.toNat) = some 1 := by
      rw [width?_eq_some_iff, hn]
      omega
    rw [he, List.singleton_append, decodeFrom, hw, hn, hc]
    rfl
  · obtain ⟨first, second, more, he, hwide, hcode⟩ := exists_wide (Nat.le_of_not_lt h)
    have hskip := decodeFrom_skip (position + 1) (second :: more) rest
    rw [List.length_cons, Nat.add_assoc, Nat.add_comm 1] at hskip
    rw [he, List.cons_append, decodeFrom_several hwide.width_eq, hwide.goodBytes_eq, hcode, hc,
      hskip]
    exact if_pos rfl

/-- Octets that are decoded start with a character, unless there are none. -/
theorem exists_char_of_decodeFrom {position : Nat} {text : List Char}
    (h : decodeFrom position 0 (first :: rest) = .ok text) :
    ∃ c left, first :: rest = String.utf8EncodeChar c ++ left := by
  cases hw : width? first with
  | none =>
    rw [decodeFrom, hw] at h
    cases h
  | some width =>
    have hcount := width?_eq_some_iff.mp hw
    by_cases hone : width = 1
    · have hfirst : first.toNat < 0x80 := by omega
      obtain ⟨c, hn⟩ := exists_toNat_eq first.toNat (by
        unfold Nat.isValidChar
        omega)
      refine ⟨c, rest, ?_⟩
      unfold String.utf8EncodeChar
      dsimp only
      rw [hn, if_pos (by omega), UInt8.ofNat_toNat, List.singleton_append]
    · obtain ⟨width, rfl⟩ : ∃ more, width = more + 2 := ⟨width - 2, by omega⟩
      rw [decodeFrom_several hw] at h
      split at h
      · rename_i hl
        obtain ⟨second, more, left, rfl, hwide⟩ := exists_wide_of_goodBytes hw hl
        obtain ⟨c, hc⟩ := hwide.exists_char
        exact ⟨c, left, by rw [hc]; rfl⟩
      · cases h

/-- Octets are decoded to the text that they write, and to no other. -/
theorem decodeFrom_eq_ok_iff {position : Nat} {octets : List UInt8} {text : List Char} :
    decodeFrom position 0 octets = .ok text ↔ octets = text.flatMap String.utf8EncodeChar := by
  constructor
  · intro h
    -- Each character takes some of the octets, so fewer are left for those after it.
    induction hl : octets.length using Nat.strongRecOn generalizing position octets text with
    | ind length ih =>
      cases octets with
      | nil =>
        cases h
        rfl
      | cons first rest =>
        obtain ⟨c, left, he⟩ := exists_char_of_decodeFrom h
        have hshort : left.length < length := by
          have hpos := List.length_pos_iff.mpr (String.utf8EncodeChar_ne_nil (c := c))
          have hsum := congrArg List.length he
          rw [List.length_append] at hsum
          omega
        rw [he, decodeFrom_encodeChar] at h
        cases hd : decodeFrom (position + (String.utf8EncodeChar c).length) 0 left with
        | error fault =>
          rw [hd] at h
          cases h
        | ok more =>
          rw [hd] at h
          cases h
          rw [he, List.flatMap_cons, ← ih _ hshort hd rfl]
  · rintro rfl
    induction text generalizing position with
    | nil => rfl
    | cons c text ih =>
      rw [List.flatMap_cons, decodeFrom_encodeChar, ih]
      rfl

/-- The octets of an array from an index on come behind those that were taken. -/
theorem toList_loop (bytes : ByteArray) (index : Nat) (taken : List UInt8) :
    ByteArray.toList.loop bytes index taken = taken.reverse ++ bytes.data.toList.drop index := by
  fun_induction ByteArray.toList.loop bytes index taken with
  | case1 index taken h ih =>
    have hget : bytes.get! index = bytes.data.toList[index] := getElem!_pos bytes.data index h
    rw [ih, List.drop_eq_getElem_cons h, List.reverse_cons, List.append_assoc, hget]
    rfl
  | case2 index taken h =>
    rw [List.drop_eq_nil_of_le (Nat.le_of_not_lt h), List.append_nil]

/-- The octets of an array in order. -/
theorem toList_eq (bytes : ByteArray) : bytes.toList = bytes.data.toList :=
  toList_loop bytes 0 []

/-- An array of octets is decoded to a text exactly if it is the UTF-8 form of the text. -/
theorem decode_eq_ok_iff {bytes : ByteArray} {text : List Char} :
    decode bytes = .ok text ↔ bytes = text.utf8Encode := by
  rw [decode, decodeFrom_eq_ok_iff, toList_eq, List.utf8Encode]
  constructor
  · intro h
    exact ByteArray.ext (Array.toList_inj.mp (h.trans List.toList_data_toByteArray.symm))
  · rintro rfl
    exact List.toList_data_toByteArray

/-- Octets cannot be decoded exactly if they are not the UTF-8 form of any text. -/
theorem decode_eq_error_iff {bytes : ByteArray} :
    (∃ fault, decode bytes = .error fault) ↔ ¬bytes.IsValidUTF8 := by
  constructor
  · rintro ⟨fault, hf⟩ ⟨text, ht⟩
    rw [decode_eq_ok_iff.mpr ht] at hf
    cases hf
  · intro h
    cases hd : decode bytes with
    | error fault => exact ⟨fault, rfl⟩
    | ok text => exact absurd ⟨text, decode_eq_ok_iff.mp hd⟩ h

end Blueprint.Text.Utf8
