import Blueprint.Proofs.Token.Slice
import Mathlib.Data.Option.Basic

/-!
# Problems in the order of the source

What is wrong with the characters of a source is reported from its start to its end, with one
exception. A string literal without an end is reported where it starts, and that is noticed only
after its escapes have been read: if one of these is reported too, the report on the literal comes
last and points furthest back. All other reports are in the order of the source.
-/

namespace Blueprint

open Blueprint.Text

/-- Something is wrong no later than something else. -/
def Remark.NoLater (first second : Remark) : Prop := first.distance ≤ second.distance

/-! ## Literals -/

namespace Literal

variable {quote : Char} {triple : Bool} {pieces : List Piece} {distance : Nat} {remark : Remark}

/-- What is wrong with the parts of a literal stands in these parts. -/
theorem distance_of_mem_partRemarks (h : remark ∈ partRemarks distance pieces) :
    distance ≤ remark.distance ∧
      remark.distance ≤ distance + (pieces.flatMap Piece.raw).length := by
  induction pieces generalizing distance with
  | nil => cases h
  | cons piece more ih =>
    rw [List.flatMap_cons, List.length_append]
    rw [partRemarks] at h
    rcases List.mem_append.mp h with h | h
    · obtain ⟨issue, _, rfl⟩ := Option.map_eq_some_iff.mp (Option.mem_toList.mp h)
      exact ⟨Nat.le_refl _, Nat.le_add_right _ _⟩
    · have := ih h
      omega

/-- What is wrong with the parts of a literal is noticed from the first part to the last. -/
theorem pairwise_partRemarks (distance : Nat) (pieces : List Piece) :
    (partRemarks distance pieces).Pairwise Remark.NoLater := by
  induction pieces generalizing distance with
  | nil => exact .nil
  | cons piece more ih =>
    rw [partRemarks]
    refine List.pairwise_append.mpr ⟨?_, ih _, fun first hf second hs => ?_⟩
    · cases piece.issue with
      | none => exact .nil
      | some issue => exact List.pairwise_singleton _ _
    · obtain ⟨issue, _, rfl⟩ := Option.map_eq_some_iff.mp (Option.mem_toList.mp hf)
      exact Nat.le_trans (Nat.le_add_right _ _) (distance_of_mem_partRemarks hs).1

/-- A literal that reaches the end of the source has all of the text in its parts. -/
theorem flatMap_raw_of_sourceEnd {text : List Char} (h : (parts quote triple text).2 = .sourceEnd) :
    (parts quote triple text).1.flatMap Piece.raw = text := by
  induction text using parts.induct quote triple with
  | case1 =>
    rw [parts]
    rfl
  | case2 c rest ending hn =>
    rw [parts_of_ending hn] at h
    obtain rfl : ending = .sourceEnd := h
    unfold next at hn
    repeat' split at hn
    all_goals cases hn
  | case3 c rest piece hn ih =>
    obtain ⟨behind, hb⟩ := raw_prefix_of_next hn
    rw [parts_of_piece hn] at h ⊢
    rw [List.flatMap_cons, ih h, ← hb, List.drop_left]

end Literal

/-! ## Segments -/

namespace Segment

/-- What is wrong with a segment stands in it and is noticed in order, except for a literal that
reaches the end of the source: the last that is noticed about it is that its end is missing. -/
structure Noticed (segment : Segment) (behind : List Char) : Prop where
  /-- The problems stand in the segment. -/
  within : ∀ remark ∈ segment.remarks, remark.distance ≤ segment.text.length
  /-- They are noticed in order, or the last of them is a missing end. -/
  ordered : segment.remarks.Pairwise Remark.NoLater ∨
    behind = [] ∧ ∃ scanned escapes, segment = .literal scanned ∧
      scanned.remarks = escapes ++ [⟨0, .unterminatedString⟩] ∧
      escapes.Pairwise Remark.NoLater ∧ ∀ remark ∈ escapes, 0 < remark.distance

/-- A segment with at most one problem, which stands at its start. -/
theorem Noticed.of_start {segment : Segment} {behind : List Char}
    (h : segment.remarks = [] ∨ ∃ issue, segment.remarks = [⟨0, issue⟩]) :
    segment.Noticed behind := by
  rcases h with h | ⟨issue, h⟩
  · exact ⟨by simp [h], .inl (by simp [h])⟩
  · exact ⟨by simp [h], .inl (by simp [h])⟩

/-- What is wrong with a literal is noticed in order, except for its missing end. -/
theorem noticed_literal (quote : Char) (rest : List Char) :
    (Segment.literal (Literal.scan quote rest)).Noticed
      ((quote :: rest).drop (Literal.scan quote rest).raw.length) := by
  have hopening := Literal.delimiter_append_drop quote rest
  have hpos := Literal.delimiter_length_pos quote (Literal.opensTriple quote rest)
  unfold Literal.scan
  dsimp only
  generalize Literal.delimiter quote (Literal.opensTriple quote rest) = opening at hopening hpos ⊢
  generalize Literal.opensTriple quote rest = triple
  have hend := @Literal.flatMap_raw_of_sourceEnd quote triple (rest.drop (opening.length - 1))
  generalize (Literal.parts quote triple (rest.drop (opening.length - 1))).1 = pieces at hend ⊢
  generalize (Literal.parts quote triple (rest.drop (opening.length - 1))).2 = ending at hend ⊢
  have hparts := Literal.pairwise_partRemarks opening.length pieces
  have hbounds : ∀ remark ∈ Literal.partRemarks opening.length pieces,
      opening.length ≤ remark.distance ∧
        remark.distance ≤ (opening ++ pieces.flatMap Literal.Piece.raw).length := by
    intro remark hm
    rw [List.length_append]
    exact Literal.distance_of_mem_partRemarks hm
  refine ⟨fun remark hm => ?_, ?_⟩
  · rw [text, List.length_append]
    rcases List.mem_append.mp hm with hm | hm
    · exact Nat.le_add_right_of_le (hbounds remark hm).2
    · cases ending with
      | closed closing => cases hm
      | lineEnd =>
        obtain rfl := List.mem_singleton.mp hm
        exact Nat.le_add_right _ _
      | sourceEnd =>
        obtain rfl := List.mem_singleton.mp hm
        exact Nat.zero_le _
  · cases ending with
    | closed closing => exact .inl (by rwa [remarks, Literal.Ending.remarks, List.append_nil])
    | lineEnd =>
      refine .inl (List.pairwise_append.mpr ⟨hparts, List.pairwise_singleton _ _, ?_⟩)
      intro first hf second hs
      rw [List.mem_singleton.mp hs]
      exact (hbounds first hf).2
    | sourceEnd =>
      refine .inr ⟨?_, _, _, rfl, rfl, hparts, fun remark hm => ?_⟩
      · rw [hend rfl, hopening, Literal.Ending.raw, List.append_nil, List.drop_length]
      · exact Nat.lt_of_lt_of_le hpos (hbounds remark hm).1

/-- The next segment has its problems noticed in order. -/
theorem noticed_next (c : Char) (rest : List Char) :
    (next c rest).Noticed ((c :: rest).drop (next c rest).text.length) := by
  have hs := starts_next c rest
  generalize next c rest = segment at hs
  cases hs with
  | literal => exact noticed_literal c rest
  | @blockComment body =>
    refine .of_start ?_
    cases (commentBody 0 body).2 with
    | true => exact .inl rfl
    | false => exact .inr ⟨_, rfl⟩
  | unexpected => exact .of_start (.inr ⟨_, rfl⟩)
  | number =>
    obtain ⟨kind, text, hn⟩ := exists_number c rest
    rw [hn]
    exact .of_start (.inl rfl)
  | _ => exact .of_start (.inl rfl)

/-- The offset of a last segment is the length of the text before it. -/
theorem numbered_concat (offset : Nat) (front : List Segment) (segment : Segment) :
    numbered offset (front ++ [segment]) =
      numbered offset front ++ [(offset + (front.flatMap text).length, segment)] := by
  induction front generalizing offset with
  | nil => rfl
  | cons first front ih =>
    rw [List.cons_append, numbered, numbered, ih, List.flatMap_cons, List.length_append,
      Nat.add_assoc, List.cons_append]

/-- The offsets of what is wrong with a segment that stands at an offset. -/
def offsetsAt (place : Nat × Segment) : List Int :=
  place.2.remarks.map fun remark => (place.1 : Int) + remark.distance

/-- The offsets lie in the segment. -/
theorem bounds_of_mem_offsetsAt {place : Nat × Segment} {offset : Int}
    (hw : ∀ remark ∈ place.2.remarks, remark.distance ≤ place.2.text.length)
    (h : offset ∈ offsetsAt place) :
    (place.1 : Int) ≤ offset ∧ offset ≤ (place.1 + place.2.text.length : Nat) := by
  obtain ⟨remark, hm, rfl⟩ := List.mem_map.mp h
  have := hw remark hm
  omega

/-- The offsets of problems that are noticed in order are in order. -/
theorem pairwise_offsetsAt {offset : Nat} {segment : Segment}
    (h : segment.remarks.Pairwise Remark.NoLater) :
    (offsetsAt (offset, segment)).Pairwise (· ≤ ·) := by
  refine List.pairwise_map.mpr (h.imp fun {first second} hl => ?_)
  have : first.distance ≤ second.distance := hl
  omega

/-- The offsets of the problems of segments one after the other are in order if those of each are.
-/
theorem pairwise_flatMap_offsetsAt {offset : Nat} {segments : List Segment}
    (hw : ∀ segment ∈ segments, ∀ remark ∈ segment.remarks,
      remark.distance ≤ segment.text.length)
    (h : ∀ segment ∈ segments, segment.remarks.Pairwise Remark.NoLater) :
    ((numbered offset segments).flatMap offsetsAt).Pairwise (· ≤ ·) := by
  have hin : ∀ place ∈ numbered offset segments, place.2 ∈ segments :=
    fun place hm => (le_of_mem_numbered hm).1
  refine List.pairwise_flatMap.mpr
    ⟨fun place hm => pairwise_offsetsAt (h place.2 (hin place hm)), ?_⟩
  refine (pairwise_numbered offset segments).imp_of_mem fun {first second} hf hs hl o ho p hp => ?_
  have hfirst := bounds_of_mem_offsetsAt (hw first.2 (hin first hf)) ho
  have hsecond := bounds_of_mem_offsetsAt (hw second.2 (hin second hs)) hp
  omega

end Segment

/-! ## Diagnostics -/

/-- Diagnostics have places, and none of them stands before an earlier one. -/
def InSourceOrder (diagnostics : List Diagnostic) : Prop :=
  ∃ offsets : List Int, diagnostics.map (·.position.map Position.offset) = offsets.map some ∧
    offsets.Pairwise (· ≤ ·)

/-- A source ends in a literal without an end, and something inside of the literal is reported
before the missing end. -/
def EndsLate (source : List Char) : Prop :=
  ∃ front scanned escapes, Segment.ofText source = front ++ [.literal scanned] ∧ escapes ≠ [] ∧
    scanned.remarks = escapes ++ [⟨0, .unterminatedString⟩] ∧
    ∀ remark ∈ escapes, 0 < remark.distance

/-- Diagnostics are in the order of the source exactly if their offsets are in order. -/
theorem inSourceOrder_iff {diagnostics : List Diagnostic} {offsets : List Int}
    (h : diagnostics.map (·.position.map Position.offset) = offsets.map some) :
    InSourceOrder diagnostics ↔ offsets.Pairwise (· ≤ ·) := by
  refine ⟨fun ⟨others, ho, hp⟩ => ?_, fun hp => ⟨offsets, h, hp⟩⟩
  rwa [List.map_injective_iff.mpr (Option.some_injective Int) (h.symm.trans ho)]

namespace TokenStream

variable {source : List Char} {stream : TokenStream}

/-- The offsets of the diagnostics of a segment. -/
theorem offsets_diagnosticsAt {place : Nat × Segment}
    (hw : ∀ remark ∈ place.2.remarks, remark.distance ≤ place.2.text.length) :
    (diagnosticsAt (Position.ofOffset source place.1) place.2).map
      (·.position.map Position.offset) = (Segment.offsetsAt place).map some := by
  unfold diagnosticsAt Segment.offsetsAt
  rw [List.map_map, List.map_map]
  refine List.map_congr_left fun remark hm => congrArg some ?_
  rw [Position.after_offset, List.length_take, Nat.min_eq_left (hw remark hm)]
  rfl

/-- The diagnostics of a source have the offsets of what is wrong with its segments. -/
theorem offsets_diagnostics (h : ofChars source = .ok stream)
    (hw : ∀ segment ∈ Segment.ofText source, ∀ remark ∈ segment.remarks,
      remark.distance ≤ segment.text.length) :
    stream.diagnostics.map (·.position.map Position.offset) =
      ((Segment.numbered 0 (Segment.ofText source)).flatMap Segment.offsetsAt).map some := by
  obtain ⟨tokens, _, rfl⟩ := ofChars_eq_ok_iff.mp h
  rw [Segment.placed_ofText, List.flatMap_map, List.map_flatMap, List.map_flatMap]
  exact List.flatMap_congr fun place hm =>
    offsets_diagnosticsAt (hw place.2 (Segment.le_of_mem_numbered hm).1)

/-- A segment has its problems noticed in order, or it is the last one and a literal without an
end. -/
theorem ordered_of_split {front back : List Segment} {segment : Segment}
    (h : Segment.ofText source = front ++ segment :: back) :
    segment.remarks.Pairwise Remark.NoLater ∨
      back = [] ∧ ∃ scanned escapes, segment = .literal scanned ∧
        scanned.remarks = escapes ++ [⟨0, .unterminatedString⟩] ∧
        escapes.Pairwise Remark.NoLater ∧ ∀ remark ∈ escapes, 0 < remark.distance := by
  have hn := Segment.forall_of_next Segment.noticed_next source front back segment h
  refine hn.ordered.imp_right fun ⟨hb, hliteral⟩ => ⟨?_, hliteral⟩
  refine List.eq_nil_iff_forall_not_mem.mpr fun other ho => ?_
  have hm : other ∈ Segment.ofText source := by
    rw [h]
    exact List.mem_append_right _ (List.mem_cons_of_mem _ ho)
  exact Segment.text_ne_nil_of_mem hm (List.flatMap_eq_nil_iff.mp hb other ho)

/-- A source that does not end late has the problems of each segment noticed in order. -/
theorem pairwise_remarks (hl : ¬EndsLate source) {segment : Segment}
    (h : segment ∈ Segment.ofText source) : segment.remarks.Pairwise Remark.NoLater := by
  obtain ⟨front, back, he⟩ := List.append_of_mem h
  rcases ordered_of_split he with ho | ⟨rfl, scanned, escapes, rfl, hr, _, hd⟩
  · exact ho
  · have hnone : escapes = [] := by
      by_contra hs
      exact hl ⟨front, scanned, escapes, he, hs, hr, hd⟩
    rw [Segment.remarks, hr, hnone]
    exact List.pairwise_singleton _ _

/-- The problems of a source stand in their segments. -/
theorem within_of_mem {segment : Segment} (h : segment ∈ Segment.ofText source) :
    ∀ remark ∈ segment.remarks, remark.distance ≤ segment.text.length := by
  obtain ⟨front, back, he⟩ := List.append_of_mem h
  exact (Segment.forall_of_next Segment.noticed_next source front back segment he).within

/-- Where a source ends late, the offsets of its problems are in order up to the last one, which is
less than an earlier one. -/
theorem exists_offsets_of_endsLate (hl : EndsLate source) :
    ∃ offsets last, (Segment.numbered 0 (Segment.ofText source)).flatMap Segment.offsetsAt =
      offsets ++ [last] ∧ offsets.Pairwise (· ≤ ·) ∧ ∃ offset ∈ offsets, last < offset := by
  obtain ⟨front, scanned, escapes, he, hs, hr, hd⟩ := hl
  have hwithin : ∀ remark ∈ scanned.remarks, remark.distance ≤ scanned.raw.length :=
    @within_of_mem source (.literal scanned)
      (he ▸ List.mem_append_right front List.mem_cons_self)
  -- The same segments, but that the missing end is not reported.
  have hkept : ∀ remarks, (Segment.numbered 0
        (front ++ [.literal { scanned with remarks := remarks }])).flatMap Segment.offsetsAt =
      (Segment.numbered 0 front).flatMap Segment.offsetsAt ++
        remarks.map fun remark =>
          ((front.flatMap Segment.text).length : Int) + remark.distance := by
    intro remarks
    rw [Segment.numbered_concat, Nat.zero_add, List.flatMap_append, List.flatMap_singleton]
    rfl
  refine ⟨(Segment.numbered 0
      (front ++ [.literal { scanned with remarks := escapes }])).flatMap Segment.offsetsAt,
    ((front.flatMap Segment.text).length : Int) + (0 : Nat), ?_, ?_, ?_⟩
  · have hall := hkept scanned.remarks
    rw [hr, List.map_append, ← List.append_assoc, ← hkept escapes, ← hr] at hall
    rw [he]
    exact hall
  · refine Segment.pairwise_flatMap_offsetsAt ?_ ?_
    · intro segment hm remark hremark
      rcases List.mem_append.mp hm with hm | hm
      · exact within_of_mem (he ▸ List.mem_append_left _ hm) remark hremark
      · obtain rfl := List.mem_singleton.mp hm
        exact hwithin remark (hr ▸ List.mem_append_left _ hremark)
    · intro segment hm
      rcases List.mem_append.mp hm with hm | hm
      · obtain ⟨before, after, rfl⟩ := List.append_of_mem hm
        rw [List.append_assoc, List.cons_append] at he
        exact (ordered_of_split he).resolve_right fun hlast => by simpa using hlast.1
      · obtain rfl := List.mem_singleton.mp hm
        rcases ordered_of_split he with ho | ⟨-, other, others, heq, ho, hp, -⟩
        · rw [Segment.remarks, hr] at ho
          exact (List.pairwise_append.mp ho).1
        · obtain rfl := Segment.literal.inj heq
          rw [hr] at ho
          rwa [← List.append_cancel_right ho] at hp
  · obtain ⟨remark, rest, rfl⟩ := List.exists_cons_of_ne_nil hs
    refine ⟨((front.flatMap Segment.text).length : Int) + remark.distance, ?_, ?_⟩
    · rw [hkept]
      exact List.mem_append_right _ List.mem_cons_self
    · have := hd remark List.mem_cons_self
      omega

/-- The diagnostics of a source are in its order, except that the last one may stand too far back.
They are all in order exactly if the source does not end in a literal without an end inside of which
something is reported. -/
theorem inSourceOrder_of_ofString {source : String} {stream : TokenStream}
    (h : ofString source = .ok stream) :
    InSourceOrder stream.diagnostics.dropLast ∧
      (InSourceOrder stream.diagnostics ↔ ¬EndsLate source.toList) := by
  have hoffsets := offsets_diagnostics h fun segment => within_of_mem
  have hdrop := congrArg List.dropLast hoffsets
  rw [← List.map_dropLast, ← List.map_dropLast] at hdrop
  rw [inSourceOrder_iff hoffsets, inSourceOrder_iff hdrop]
  by_cases hl : EndsLate source.toList
  · obtain ⟨offsets, last, he, hp, offset, ho, hlast⟩ := exists_offsets_of_endsLate hl
    rw [he, List.dropLast_concat]
    refine ⟨hp, fun hall => ?_, fun hn => absurd hl hn⟩
    have := (List.pairwise_append.mp hall).2.2 offset ho last List.mem_cons_self
    omega
  · have hall := @Segment.pairwise_flatMap_offsetsAt 0 _ (fun segment => within_of_mem)
      fun segment => pairwise_remarks hl
    exact ⟨hall.sublist (List.dropLast_sublist _), fun _ => hl, fun _ => hall⟩

/-- A source that ends late behind an unexpected character: its diagnostics but the last are in
order. -/
theorem inSourceOrder_late :
    ∃ stream, ofString "~\"\\q\\xZZ" = .ok stream ∧ InSourceOrder stream.diagnostics.dropLast ∧
      (InSourceOrder stream.diagnostics ↔ ¬EndsLate "~\"\\q\\xZZ".toList) ∧
      stream.diagnostics.map (·.position.map Position.offset) =
        [some 0, some 2, some 4, some 1] := by
  have hd : (ofString "~\"\\q\\xZZ").toOption.map
      (fun stream => stream.diagnostics.map (·.position.map Position.offset)) =
      some [some 0, some 2, some 4, some 1] := by
    decide +kernel
  obtain ⟨stream, hs, he⟩ := exists_ok_of_map hd
  obtain ⟨hdrop, hiff⟩ := inSourceOrder_of_ofString hs
  exact ⟨stream, hs, hdrop, hiff, he⟩

/-- In a literal without an end the faulty escape is reported first, and then the literal, which
starts before it. -/
theorem not_inSourceOrder_unclosed :
    ∃ stream, ofString "\"\\xZZ" = .ok stream ∧
      stream.diagnostics.map (·.position.map Position.offset) = [some 1, some 0] ∧
      ¬InSourceOrder stream.diagnostics := by
  have hd : (ofString "\"\\xZZ").toOption.map
      (fun stream => stream.diagnostics.map (·.position.map Position.offset)) =
      some [some 1, some 0] := by
    decide +kernel
  obtain ⟨stream, hs, he⟩ := exists_ok_of_map hd
  refine ⟨stream, hs, he, ?_⟩
  rw [@inSourceOrder_iff stream.diagnostics [1, 0] he]
  decide

end TokenStream

end Blueprint
