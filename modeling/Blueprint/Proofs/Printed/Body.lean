import Blueprint.Proofs.Printed.Statement

/-!
# Reading printed elements

The rows of an element are read as the element, by induction over it: the statements of its body are
read one after the other, each of them as the part of the element that was printed, and added at
their places they make up the element.
-/

namespace Blueprint.Printed

open Blueprint.Declared Blueprint.Grammar

variable {p : Progress} {line : Int} {tokens tail : List Token}

/-! ## Putting elements together -/

/-- An item of the last rank comes last. -/
theorem insertByRank_last {α : Type} {rank : α → Nat} {item : α} {items : List α}
    (h : ∀ other ∈ items, rank other ≤ rank item) :
    insertByRank rank item items = items ++ [item] := by
  have hall : ∀ other ∈ items, decide (rank other ≤ rank item) = true :=
    fun other ho => decide_eq_true (h other ho)
  unfold insertByRank
  rw [List.takeWhile_eq_self_iff.mpr hall, List.dropWhile_eq_nil_iff.mpr hall]

/-- Members that are ordered by rank come in their order. -/
theorem foldl_members {sort : PlainSort} {details : Details} {relationships : List Relationship}
    {first members : List Element}
    (h : sort ≠ .group → (first ++ members).Pairwise fun a b => a.rankInElement ≤ b.rankInElement) :
    (members.map BodyEntry.member).foldl Element.add (.plain sort details relationships first) =
      .plain sort details relationships (first ++ members) := by
  induction members generalizing first with
  | nil => rw [List.append_nil]; rfl
  | cons member members ih =>
    have hadd : (Element.plain sort details relationships first).add (.member member) =
        .plain sort details relationships (first ++ [member]) := by
      cases sort with
      | group => rfl
      | _ =>
        have hranks := (List.pairwise_append.mp (h fun he => by cases he)).2.2
        exact congrArg (Element.plain _ details relationships)
          (insertByRank_last fun other ho => hranks other ho member List.mem_cons_self)
    rw [List.map_cons, List.foldl_cons, hadd, ih, List.append_assoc, List.singleton_append]
    rw [List.append_assoc, List.singleton_append]
    exact h

/-- Relationships come in their order. -/
theorem foldl_relationships {sort : PlainSort} {details : Details}
    {first relationships : List Relationship} {members : List Element} :
    (relationships.map BodyEntry.relationship).foldl Element.add
        (.plain sort details first members) =
      .plain sort details (first ++ relationships) members := by
  induction relationships generalizing first with
  | nil => rw [List.append_nil]; rfl
  | cons relationship relationships ih =>
    rw [List.map_cons, List.foldl_cons]
    refine ih.trans ?_
    rw [List.append_assoc, List.singleton_append]

/-! ## Bodies -/

/-- Tokens of printed statements before others are read as entries, one after the other. -/
inductive ReadsAll (owner : BodyKind) (tail : List Token) : List Token → List BodyEntry → Prop
  /-- There are no statements. -/
  | nil : ReadsAll owner tail [] []
  /-- The first statement is read as the first entry. -/
  | cons {front back : List Token} {entry : BodyEntry} {entries : List BodyEntry}
    (h : ReadsAs owner front (back ++ tail) entry) (hm : ReadsAll owner tail back entries) :
    ReadsAll owner tail (front ++ back) (entry :: entries)

/-- Statements and further statements are read as the entries of both. -/
theorem ReadsAll.append {owner : BodyKind} {front back : List Token}
    {entries more : List BodyEntry} (h : ReadsAll owner (back ++ tail) front entries)
    (hm : ReadsAll owner tail back more) :
    ReadsAll owner tail (front ++ back) (entries ++ more) := by
  induction h with
  | nil => exact hm
  | cons h _ ih =>
    rw [List.append_assoc]
    refine .cons ?_ ih
    rw [List.append_assoc]
    exact h

/-- What reads bodies deep enough reads them deep enough for less. -/
theorem Deep.mono {bound less : Nat} {body : BodyKind → Reader (List BodyEntry)}
    (h : Deep bound body) (hl : less ≤ bound) : Deep less body := by
  intro kind p
  obtain ⟨depth, hd, he⟩ := h kind p
  exact ⟨depth, by omega, he⟩

/-- Bodies within each other are read up to their count. -/
theorem deep_readEntriesWithin (depth : Nat) : Deep depth (readEntriesWithin depth) :=
  fun _ _ => ⟨depth, Nat.min_le_left _ _, rfl⟩

/-- Bodies within each other are read as deep as they are. -/
theorem deep_readEntries (bound : Nat) : Deep bound readEntries :=
  fun _ p => ⟨p.rest.length, Nat.min_le_right _ _, rfl⟩

/-- The statements of a body are run one after the other. -/
theorem ReadsAll.runsThrough {owner : BodyKind} {entries : List BodyEntry}
    (h : ReadsAll owner tail tokens entries) {body : BodyKind → Reader (List BodyEntry)}
    (hb : Deep tokens.length body) (p : Progress) (before : List BodyEntry) :
    RunsThrough (readBodyEntry body owner).fill before (p.ahead (tokens ++ tail))
      (before ++ entries) (p.ahead tail) := by
  induction h generalizing before with
  | nil =>
    rw [List.append_nil]
    exact .done
  | @cons front back entry entries h _ ih =>
    obtain ⟨⟨first, rest, rfl, hfirst⟩, hread⟩ := h
    rw [List.length_append, List.length_cons] at hb
    have hhere := (hread body (hb.mono (by rw [List.length_cons]; omega)) p).map (before ++ ·)
    rw [← fill_readBodyEntry body owner before] at hhere
    have hmore := ih (hb.mono (by omega)) (before ++ [entry])
    rw [List.append_assoc] at hmore
    rw [List.append_assoc]
    refine .step rfl hfirst.open_ne hfirst.end_ne ?_ hhere hmore
    simp only [Progress.ahead, List.length_append, List.length_cons]
    omega

/-- A body is read up to the brace that closes it. -/
theorem ReadsAll.readBody {kind : BodyKind} {close : Token} {inner : List Token}
    {entries : List BodyEntry} (h : ReadsAll kind (close :: tail) inner entries)
    (hk : close.kind = .sign .rightBrace) (ht : tail ≠ []) {bound : Nat}
    {body : BodyKind → Reader (List BodyEntry)} (hb : Deep bound body)
    (hi : inner.length < bound) (p : Progress) :
    Yields (p.ahead (inner ++ close :: tail)) (body kind) entries (p.ahead tail) := by
  obtain ⟨depth, hd, he⟩ := hb kind (p.ahead (inner ++ close :: tail))
  have hlength : inner.length < depth := by
    simp only [Progress.ahead, List.length_append, List.length_cons] at hd
    omega
  unfold Yields
  rw [he]
  cases depth with
  | zero => omega
  | succ depth =>
    have hdeep : Deep inner.length (readEntriesWithin depth) :=
      (deep_readEntriesWithin depth).mono (by omega)
    unfold readEntriesWithin
    rw [readBlock_eq_keeping]
    exact (h.runsThrough hdeep p []).readBlockLeaving rfl hk ht

/-- Members are read one after the other, given that each of them is read. -/
theorem readsAll_members {owner : BodyKind} {members : List Element}
    (h : ∀ member ∈ members, ∀ {line : Int} {tokens tail : List Token},
      OnRows line (elementRows member) tokens →
      Below (line + (elementRows member).length) tail →
      ∃ read : Element, read.placeless = member.placeless ∧
        ReadsAs owner tokens tail (.member read))
    (hr : ∀ row ∈ memberRows members, row ≠ [])
    (ho : OnRows line (memberRows members) tokens)
    (ht : Below (line + (memberRows members).length) tail) :
    ∃ reads : List Element, reads.map Element.placeless = members.map Element.placeless ∧
      ReadsAll owner tail tokens (reads.map BodyEntry.member) := by
  induction members generalizing line tokens with
  | nil =>
    cases ho
    exact ⟨[], rfl, .nil⟩
  | cons member members ih =>
    rw [memberRows] at hr ho ht
    rw [List.length_append, Int.natCast_add, ← Int.add_assoc] at ht
    obtain ⟨front, back, rfl, hf, hb⟩ := ho.split
    obtain ⟨_, hmore⟩ := List.forall_mem_append.mp hr
    obtain ⟨reads, hs, hall⟩ := ih (fun other hm => h other (List.mem_cons_of_mem _ hm))
      hmore hb ht
    obtain ⟨read, he, hone⟩ := h member List.mem_cons_self hf (below_of_onRows hb hmore ht)
    refine ⟨read :: reads, ?_, .cons hone hall⟩
    rw [List.map_cons, List.map_cons, he, hs]

/-- Relationships are read one after the other. -/
theorem readsAll_relationships {owner : BodyKind} {relationships : List Relationship}
    (h : ∀ relationship ∈ relationships, PlainRelationship relationship)
    (ho : OnRows line (relationships.map relationshipRow) tokens)
    (ht : Below (line + relationships.length) tail) :
    ∃ reads : List Relationship,
      reads.map Relationship.placeless = relationships.map Relationship.placeless ∧
      ReadsAll owner tail tokens (reads.map BodyEntry.relationship) := by
  induction relationships generalizing line tokens with
  | nil =>
    cases ho
    exact ⟨[], rfl, .nil⟩
  | cons relationship relationships ih =>
    rw [List.length_cons, Int.natCast_succ, Int.add_comm _ 1, ← Int.add_assoc] at ht
    have hmore := fun other hm => h other (List.mem_cons_of_mem _ hm)
    cases ho with
    | @cons _ _ _ front back hf hb =>
      obtain ⟨reads, hs, hall⟩ := ih hmore hb ht
      have hbelow : Below (line + 1) (back ++ tail) := by
        refine below_of_onRows hb (fun row hm => ?_) (by rw [List.length_map]; exact ht)
        obtain ⟨other, ho, rfl⟩ := List.mem_map.mp hm
        exact (legible_relationshipRow (hmore other ho)).nonempty
      obtain ⟨read, he, hone⟩ := readsAs_relationship (h relationship List.mem_cons_self) hf hbelow
      refine ⟨read :: reads, ?_, .cons hone hall⟩
      rw [List.map_cons, List.map_cons, he, hs]

/-- What is in a body is read, given that the members are. -/
theorem readsAll_inner {owner : BodyKind} {members : List Element}
    {relationships : List Relationship}
    (h : ∀ member ∈ members, ∀ {line : Int} {tokens tail : List Token},
      OnRows line (elementRows member) tokens →
      Below (line + (elementRows member).length) tail →
      ∃ read : Element, read.placeless = member.placeless ∧
        ReadsAs owner tokens tail (.member read))
    (hp : ∀ member ∈ members, ∀ row ∈ elementRows member, Legible row)
    (hr : ∀ relationship ∈ relationships, PlainRelationship relationship)
    (ho : OnRows line (memberRows members ++ relationships.map relationshipRow) tokens)
    (ht : Below (line + (memberRows members ++ relationships.map relationshipRow).length) tail) :
    ∃ (inner : List Element) (related : List Relationship),
      inner.map Element.placeless = members.map Element.placeless ∧
      related.map Relationship.placeless = relationships.map Relationship.placeless ∧
      ReadsAll owner tail tokens
        (inner.map BodyEntry.member ++ related.map BodyEntry.relationship) := by
  have hlegible := legible_inner hp hr
  obtain ⟨hfirst, hlast⟩ := List.forall_mem_append.mp hlegible
  rw [List.length_append, Int.natCast_add, ← Int.add_assoc] at ht
  obtain ⟨front, back, rfl, hf, hb⟩ := ho.split
  have hbelow := below_of_onRows hb (fun row hm => (hlast row hm).nonempty) ht
  rw [List.length_map] at ht
  obtain ⟨inner, hi, hall⟩ := readsAll_members h (fun row hm => (hfirst row hm).nonempty) hf hbelow
  obtain ⟨related, hs, hmore⟩ := readsAll_relationships hr hb ht
  exact ⟨inner, related, hi, hs, hall.append hmore⟩

/-- An element that can be printed has a row. -/
theorem PlainElement.rows_ne_nil {owner : BodyKind} {element : Element}
    (h : PlainElement owner element) : elementRows element ≠ [] := by
  cases h
  unfold elementRows
  dsimp only
  split <;> exact List.cons_ne_nil _ _

/-- The order of ranks does not depend on where elements stand. -/
theorem pairwise_rank {rank : Element → Nat} (hr : ∀ element, rank element.placeless = rank element)
    {members inner : List Element}
    (he : inner.map Element.placeless = members.map Element.placeless)
    (h : members.Pairwise fun first second => rank first ≤ rank second) :
    inner.Pairwise fun first second => rank first ≤ rank second := by
  have hmap : ∀ elements : List Element,
      (elements.map Element.placeless).Pairwise (fun first second => rank first ≤ rank second) ↔
        elements.Pairwise fun first second => rank first ≤ rank second := by
    intro elements
    rw [List.pairwise_map]
    simp only [hr]
  rw [← hmap, he, hmap]
  exact h

/-- The row of an element without a body is read as the element. -/
theorem readsAs_heading {owner : BodyKind} {sort : PlainSort} {details : Details}
    (h : PlainHeading sort details) (ho : owner.allows sort.bodyKind = true)
    (hb : sort.bodyKind.needsBody = false) {front : List Token}
    (hf : List.Forall₂ (Shows line) (headingRow sort details) front)
    (ht : Below (line + 1) tail) :
    ∃ position, ReadsAs owner front tail
      (.member (.plain sort { details with position := some position } [] [])) := by
  obtain ⟨next, others, rfl, hbelow⟩ := ht
  have hn : next.line ≠ line := by omega
  obtain ⟨first, rest, keyword, he, hs, hl, hread⟩ := yields_heading h ho hf
  refine ⟨first.position, ⟨first, rest, he, hs⟩, fun body _ p => ?_⟩
  have hbody : Yields (p.ahead (next :: others)) (readBody body sort.bodyKind keyword) []
      (p.ahead (next :: others)) := by
    unfold readBody
    rw [hl]
    refine (yields_expectLineEnd (onLine_eq_false fun he => absurd he hn)).bind ?_
    refine (yields_opensBody_false hn).bind ?_
    rw [if_neg Bool.false_ne_true, hb]
    exact yields_pure []
  exact hread (fun he => absurd he hn) hbody

/-- The rows of an element with a body are read as the element with the entries of the body. -/
theorem readsAs_block {owner : BodyKind} {sort : PlainSort} {details : Details}
    (h : PlainHeading sort details) (ho : owner.allows sort.bodyKind = true)
    {front inner : List Token} {opening close : Token} {entries : List BodyEntry}
    (hf : List.Forall₂ (Shows line) (headingRow sort details) front)
    (hb : opening.kind = .sign .leftBrace ∧ opening.line = line)
    (hi : ReadsAll sort.bodyKind (close :: tail) inner entries)
    (hk : close.kind = .sign .rightBrace) (ht : tail ≠ []) :
    ∃ position, ReadsAs owner (front ++ opening :: (inner ++ [close])) tail
      (.member (entries.foldl Element.add
        (.plain sort { details with position := some position } [] []))) := by
  obtain ⟨hkind, hline⟩ := hb
  obtain ⟨first, rest, keyword, rfl, hs, hl, hread⟩ := yields_heading h ho hf
  refine ⟨first.position, ⟨first, _, rfl, hs⟩, fun body hdeep p => ?_⟩
  have hall : first :: rest ++ opening :: (inner ++ [close]) ++ tail =
      first :: rest ++ opening :: (inner ++ close :: tail) := by
    simp
  rw [hall]
  refine hread (fun _ => hkind) ?_
  unfold readBody
  rw [hl]
  refine (yields_expectLineEnd (onLine_eq_false fun _ => hkind)).bind ?_
  refine (yields_opensBody hkind hline (by simp)).bind ?_
  rw [if_pos rfl]
  refine hi.readBody hk ht hdeep ?_ p
  simp only [List.length_append, List.length_cons]
  omega

/-- The rows of an element are read as the element. -/
theorem readsAs_element {owner : BodyKind} {element : Element} (h : PlainElement owner element) :
    ∀ {line : Int} {tokens tail : List Token}, OnRows line (elementRows element) tokens →
      Below (line + (elementRows element).length) tail →
      ∃ read : Element, read.placeless = element.placeless ∧
        ReadsAs owner tokens tail (.member read) := by
  induction h with
  | @plain owner sort details relationships members allowed heading related ordered inner ih =>
    intro line tokens tail ho ht
    unfold elementRows at ho ht
    dsimp only at ho ht
    split at ho
    · rename_i hempty
      rw [if_pos hempty] at ht
      simp only [Bool.and_eq_true, List.isEmpty_iff, List.append_eq_nil_iff, List.map_eq_nil_iff,
        Bool.not_eq_true'] at hempty
      obtain ⟨⟨hrows, rfl⟩, hneeds⟩ := hempty
      obtain rfl : members = [] := by
        cases members with
        | nil => rfl
        | cons member members =>
          have hnone := (List.append_eq_nil_iff.mp hrows).1
          exact absurd hnone (inner member List.mem_cons_self).rows_ne_nil
      obtain _ | @⟨_, _, _, front, _, hf, _ | _⟩ := ho
      obtain ⟨position, hread⟩ := readsAs_heading heading allowed hneeds hf ht
      rw [List.append_nil]
      exact ⟨.plain sort { details with position := some position } [] [], rfl, hread⟩
    · rename_i hfull
      rw [if_neg hfull] at ht
      obtain ⟨front, opening, body, close, rfl, hf, hopen, hi, hk, hl⟩ := split_block ho
      have hbelow : Below (line + 1 + (memberRows members ++
          relationships.map relationshipRow).length) (close :: tail) :=
        ⟨close, tail, rfl, Int.le_of_eq hl.symm⟩
      obtain ⟨read, reads, hm, hr, hall⟩ := readsAll_inner ih
        (fun member hmem => (inner member hmem).legible) related hi hbelow
      obtain ⟨place, hread⟩ := readsAs_block heading allowed hf hopen hall hk ht.ne_nil
      have hordered : sort ≠ .group → ([] ++ read).Pairwise fun first second : Element =>
          first.rankInElement ≤ second.rankInElement :=
        fun hs => pairwise_rank Element.rankInElement_placeless hm (ordered hs)
      rw [List.foldl_append, foldl_members hordered, foldl_relationships] at hread
      refine ⟨_, ?_, hread⟩
      rw [Element.placeless, Element.placeless, Element.placelessOfList_eq,
        Element.placelessOfList_eq, List.nil_append, List.nil_append, hm, hr]
      rfl

end Blueprint.Printed
