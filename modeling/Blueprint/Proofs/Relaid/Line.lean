import Blueprint.Grammar.Progress
import Mathlib.Data.List.Chain
import Mathlib.Data.List.TakeWhile

/-!
# Tokens that are laid out anew

Two lists of tokens are laid out anew of each other if they have the same tokens on lines in the
same order, with the same neighbours adjacent. Columns, offsets and the numbers of lines may differ.
What is read from the tokens of a line is then the same: the same values, the same arguments, and
what is left are tokens that stand for each other.
-/

namespace Blueprint.Grammar

/-- Two lists of tokens differ in where their tokens stand only, and neither in the order of lines
nor in which neighbours are adjacent. -/
structure Relaid (tokens others : List Token) : Prop where
  /-- There are as many tokens in both. -/
  length : tokens.length = others.length
  /-- Tokens at the same index are of one kind, and written and read in the same way. -/
  same : ∀ (i : Nat) (h : i < tokens.length) (ho : i < others.length),
    tokens[i].kind = others[i].kind ∧ tokens[i].lexeme = others[i].lexeme ∧
      tokens[i].value = others[i].value
  /-- The lines of any two tokens are in the same order. -/
  lines : ∀ (i : Nat) (hi : i < tokens.length) (hi' : i < others.length)
    (j : Nat) (hj : j < tokens.length) (hj' : j < others.length),
    tokens[i].line < tokens[j].line ↔ others[i].line < others[j].line
  /-- A token follows the one before it at once in both lists or in neither. -/
  adjacent : ∀ (i : Nat) (h : i + 1 < tokens.length) (ho : i + 1 < others.length),
    tokens[i + 1].position.offset = tokens[i].endOffset ↔
      others[i + 1].position.offset = others[i].endOffset

/-- Pairs of tokens of which the first ones and the second ones are laid out anew of each other. -/
structure Matched (places : List (Token × Token)) : Prop where
  /-- The tokens of a pair are of one kind, and written and read in the same way. -/
  same : ∀ place ∈ places, place.1.kind = place.2.kind ∧ place.1.lexeme = place.2.lexeme ∧
    place.1.value = place.2.value
  /-- The lines of any two tokens are in the same order. -/
  lines : ∀ first ∈ places, ∀ second ∈ places,
    (first.1.line < second.1.line ↔ first.2.line < second.2.line)
  /-- A token follows the one before it on its line at once on both sides or on neither. -/
  adjacent : places.IsChain fun first second => first.1.line = second.1.line →
    (second.1.position.offset = first.1.endOffset ↔ second.2.position.offset = first.2.endOffset)

/-- Tokens that are laid out anew match, token by token. -/
theorem Relaid.matched {tokens others : List Token} (h : Relaid tokens others) :
    Matched (tokens.zip others) where
  same := by
    intro place hp
    obtain ⟨i, hi, rfl⟩ := List.mem_iff_getElem.mp hp
    have hl := List.length_zip ▸ hi
    rw [List.getElem_zip]
    exact h.same i (by omega) (by omega)
  lines := by
    intro first hf second hs
    obtain ⟨i, hi, rfl⟩ := List.mem_iff_getElem.mp hf
    obtain ⟨j, hj, rfl⟩ := List.mem_iff_getElem.mp hs
    have hli := List.length_zip ▸ hi
    have hlj := List.length_zip ▸ hj
    rw [List.getElem_zip, List.getElem_zip]
    exact h.lines i (by omega) (by omega) j (by omega) (by omega)
  adjacent := by
    refine List.isChain_iff_getElem.mpr fun i hi => ?_
    have hl := List.length_zip ▸ hi
    rw [List.getElem_zip, List.getElem_zip]
    exact fun _ => h.adjacent i (by omega) (by omega)

/-- A line of one layout and a line of another stand in the same order to the lines of tokens that
match. -/
def Level (places : List (Token × Token)) (line other : Int) : Prop :=
  ∀ place ∈ places, (place.1.line < line ↔ place.2.line < other) ∧
    (line < place.1.line ↔ other < place.2.line)

variable {places left : List (Token × Token)} {token twin : Token} {line other : Int}

/-! ## Single tokens -/

namespace Matched

/-- Tokens that match are of one kind. -/
theorem kind (h : Matched places) (hp : (token, twin) ∈ places) : token.kind = twin.kind :=
  (h.same _ hp).1

/-- Tokens that match are written in the same way. -/
theorem lexeme (h : Matched places) (hp : (token, twin) ∈ places) : token.lexeme = twin.lexeme :=
  (h.same _ hp).2.1

/-- Tokens that match are read in the same way. -/
theorem value (h : Matched places) (hp : (token, twin) ∈ places) : token.value = twin.value :=
  (h.same _ hp).2.2

/-- The lines of tokens that match stand in the same order to those of all tokens. -/
theorem level (h : Matched places) (hp : (token, twin) ∈ places) :
    Level places token.line twin.line :=
  fun place hm => ⟨h.lines place hm _ hp, h.lines _ hp place hm⟩

/-- Tokens that match contribute the same text to a value. -/
theorem text (h : Matched places) (hp : (token, twin) ∈ places) : token.text = twin.text := by
  unfold Token.text
  rw [h.kind hp, h.lexeme hp, h.value hp]

/-- Tokens that match are described in the same way. -/
theorem found (h : Matched places) (hp : (token, twin) ∈ places) : token.found = twin.found := by
  unfold Token.found
  rw [h.kind hp, h.lexeme hp]

/-- Tokens that match are parts of references both, or neither is. -/
theorem isReferencePart (h : Matched places) (hp : (token, twin) ∈ places) :
    isReferencePart token = isReferencePart twin := by
  unfold Grammar.isReferencePart
  rw [h.kind hp]

/-- Tokens that match may be arguments both, or neither may. -/
theorem isPositional (h : Matched places) (hp : (token, twin) ∈ places) :
    isPositional token = isPositional twin := by
  unfold Grammar.isPositional
  rw [h.kind hp]

end Matched

/-- A token is on a line if the one that matches it is on the line that stands for it. -/
theorem Level.beq (hl : Level places line other) (hp : (token, twin) ∈ places) :
    (token.line == line) = (twin.line == other) := by
  obtain ⟨hb, ha⟩ := hl _ hp
  dsimp only at hb ha
  rw [Bool.eq_iff_iff, beq_iff_eq, beq_iff_eq]
  omega

/-- A token is below a line if the one that matches it is below the line that stands for it. -/
theorem Level.lt (hl : Level places line other) (hp : (token, twin) ∈ places) :
    decide (line < token.line) = decide (other < twin.line) :=
  decide_eq_decide.mpr (hl _ hp).2

/-- A token continues a statement if the one that matches it does. -/
theorem Level.onLine (hl : Level places line other) (h : Matched places)
    (hp : (token, twin) ∈ places) : onLine line token = onLine other twin := by
  unfold Grammar.onLine
  rw [hl.beq hp, h.kind hp]

/-! ## Lists of tokens -/

/-- Tests that agree on tokens that match take as many tokens. -/
theorem takeWhile_matched (accepts admits : Token → Bool)
    (h : ∀ place ∈ left, accepts place.1 = admits place.2) :
    ∃ taken, taken <+: left ∧ (left.map Prod.fst).takeWhile accepts = taken.map Prod.fst ∧
      (left.map Prod.snd).takeWhile admits = taken.map Prod.snd := by
  induction left with
  | nil => exact ⟨[], List.nil_prefix, rfl, rfl⟩
  | cons place rest ih =>
    obtain ⟨taken, hp, hf, hs⟩ := ih fun other ho => h other (List.mem_cons_of_mem _ ho)
    have hh := h place List.mem_cons_self
    rw [List.map_cons, List.map_cons, List.takeWhile_cons, List.takeWhile_cons, hf, hs, ← hh]
    by_cases ha : accepts place.1 = true
    · rw [if_pos ha, if_pos ha]
      exact ⟨place :: taken, (List.prefix_cons_inj place).mpr hp, rfl, rfl⟩
    · rw [if_neg ha, if_neg ha]
      exact ⟨[], List.nil_prefix, rfl, rfl⟩

/-- Tests that agree on tokens that match leave tokens that match. -/
theorem dropWhile_matched (accepts admits : Token → Bool)
    (h : ∀ place ∈ left, accepts place.1 = admits place.2) :
    ∃ rest, rest <:+ left ∧ (left.map Prod.fst).dropWhile accepts = rest.map Prod.fst ∧
      (left.map Prod.snd).dropWhile admits = rest.map Prod.snd := by
  induction left with
  | nil => exact ⟨[], List.suffix_rfl, rfl, rfl⟩
  | cons place more ih =>
    obtain ⟨rest, hp, hf, hs⟩ := ih fun other ho => h other (List.mem_cons_of_mem _ ho)
    have hh := h place List.mem_cons_self
    rw [List.map_cons, List.map_cons, List.dropWhile_cons, List.dropWhile_cons, hf, hs, ← hh]
    by_cases ha : accepts place.1 = true
    · rw [if_pos ha, if_pos ha]
      exact ⟨rest, hp.trans (List.suffix_cons _ _), rfl, rfl⟩
    · rw [if_neg ha, if_neg ha]
      exact ⟨place :: more, List.suffix_rfl, rfl, rfl⟩

/-- Tokens that match are cut into groups at the same points. -/
theorem exists_groups (hk : ∀ place ∈ left, place.1.kind = place.2.kind)
    (hc : left.IsChain fun first second =>
      second.1.position.offset = first.1.endOffset ↔
        second.2.position.offset = first.2.endOffset) :
    ∃ groups : List (List (Token × Token)), groups.flatten = left ∧
      groupJoined (left.map Prod.fst) = groups.map (List.map Prod.fst) ∧
      groupJoined (left.map Prod.snd) = groups.map (List.map Prod.snd) := by
  induction left with
  | nil => exact ⟨[], rfl, rfl, rfl⟩
  | cons place rest ih =>
    obtain ⟨groups, hg, hf, hs⟩ :=
      ih (fun other ho => hk other (List.mem_cons_of_mem _ ho)) hc.tail
    rw [List.map_cons, List.map_cons, groupJoined, groupJoined, hf, hs]
    rcases groups with _ | ⟨_ | ⟨next, more⟩, groups⟩
    · exact ⟨[[place]], by rw [← hg]; rfl, rfl, rfl⟩
    · exact ⟨[place] :: [] :: groups, by rw [← hg]; rfl, rfl, rfl⟩
    · have hr : rest = next :: (more ++ groups.flatten) := by rw [← hg]; rfl
      have hn : next ∈ place :: rest := by
        rw [hr]
        exact List.mem_cons_of_mem _ List.mem_cons_self
      have hj : joined place.1 next.1 = joined place.2 next.2 := by
        have ho : (next.1.position.offset == place.1.endOffset) =
            (next.2.position.offset == place.2.endOffset) := by
          rw [hr] at hc
          rw [Bool.eq_iff_iff, beq_iff_eq, beq_iff_eq]
          exact (List.isChain_cons_cons.mp hc).1
        unfold joined
        rw [ho, hk place List.mem_cons_self, hk next hn]
      simp only [List.map_cons, hj]
      by_cases ha : joined place.2 next.2 = true
      · rw [if_pos ha, if_pos ha]
        exact ⟨(place :: next :: more) :: groups, by rw [hr]; rfl, rfl, rfl⟩
      · rw [if_neg ha, if_neg ha]
        exact ⟨[place] :: (next :: more) :: groups, by rw [hr]; rfl, rfl, rfl⟩

/-- The values of a line are the same. -/
theorem lineValues_matched (h : Matched places) (hl : Level places line other)
    (hs : left <:+ places) :
    lineValues line (left.map Prod.fst) = lineValues other (left.map Prod.snd) := by
  have hon : ∀ place ∈ left, onLine line place.1 = onLine other place.2 :=
    fun place hm => hl.onLine h (hs.subset hm)
  obtain ⟨taken, hp, hf, ht⟩ := takeWhile_matched (onLine line) (onLine other) hon
  have hin : ∀ place ∈ taken, place ∈ places := fun place hm => hs.subset (hp.subset hm)
  have hkinds : ∀ place ∈ taken, place.1.kind = place.2.kind :=
    fun place hm => (h.same place (hin place hm)).1
  obtain ⟨more, hm⟩ := hp
  have hchain := h.adjacent.suffix hs
  rw [← hm] at hchain
  have hline : ∀ place ∈ taken, place.1.line = line := by
    intro place hp
    have ht := List.mem_map_of_mem (f := Prod.fst) hp
    rw [← hf] at ht
    have hon := List.mem_takeWhile_imp ht
    simp only [onLine, Bool.and_eq_true, beq_iff_eq] at hon
    exact hon.1
  obtain ⟨groups, hg, hgf, hgs⟩ := exists_groups hkinds <|
    hchain.left_of_append.imp_of_mem_imp fun first second hfirst hsecond hadjacent =>
      hadjacent ((hline first hfirst).trans (hline second hsecond).symm)
  unfold lineValues
  rw [hf, ht, hgf, hgs, List.map_map, List.map_map]
  refine List.map_congr_left fun group hm => ?_
  simp only [Function.comp_apply, valueText, List.flatMap_map]
  refine List.flatMap_congr fun place hg' => h.text (hin place ?_)
  rw [← hg]
  exact List.mem_flatten.mpr ⟨group, hm, hg'⟩

/-- What is left after a line matches. -/
theorem afterLine_matched (h : Matched places) (hl : Level places line other)
    (hs : left <:+ places) :
    ∃ rest, rest <:+ places ∧ afterLine line (left.map Prod.fst) = rest.map Prod.fst ∧
      afterLine other (left.map Prod.snd) = rest.map Prod.snd := by
  have hon : ∀ place ∈ left, onLine line place.1 = onLine other place.2 :=
    fun place hm => hl.onLine h (hs.subset hm)
  obtain ⟨rest, hp, he⟩ := dropWhile_matched (onLine line) (onLine other) hon
  exact ⟨rest, hp.trans hs, he⟩

/-- The arguments at the start of a line match. -/
theorem positional_matched (h : Matched places) (hl : Level places line other)
    (hs : left <:+ places) (limit : Nat) :
    ∃ taken, taken ⊆ places ∧
      positional line limit (left.map Prod.fst) = taken.map Prod.fst ∧
      positional other limit (left.map Prod.snd) = taken.map Prod.snd := by
  have hin : ∀ place ∈ left.take limit, place ∈ places :=
    fun place hm => hs.subset (List.mem_of_mem_take hm)
  have hon : ∀ place ∈ left.take limit, (place.1.line == line && isPositional place.1) =
      (place.2.line == other && isPositional place.2) := by
    intro place hm
    rw [hl.beq (hin place hm), h.isPositional (hin place hm)]
  obtain ⟨taken, hp, hf, ht⟩ := takeWhile_matched
    (fun token => token.line == line && isPositional token)
    (fun token => token.line == other && isPositional token) hon
  refine ⟨taken, fun place hm => hin place (hp.subset hm), ?_, ?_⟩
  · rw [← hf, List.map_take]
    rfl
  · rw [← ht, List.map_take]
    rfl

/-- What is left after a dotted path matches. -/
theorem afterPath_matched (h : Matched places) (path : List (Token × Token))
    (hs : path ⊆ places) :
    ∃ rest, rest ⊆ places ∧ afterPath (path.map Prod.fst) = rest.map Prod.fst ∧
      afterPath (path.map Prod.snd) = rest.map Prod.snd := by
  match path with
  | [] => exact ⟨[], hs, rfl, rfl⟩
  | [place] => exact ⟨[place], hs, rfl, rfl⟩
  | dot :: part :: rest =>
    have hd : isDot dot.1 = isDot dot.2 := by
      unfold isDot
      rw [h.kind (hs List.mem_cons_self)]
    have hp := h.isReferencePart (hs (List.mem_cons_of_mem _ List.mem_cons_self))
    rw [List.map_cons, List.map_cons, List.map_cons, List.map_cons, afterPath, afterPath, hd, hp]
    by_cases hc : (isDot dot.2 && isReferencePart part.2) = true
    · rw [if_pos hc, if_pos hc]
      exact afterPath_matched h rest fun place hm =>
        hs (List.mem_cons_of_mem _ (List.mem_cons_of_mem _ hm))
    · rw [if_neg hc, if_neg hc]
      exact ⟨dot :: part :: rest, hs, rfl, rfl⟩

/-- A relationship starts at both of two tokens that match or at neither. -/
theorem startsRelationship_matched (h : Matched places) (hs : left ⊆ places) :
    startsRelationship (left.map Prod.fst) = startsRelationship (left.map Prod.snd) := by
  cases left with
  | nil => rfl
  | cons first rest =>
    have hp := hs List.mem_cons_self
    obtain ⟨after, ha, hf, ht⟩ :=
      afterPath_matched h rest fun place hm => hs (List.mem_cons_of_mem first hm)
    rw [List.map_cons, List.map_cons, startsRelationship, startsRelationship, hf, ht,
      h.isReferencePart hp, h.kind hp]
    cases after with
    | nil => rfl
    | cons arrow more =>
      have hm := ha List.mem_cons_self
      simp only [List.map_cons, h.kind hm, (h.level hp).beq hm]

/-- What is left after a statement that failed matches. -/
theorem afterStatement_matched (h : Matched places) (hl : Level places line other) (depth : Nat)
    (failed : List (Token × Token)) (hs : failed <:+ places) :
    ∃ rest, rest <:+ places ∧
      afterStatement line depth (failed.map Prod.fst) = rest.map Prod.fst ∧
      afterStatement other depth (failed.map Prod.snd) = rest.map Prod.snd := by
  match failed with
  | [] => exact ⟨[], hs, by simp [afterStatement]⟩
  | [place] => exact ⟨[place], hs, by simp [afterStatement]⟩
  | place :: next :: rest =>
    have hp := hs.subset List.mem_cons_self
    have hr : next :: rest <:+ places := (List.suffix_cons _ _).trans hs
    rw [List.map_cons, List.map_cons, List.map_cons, List.map_cons, afterStatement, afterStatement,
      h.kind hp, hl.lt hp]
    split
    · exact ⟨place :: next :: rest, hs, rfl, rfl⟩
    · split
      · exact afterStatement_matched h hl (depth + 1) (next :: rest) hr
      · split
        · exact afterStatement_matched h hl (depth - 1) (next :: rest) hr
        · exact afterStatement_matched h hl depth (next :: rest) hr

end Blueprint.Grammar
