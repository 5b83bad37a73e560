import Blueprint.Proofs.Relaid.Run

/-!
# Lines and blocks that are laid out anew

What is read from a line and from the statements of a block is the same in two layouts, whether or
not statements fail: what a failed statement leaves behind is told from the order of lines alone.
-/

namespace Blueprint.Grammar

open Blueprint.Declared Blueprint.Text

variable {places left : List (Token × Token)} {token twin : Token} {line other : Int}
variable {α : Type} {related : α → α → Prop}

/-! ## Lines -/

/-- Tokens of one of some kinds match. -/
theorem twins_expect (h : Matched places) (kinds : List Kind) :
    Twins places (fun token twin => (token, twin) ∈ places) (expect kinds) (expect kinds) := by
  unfold expect
  refine .current fun token twin ht => .ite (by rw [h.kind ht]) (fun _ => twins_advance) fun _ => ?_
  exact .failExpected h ht _

/-- An opening brace is taken in both layouts. -/
theorem twins_expectOpening (h : Matched places) :
    Twins places Eq expectOpening expectOpening := by
  unfold expectOpening
  exact (twins_expect h _).bind fun _ _ _ => .pure rfl

/-- The same string literal is taken. -/
theorem twins_expectString (h : Matched places) (hl : Level places line other) (wanted : Wanted) :
    Twins places Eq (expectString line wanted) (expectString other wanted) := by
  unfold expectString
  refine .current fun token twin ht => ?_
  rw [h.kind ht, hl.beq ht, h.text ht]
  exact .ite Iff.rfl (fun _ => .advance fun _ _ _ => .pure rfl) fun _ => .failExpected h ht _

/-- The same word, string literal or whole number is taken. -/
theorem twins_expectSingle (h : Matched places) (hl : Level places line other) (wanted : Wanted) :
    Twins places Eq (expectSingle line wanted) (expectSingle other wanted) := by
  unfold expectSingle
  refine .current fun token twin ht => ?_
  rw [h.kind ht, hl.beq ht, h.text ht]
  exact .ite Iff.rfl (fun _ => .advance fun _ _ _ => .pure rfl) fun _ => .failExpected h ht _

/-- The same values are taken from a line. -/
theorem twins_takeValues (h : Matched places) (hl : Level places line other) :
    Twins places Eq (takeValues line) (takeValues other) := by
  unfold takeValues
  refine .remaining fun left hs => ?_
  obtain ⟨rest, hr, hf, ht⟩ := afterLine_matched h hl hs
  rw [hf, ht]
  exact (twins_continueWith hr).bind_eq fun _ => .pure (lineValues_matched h hl hs)

/-- The rest of a line is the same value, or fails at tokens that match. -/
theorem twins_expectValue (h : Matched places) (hl : Level places line other) (wanted : Wanted) :
    Twins places Eq (expectValue line wanted) (expectValue other wanted) := by
  unfold expectValue
  refine (twins_takeValues h hl).bind_eq fun values => ?_
  split
  · exact .current fun _ _ ht => .failExpected h ht _
  · exact .pure rfl

/-- The same arguments are taken from a line. -/
theorem twins_takePositional (h : Matched places) (hl : Level places line other) (limit : Nat) :
    Twins places Eq (takePositional line limit) (takePositional other limit) := by
  unfold takePositional
  refine .remaining fun left hs => ?_
  obtain ⟨taken, hin, hf, ht⟩ := positional_matched h hl hs limit
  dsimp only
  rw [hf, ht, List.length_map, List.length_map, ← List.map_drop, ← List.map_drop]
  refine (twins_continueWith ((List.drop_suffix _ _).trans hs)).bind_eq fun _ => .pure ?_
  rw [List.map_map, List.map_map]
  exact List.map_congr_left fun place hm => congrArg Text.shown (h.text (hin hm))

/-- A line ends in both layouts, or goes on with tokens that match. -/
theorem twins_expectLineEnd (h : Matched places) (hl : Level places line other) :
    Twins places Eq (expectLineEnd line) (expectLineEnd other) := by
  unfold expectLineEnd
  refine .current fun token twin ht => ?_
  refine .ite (by rw [hl.onLine h ht]) (fun _ => ?_) fun _ => .pure rfl
  exact .failUnexpected h ht _

/-- A body opens on the same line in both layouts or in neither. -/
theorem twins_opensBody (h : Matched places) (hl : Level places line other) :
    Twins places Eq (opensBody line) (opensBody other) := by
  unfold opensBody
  refine .current fun token twin ht => ?_
  refine .ite (by rw [h.kind ht, hl.beq ht]) (fun _ => ?_) fun _ => .pure rfl
  exact .advance fun _ _ _ => .pure rfl

/-! ## Failed statements -/

/-- What is left of a failed statement matches. -/
theorem twins_recoverFrom (h : Matched places) (ht : (token, twin) ∈ places) :
    Twins places Eq (recoverFrom token) (recoverFrom twin) := by
  unfold recoverFrom
  refine .remaining fun left hs => ?_
  obtain ⟨rest, hr, hf, he⟩ := afterStatement_matched h (h.level ht) 0 left hs
  rw [hf, he]
  exact twins_continueWith hr

/-- Statements outside of blocks are passed over in the same way. -/
theorem twins_readOrSkip (h : Matched places) {statement mate : Reader Unit}
    (hs : Twins places Eq statement mate) :
    Twins places Eq (readOrSkip statement) (readOrSkip mate) := by
  unfold readOrSkip
  refine hs.attempt fun issue token twin ht => ?_
  exact (twins_report _ _ _).bind_eq fun _ => twins_recoverFrom h ht

/-- Statements of a block are read or passed over in the same way. -/
theorem twins_readStatement (h : Matched places) {leave quit : Token → α → α}
    {statement mate : α → Reader α} {value same : α} (hv : related value same)
    (hs : ∀ value same, related value same → Twins places related (statement value) (mate same))
    (hl : ∀ token twin value same, (token, twin) ∈ places → related value same →
      related (leave token value) (quit twin same)) :
    Twins places related (readStatementLeaving leave statement value)
      (readStatementLeaving quit mate same) := by
  unfold readStatementLeaving
  refine .current fun first begin hb => .remaining fun before _ => ?_
  refine (hs value same hv).attempt fun issue token twin ht => ?_
  refine (twins_report _ _ _).bind_eq fun _ => (twins_recoverFrom h ht).bind_eq fun _ => ?_
  refine .remaining fun after _ => .current fun next follow hn => ?_
  have hvalue : related (leave first value) (quit begin same) := hl _ _ _ _ hb hv
  refine .ite ?_ (fun _ => .advance fun _ _ _ => .pure hvalue) fun _ => .pure hvalue
  rw [h.kind hn, List.length_map, List.length_map, List.length_map, List.length_map]

/-! ## Blocks -/

/-- A block without an end is reported in both layouts. -/
theorem twins_reportUnclosed (token twin : Token) :
    Twins places Eq (reportUnclosed token) (reportUnclosed twin) := by
  have hn : Twins places Eq
      (modify fun progress => { progress with endReported := true } : Reader Unit)
      (modify fun progress => { progress with endReported := true }) :=
    .modify fun p q ha => ⟨ha.rest, ha.workspace, ha.diagnostics, ha.errors, rfl, ha.limit⟩
  unfold reportUnclosed
  exact hn.bind_eq fun _ => twins_report _ _ _

/-- Blocks of statements that are twins are twins. -/
theorem twins_readBlockWithin (h : Matched places) {leave quit : Token → α → α}
    {statement mate : α → Reader α}
    (hs : ∀ value same, related value same → Twins places related (statement value) (mate same))
    (hl : ∀ token twin value same, (token, twin) ∈ places → related value same →
      related (leave token value) (quit twin same)) (count : Nat) {value same : α}
    (hv : related value same) :
    Twins places related (readBlockWithin leave statement count value)
      (readBlockWithin quit mate count same) := by
  induction count generalizing value same with
  | zero => exact .pure hv
  | succ count ih =>
    unfold readBlockWithin
    refine .current fun token twin ht => ?_
    rw [h.kind ht]
    refine .ite Iff.rfl (fun _ => ?_) fun _ => .ite Iff.rfl (fun _ => ?_) fun _ => ?_
    · refine .get fun p q ha => .ite (by rw [ha.endReported]) (fun _ => ?_) fun _ => .pure hv
      exact (twins_reportUnclosed _ _).bind_eq fun _ => .pure hv
    · exact .advance fun _ _ _ => .pure hv
    · exact (twins_readStatement h hv hs hl).bind fun _ _ hr => ih hr

/-- Blocks of statements that are twins are twins. -/
theorem twins_readBlockLeaving (h : Matched places) {leave quit : Token → α → α}
    {statement mate : α → Reader α} {value same : α} (hv : related value same)
    (hs : ∀ value same, related value same → Twins places related (statement value) (mate same))
    (hl : ∀ token twin value same, (token, twin) ∈ places → related value same →
      related (leave token value) (quit twin same)) :
    Twins places related (readBlockLeaving leave statement value)
      (readBlockLeaving quit mate same) := by
  unfold readBlockLeaving
  refine .remaining fun left _ => ?_
  rw [List.length_map, List.length_map]
  exact twins_readBlockWithin h hs hl _ hv

/-- Blocks of statements that are twins are twins. -/
theorem twins_readBlock (h : Matched places) {statement mate : NodeReader α Unit}
    [Spares statement] [Spares mate] {node same : α} (hv : related node same)
    (hs : ∀ node same, related node same →
      Twins places related (statement.fill node) (mate.fill same)) :
    Twins places related (readBlock statement node) (readBlock mate same) := by
  rw [readBlock_eq_keeping, readBlock_eq_keeping]
  exact twins_readBlockLeaving h hv hs fun _ _ _ _ _ hr => hr

/-- Blocks of statements that are twins are twins. -/
theorem twins_readBlockOf (h : Matched places) {statement mate : Reader Unit}
    (hs : Twins places Eq statement mate) :
    Twins places Eq (readBlockOf statement) (readBlockOf mate) := by
  rw [readBlockOf_eq, readBlockOf_eq]
  exact twins_readBlockLeaving h rfl (fun _ _ _ => hs) fun _ _ _ _ _ hr => hr

end Blueprint.Grammar
