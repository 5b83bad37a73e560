import Blueprint.Proofs.Grammar.Parse
import Blueprint.Proofs.Places.Node

/-!
# Runs that keep places

Reading takes places from tokens only. A reader keeps places if, from tokens and a workspace whose
places are among some positions, it arrives at such tokens and such a workspace again, however it
ends; and what it reads has places among them too.
-/

namespace Blueprint.Grammar

open Blueprint.Declared

variable {α β : Type} {spots : Position → Prop}

/-- The places of the tokens that are left, and of what is read so far, are among some positions. -/
structure Progress.Anchored (spots : Position → Prop) (p : Progress) : Prop where
  /-- The places of the tokens. -/
  tokens : ∀ token ∈ p.rest, spots token.position
  /-- The places of what is read. -/
  workspace : p.workspace.Anchored spots

/-- Places that tokens and the workspace have are kept when tokens are taken. -/
theorem Progress.lasting_anchored : Lasting (Progress.Anchored spots) :=
  fun _ _ hp hs hw => ⟨fun token ht => hp.tokens token (hs.subset ht), hw ▸ hp.workspace⟩

/-- A reader keeps places, and its value is good. -/
def Anchors (spots : Position → Prop) (reader : Reader α) (good : α → Prop) : Prop :=
  ∀ p : Progress, p.Anchored spots → ∀ result q, reader.run.run p = (result, q) →
    q.Anchored spots ∧ ∀ value, result = .ok value → good value

/-- A reader keeps places, and its value has none. -/
abbrev Keeps (spots : Position → Prop) (reader : Reader α) : Prop :=
  Anchors spots reader fun _ => True

namespace Anchors

variable {reader : Reader α} {good better : α → Prop} {fit : β → Prop}

/-- A value alone changes nothing. -/
theorem pure {value : α} (h : good value) : Anchors spots (pure value) good :=
  Maintains.pure h

/-- A halt changes nothing. -/
theorem throw (halt : Halt) : Anchors spots (throw halt : Reader α) good :=
  Maintains.throw halt

/-- A failed statement changes nothing. -/
theorem fail (issue : GrammarIssue) (token : Token) :
    Anchors spots (fail issue token : Reader α) good :=
  .throw _

/-- Readers that keep places, one after the other. -/
theorem bind {next : α → Reader β} (h : Anchors spots reader good)
    (hn : ∀ value, good value → Anchors spots (next value) fit) :
    Anchors spots (reader >>= next) fit :=
  Maintains.bind h hn

/-- A choice between readers that keep places. -/
theorem ite {holds : Prop} [Decidable holds] {alternative : Reader α}
    (ht : Anchors spots reader good) (hf : Anchors spots alternative good) :
    Anchors spots (if holds then reader else alternative) good :=
  Maintains.ite ht hf

/-- What is read after a check, where the check and what is read in any case keep places. -/
theorem guarded {holds : Prop} [Decidable holds] {check : Reader Unit} {next : Unit → Reader α}
    (hc : Keeps spots check) (hn : ∀ value, Anchors spots (next value) good) :
    Anchors spots (if holds then check >>= next else next ()) good :=
  .ite (hc.bind fun value _ => hn value) (hn ())

/-- A change that keeps places. -/
theorem modify {change : Progress → Progress}
    (h : ∀ p, Progress.Anchored spots p → (change p).Anchored spots) :
    Keeps spots (modify change : Reader Unit) :=
  Maintains.modify h

end Anchors

/-! ## Tokens -/

/-- The next token has one of the places. -/
theorem anchors_current : Anchors spots current fun token => spots token.position :=
  Maintains.current fun _ hp => hp.tokens

/-- The tokens that are left have the places. -/
theorem anchors_remaining :
    Anchors spots remaining fun tokens => ∀ token ∈ tokens, spots token.position :=
  Maintains.remaining fun _ hp => hp.tokens

/-- Looking for a sign keeps places. -/
theorem keeps_isSign (sign : Sign) : Keeps spots (isSign sign) := by
  unfold isSign isNext
  exact anchors_current.bind fun _ _ => .pure trivial

/-- Looking up an entry keeps places. -/
theorem anchors_lookUp (entry : Option α) :
    Anchors spots (lookUp entry) fun found => entry = some found := by
  cases entry with
  | none => exact .throw _
  | some entry => exact .pure rfl

/-- Taking a token keeps places, and it has one of them. -/
theorem anchors_advance : Anchors spots advance fun token => spots token.position :=
  Maintains.advance Progress.lasting_anchored fun _ hp => hp.tokens

/-- Noting what happens keeps places. -/
theorem keeps_note (event : Event) : Keeps spots (note event) :=
  .modify fun _ hp => ⟨hp.tokens, hp.workspace⟩

/-- Taking a key keeps places. -/
theorem anchors_takeKey : Anchors spots takeKey fun token => spots token.position :=
  anchors_advance.bind fun key hk => (keeps_note (.key key)).bind fun _ _ => .pure hk

/-- Going on with tokens that have the places. -/
theorem keeps_continueWith {tokens : List Token} (h : ∀ token ∈ tokens, spots token.position) :
    Keeps spots (continueWith tokens) :=
  .modify fun _ hp => ⟨h, hp.workspace⟩

/-- Changing the workspace in a way that keeps places. -/
theorem keeps_modifyWorkspace {change : Workspace → Workspace}
    (h : ∀ workspace, Workspace.Anchored spots workspace → (change workspace).Anchored spots) :
    Keeps spots (modifyWorkspace change) :=
  .modify fun _ hp => ⟨hp.tokens, h _ hp.workspace⟩

/-- A remark keeps places. -/
theorem keeps_remark (issue : Issue) (position : Position) : Keeps spots (remark issue position) :=
  .modify fun _ hp => ⟨hp.tokens, hp.workspace⟩

/-- The report of a failed statement keeps places, whether it stops reading or not. -/
theorem keeps_report (error : GrammarError) : Keeps spots (report error) :=
  Maintains.report Progress.lasting_anchored error

/-! ## Lines -/

/-- Failing in place of something else changes nothing. -/
theorem anchors_failExpected {good : α → Prop} (wanted : Wanted) (token : Token) :
    Anchors spots (failExpected wanted token : Reader α) good :=
  .fail _ token

/-- Failing at something that is not expected changes nothing. -/
theorem anchors_failUnexpected {good : α → Prop} (place : Place) (token : Token) :
    Anchors spots (failUnexpected place token : Reader α) good :=
  .fail _ token

/-- Taking a token of one of some kinds keeps places. -/
theorem anchors_expect (kinds : List Kind) :
    Anchors spots (expect kinds) fun token => spots token.position := by
  unfold expect
  exact anchors_current.bind fun token _ => .ite anchors_advance (anchors_failExpected _ token)

/-- Taking an opening brace keeps places. -/
theorem keeps_expectOpening : Keeps spots expectOpening := by
  unfold expectOpening
  exact (anchors_expect _).bind fun _ _ => .pure trivial

/-- Taking a string literal keeps places. -/
theorem keeps_expectString (line : Int) (wanted : Wanted) :
    Keeps spots (expectString line wanted) := by
  unfold expectString
  exact anchors_current.bind fun token _ =>
    .ite (anchors_advance.bind fun _ _ => .pure trivial) (anchors_failExpected wanted token)

/-- Taking a single value keeps places. -/
theorem keeps_expectSingle (line : Int) (wanted : Wanted) :
    Keeps spots (expectSingle line wanted) := by
  unfold expectSingle
  exact anchors_current.bind fun token _ =>
    .ite (anchors_advance.bind fun _ _ => .pure trivial) (anchors_failExpected wanted token)

/-- Taking the values of a line keeps places. -/
theorem keeps_takeValues (line : Int) : Keeps spots (takeValues line) := by
  unfold takeValues afterLine
  refine anchors_remaining.bind fun tokens ht => (keeps_continueWith ?_).bind fun _ _ =>
    .pure trivial
  exact fun token hm => ht token ((List.dropWhile_suffix _).subset hm)

/-- Taking the rest of a line as a value keeps places. -/
theorem keeps_expectValue (line : Int) (wanted : Wanted) :
    Keeps spots (expectValue line wanted) := by
  unfold expectValue
  refine (keeps_takeValues line).bind fun values _ => ?_
  split
  · exact anchors_current.bind fun token _ => anchors_failExpected _ token
  · exact .pure trivial

/-- Taking arguments keeps places. -/
theorem keeps_takePositional (line : Int) (limit : Nat) :
    Keeps spots (takePositional line limit) := by
  unfold takePositional
  exact anchors_remaining.bind fun tokens ht =>
    (keeps_continueWith fun token hm => ht token (List.mem_of_mem_drop hm)).bind fun _ _ =>
      .pure trivial

/-- Reaching the end of a line keeps places. -/
theorem keeps_expectLineEnd (line : Int) : Keeps spots (expectLineEnd line) := by
  unfold expectLineEnd
  exact anchors_current.bind fun token _ =>
    .ite (anchors_failUnexpected .line token) (.pure trivial)

/-- Opening a body keeps places. -/
theorem keeps_opensBody (line : Int) : Keeps spots (opensBody line) := by
  unfold opensBody
  exact anchors_current.bind fun token _ =>
    .ite (anchors_advance.bind fun _ _ => .pure trivial) (.pure trivial)

/-! ## Failed statements -/

/-- A statement outside of blocks keeps places if its reader does. -/
theorem keeps_readOrSkip {statement : Reader Unit} (h : Keeps spots statement) :
    Keeps spots (readOrSkip statement) :=
  Maintains.readOrSkip Progress.lasting_anchored h

variable {good : α → Prop} {leave : Token → α → α} {statement : α → Reader α}

/-- A block keeps places if the reader of its statements does. -/
theorem anchors_readBlockLeaving (h : ∀ value, good value → Anchors spots (statement value) good)
    (hl : ∀ token value, good value → good (leave token value)) {value : α} (hv : good value) :
    Anchors spots (readBlockLeaving leave statement value) good :=
  Maintains.readBlockLeaving Progress.lasting_anchored h hl hv

/-- The body of a node keeps places if the reader of its statements does. -/
theorem anchors_readBlock {statement : NodeReader α Unit} [Spares statement]
    (h : ∀ node, good node → Anchors spots (statement.fill node) good) {node : α}
    (hv : good node) : Anchors spots (readBlock statement node) good :=
  Maintains.readBlock Progress.lasting_anchored h hv

/-- A block whose statements change the workspace only keeps places if their reader does. -/
theorem keeps_readBlockOf {statement : Reader Unit} (h : Keeps spots statement) :
    Keeps spots (readBlockOf statement) :=
  Maintains.readBlockOf Progress.lasting_anchored h

end Blueprint.Grammar
