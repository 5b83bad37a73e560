import Blueprint.Proofs.Tier.Nested
import Blueprint.Proofs.Untouched.Statement

/-!
# What a failing statement leaves of itself

A statement that fails in the body of a node is reported and passed over. The node then is what it
was before the statement, and nothing is attached to it or to anything else. There is one exception:
an image takes the form of a source before the source is read, and keeps it if the source is
missing.
-/

namespace Blueprint.Grammar

open Blueprint.Declared

/-! ## Images -/

/-- The view without the form in which the source of an image is given. -/
def formless (view : View) : View :=
  match view.sort with
  | .image scope content _ => { view with sort := .image scope content none }
  | _ => view

/-- The view is an image in another form than the one that a statement of it starts with. -/
def TakesForm (first : Token) (view : View) : Prop :=
  isViewWord first.kind = false ∧ imageForms.contains first.lexeme = true ∧
    ∃ scope content form, view.sort = .image scope content form ∧ form ≠ some first.lexeme

/-- A form that a view takes is nothing but a form. -/
theorem formless_takeForm (form : String) (view : View) :
    formless (takeForm form view) = formless view := by
  obtain ⟨details, sort⟩ := view
  unfold takeForm
  cases sort with
  | image scope content old =>
    dsimp only
    split <;> rfl
  | _ => rfl

/-- What a failing statement leaves of itself in a view is nothing but a form. -/
theorem formless_leaveInView (first : Token) (view : View) :
    formless (leaveInView first view) = formless view := by
  unfold leaveInView
  split
  · rfl
  · exact formless_takeForm first.lexeme view

/-- A failing statement leaves a view as it is exactly if the view takes no form. -/
theorem leaveInView_eq_iff (first : Token) (view : View) :
    leaveInView first view = view ↔ ¬ TakesForm first view := by
  unfold leaveInView TakesForm
  by_cases hw : isViewWord first.kind = true
  · rw [if_pos hw]
    exact ⟨fun _ ht => Bool.false_ne_true (ht.1.symm.trans hw), fun _ => rfl⟩
  rw [if_neg hw]
  obtain ⟨details, sort⟩ := view
  unfold takeForm
  cases sort with
  | image scope content form =>
    by_cases hc : imageForms.contains first.lexeme = true
    · simp only [if_pos hc]
      constructor
      · rintro he ⟨_, _, _, _, _, hs, hf⟩
        cases hs
        exact hf (ViewSort.image.inj (View.mk.inj he).2).2.2.symm
      · intro hn
        by_cases hf : form = some first.lexeme
        · rw [hf]
        · exact absurd ⟨Bool.eq_false_iff.mpr hw, hc, scope, content, form, rfl, hf⟩ hn
    · simp only [if_neg hc]
      exact ⟨fun _ ht => hc ht.2.1, fun _ => trivial⟩
  | _ => exact ⟨fun _ ⟨_, _, _, _, _, hs, _⟩ => (nomatch hs), fun _ => rfl⟩

/-! ## Bodies of nodes -/

/-- The bodies of nodes: of the model and its elements, of relationships, of views, of what stands
in them, of keys and values, of styles, of the branding, and of the documentation with its sections
and decisions. -/
inductive NodeBody where
  | element (depth : Nat) (owner : BodyKind)
  | model
  | relationship
  | view
  | parallel
  | animation
  | keyValues (depth : Nat)
  | styles
  | branding
  | documentation
  | «section»
  | decisions
  | decision

namespace NodeBody

/-- What is read so far of a node, for nodes that are not part of the workspace yet. The body of an
element is a list of what is declared in it; the steps of a parallel sequence are those of the view
that it stands in. -/
def Node : NodeBody → Type
  | element _ _ => List BodyEntry
  | relationship => Relationship
  | view | parallel => View
  | animation => Animation
  | keyValues _ => Properties
  | branding => Branding
  | «section» => Section
  | decision => Decision
  | model | styles | documentation | decisions => Unit

/-- The reader of the statements of a body. -/
def statement : (body : NodeBody) → NodeReader body.Node Unit
  | element depth owner => readBodyEntry (readEntriesWithin depth) owner
  | model => liftM readModelStatement
  | relationship => readRelationshipStatement
  | view => readViewStatement
  | parallel => readDynamicStep
  | animation => readAnimationStep
  | keyValues depth => readEntry (readKeyValuesWithin depth)
  | styles => liftM readStyle
  | branding => readBrandingStatement
  | documentation => liftM readDocumentationStatement
  | «section» => readSectionStatement
  | decisions => liftM readDecisionEntry
  | decision => readDecisionStatement

/-- The node without the form in which the source of an image is given. -/
def formless : (body : NodeBody) → body.Node → body.Node
  | view => Grammar.formless
  | _ => id

/-- The node is an image in another form than the one that a statement of it starts with. -/
def TakesForm : (body : NodeBody) → Token → body.Node → Prop
  | view => Grammar.TakesForm
  | _ => fun _ _ => False

/-- The statements of every body withdraw. -/
theorem withdraws_statement (body : NodeBody) (node : body.Node) :
    Withdraws (body.statement.fill node) := by
  cases body with
  | element depth owner =>
    exact withdraws_readBodyEntry (catches_readEntriesWithin depth) owner node
  | model => exact fill_liftM _ ▸ withdraws_readModelStatement
  | relationship => exact withdraws_readRelationshipStatement node
  | view => exact withdraws_readViewStatement node
  | parallel => exact withdraws_readDynamicStep node
  | animation => exact (looks_readAnimationStep node).withdraws
  | keyValues depth => exact withdraws_readEntry (withdraws_readKeyValuesWithin depth) node
  | styles => exact fill_liftM _ ▸ withdraws_readStyle
  | branding => exact (looks_readBrandingStatement node).withdraws
  | documentation => exact fill_liftM _ ▸ withdraws_readDocumentationStatement
  | «section» => exact (looks_readSectionStatement node).withdraws
  | decisions => exact fill_liftM _ ▸ withdraws_readDecisionEntry
  | decision => exact withdraws_readDecisionStatement node

/-- The statements of every body but that of a view spare the node. -/
theorem spares_statement {body : NodeBody} (h : body ≠ view) : Spares body.statement := by
  cases body with
  | view => exact absurd rfl h
  | element depth owner => exact spares_readBodyEntry _ owner
  | relationship => exact spares_readRelationshipStatement
  | parallel => exact spares_readDynamicStep
  | animation => exact spares_readAnimationStep
  | keyValues depth => exact spares_readEntry _
  | branding => exact spares_readBrandingStatement
  | «section» => exact spares_readSectionStatement
  | decision => exact spares_readDecisionStatement
  | model | styles | documentation | decisions => exact .lift _

/-- What a failing statement leaves in a node differs from what there was in nothing but a form, and
in that exactly if the node takes one. -/
theorem left_of_failed (body : NodeBody) {node left : body.Node} {p q : Progress} {first : Token}
    {tokens : List Token} {error : GrammarError} (hr : p.rest = first :: tokens)
    (hf : body.statement.runOn node p = ((.error (.failed error), left), q)) :
    body.formless left = body.formless node ∧ (left = node ↔ ¬ body.TakesForm first node) := by
  by_cases hv : body = view
  · subst hv
    obtain rfl := leaves_readViewStatement node first tokens p hr error left q hf
    exact ⟨formless_leaveInView first node, leaveInView_eq_iff first node⟩
  · obtain rfl := (spares_statement hv).left_eq node p error left q hf
    refine ⟨rfl, fun _ ht => ?_, fun _ => rfl⟩
    cases body with
    | view => exact hv rfl
    | _ => exact ht

end NodeBody

/-! ## Going on after a failure -/

variable {ν : Type} {p q r : Progress}

/-- A failed statement is reported. If the limit of errors is not reached, nothing but tokens is
touched then. -/
theorem run_passFailed {before : List Token} {error : GrammarError} {result : Except Halt Unit}
    (hs : (passFailed before error).run.run q = (result, r)) :
    (result = .error .stopped ∧ r = (q.reporting error).stopping error) ∨
      (q.reporting error).Untouched r := by
  unfold passFailed at hs
  rw [run_bind, run_report] at hs
  by_cases hl : q.limit ≤ (q.errors + 1 : Nat)
  · rw [if_pos hl] at hs
    obtain ⟨rfl, rfl⟩ := Prod.mk.inj hs
    exact .inl ⟨rfl, rfl⟩
  · rw [if_neg hl] at hs
    have hlooks := (looks_recoverFrom error.token).bind fun _ => looks_remaining.bind fun after =>
      looks_current.bind fun next => @Looks.ite _ _ _ ((after.length == before.length &&
        next.kind != .sign .rightBrace && next.kind != .endOfInput) = true) _
          (looks_advance.bind fun _ => .pure ()) (.pure ())
    exact .inr (hlooks _ _ _ hs)

/-- A body goes on with what a failing statement has left in the node. -/
theorem runOn_readStatement_failed {statement : NodeReader ν Unit} {node left next : ν}
    {error : GrammarError} {result : Except Halt Unit}
    (hf : statement.runOn node p = ((.error (.failed error), left), q))
    (hs : (readStatement statement).runOn node p = ((result, next), r)) :
    next = left ∧ (passFailed p.rest error).run.run q = (result, r) := by
  have hremaining : remaining.run.run p = (.ok p.rest, p) := rfl
  unfold readStatement at hs
  rw [runOn_lift_bind, hremaining] at hs
  dsimp only at hs
  rw [runOn_attempt, hf] at hs
  dsimp only at hs
  rw [runOn_lift] at hs
  obtain ⟨hleft, rfl⟩ := Prod.mk.inj hs
  obtain ⟨rfl, rfl⟩ := Prod.mk.inj hleft
  exact ⟨rfl, rfl⟩

/-- A statement that fails in the body of a node touches nothing but tokens. What it leaves in the
node differs from what there was in nothing but the form of an image's source, and it differs in
that exactly if the statement starts with another form than that of the image. The body goes on
with it, and the failure is the only thing that is reported. -/
theorem NodeBody.keeps_node_iff (body : NodeBody) {node left : body.Node} {first : Token}
    {tokens : List Token} {error : GrammarError} (hr : p.rest = first :: tokens)
    (hf : body.statement.runOn node p = ((.error (.failed error), left), q)) :
    p.Untouched q ∧ body.formless left = body.formless node ∧
      (left = node ↔ ¬ body.TakesForm first node) ∧
      ∀ result next r, (readStatement body.statement).runOn node p = ((result, next), r) →
        next = left ∧ r.workspace = p.workspace ∧ (result = .ok () → r.diagnostics =
          p.diagnostics ++ [.of (.grammar error.issue) (some error.token.position)]) := by
  have hfill : (body.statement.fill node).run.run p = (.error (.failed error), q) := by
    rw [run_fill, hf]
  have hu := body.withdraws_statement node p error q hfill
  obtain ⟨hform, hleft⟩ := body.left_of_failed hr hf
  refine ⟨hu, hform, hleft, fun result next r hs => ?_⟩
  obtain ⟨hnext, hpass⟩ := runOn_readStatement_failed hf hs
  refine ⟨hnext, ?_⟩
  rcases run_passFailed hpass with ⟨rfl, rfl⟩ | ht
  · exact ⟨hu.workspace, nofun⟩
  · refine ⟨ht.workspace.trans hu.workspace, fun _ => ?_⟩
    rw [ht.diagnostics, Progress.reporting, hu.diagnostics]

/-- A word stands alone on its line, before the brace that closes its block. -/
def alone (kind : Kind) (word : String) : Progress :=
  .start [⟨kind, word, ⟨1, 1, 0⟩, .absent⟩, ⟨.sign .rightBrace, "\x7d", ⟨2, 1, 10⟩, .absent⟩,
    .finish ⟨2, 2, 11⟩] [] defaultLimit

/-- A decision whose status is missing has the status that it had before. -/
theorem keeps_decision_status :
    ∃ error left q, readDecisionStatement.runOn { id := "1", status := "Proposed" }
        (alone (.keyword .status) "status") = ((.error (.failed error), left), q) ∧
      (alone (.keyword .status) "status").Untouched q ∧
      left = { id := "1", status := "Proposed" } := by
  refine ⟨_, _, _, rfl, ?_⟩
  have hf : NodeBody.decision.statement.runOn { id := "1", status := "Proposed" }
      (alone (.keyword .status) "status") = ((.error (.failed _), _), _) := rfl
  have h := NodeBody.keeps_node_iff .decision rfl hf
  exact ⟨h.1, h.2.2.1.2 id⟩

/-- An image that has a source in one form, and then a form without a source, has the source in the
second form. -/
theorem leave_form_ne :
    ∃ error left q, readViewStatement.runOn ⟨{}, .image "*" (some "a") (some "plantuml")⟩
        (alone .identifier "mermaid") = ((.error (.failed error), left), q) ∧
      left = ⟨{}, .image "*" (some "a") (some "mermaid")⟩ ∧
      left ≠ ⟨{}, .image "*" (some "a") (some "plantuml")⟩ :=
  ⟨_, _, _, rfl, rfl, by decide⟩

end Blueprint.Grammar
