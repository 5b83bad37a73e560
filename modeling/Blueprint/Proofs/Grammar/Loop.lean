import Blueprint.Proofs.Grammar.Parse

/-!
# The loops of reading

Fifteen sorts of blocks are read, each by a loop over its statements, and one more loop reads the
directives before the workspace. Every round that goes on takes a token, and a block ends with its
closing brace or with the input, never for another reason.
-/

namespace Blueprint.Grammar

open Blueprint.Declared Blueprint.Text

variable {spots : Position → Prop} {p q : Progress} {α ν : Type} {bound : Nat} {good : ν → Prop}
  {statement : NodeReader ν Unit}

/-- The sorts of blocks: what holds of the node that is read, and how a statement in it is read,
while no more than a number of tokens is left. -/
inductive BlockLoop (spots : Position → Prop) :
    Nat → {ν : Type} → (ν → Prop) → NodeReader ν Unit → Prop
  /-- Keys and values, with blocks inside each other. -/
  | entries (depth : Nat) :
    BlockLoop spots depth (fun _ => True) (readEntry (readKeyValuesWithin depth))
  /-- The body of an element, with bodies inside each other. -/
  | body (depth : Nat) (owner : BodyKind) :
    BlockLoop spots (depth + 1) (fun entries => ∀ entry ∈ entries, entry.Located spots owner)
      (readBodyEntry (readEntriesWithin depth) owner)
  /-- The model. -/
  | model (bound : Nat) :
    BlockLoop spots bound (fun _ : Unit => True) (liftM readModelStatement)
  /-- The body of a relationship. -/
  | relationship (bound : Nat) :
    BlockLoop spots bound (fun relationship => Marked spots relationship.position)
      readRelationshipStatement
  /-- The body of a view. -/
  | view (bound : Nat) :
    BlockLoop spots bound (View.Located spots) readViewStatement
  /-- An animation. -/
  | animation (bound : Nat) :
    BlockLoop spots bound (fun animation => Marked spots animation.position)
      readAnimationStep
  /-- A parallel sequence of a dynamic view. -/
  | parallel (bound : Nat) :
    BlockLoop spots bound (View.Located spots) readDynamicStep
  /-- The styles. -/
  | styles (bound : Nat) :
    BlockLoop spots bound (fun _ : Unit => True) (liftM readStyle)
  /-- The branding. -/
  | branding (bound : Nat) :
    BlockLoop spots bound (fun _ => True) readBrandingStatement
  /-- A section of the documentation. -/
  | «section» (bound : Nat) :
    BlockLoop spots bound (fun _ => True) readSectionStatement
  /-- A decision. -/
  | decision (bound : Nat) :
    BlockLoop spots bound (fun decision => Marked spots decision.position) readDecisionStatement
  /-- The decisions. -/
  | decisions (bound : Nat) :
    BlockLoop spots bound (fun _ : Unit => True) (liftM readDecisionEntry)
  /-- The documentation. -/
  | documentation (bound : Nat) :
    BlockLoop spots bound (fun _ : Unit => True) (liftM readDocumentationStatement)
  /-- The views. -/
  | views (bound : Nat) :
    BlockLoop spots bound (fun _ : Unit => True) (liftM readViewsStatement)
  /-- The workspace. -/
  | workspace (bound : Nat) :
    BlockLoop spots bound (fun _ : Unit => True) (liftM readWorkspaceStatement)

/-- The statements of every block take a token at least. -/
theorem BlockLoop.steady (h : BlockLoop spots bound good statement) :
    Steady spots bound good statement.fill := by
  cases h with
  | entries => exact steady_readEntry (readsBlock_readKeyValuesWithin bound)
  | body depth owner => exact steady_readBodyEntry (readsBody_readEntriesWithin depth) owner
  | model => exact fill_liftM _ ▸ steady_readModelStatement bound
  | relationship => exact steady_readRelationshipStatement bound
  | view => exact steady_readViewStatement bound
  | animation => exact steady_readAnimationStep bound
  | parallel => exact steady_readDynamicStep bound
  | styles => exact fill_liftM _ ▸ steady_readStyle bound
  | branding => exact steady_readBrandingStatement bound
  | «section» => exact steady_readSectionStatement bound
  | decision => exact steady_readDecisionStatement bound
  | decisions => exact fill_liftM _ ▸ steady_readDecisionEntry bound
  | documentation => exact fill_liftM _ ▸ steady_readDocumentationStatement bound
  | views => exact fill_liftM _ ▸ steady_readViewsStatement bound
  | workspace => exact fill_liftM _ ▸ steady_readWorkspaceStatement bound

/-- What a failing statement leaves of itself is told from its first token, and it is as good as
what was there. -/
theorem BlockLoop.leaves (h : BlockLoop spots bound good statement) :
    ∃ leave, Leaves leave statement ∧ ∀ token node, good node → good (leave token node) := by
  cases h with
  | view => exact ⟨leaveInView, leaves_readViewStatement, fun token _ => located_leaveInView token⟩
  | entries => exact ⟨_, (spares_readEntry _).leaves, fun _ _ => id⟩
  | body => exact ⟨_, (spares_readBodyEntry _ _).leaves, fun _ _ => id⟩
  | relationship => exact ⟨_, spares_readRelationshipStatement.leaves, fun _ _ => id⟩
  | animation => exact ⟨_, spares_readAnimationStep.leaves, fun _ _ => id⟩
  | parallel => exact ⟨_, spares_readDynamicStep.leaves, fun _ _ => id⟩
  | branding => exact ⟨_, spares_readBrandingStatement.leaves, fun _ _ => id⟩
  | «section» => exact ⟨_, spares_readSectionStatement.leaves, fun _ _ => id⟩
  | decision => exact ⟨_, spares_readDecisionStatement.leaves, fun _ _ => id⟩
  | model | styles | decisions | documentation | views | workspace =>
    exact ⟨_, (Spares.lift _).leaves, fun _ _ => id⟩

/-- A run that ends with a value meets its condition. -/
theorem Runs.of_run_ok {reader : Reader α} {post : α → Progress → Prop} {value : α}
    (h : Runs spots p reader post) (hr : reader.run.run p = (.ok value, q)) :
    Follows spots p q ∧ post value q := by
  unfold Runs at h
  rw [hr] at h
  exact h

/-- A round of a block that goes on takes a token. -/
theorem BlockLoop.round_taken (h : BlockLoop spots bound good statement) (hs : p.Sound spots)
    (hb : p.rest.length ≤ bound) {node next : ν} (hv : good node)
    (hk : p.next.kind ≠ .sign .rightBrace) (hn : p.next.kind ≠ .endOfInput)
    (hr : ((readStatement statement).fill node).run.run p = (.ok next, q)) :
    q.rest.length < p.rest.length := by
  obtain ⟨leave, hleaves, hgood⟩ := h.leaves
  obtain ⟨tokens, hrest⟩ := hs.rest_eq
  rw [run_fill_readStatement hleaves hrest] at hr
  have hrun := runs_readStatement hs hk hn (h.steady p node hs hb hk hn hv) (hgood p.next node hv)
  exact (hrun.of_run_ok hr).2.2.taken

/-- A block that is read closes. -/
theorem BlockLoop.closes (h : BlockLoop spots bound good statement) (hs : p.Sound spots)
    (hb : p.rest.length ≤ bound) {node next : ν} (hv : good node)
    (hr : (readBlock statement node).run.run p = (.ok next, q)) : Closes p q := by
  obtain ⟨leave, hleaves, hgood⟩ := h.leaves
  rw [readBlock_eq hleaves] at hr
  exact ((closes_readBlockLeaving h.steady hgood hs hb hv).of_run_ok hr).2.2

/-- A round over the directives before the workspace takes a token. -/
theorem directive_taken (hs : p.Sound spots) (hd : isDirective p.next = true)
    (hr : (readOrSkip readDirective).run.run p = (.ok (), q)) :
    q.rest.length < p.rest.length :=
  ((runs_skipDirective hs hd).of_run_ok hr).2.taken

end Blueprint.Grammar
