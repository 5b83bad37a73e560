import Blueprint.Proofs.Echo.Body
import Blueprint.Proofs.Relaid.Body
import Blueprint.Proofs.Relaid.Workspace

/-!
# Boundaries of statements

A statement of a body is read up to the brace that opens a body inside it, then that body is read,
and a value is made of its entries. Up to the brace it does not matter how bodies are read. So a
statement either has no body, or it enters one, and what is read before the body is the same in
front of other tokens and in another layout. The loop over the statements of a body stands at a
boundary when it is about to read the next statement or the closing brace. A boundary is reached
from the start of the source by reading statements and by entering blocks. Which boundaries there
are does not depend on the layout.
-/

namespace Blueprint.Grammar

open Blueprint.Declared

variable {α β : Type} {p q r : Progress} {kind : BodyKind}

/-- How a statement is read, given how to read the bodies inside it. -/
abbrev Bodied (α : Type) : Type := (BodyKind → Reader (List BodyEntry)) → Reader α

/-- However bodies are read, from a progress the statement comes to read a body of a kind at another
progress, and then makes its value of the entries. -/
def Enters (statement : Bodied α) (p : Progress) (kind : BodyKind) (q : Progress)
    (finish : List BodyEntry → α) : Prop :=
  ∀ body, (statement body).run.run p = (do return finish (← body kind) : Reader α).run.run q

/-- However bodies are read, from a progress the statement is read in the same way. -/
def Ignores (statement : Bodied α) (p : Progress) : Prop :=
  ∀ body other, (statement body).run.run p = (statement other).run.run p

/-- From every progress a statement enters one body or none. -/
def Uniform (statement : Bodied α) : Prop :=
  ∀ p, Ignores statement p ∨ ∃ kind q finish, Enters statement p kind q finish

/-- A uniform statement enters a body of a kind if it ends there as a body of that kind does, and
otherwise than with other bodies. -/
theorem Uniform.exists_enters {statement : Bodied α} (h : Uniform statement)
    (hk : (statement fun other => if other = kind then throw .missing else throw .stopped).run.run
      p = (.error .missing, q))
    (ho : (statement fun _ => throw .stopped).run.run p = (.error .stopped, q)) :
    ∃ finish, Enters statement p kind q finish := by
  rcases h p with hi | ⟨other, r, finish, he⟩
  · rw [hi _ fun _ => throw .stopped, ho] at hk
    cases hk
  · rw [he] at hk
    by_cases hs : other = kind
    · rw [if_pos hs] at hk
      cases hk
      exact ⟨finish, hs ▸ he⟩
    · rw [if_neg hs] at hk
      cases hk

/-! ## Uniform statements -/

namespace Uniform

variable {statement other : Bodied α}

/-- What has no body ignores how bodies are read. -/
theorem const (reader : Reader α) : Uniform fun _ => reader :=
  fun _ => .inl fun _ _ => rfl

/-- A body is entered at once. -/
theorem body (kind : BodyKind) : Uniform fun body => body kind := by
  intro p
  refine .inr ⟨kind, p, id, fun body => ?_⟩
  exact congrArg (fun reader : Reader (List BodyEntry) => reader.run.run p)
    (bind_pure (body kind)).symm

/-- A reader before a statement does not depend on how bodies are read. -/
theorem bind {reader : Reader β} {next : β → Bodied α} (h : ∀ value, Uniform (next value)) :
    Uniform fun body => reader >>= fun value => next value body := by
  intro p
  rcases hr : reader.run.run p with ⟨halt | value, q⟩
  · refine .inl fun body other => ?_
    rw [run_bind, run_bind, hr]
  · have hrun : ∀ body, (reader >>= fun value => next value body).run.run p =
        (next value body).run.run q := by
      intro body
      rw [run_bind, hr]
    rcases h value q with hi | ⟨kind, r, finish, he⟩
    · exact .inl fun body other => (hrun body).trans ((hi body other).trans (hrun other).symm)
    · exact .inr ⟨kind, r, finish, fun body => (hrun body).trans (he body)⟩

/-- The value of a statement is changed after it. -/
theorem map (h : Uniform statement) (f : α → β) :
    Uniform fun body => do return f (← statement body) := by
  intro p
  rcases h p with hi | ⟨kind, q, finish, he⟩
  · refine .inl fun body other => ?_
    rw [run_bind, run_bind, hi body other]
  · refine .inr ⟨kind, q, fun entries => f (finish entries), fun body => ?_⟩
    rw [run_bind, he body, run_bind, run_bind]
    rcases (body kind).run.run q with ⟨halt | entries, r⟩ <;> rfl

/-- A choice that does not depend on how bodies are read. -/
theorem ite {holds : Prop} [Decidable holds] (ht : Uniform statement) (hf : Uniform other) :
    Uniform fun body => if holds then statement body else other body := by
  split
  · exact ht
  · exact hf

end Uniform

/-- The body of an element is entered if it is there. -/
theorem uniform_readBody (kind : BodyKind) (keyword : Token) :
    Uniform fun body => readBody body kind keyword := by
  unfold readBody
  refine .bind fun _ => .bind fun _ => .ite (.body kind) ?_
  exact .const _

/-- An instance is uniform. -/
theorem uniform_readInstance (kind : BodyKind) (instanceOf : InstanceOf)
    (identifier : Option String) (first keyword : Token) :
    Uniform fun body => readInstance body kind instanceOf identifier first keyword := by
  unfold readInstance
  exact .bind fun header => (uniform_readBody kind keyword).map _

/-- The enterprise is uniform. -/
theorem uniform_readEnterprise (identifier : Option String) (first keyword : Token) :
    Uniform fun body => readEnterprise body identifier first keyword := by
  unfold readEnterprise
  refine .ite (.bind fun _ => ?_) ?_
  · exact .bind fun name => (uniform_readBody .enterprise keyword).map _
  · exact .bind fun name => (uniform_readBody .enterprise keyword).map _

/-- Another element is uniform. -/
theorem uniform_readPlain (kind : BodyKind) (identifier : Option String) (first keyword : Token) :
    Uniform fun body => readPlain body kind identifier first keyword := by
  unfold readPlain
  exact .bind fun _ => .bind fun _ => .bind fun _ => .bind fun _ =>
    (uniform_readBody kind keyword).map _

/-- An element is uniform. -/
theorem uniform_readElement (kind : BodyKind) (identifier : Option String) (first : Token) :
    Uniform fun body => readElement body kind identifier first := by
  unfold readElement
  refine .bind fun keyword => ?_
  split
  · exact uniform_readInstance _ _ identifier first keyword
  · exact uniform_readInstance _ _ identifier first keyword
  · exact uniform_readEnterprise identifier first keyword
  · exact uniform_readPlain _ identifier first keyword

/-- A declaration of a body is uniform. -/
theorem uniform_readDeclaration (owner : BodyKind) :
    Uniform fun body => readDeclaration body owner := by
  unfold readDeclaration
  refine .bind fun first => .bind fun identifier => .bind fun token => .bind fun tokens =>
    .ite (.const _) ?_
  split
  · exact .const _
  · exact .ite (uniform_readElement _ identifier first) (.const _)

/-- A statement of a body is uniform. -/
theorem uniform_readBodyStatement (owner : BodyKind) :
    Uniform fun body => readBodyStatement body owner := by
  unfold readBodyStatement
  refine .bind fun token => .ite (.const _) (.bind fun change => ?_)
  split
  · exact .const _
  · exact (uniform_readDeclaration owner).map _

/-! ## Entering a body -/

namespace Enters

variable {statement : Bodied α} {finish : List BodyEntry → α} {fork : Fork} {n : Nat}
  {taken : α → Prop}

/-- A run of the body that is entered is followed by the value of the statement. -/
theorem yields (h : Enters statement p kind q finish)
    {body : BodyKind → Reader (List BodyEntry)} {entries : List BodyEntry}
    (hb : Yields q (body kind) entries r) : Yields p (statement body) (finish entries) r := by
  unfold Yields
  rw [h body]
  exact hb.map finish

/-- Before a fork a statement enters the same body. -/
theorem echo (h : Enters statement p kind q finish) (hu : Uniform statement)
    (hs : ∀ body, EchoBodies fork n body body → Echoes fork n taken (statement body)
      (statement body))
    (he : q.errors = p.errors) {front last : List Token} (hp : p.rest = front ++ fork.tokens)
    (hq : q.rest = last ++ fork.tokens) (hl : front.length < n)
    (hb : ∀ token ∈ front, token.line ≤ fork.line) :
    Enters statement (p.ahead (front ++ fork.others)) kind (q.ahead (last ++ fork.others))
      finish := by
  have hpure : ∀ entries, Yields (p.ahead (front ++ fork.others))
      (statement fun _ => pure entries) (finish entries) (q.ahead (last ++ fork.others)) :=
    fun entries => (hs (fun _ => pure entries) fun _ => .value entries).echo
      (h.yields (yields_pure entries)) he hp hq hl hb
  -- A body that leaves a mark shows that it is read in front of the other tokens too.
  have hmark : Yields (p.ahead (front ++ fork.others))
      (statement fun other => if other = kind then note (.order "") >>= fun _ => pure []
        else throw .missing) (finish [])
      (Progress.ahead { q with trace := q.trace ++ [.order ""] } (last ++ fork.others)) := by
    refine (hs _ fun other => .ite (fun _ => ?_) fun _ => .throw _).echo (h.yields ?_) he hp
      (by exact hq) hl hb
    · exact (echoes_note _).bind fun _ => .value []
    · rw [if_pos rfl]
      rfl
  rcases hu (p.ahead (front ++ fork.others)) with hi | ⟨other, r, make, ho⟩
  · have hsame := ((hpure []).symm.trans (hi _ _)).trans hmark
    have htrace := congrArg (fun outcome => outcome.2.trace) hsame
    have hne : q.trace ≠ q.trace ++ [.order ""] := by simp
    exact absurd htrace hne
  · have hkind : other = kind := by
      by_contra hk
      unfold Yields at hmark
      rw [ho, if_neg hk] at hmark
      cases hmark
    have hvalue : ∀ entries, make entries = finish entries ∧ r = q.ahead (last ++ fork.others) := by
      intro entries
      have hy := hpure entries
      unfold Yields at hy
      rw [ho] at hy
      obtain ⟨hv, hr⟩ := Prod.mk.inj hy
      exact ⟨Except.ok.inj hv, hr⟩
    obtain rfl : make = finish := funext fun entries => (hvalue entries).1
    rw [← hkind, ← (hvalue []).2]
    exact ho

/-- In another layout a statement enters a body of the same kind. -/
theorem relaid (h : Enters statement p kind q finish) (hu : Uniform statement)
    {places : List (Token × Token)} {related : α → α → Prop}
    (ht : ∀ body, TwinBodies places body body →
      Twins places related (statement body) (statement body))
    {before prior : List Diagnostic} {twin : Progress} (ha : Alike places before prior p twin) :
    ∃ other make, Enters statement twin kind other make ∧ Alike places before prior q other := by
  have hnone : EndAlike places before prior related _ _ :=
    ht (fun _ => pure []) (fun _ => .pure rfl) p twin ha
  have hthrow : EndAlike places before prior related _ _ :=
    ht (fun other => if other = kind then throw .missing else pure [])
      (fun other => .ite Iff.rfl (fun _ _ _ _ _ ha => .missing ha) fun _ => .pure rfl) p twin ha
  rw [h] at hnone hthrow
  rw [if_pos rfl] at hthrow
  rcases hu twin with hi | ⟨other, r, make, ho⟩
  · -- The run in the other layout would both go through and not.
    rw [hi _ (fun _ => pure [])] at hthrow
    generalize (statement fun _ => pure []).run.run twin = outcome at hnone hthrow
    cases hthrow with
    | missing => cases hnone
  · rw [ho] at hthrow
    by_cases hk : other = kind
    · rw [if_pos hk] at hthrow
      cases hthrow with
      | missing hm => exact ⟨r, make, hk ▸ ho, hm⟩
    · rw [if_neg hk] at hthrow
      cases hthrow

end Enters

/-! ## Reaching a boundary -/

/-- From the start of a body, the loop over its statements, or over those of a body inside it,
comes to stand at a progress. -/
inductive BodyReaches : BodyKind → Progress → BodyKind → Progress → Prop
  /-- Statements of the body are read. -/
  | here {owner : BodyKind} {p q : Progress} {entries : List BodyEntry}
    (through : RunsThrough (readBodyEntry readEntries owner).fill [] p entries q) :
    BodyReaches owner p owner q
  /-- Statements of the body are read, and the next one enters a body. -/
  | inside {owner kind inner : BodyKind} {p q r s : Progress} {entries : List BodyEntry}
    {finish : List BodyEntry → List BodyEntry}
    (through : RunsThrough (readBodyEntry readEntries owner).fill [] p entries q)
    (enters : Enters (fun body => readBodyStatement body owner) q kind r finish)
    (reaches : BodyReaches kind r inner s) : BodyReaches owner p inner s

/-- From the start of a block `model`, the loop over its statements, or over those of a body inside
it, comes to stand at a progress. -/
inductive ModelReaches : Progress → BodyKind → Progress → Prop
  /-- Statements of the model are read. -/
  | here {p q : Progress} (through : RunsThrough (fun _ => readModelStatement) () p () q) :
    ModelReaches p .model q
  /-- Statements of the model are read, and the next one enters a body. -/
  | inside {kind inner : BodyKind} {p q r s : Progress} {finish : List BodyEntry → List BodyEntry}
    (through : RunsThrough (fun _ => readModelStatement) () p () q)
    (enters : Enters (fun body => readBodyStatement body .model) q kind r finish)
    (reaches : BodyReaches kind r inner s) : ModelReaches p inner s

/-- Reads what comes before the statements of a block `model`. -/
def openModel : Reader Unit := do
  let keyword ← advance
  modifyWorkspace fun workspace =>
    { workspace with
      model := some (workspace.model.getD { position := some keyword.position }) }
  expectOpening

/-- Reads what comes before the statements of the workspace. -/
def openWorkspace : Reader Unit := do
  let keyword ← advance
  let arguments ← takePositional keyword.line 2
  modifyWorkspace fun workspace =>
    { workspace with
      position := some keyword.position
      name := argument arguments 0
      description := argument arguments 1 }
  expectLineEnd keyword.line
  expectOpening

/-- The block `model` is what comes before its statements, and these. -/
theorem readModel_eq : readModel = openModel >>= fun _ => readBlockOf readModelStatement := by
  unfold readModel openModel
  simp only [bind_assoc]

/-- The workspace is what comes before its statements, and these. -/
theorem readWorkspace_eq :
    readWorkspace = openWorkspace >>= fun _ => readBlockOf readWorkspaceStatement := by
  unfold readWorkspace openWorkspace
  simp only [bind_assoc]

/-- From the start of a source, the loop over the statements of a block `model`, or over those of a
body inside it, comes to stand at a progress: directives are read, the workspace is opened,
statements of it are read, a block `model` is opened, and the loop comes to stand in it. -/
inductive Reaches (p : Progress) (owner : BodyKind) (s : Progress) : Prop
  /-- The blocks are opened one inside the other. -/
  | inside {q r t u : Progress} {keyword word : Token}
    (directives : Yields p (readDirectives p.rest.length) () q)
    (workspace : q.rest.head? = some keyword) (isWorkspace : keyword.kind = .keyword .workspace)
    (opens : Yields q openWorkspace () r)
    (through : RunsThrough (fun _ => readWorkspaceStatement) () r () t)
    (model : t.rest.head? = some word) (isModel : word.kind = .keyword .model)
    (enters : Yields t openModel () u) (reaches : ModelReaches u owner s) : Reaches p owner s

/-- The loop over the statements of a body goes on from a progress: a statement is read there, or
the closing brace is next. -/
def GoesOn (owner : BodyKind) (p : Progress) : Prop :=
  (∃ entries q, Yields p (readBodyStatement readEntries owner) entries q) ∨
    ∃ token, p.rest.head? = some token ∧ token.kind = .sign .rightBrace

/-! ## Boundaries in another layout -/

variable {places : List (Token × Token)} {before prior : List Diagnostic} {twin : Progress}

/-- A run that yields a value does so in another layout. -/
theorem Twins.yields {related : α → α → Prop} {reader mate : Reader α} {value : α}
    (h : Twins places related reader mate) (hy : Yields p reader value q)
    (ha : Alike places before prior p twin) :
    ∃ same other, Yields twin mate same other ∧ related value same ∧
      Alike places before prior q other := by
  have hr := h p twin ha
  unfold Yields at hy ⊢
  rw [hy] at hr
  generalize mate.run.run twin = outcome at hr ⊢
  cases hr with
  | ok hv ha => exact ⟨_, _, rfl, hv, ha⟩

/-- Where a token is next in one layout, one of its kind is next in the other. -/
theorem Alike.exists_cons (h : Matched places) (ha : Alike places before prior p twin)
    {token : Token} {tokens : List Token} (hp : p.rest = token :: tokens) :
    ∃ same others, twin.rest = same :: others ∧ same.kind = token.kind := by
  obtain ⟨left, hs, hl, ho⟩ := ha.rest
  rw [hp] at hl
  cases left with
  | nil => cases hl
  | cons place left =>
    obtain ⟨rfl, -⟩ := List.cons.inj hl
    exact ⟨place.2, left.map Prod.snd, ho, (h.kind (hs.subset List.mem_cons_self)).symm⟩

/-- Where a token of a kind is next in one layout, one of that kind is next in the other. -/
theorem Alike.exists_head (h : Matched places) (ha : Alike places before prior p twin)
    {token : Token} (hp : p.rest.head? = some token) :
    ∃ same, twin.rest.head? = some same ∧ same.kind = token.kind := by
  obtain ⟨tokens, hr⟩ := List.head?_eq_some_iff.mp hp
  obtain ⟨same, others, ho, hk⟩ := ha.exists_cons h hr
  exact ⟨same, by rw [ho, List.head?_cons], hk⟩

/-- As many tokens are left in both layouts. -/
theorem Alike.length_eq (ha : Alike places before prior p twin) :
    p.rest.length = twin.rest.length := by
  obtain ⟨left, _, hl, ho⟩ := ha.rest
  rw [hl, ho, List.length_map, List.length_map]

/-- Statements that are run in one layout are run in the other. -/
theorem RunsThrough.relaid {statement : α → Reader α} {related : α → α → Prop} {value last : α}
    (h : RunsThrough statement value p last q) (hm : Matched places)
    (ht : ∀ value same, related value same →
      Twins places related (statement value) (statement same))
    {same : α} (hv : related value same) (ha : Alike places before prior p twin) :
    ∃ final other, RunsThrough statement same twin final other ∧ related last final ∧
      Alike places before prior q other := by
  induction h generalizing same twin with
  | done => exact ⟨same, twin, .done, hv, ha⟩
  | step start open_ne end_ne taken here _ ih =>
    obtain ⟨token, tokens, hr, hk⟩ := ha.exists_cons hm start
    obtain ⟨middle, between, hy, hn, hb⟩ := (ht _ _ hv).yields here ha
    obtain ⟨final, other, hs, hf, ho⟩ := ih hn hb
    rw [ha.length_eq, hb.length_eq] at taken
    exact ⟨final, other, .step hr (hk ▸ open_ne) (hk ▸ end_ne) taken hy hs, hf, ho⟩

/-- Statements of a body that are run in one layout are run in the other. -/
theorem RunsThrough.relaid_entries {owner : BodyKind} {entries : List BodyEntry}
    (h : RunsThrough (readBodyEntry readEntries owner).fill [] p entries q) (hm : Matched places)
    (ha : Alike places before prior p twin) :
    ∃ others other, RunsThrough (readBodyEntry readEntries owner).fill [] twin others other ∧
      Alike places before prior q other := by
  have hnone : SameEntries [] [] := rfl
  obtain ⟨others, other, hr, _, ho⟩ := h.relaid hm
    (fun _ _ hs => twins_readBodyEntry hm (twins_readEntries hm) owner hs) hnone ha
  exact ⟨others, other, hr, ho⟩

/-- Statements that change the workspace only and are run in one layout are run in the other. -/
theorem RunsThrough.relaid_unit {statement : Reader Unit}
    (h : RunsThrough (fun _ => statement) () p () q) (hm : Matched places)
    (ht : Twins places Eq statement statement) (ha : Alike places before prior p twin) :
    ∃ other, RunsThrough (fun _ => statement) () twin () other ∧
      Alike places before prior q other := by
  obtain ⟨_, other, hr, _, ho⟩ := h.relaid hm (fun _ _ _ => ht) rfl ha
  exact ⟨other, hr, ho⟩

/-- In another layout a statement of a body enters a body of the same kind. -/
theorem Enters.relaid_statement {owner kind : BodyKind} {finish : List BodyEntry → List BodyEntry}
    (h : Enters (fun body => readBodyStatement body owner) p kind q finish) (hm : Matched places)
    (ha : Alike places before prior p twin) :
    ∃ other make, Enters (fun body => readBodyStatement body owner) twin kind other make ∧
      Alike places before prior q other :=
  h.relaid (uniform_readBodyStatement owner) (fun _ hb => twins_readBodyStatement hm hb owner) ha

/-- A boundary in a body is one in another layout. -/
theorem BodyReaches.relaid {owner inner : BodyKind} (h : BodyReaches owner p inner q)
    (hm : Matched places) (ha : Alike places before prior p twin) :
    ∃ other, BodyReaches owner twin inner other ∧ Alike places before prior q other := by
  induction h generalizing twin with
  | here through =>
    obtain ⟨_, other, hr, ho⟩ := through.relaid_entries hm ha
    exact ⟨other, .here hr, ho⟩
  | inside through enters _ ih =>
    obtain ⟨_, between, hr, hb⟩ := through.relaid_entries hm ha
    obtain ⟨start, make, he, hs⟩ := enters.relaid_statement hm hb
    obtain ⟨other, hi, ho⟩ := ih hs
    exact ⟨other, .inside hr he hi, ho⟩

/-- A boundary in the model is one in another layout. -/
theorem ModelReaches.relaid {owner : BodyKind} (h : ModelReaches p owner q)
    (hm : Matched places) (ha : Alike places before prior p twin) :
    ∃ other, ModelReaches twin owner other ∧ Alike places before prior q other := by
  cases h with
  | here through =>
    obtain ⟨other, hr, ho⟩ := through.relaid_unit hm (twins_readModelStatement hm) ha
    exact ⟨other, .here hr, ho⟩
  | inside through enters reaches =>
    obtain ⟨between, hr, hb⟩ := through.relaid_unit hm (twins_readModelStatement hm) ha
    obtain ⟨start, make, he, hs⟩ := enters.relaid_statement hm hb
    obtain ⟨other, hi, ho⟩ := reaches.relaid hm hs
    exact ⟨other, .inside hr he hi, ho⟩

/-- What comes before the statements of a block `model` is the same. -/
theorem twins_openModel (h : Matched places) : Twins places Eq openModel openModel := by
  unfold openModel
  refine .advance fun keyword twin _ => ?_
  have hblock : Same Model.unplaced { position := some keyword.position }
      { position := some twin.position } := rfl
  refine (twins_modifyWorkspace
    (fun block workspace => { workspace with model := some (workspace.model.getD block) })
    Model.unplaced (fun block workspace => ?_) hblock).bind_eq fun _ => twins_expectOpening h
  cases hm : workspace.model <;> simp [Workspace.unplaced, hm]

/-- What comes before the statements of the workspace is the same. -/
theorem twins_openWorkspace (h : Matched places) :
    Twins places Eq openWorkspace openWorkspace := by
  unfold openWorkspace
  refine .advance fun keyword twin hk => ?_
  have hl := h.level hk
  refine (twins_takePositional h hl 2).bind_eq fun arguments => ?_
  have hplace : Same somewhere (some keyword.position) (some twin.position) := rfl
  refine (twins_modifyWorkspace
    (fun position workspace =>
      { workspace with
        position
        name := argument arguments 0
        description := argument arguments 1 })
    somewhere (fun _ _ => rfl) hplace).bind_eq fun _ => ?_
  exact (twins_expectLineEnd h hl).bind_eq fun _ => twins_expectOpening h

/-- A boundary in a source is one in another layout. -/
theorem Reaches.relaid {owner : BodyKind} (h : Reaches p owner q) (hm : Matched places)
    (ha : Alike places before prior p twin) :
    ∃ other, Reaches twin owner other ∧ Alike places before prior q other := by
  obtain ⟨directives, workspace, isWorkspace, opens, through, model, isModel, enters, reaches⟩ := h
  rw [ha.length_eq] at directives
  obtain ⟨_, first, hdirectives, _, ha⟩ := (twins_readDirectives hm _).yields directives ha
  obtain ⟨keyword, hkeyword, hk⟩ := ha.exists_head hm workspace
  obtain ⟨_, second, hopens, _, ha⟩ := (twins_openWorkspace hm).yields opens ha
  obtain ⟨third, hthrough, ha⟩ := through.relaid_unit hm (twins_readWorkspaceStatement hm) ha
  obtain ⟨word, hword, hw⟩ := ha.exists_head hm model
  obtain ⟨_, fourth, henters, _, ha⟩ := (twins_openModel hm).yields enters ha
  obtain ⟨other, hreaches, ha⟩ := reaches.relaid hm ha
  exact ⟨other, .inside hdirectives hkeyword (hk.trans isWorkspace) hopens hthrough hword
    (hw.trans isModel) henters hreaches, ha⟩

/-- Where the loop goes on in one layout, it goes on in the other. -/
theorem GoesOn.relaid {owner : BodyKind} (h : GoesOn owner p) (hm : Matched places)
    (ha : Alike places before prior p twin) : GoesOn owner twin := by
  rcases h with ⟨entries, q, hy⟩ | ⟨token, hr, hk⟩
  · obtain ⟨others, other, ho, _⟩ :=
      (twins_readBodyStatement hm (twins_readEntries hm) owner).yields hy ha
    exact .inl ⟨others, other, ho⟩
  · obtain ⟨same, hs, he⟩ := ha.exists_head hm hr
    exact .inr ⟨same, hs, he.trans hk⟩

end Blueprint.Grammar
