import Blueprint.Proofs.Echo.Block

/-!
# Bodies of the model before a fork

Bodies, their statements and the relationships in them are the same before a fork. Whether a
relationship starts is told from tokens on one line, so a tail below that line does not matter.
-/

namespace Blueprint.Grammar

open Blueprint.Declared Blueprint.Text

variable {α β : Type} {p q : Progress} {fork : Fork} {line : Int} {m n : Nat}
variable {taken : α → Prop} {joined : β → Prop}

/-! ## Directives -/

/-- The rest of a directive is the same. -/
theorem echoes_readDirectiveAfter {token : Token} (hl : fork.Above n token.line) :
    Echoes fork n (fun _ => False) (readDirectiveAfter token) (readDirectiveAfter token) := by
  unfold readDirectiveAfter
  refine (echoes_takeValues hl).bind fun values => ?_
  split
  · exact echoes_remark _ _
  · exact .guarded (.guarded (echoes_modifyWorkspace _))

/-- A directive is the same. -/
theorem echoes_readDirective :
    Echoes fork n (fun _ => True) readDirective readDirective := by
  unfold readDirective
  exact .advance fun _ _ _ ha => echoes_readDirectiveAfter ha

/-! ## References -/

/-- The further parts of a reference are the same if the bounds are large enough. -/
theorem echoes_readPathParts {count other : Nat} (hc : n ≤ count) (ho : n ≤ other) :
    Echoes fork n (fun _ => False) (readPathParts count) (readPathParts other) := by
  induction count generalizing n other with
  | zero =>
    obtain rfl : n = 0 := by omega
    exact .of_passes (.pure not_false)
  | succ count ih =>
    refine .of_succ _ ho fun other ho => ?_
    rw [readPathParts, readPathParts, isSign_bind, isSign_bind]
    refine .current_ahead (fun token m hm _ => ⟨fun hk => ?_, fun _ => ?_⟩)
      fun head name hn hs => ?_
    · rw [hk]
      exact .value []
    · refine .ite (fun _ => EchoesAhead.andThen echoes_advance fun _ => ?_)
        fun _ => (Echoes.value []).ahead
      refine .look fun part k hk _ => .ite (fun _ => .advance fun _ j hj _ => ?_) fun _ => .fail
      exact (ih (by omega) (by omega)).bind fun _ => .value _
    · refine EchoesHere.neither (fun h => hs.heads.dot_ne (beq_iff_eq.mp h)) (fun h => ?_)
        ((Echoes.value []).here hn)
      exact hs.heads.sign_ne .dot (by decide) (beq_iff_eq.mp h)

/-- A reference on a line is the same. -/
theorem echoes_readReference (line : Int) :
    Echoes fork n (fun _ => True) (readReference line) (readReference line) := by
  unfold readReference
  refine .look fun token m _ _ => .guarded (.advance fun _ k _ _ => ?_)
  refine .ite (fun _ => .value _) fun _ => .remaining fun _ _ j _ ht ho => ?_
  exact (echoes_readPathParts ht ho).bind fun _ => .value _

/-! ## Relationships -/

/-- What is left after a path are some of the tokens. -/
theorem mem_of_mem_afterPath {tokens : List Token} {token : Token}
    (h : token ∈ afterPath tokens) : token ∈ tokens := by
  fun_induction afterPath tokens with
  | case1 dot part rest _ ih => exact List.mem_cons_of_mem _ (List.mem_cons_of_mem _ (ih h))
  | case2 => exact h
  | case3 => exact h

/-- Whether an arrow on a line comes next. -/
def arrowNext (line : Int) : List Token → Bool
  | [] => false
  | arrow :: _ => arrow.kind == .sign .arrow && arrow.line == line

/-- No arrow on a line comes next where all tokens stand below it. -/
theorem arrowNext_below {tokens : List Token} (h : ∀ token ∈ tokens, line < token.line) :
    arrowNext line tokens = false := by
  cases tokens with
  | nil => rfl
  | cons token rest =>
    show (token.kind == .sign .arrow && token.line == line) = false
    rw [line_beq_of_lt (h token List.mem_cons_self), Bool.and_false]

/-- Whether an arrow on a line stands behind a path does not depend on tokens below the line. -/
theorem arrowNext_append_below {tail : List Token} (ht : ∀ token ∈ tail, line < token.line)
    (front : List Token) :
    arrowNext line (afterPath (front ++ tail)) = arrowNext line (afterPath front) := by
  match front with
  | [] => exact arrowNext_below fun token hm => ht token (mem_of_mem_afterPath hm)
  | [last] =>
    cases tail with
    | nil => rfl
    | cons token rest =>
      rw [List.singleton_append, afterPath]
      split
      · rename_i hc
        -- The path goes on below the line, behind a dot.
        rw [arrowNext_below fun other hm =>
          ht other (List.mem_cons_of_mem _ (mem_of_mem_afterPath hm))]
        have hk : last.kind = .sign .dot := by
          rw [Bool.and_eq_true] at hc
          exact beq_iff_eq.mp hc.1
        show false = (last.kind == .sign .arrow && last.line == line)
        rw [hk]
        rfl
      · rfl
  | dot :: part :: rest =>
    rw [List.cons_append, List.cons_append, afterPath, afterPath]
    split
    · exact arrowNext_append_below ht rest
    · rfl

/-- A relationship starts with a source before an arrow on its line. -/
theorem startsRelationship_cons (first : Token) (rest : List Token) :
    startsRelationship (first :: rest) =
      ((isReferencePart first || first.kind == .string) &&
        arrowNext first.line (afterPath rest)) := by
  rw [startsRelationship]
  split
  · rename_i hc
    rw [hc, Bool.true_and]
    cases afterPath rest <;> rfl
  · rename_i hc
    rw [Bool.eq_false_iff.mpr hc, Bool.false_and]

/-- Whether a relationship starts before a fork is told from the tokens before it. -/
theorem startsRelationship_fork {first : Token} (hb : first.line ≤ fork.line)
    (front : List Token) :
    startsRelationship (first :: front ++ fork.others) =
      startsRelationship (first :: front ++ fork.tokens) := by
  rcases fork with ⟨line, tokens, others, parts⟩
  cases parts with
  | finish => rfl
  | below heads tokens_below others_below =>
    have htokens := arrowNext_append_below
      (fun token hm => Int.lt_of_le_of_lt hb (tokens_below token hm)) front
    have hothers := arrowNext_append_below
      (fun token hm => Int.lt_of_le_of_lt hb (others_below token hm)) front
    rw [List.cons_append, List.cons_append, startsRelationship_cons, startsRelationship_cons,
      htokens, hothers]

/-- Where a relationship starts or another statement that takes a token, the same is read. -/
theorem Echoes.startsRelationship (known : Bool) {reader mate other follow : Reader α}
    (ht : Echoes fork n (fun _ => True) reader mate)
    (hf : Echoes fork n (fun _ => True) other follow) :
    Echoes fork n (fun _ => True)
      (Grammar.remaining >>= fun tokens =>
        if known || Grammar.startsRelationship tokens then reader else other)
      (Grammar.remaining >>= fun tokens =>
        if known || Grammar.startsRelationship tokens then mate else follow) where
  toPasses := .remaining fun tokens => by
    split
    · exact ht.toPasses
    · exact hf.toPasses
  echo := by
    intro p q value front last hy he hp hq hl hb
    have hchoice : ∀ c : Bool, Echoes fork n (fun _ => True) (if c then reader else other)
        (if c then mate else follow) := fun c => .ite (fun _ => ht) fun _ => hf
    have hy' : Yields p
        (if known || Grammar.startsRelationship p.rest then reader else other) value q := hy
    show Yields _ (if known || Grammar.startsRelationship (front ++ fork.others) then mate
      else follow) value _
    cases front with
    | cons first front =>
      rw [startsRelationship_fork (hb first List.mem_cons_self), ← hp]
      exact (hchoice _).echo hy' he hp hq hl hb
    | nil =>
      rcases fork with ⟨line, tokens, others, parts⟩
      cases parts with
      | finish =>
        rw [hp] at hy'
        exact (hchoice _).echo hy' he hp hq hl hb
      | below =>
        -- A token of the tail is taken, so the tail is not left.
        have hlt := (hchoice _).taken hy' he trivial (hp ▸ Nat.succ_lt_succ (Nat.succ_pos _))
        rw [hq, hp, List.nil_append, List.length_append] at hlt
        omega

/-- A statement in the body of a relationship is the same. -/
theorem echoes_readRelationshipStatement (relationship : Relationship) :
    Echoes fork n (fun _ => True) (readRelationshipStatement.fill relationship)
      (readRelationshipStatement.fill relationship) := by
  rw [fill_readRelationshipStatement]
  refine .lookBefore fun token m _ _ => ?_
  refine (echoes_readProperty _).orTake fun change => ?_
  split
  · exact .pure (Option.some_ne_none _)
  · exact .fail

/-- The source of a relationship is the same. -/
theorem echoes_readOrigin (token : Token) (mayLeaveOut : Bool) :
    Echoes fork n (fun _ => False) (readOrigin token mayLeaveOut)
      (readOrigin token mayLeaveOut) := by
  unfold readOrigin
  exact .ite (fun _ => .ite (fun _ => .value _) fun _ => .fail)
    fun _ => (echoes_readReference _).idle

/-- A relationship is the same. -/
theorem echoes_readRelationship (identifier : Option String) (first : Token)
    (mayLeaveOutSource : Bool) :
    Echoes fork n (fun _ => True) (readRelationship identifier first mayLeaveOutSource)
      (readRelationship identifier first mayLeaveOutSource) := by
  unfold readRelationship
  refine .look fun token m _ ha => (echoes_readOrigin token _).bind fun source => ?_
  refine (echoes_expect _).andThen fun _ => (echoes_readReference _).idle.bind fun destination => ?_
  refine (echoes_takePositional ha 3).bind fun arguments => ?_
  refine (echoes_expectLineEnd ha).bind fun _ => ?_
  exact .opensBody ha (echoes_readBlock echoes_readRelationshipStatement _) (.value _)

/-! ## Elements -/

/-- The header of an instance is the same. -/
theorem echoes_readDeployed (hl : fork.Above n line) (instanceOf : InstanceOf)
    (identifier : Option String) (position : Position) :
    Echoes fork n (fun _ => True) (readDeployed instanceOf identifier position line)
      (readDeployed instanceOf identifier position line) := by
  unfold readDeployed
  exact (echoes_readReference line).andThen fun _ =>
    (echoes_takePositional hl 2).bind fun _ => .value _

variable {body mate : BodyKind → Reader (List BodyEntry)}

/-- Bodies are the same before a fork, whatever they are of. -/
def EchoBodies (fork : Fork) (n : Nat) (body mate : BodyKind → Reader (List BodyEntry)) : Prop :=
  ∀ kind, Echoes fork n (fun _ => False) (body kind) (mate kind)

/-- What holds for many tokens holds for few. -/
theorem EchoBodies.of_le (h : EchoBodies fork n body mate) (hm : m ≤ n) :
    EchoBodies fork m body mate :=
  fun kind => (h kind).of_le hm

/-- The body of an element is the same if bodies are, which follow a brace. -/
theorem echoes_readBody (h : EchoBodies fork (n - 1) body mate) (kind : BodyKind)
    {keyword : Token} (hl : fork.Above n keyword.line) :
    Echoes fork n (fun _ => False) (readBody body kind keyword) (readBody mate kind keyword) := by
  unfold readBody
  refine (echoes_expectLineEnd hl).bind fun _ => .opensBody hl (h kind) ?_
  exact .ite (fun _ => echoes_failNext) fun _ => .value []

/-- An instance is the same if bodies are. -/
theorem echoes_readInstance (h : EchoBodies fork (n - 1) body mate) (kind : BodyKind)
    (instanceOf : InstanceOf) (identifier : Option String) (first : Token) {keyword : Token}
    (hl : fork.Above n keyword.line) :
    Echoes fork n (fun _ => True) (readInstance body kind instanceOf identifier first keyword)
      (readInstance mate kind instanceOf identifier first keyword) := by
  unfold readInstance
  exact (echoes_readDeployed hl _ _ _).andThen fun _ =>
    (echoes_readBody h kind hl).bind fun _ => .value _

/-- The enterprise is the same if bodies are. -/
theorem echoes_readEnterprise (h : EchoBodies fork (n - 1) body mate)
    (identifier : Option String) (first : Token) {keyword : Token}
    (hl : fork.Above n keyword.line) :
    Echoes fork n (fun _ => True) (readEnterprise body identifier first keyword)
      (readEnterprise mate identifier first keyword) := by
  unfold readEnterprise
  exact .guarded ((echoes_expectString _ _).andThen fun _ =>
    (echoes_readBody h .enterprise hl).bind fun _ => .value _)

/-- Another element is the same if bodies are. -/
theorem echoes_readPlain (h : EchoBodies fork (n - 1) body mate) (kind : BodyKind)
    (identifier : Option String) (first : Token) {keyword : Token}
    (hl : fork.Above n keyword.line) :
    Echoes fork n (fun _ => True) (readPlain body kind identifier first keyword)
      (readPlain mate kind identifier first keyword) := by
  unfold readPlain
  refine (echoes_expectString _ _).andThen fun name => (echoes_lookUp _).bind fun limit => ?_
  refine (echoes_takePositional hl limit).bind fun arguments => (echoes_lookUp _).bind fun _ => ?_
  exact (echoes_readBody h kind hl).bind fun _ => .value _

/-- An element is the same if bodies are. -/
theorem echoes_readElement (h : EchoBodies fork (n - 1) body mate) (kind : BodyKind)
    (identifier : Option String) (first : Token) :
    Echoes fork n (fun _ => True) (readElement body kind identifier first)
      (readElement mate kind identifier first) := by
  unfold readElement
  refine .advance fun keyword m hm ha => ?_
  have hb : EchoBodies fork (m - 1) body mate := h.of_le (by omega)
  split
  · exact (echoes_readInstance hb _ _ identifier first ha).idle
  · exact (echoes_readInstance hb _ _ identifier first ha).idle
  · exact (echoes_readEnterprise hb identifier first ha).idle
  · exact (echoes_readPlain hb _ identifier first ha).idle

/-! ## Bodies -/

/-- What is read where a name may stand before an equals sign. -/
theorem run_readIdentifier {name sign : Token} {rest : List Token}
    (hr : p.rest = name :: sign :: rest) :
    readIdentifier.run.run p =
      (if name.kind == .identifier && sign.kind == .sign .equals && sign.line == name.line then
        advance >>= fun _ => advance >>= fun _ => pure (some name.lexeme)
      else pure none : Reader (Option String)).run.run p := by
  unfold readIdentifier
  have hm : remaining.run.run p = (.ok (name :: sign :: rest), p) := by
    rw [← hr]
    rfl
  rw [run_bind, hm]

/-- With the tokens that are left a progress is what it was. -/
theorem ahead_eq {tokens : List Token} (h : p.rest = tokens) : p.ahead tokens = p := by
  rw [← h]
  rfl

/-- An identifier is the same. -/
theorem echoes_readIdentifier :
    EchoesBefore fork n (fun _ => False) readIdentifier readIdentifier := by
  have hstep : ∀ (name : Token) (assigned : Bool), Echoes fork n (fun _ => False)
      (if assigned then advance >>= fun _ => advance >>= fun _ => pure (some name.lexeme)
        else pure none)
      (if assigned then advance >>= fun _ => advance >>= fun _ => pure (some name.lexeme)
        else pure none) :=
    fun name _ => .ite (fun _ => .advance fun _ _ _ _ => .advance fun _ _ _ _ => .value _)
      fun _ => .value none
  refine ⟨.remaining fun tokens => ?_, ?_⟩
  · split
    · exact (hstep _ _).toPasses
    · exact .pure not_false
  · intro p q value front last hy he hf hp hq hl hb
    unfold Yields at hy ⊢
    rcases fork with ⟨line, tokens, others, parts⟩
    cases parts with
    | finish =>
      rw [ahead_eq hp, ahead_eq hq]
      exact hy
    | @below head next name sign rest more heads =>
      -- Nothing is assigned to with a sign below the line.
      have hnone : ∀ {r : Progress} {first second : Token} {tokens : List Token},
          r.rest = first :: second :: tokens →
          (second.kind == .sign .equals && second.line == first.line) = false →
          readIdentifier.run.run r = (.ok none, r) := by
        intro r first second tokens hr hn
        rw [run_readIdentifier hr, Bool.and_assoc, hn, Bool.and_false]
        rfl
      rcases front with _ | ⟨first, _ | ⟨second, front⟩⟩
      · exact absurd (hf rfl) (by simp)
      · have hbelow : ∀ token : Token, line < token.line →
            (token.kind == .sign .equals && token.line == first.line) = false := by
          intro token ht
          rw [line_beq_of_lt (Int.lt_of_le_of_lt (hb first List.mem_cons_self) ht), Bool.and_false]
        rw [hnone hp (hbelow head heads.head_below)] at hy
        cases hy
        rw [List.append_cancel_right (hq.symm.trans hp)]
        exact hnone rfl (hbelow name heads.name_below)
      · have hr : (p.ahead (first :: second :: front ++ name :: sign :: more)).rest =
            first :: second :: (front ++ name :: sign :: more) := rfl
        rw [run_readIdentifier hr]
        rw [run_readIdentifier hp] at hy
        exact (hstep first _).echo hy he hp hq hl hb

/-- A declaration of a body is the same if the bodies inside it are. -/
theorem echoes_readDeclaration (h : EchoBodies fork (n - 1) body mate) (owner : BodyKind) :
    Echoes fork n (fun _ => True) (readDeclaration body owner) (readDeclaration mate owner) := by
  unfold readDeclaration
  refine .lookBefore fun first m hm _ => echoes_readIdentifier.bind fun identifier => ?_
  refine .look fun token k hk _ => ?_
  have hb : EchoBodies fork (k - 1) body mate := h.of_le (by omega)
  refine .startsRelationship _ ?_ ?_
  · exact (echoes_readRelationship _ first _).andThen fun _ => .value _
  · split
    · exact .fail
    · exact .ite (fun _ => echoes_readElement hb _ identifier first) fun _ => .fail

/-- A statement of a body is the same if the bodies inside it are. -/
theorem echoes_readBodyStatement (h : EchoBodies fork (n - 1) body mate) (owner : BodyKind) :
    Echoes fork n (fun _ => True) (readBodyStatement body owner)
      (readBodyStatement mate owner) := by
  unfold readBodyStatement
  refine .lookBefore fun token m hm _ => .ite (fun _ => .of_echoes ?_) fun _ => ?_
  · exact echoes_readDirective.andThen fun _ => .value []
  · refine (echoes_readProperty _).orTake fun change => ?_
    split
    · exact .pure (Option.some_ne_none _)
    · exact (echoes_readDeclaration (h.of_le (by omega)) owner).andThen fun _ => .value _

/-- A further statement of a body is the same if the bodies inside it are. -/
theorem echoes_readBodyEntry (h : EchoBodies fork (n - 1) body mate) (owner : BodyKind)
    (entries : List BodyEntry) :
    Echoes fork n (fun _ => True) ((readBodyEntry body owner).fill entries)
      ((readBodyEntry mate owner).fill entries) := by
  rw [fill_readBodyEntry, fill_readBodyEntry]
  exact (echoes_readBodyStatement h owner).andThen fun _ => .value _

/-- Bodies are the same, however deep, if the bounds are large enough. -/
theorem echoes_readEntriesWithin {depth other : Nat} (hd : n ≤ depth) (ho : n ≤ other) :
    EchoBodies fork n (readEntriesWithin depth) (readEntriesWithin other) := by
  induction depth generalizing n other with
  | zero =>
    obtain rfl : n = 0 := by omega
    exact fun _ => .of_passes (.pure not_false)
  | succ depth ih =>
    intro owner
    refine .of_succ (readEntriesWithin · owner) ho fun other ho => ?_
    rw [readEntriesWithin, readEntriesWithin]
    exact echoes_readBlock (echoes_readBodyEntry (ih (by omega) (by omega)) owner) []

/-- Bodies are the same. -/
theorem echoes_readEntries : EchoBodies fork n readEntries readEntries := by
  intro owner
  unfold readEntries
  exact .remaining fun _ _ m _ ht ho => echoes_readEntriesWithin ht ho owner

/-- A statement of the model is the same. -/
theorem echoes_readModelStatement :
    Echoes fork n (fun _ => True) readModelStatement readModelStatement := by
  unfold readModelStatement
  exact (echoes_readBodyStatement echoes_readEntries .model).andThen fun _ =>
    echoes_modifyWorkspace _

/-- The block of the model is the same. -/
theorem echoes_readModel : Echoes fork n (fun _ => True) readModel readModel := by
  unfold readModel
  refine .advance fun keyword m _ _ => (echoes_modifyWorkspace _).bind fun _ => ?_
  exact echoes_expectOpening.andThen fun _ => echoes_readBlockOf echoes_readModelStatement

end Blueprint.Grammar
