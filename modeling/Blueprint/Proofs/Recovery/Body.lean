import Blueprint.Proofs.Built.Statement
import Blueprint.Proofs.Recovery.Boundary
import Blueprint.Proofs.Recovery.Isolation

/-!
# Malformed statements in bodies

The boundary at which a malformed statement is inserted may stand in a body. From the boundary
outwards every body isolates the statement: it yields what it does without the statement, with one
more error.
-/

namespace Blueprint.Grammar

open Blueprint.Declared

variable {α β : Type} {p q r s : Progress} {finish name : Token} {line block : List Token}
  {fork : Fork} {added : Diagnostic} {n : Nat} {owner kind inner : BodyKind}
  {body mate : BodyKind → Reader (List BodyEntry)} {make : List BodyEntry → List BodyEntry}

/-! ## Statements of bodies -/

/-- A statement of a body does not start with the end of the input or with a sign other than an
arrow. -/
theorem Yields.exists_head {entries : List BodyEntry}
    (h : Yields p (readBodyStatement body owner) entries q) :
    ∃ token tokens, p.rest = token :: tokens ∧ token.kind ≠ .endOfInput ∧
      ∀ sign, sign ≠ .arrow → token.kind ≠ .sign sign := by
  unfold Yields at h
  cases hr : p.rest with
  | nil =>
    unfold readBodyStatement at h
    rw [run_current_bind_nil hr] at h
    cases h
  | cons token tokens =>
    have hfails :
        ¬(token.kind = .endOfInput ∨ ∃ sign, token.kind = .sign sign ∧ sign ≠ .arrow) := by
      intro hk
      rw [run_readBodyStatement_sign body owner hr hk] at h
      cases h
    refine ⟨token, tokens, rfl, fun he => hfails (.inl he), fun sign hs hk => ?_⟩
    exact hfails (.inr ⟨sign, hk, hs⟩)

/-- Where the loop goes on, a token is left that is neither the end of the input nor a dot. -/
theorem GoesOn.exists_head (h : GoesOn owner p) :
    ∃ token tokens, p.rest = token :: tokens ∧ token.kind ≠ .endOfInput ∧
      token.kind ≠ .sign .dot := by
  rcases h with ⟨entries, q, hy⟩ | ⟨token, hr, hk⟩
  · obtain ⟨token, tokens, hr, he, hs⟩ := hy.exists_head
    exact ⟨token, tokens, hr, he, hs .dot (by decide)⟩
  · obtain ⟨tokens, hr⟩ := List.head?_eq_some_iff.mp hr
    exact ⟨token, tokens, hr, by simp [hk], by simp [hk]⟩

/-- A statement of a body takes tokens before it enters a body. -/
theorem passes_statement (owner : BodyKind) :
    Passes (fun _ => True) (readBodyStatement (fun _ => pure []) owner) :=
  .of_echoes (echoes_readBodyStatement (fun _ => .value []) owner)

/-- Statements of bodies that are read with large enough bounds are read in the same way. -/
theorem mates_readBodyEntry {depth bound : Nat} (hd : n ≤ depth + 1) (hb : n ≤ bound + 1)
    (owner : BodyKind) :
    Mates n (readBodyEntry (readEntriesWithin depth) owner).fill
      (readBodyEntry (readEntriesWithin bound) owner).fill := by
  have hlimited : ∀ depth entries,
      Limited ((readBodyEntry (readEntriesWithin depth) owner).fill entries) := by
    intro depth entries
    have hd := takesDirectives_keepsLead
    exact (built_readBodyEntry hd (built_readEntriesWithin hd depth) owner entries).limited
  refine ⟨fun fork entries => ?_, hlimited depth, hlimited bound⟩
  exact echoes_readBodyEntry (echoes_readEntriesWithin (by omega) (by omega)) owner entries

/-- Bodies that are read with a large enough bound are read as with the bound there is. -/
theorem echoes_readEntries_within {depth : Nat} (hd : n ≤ depth) :
    EchoBodies fork n (readEntriesWithin depth) readEntries := by
  intro owner
  have hconst : readEntriesWithin depth owner =
      remaining >>= fun _ => readEntriesWithin depth owner := rfl
  unfold readEntries
  rw [hconst]
  exact .remaining fun _ _ m hm _ ho => echoes_readEntriesWithin (by omega) ho owner

/-- Before the end of the input there is another token if one is next that is not that end. -/
theorem one_lt_length {token : Token} {tokens : List Token} (hf : finish.kind = .endOfInput)
    (h : [finish] <:+ p.rest) (hr : p.rest = token :: tokens) (he : token.kind ≠ .endOfInput) :
    1 < p.rest.length := by
  rw [hr] at h ⊢
  cases tokens with
  | nil =>
    obtain rfl := List.mem_singleton.mp (h.subset List.mem_cons_self)
    exact absurd hf he
  | cons next rest => exact Nat.succ_lt_succ (Nat.succ_pos _)

/-- With no body there, a statement is read up to the body it enters. -/
theorem Enters.yields_front
    (h : Enters (fun body => readBodyStatement body owner) p kind q make) :
    Yields p (readBodyStatement (fun _ => pure []) owner) (make []) q :=
  h.yields (yields_pure [])

/-- A statement that enters a body is read without an error if its front and the body are. -/
theorem Enters.flawless {entries : List BodyEntry}
    (h : Enters (fun body => readBodyStatement body owner) p kind q make)
    (hp : Passes (fun _ => False) (body kind)) (hf : finish.kind = .endOfInput)
    (hy : Flawless finish p (readBodyStatement body owner) entries s) :
    ∃ inside, make inside = entries ∧ Flawless finish q (body kind) inside s ∧
      Flawless finish p (readBodyStatement (fun _ => pure []) owner) (make []) q ∧
      q.rest.length < p.rest.length := by
  have hrun := hy.yields
  unfold Yields at hrun
  rw [h body] at hrun
  obtain ⟨inside, t, hbody, hpure⟩ := Yields.of_bind hrun
  obtain ⟨rfl, rfl⟩ := (yields_pure (make inside)).unique hpure
  have hopen := h.yields_front
  have hpq := (passes_statement owner).errors hopen
  have hqt := hp.errors hbody
  have he := hy.errors
  have hends := hy.ends.trans (hp.rest hbody)
  have hsame : q.errors = p.errors := by omega
  obtain ⟨token, tokens, hr, hend, _⟩ := hopen.exists_head
  have hone := one_lt_length hf (hends.trans ((passes_statement owner).rest hopen)) hr hend
  exact ⟨inside, rfl, ⟨hbody, by omega, hy.ends⟩, ⟨hopen, hsame, hends⟩,
    (passes_statement owner).taken hopen hsame trivial hone⟩

/-- A statement isolates what the body does that it enters. -/
theorem Enters.isolates (h : Enters (fun body => readBodyStatement body owner) p kind q make)
    (hf : finish.kind = .endOfInput) (hq : fork.tokens <:+ q.rest)
    (hp : Passes (fun _ => False) (body kind))
    (hi : q.rest.length < p.rest.length → Isolates fork finish added q (body kind) (mate kind)) :
    Isolates fork finish added p (readBodyStatement body owner) (readBodyStatement mate owner) := by
  intro value s front hy hfront hb hl
  obtain ⟨entries, rfl, hbody, hopen, hlt⟩ := h.flawless hp hf hy
  obtain ⟨back, hback, hsub⟩ :=
    exists_back hfront ((passes_statement owner).rest hopen.yields) hq
  have henters := h.echo (uniform_readBodyStatement owner)
    (fun body hbodies => echoes_readBodyStatement (hbodies.of_le (Nat.sub_le _ 1)) owner)
    hopen.errors hfront hback (Nat.lt_succ_self _) hb
  have hlimit : ((q.errors + 1 : Nat) : Int) < q.limit := by
    have hbuilt := built_readBodyStatement takesDirectives_keepsLead (fun _ => .pure []) owner
    rw [hopen.errors, hopen.limit hbuilt.limited]
    exact hl
  obtain ⟨s', hs', ha⟩ := hi hlt hbody hback (fun token hm => hb token (hsub.subset hm)) hlimit
  exact ⟨s', henters.yields hs', ha⟩

/-! ## Bodies -/

/-- What is wrong with a malformed statement in a body. -/
def strayReport (owner : BodyKind) (name : Token) : Diagnostic :=
  .of (.grammar (.unexpected name.found (.block owner.keyword))) (some name.position)

/-- A malformed statement fails in a body, whatever was read before it. -/
theorem Fork.Inserts.run_readBodyStatement (h : fork.Inserts name line block)
    (body : BodyKind → Reader (List BodyEntry)) (owner : BodyKind) (p : Progress) :
    (readBodyStatement body owner).run.run (p.ahead fork.others) =
      (.error (.failed ⟨.unexpected name.found (.block owner.keyword), name⟩),
        p.ahead fork.others) :=
  h.malformed.run_readBodyStatement body owner h.others_eq h.below

/-- A statement of a body takes tokens from the front. -/
theorem Yields.suffix_readBodyEntry {entries next : List BodyEntry}
    (h : Yields p ((readBodyEntry readEntries owner).fill entries) next q) : q.rest <:+ p.rest :=
  (Passes.of_echoes (echoes_readBodyEntry echoes_readEntries owner entries)).rest h

/-- What is left where a body is entered is left of what the statement is read from. -/
theorem Enters.suffix (h : Enters (fun body => readBodyStatement body owner) p kind q make) :
    q.rest <:+ p.rest :=
  (passes_statement owner).rest h.yields_front

/-- What is left at a boundary in a body is left of the body. -/
theorem BodyReaches.suffix (h : BodyReaches owner p inner s) : s.rest <:+ p.rest := by
  induction h with
  | here through => exact through.suffix Yields.suffix_readBodyEntry
  | inside through enters _ ih =>
    exact (ih.trans enters.suffix).trans (through.suffix Yields.suffix_readBodyEntry)

/-- A body takes tokens from the front. -/
theorem passes_readEntriesWithin (depth : Nat) (kind : BodyKind) :
    Passes (fun _ => False) (readEntriesWithin depth kind) :=
  .of_echoes (echoes_readEntriesWithin (Nat.zero_le _) (Nat.zero_le depth) kind)

/-- A body isolates a malformed statement if its loop does behind the statements before it. -/
theorem isolates_readEntriesWithin {entries : List BodyEntry}
    (h : RunsThrough (readBodyEntry readEntries owner).fill [] p entries q)
    (hf : finish.kind = .endOfInput) (hlonger : fork.tokens.length < fork.others.length)
    (hq : fork.tokens <:+ q.rest) {depth bound : Nat} (hd : p.rest.length ≤ depth)
    (hb : p.rest.length + fork.others.length ≤ bound + fork.tokens.length)
    (hi : ∀ depth bound, p.rest.length ≤ depth + 1 →
      p.rest.length + fork.others.length ≤ bound + 1 + fork.tokens.length →
      LoopIsolates fork finish added q (readBodyEntry (readEntriesWithin depth) owner).fill
        (readBodyEntry (readEntriesWithin bound) owner).fill entries) :
    Isolates fork finish added p (readEntriesWithin depth owner)
      (readEntriesWithin bound owner) := by
  have hpos := List.length_pos_iff.mpr fork.tokens_ne_nil
  have hle := (hq.trans (h.suffix Yields.suffix_readBodyEntry)).length_le
  obtain ⟨depth, rfl⟩ : ∃ less, depth = less + 1 := ⟨depth - 1, by omega⟩
  obtain ⟨bound, rfl⟩ : ∃ less, bound = less + 1 := ⟨bound - 1, by omega⟩
  have hm : Mates p.rest.length _ _ :=
    mates_readBodyEntry hd (by omega : p.rest.length ≤ bound + 1) owner
  unfold readEntriesWithin
  rw [readBlock_eq_keeping, readBlock_eq_keeping]
  refine LoopIsolates.readBlockKeeping (.through h hf hm (fun fork entries => ?_)
    Yields.suffix_readBodyEntry hlonger hq (Nat.le_refl _) (hi depth bound hd hb))
  exact echoes_readBodyEntry (echoes_readEntries_within (by omega)) owner entries

/-- The loop of a body isolates what the body does that the next statement enters. -/
theorem Enters.loopIsolates
    (h : Enters (fun body => readBodyStatement body owner) p kind q make)
    (hf : finish.kind = .endOfInput) (hlonger : fork.tokens.length < fork.others.length)
    (hq : fork.tokens <:+ q.rest) {depth bound : Nat} (hd : p.rest.length ≤ depth + 1)
    (hb : p.rest.length ≤ bound + 1) (entries : List BodyEntry)
    (hi : q.rest.length < p.rest.length → Isolates fork finish added q
      (readEntriesWithin depth kind) (readEntriesWithin bound kind)) :
    LoopIsolates fork finish added p (readBodyEntry (readEntriesWithin depth) owner).fill
      (readBodyEntry (readEntriesWithin bound) owner).fill entries := by
  have hbody := passes_readEntriesWithin depth kind
  have hpasses : Passes (fun _ => True) (readBodyStatement (readEntriesWithin depth) owner) :=
    .of_echoes (echoes_readBodyStatement
      (echoes_readEntriesWithin (Nat.zero_le _) (Nat.zero_le depth)) owner)
  have hpure : ∀ more, Passes (fun _ => False)
      (pure (entries ++ more) : Reader (List BodyEntry)) := fun more => .pure not_false
  obtain ⟨token, tokens, hr, he, hs⟩ := h.yields_front.exists_head
  refine .inside hf (mates_readBodyEntry hd hb owner) (Nat.le_refl _) hr he
    (hs .rightBrace (by decide)) (fun last r hy => ?_) hlonger ?_
  · rw [fill_readBodyEntry] at hy
    obtain ⟨more, t, hstatement, _⟩ := hy.of_bind hpasses hpure
    obtain ⟨_, _, _, _, hlt⟩ := h.flawless hbody hf hstatement
    exact Nat.lt_of_le_of_lt hq.length_le hlt
  · rw [fill_readBodyEntry, fill_readBodyEntry]
    exact (h.isolates hf hq hbody hi).bind hpasses hpure (fun _ => .pure _) fun _ hs => hs

/-- A body isolates a malformed statement at a boundary in it, if its bounds are large enough. -/
theorem BodyReaches.isolates (h : BodyReaches owner p inner s) (hi : fork.Inserts name line block)
    (hf : finish.kind = .endOfInput) (hs : s.rest = fork.tokens) {depth bound : Nat}
    (hd : p.rest.length ≤ depth)
    (hb : p.rest.length + fork.others.length ≤ bound + fork.tokens.length) :
    Isolates fork finish (strayReport inner name) p (readEntriesWithin depth owner)
      (readEntriesWithin bound owner) := by
  have hlonger := hi.length_lt
  induction h generalizing depth bound with
  | @here owner p q entries through =>
    have hq : fork.tokens <:+ q.rest := hs ▸ List.suffix_rfl
    refine isolates_readEntriesWithin through hf hlonger hq hd hb fun depth bound hd hb => ?_
    refine .here hi hf (mates_readBodyEntry hd (by omega) owner) through.length_le hs ?_
    rw [fill_readBodyEntry, run_bind, hi.run_readBodyStatement]
  | @inside owner kind inner p q r s entries make through enters reaches ih =>
    have hr : fork.tokens <:+ r.rest := hs ▸ reaches.suffix
    have hle := through.length_le
    refine isolates_readEntriesWithin through hf hlonger (hr.trans enters.suffix) hd hb
      fun depth bound hd hb => ?_
    exact enters.loopIsolates hf hlonger hr (by omega) (by omega) entries fun hlt =>
      ih hs (by omega) (by omega)

end Blueprint.Grammar
