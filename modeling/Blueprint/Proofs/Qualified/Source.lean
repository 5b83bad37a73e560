import Blueprint.Proofs.Qualified.Named
import Blueprint.Proofs.Relaid.Source
import Blueprint.Proofs.Stacked.Source

/-!
# Sources with hierarchical identifiers

A source without a directive about identifiers is compiled once more with a line above it that makes
them hierarchical. Its statements are read as they are without the line, and what they declare is
declared behind the directive.
-/

namespace Blueprint.Grammar

open Blueprint.Declared Blueprint.Text

variable {p q : Progress} {limit : Int} {source : String} {spots : Position → Prop}

/-! ## The line above a source -/

/-- A line that makes identifiers hierarchical. -/
def hierarchicalLine : String := "!identifiers hierarchical"

/-- A source below a line that makes identifiers hierarchical. -/
def hierarchicalSource (source : String) : String := hierarchicalLine ++ "\n" ++ source

/-- The token of the directive. -/
def directiveToken : Token :=
  ⟨.directive .identifiers, "!identifiers", ⟨1, 1, 0⟩, .absent⟩

/-- The token of its value. -/
def modeToken : Token := ⟨.identifier, "hierarchical", ⟨1, 14, 13⟩, .absent⟩

/-- The line has the two tokens. -/
theorem ofString_hierarchicalLine : TokenStream.ofString hierarchicalLine =
    .ok ⟨[directiveToken, modeToken, .finish ⟨1, 26, 25⟩], []⟩ := by
  decide +kernel

/-- The directive of the line. -/
def hierarchicalDirective : Declared.Directive := .hierarchical (some ⟨1, 1, 0⟩)

/-- The directive is read from its line. -/
theorem yields_hierarchicalDirective {first : Token} (h : first.line ≠ 1) (tokens : List Token) :
    Yields (p.ahead (directiveToken :: modeToken :: first :: tokens)) readDirective ()
      ((p.ahead (first :: tokens)).withWorkspace
        { p.workspace with directives := p.workspace.directives ++ [hierarchicalDirective] }) := by
  have hline : onLine 1 first = false := by
    unfold onLine
    rw [beq_eq_false_iff_ne.mpr h]
    rfl
  have hvalues : Yields (p.ahead (modeToken :: first :: tokens)) (takeValues 1)
      [.ofString "hierarchical"] (p.ahead (first :: tokens)) := by
    have hmode : onLine 1 modeToken = true := by decide
    have htaken : lineValues 1 (modeToken :: first :: tokens) = [.ofString "hierarchical"] := by
      unfold lineValues
      rw [List.takeWhile_cons_of_pos hmode, List.takeWhile_cons_of_neg (by simp [hline])]
      decide
    have hleft : afterLine 1 (modeToken :: first :: tokens) = first :: tokens := by
      unfold afterLine
      rw [List.dropWhile_cons_of_pos hmode, List.dropWhile_cons_of_neg (by simp [hline])]
    rw [← htaken]
    exact congrArg (fun rest => (Except.ok _, p.ahead rest)) hleft
  refine (yields_advance (List.cons_ne_nil _ _)).bind ?_
  exact hvalues.bind rfl

/-! ## Reading below the line -/

/-- Reading directives does not depend on the bound, where that is large enough. -/
theorem run_readDirectives_succ (h : p.Sound spots) {count : Nat} (hc : p.rest.length ≤ count) :
    (readDirectives (count + 1)).run.run p = (readDirectives count).run.run p := by
  induction count generalizing p with
  | zero =>
    have hpos := h.rest_pos
    omega
  | succ count ih =>
    have hbound : ∀ bound : Nat, (readDirectives (bound + 1)).run.run p =
        if isDirective p.next then
          (readOrSkip readDirective >>= fun _ => readDirectives bound).run.run p
        else (.ok (), p) := by
      intro bound
      rw [readDirectives, run_bind, run_current h]
      dsimp only
      split <;> rfl
    rw [hbound, hbound]
    split
    · rename_i hd
      have hskip := runs_skipDirective h hd
      rw [run_bind, run_bind]
      unfold Runs at hskip
      generalize (readOrSkip readDirective).run.run p = result at hskip
      rcases result with ⟨halt | value, q⟩
      · rfl
      · have htaken := hskip.2.taken
        exact ih hskip.1.sound (by omega)
    · rfl

/-- A source is read from its directives on, also where the bound is one more than there are
tokens. -/
theorem run_readSource_succ (h : p.Sound spots) :
    (readDirectives (p.rest.length + 1) >>= fun _ => readBehindDirectives).run.run p =
      readSource.run.run p := by
  rw [run_readSource, run_bind, run_bind, run_readDirectives_succ h (Nat.le_refl _)]

/-- What is read behind another first directive is what is read without it, behind that. -/
theorem run_readSource_led {tokens : List Token} {before : List Diagnostic}
    (h : Yields (.start tokens before limit) readSource () q) (directive : Declared.Directive) :
    Yields ((Progress.start tokens before limit).withWorkspace (({} : Workspace).led directive))
      readSource () (q.withWorkspace (q.workspace.led directive)) := by
  obtain ⟨result, r, change, hkeeps, hrun⟩ :=
    built_readSource.aside composes_keepsLead (.start tokens before limit)
  have hempty : (result, r.withWorkspace (change {})) = (.ok (), q) := (hrun {}).symm.trans h
  obtain ⟨rfl, rfl⟩ := Prod.mk.inj hempty
  refine (hrun (({} : Workspace).led directive)).trans ?_
  rw [hkeeps]
  rfl

/-- Below the line, a source is read behind its directive. -/
theorem run_readSource_hierarchical {first : Token} {tokens : List Token}
    {before : List Diagnostic} (h : first.line ≠ 1)
    (hs : (Progress.start (directiveToken :: modeToken :: first :: tokens) before limit).Sound
      spots) :
    readSource.run.run
        (.start (directiveToken :: modeToken :: first :: tokens) before limit) =
      readSource.run.run ((Progress.start (first :: tokens) before limit).withWorkspace
        (({} : Workspace).led hierarchicalDirective)) := by
  have hdirective : Yields (.start (directiveToken :: modeToken :: first :: tokens) before limit)
      (readOrSkip readDirective) ()
      ((Progress.start (first :: tokens) before limit).withWorkspace
        (({} : Workspace).led hierarchicalDirective)) :=
    (yields_hierarchicalDirective (p := .start [] before limit) h tokens).attempt
  unfold Yields at hdirective
  have hsound : ((Progress.start (first :: tokens) before limit).withWorkspace
      (({} : Workspace).led hierarchicalDirective)).Sound spots := by
    have hskip := runs_skipDirective hs rfl
    unfold Runs at hskip
    rw [hdirective] at hskip
    exact hskip.1.sound
  rw [← run_readSource_succ hsound]
  have hread : readSource.run.run
      (.start (directiveToken :: modeToken :: first :: tokens) before limit) =
    (readOrSkip readDirective >>= fun _ => readDirectives (tokens.length + 1 + 1) >>= fun _ =>
      readBehindDirectives).run.run
        (.start (directiveToken :: modeToken :: first :: tokens) before limit) := by
    rw [run_readSource]
    show (readDirectives (tokens.length + 1 + 1 + 1) >>= _).run.run _ = _
    rw [readDirectives, bind_assoc, run_bind, run_current_of_cons rfl]
    dsimp only
    rw [if_pos (show isDirective directiveToken = true from rfl), bind_assoc]
  rw [hread, run_bind, hdirective]
  rfl

/-- A source without an error is read below the line without an error. It declares the same up to
places, behind the directive. -/
theorem parse_hierarchicalSource {outcome : Outcome} (h : parse source limit = .ok outcome)
    (hc : ∀ diagnostic ∈ outcome.diagnostics, diagnostic.isError = false) :
    ∃ other, parse (hierarchicalSource source) limit = .ok other ∧
      (∀ diagnostic ∈ other.diagnostics, diagnostic.isError = false) ∧
      other.workspace.unplaced = (outcome.workspace.led hierarchicalDirective).unplaced := by
  obtain ⟨stream, last, e, hs, hread, herrors, hrest, hkind, rfl⟩ := read_eq_of_parse h hc
  have hlines := TokenStream.ofString_seam ofString_hierarchicalLine
    (TokenStream.complete_of_eq_nil ofString_hierarchicalLine rfl) source
  rw [hs] at hlines
  have hstream : TokenStream.ofString (hierarchicalSource source) =
      .ok ⟨directiveToken :: modeToken :: stream.tokens.map (Token.shift 1 26),
        stream.diagnostics.map (Diagnostic.shift 1 26)⟩ := by
    have hcount : hierarchicalLine.toList.count '\n' = 0 := by decide +kernel
    have hlength : hierarchicalLine.length = 25 := by decide +kernel
    rw [hcount, hlength] at hlines
    exact hlines
  have hlength : stream.tokens.length = (stream.tokens.map (Token.shift 1 26)).length :=
    (List.length_map _).symm
  obtain ⟨finish, e', _, _, hflawless, halike⟩ := exists_flawless hread herrors hrest hkind hlength
    (matched_shift 1 26 stream.tokens) (stream.diagnostics.map (Diagnostic.shift 1 26))
  have hled := run_readSource_led hflawless.yields hierarchicalDirective
  obtain ⟨first, tokens, htokens⟩ : ∃ first tokens,
      stream.tokens.map (Token.shift 1 26) = first :: tokens := by
    obtain ⟨final, hfinal, -⟩ := exists_words hs
    rw [hfinal]
    cases words stream <;> exact ⟨_, _, rfl⟩
  have hfirst : first.line ≠ 1 := by
    have hm : first ∈ stream.tokens.map (Token.shift 1 26) := htokens ▸ List.mem_cons_self
    obtain ⟨token, ht, rfl⟩ := List.mem_map.mp hm
    have hone := (line_of_mem hs ht).1
    show token.line + 1 ≠ 1
    omega
  rw [htokens] at hstream hled
  have hrun : readSource.run.run (.start (directiveToken :: modeToken :: first :: tokens)
      (stream.diagnostics.map (Diagnostic.shift 1 26)) limit) =
        (.ok (), e'.withWorkspace (e'.workspace.led hierarchicalDirective)) :=
    (run_readSource_hierarchical hfirst
      ((TokenStream.placed_of_ofChars hstream).sound_start limit)).trans hled
  obtain ⟨reported, _, hreported, -, -⟩ := halike.diagnostics
  have hprior : ∀ diagnostic ∈ stream.diagnostics.map (Diagnostic.shift 1 26),
      diagnostic.isError = false := by
    intro diagnostic hm
    obtain ⟨same, hsame, rfl⟩ := List.mem_map.mp hm
    exact hc same (hreported ▸ List.mem_append_left _ hsame)
  have hworkspace : (e'.workspace.led hierarchicalDirective).unplaced =
      (e.workspace.led hierarchicalDirective).unplaced :=
    congrArg (Workspace.led · hierarchicalDirective.unplaced) halike.workspace.symm
  refine ⟨_, parse_eq_ok_iff.mpr ⟨_, hstream, fun fault q hf => ?_, rfl⟩, ?_, ?_⟩
  · cases hrun.symm.trans hf
  · show ∀ diagnostic ∈ (readSource.run.run (.start _ _ limit)).2.diagnostics, _
    rw [hrun]
    exact halike.isError hc hprior
  · show (readSource.run.run (.start _ _ limit)).2.workspace.unplaced = _
    rw [hrun]
    exact hworkspace

end Blueprint.Grammar

namespace Blueprint.Compilation

open Build (Unqualified ReferencesLast)

variable {source : String} {settings : Settings} {compilation : Compilation}

/-- A source that is read without an error is compiled, and reports what building reports. -/
theorem ofSource_eq_of_parse {outcome : Grammar.Outcome}
    (h : Grammar.parse source settings.maxErrors = .ok outcome)
    (hc : ∀ diagnostic ∈ outcome.diagnostics, diagnostic.isError = false) :
    ∃ compilation, ofSource source settings = .ok compilation ∧
      ((∀ diagnostic ∈ compilation.diagnostics, diagnostic.isError = false) ↔
        (Build.build outcome.workspace settings.impliedRelationships).Clean) := by
  refine ⟨_, ofSource_eq_ok_iff.mpr ⟨outcome, h, rfl⟩, ?_⟩
  rw [Report.hasFatal_eq_false hc, if_neg Bool.false_ne_true, List.forall_mem_append]
  exact and_iff_right hc

/-- A source without a directive about identifiers, in which every element has an identifier, is
compiled without an error. Below a line that makes identifiers hierarchical it is compiled too, and
without an error exactly if the references of its instances and the paths among those of its
relationships and views still stand for elements of the right classes. -/
theorem hierarchical_clean_iff (h : ofSource source settings = .ok compilation)
    (hc : ∀ diagnostic ∈ compilation.diagnostics, diagnostic.isError = false)
    (hflat : Unqualified compilation.declared.directives)
    (hg : compilation.declared.Given fun id? => id?.isSome = true) :
    ∃ other, ofSource (Grammar.hierarchicalSource source) settings = .ok other ∧
      ((∀ diagnostic ∈ other.diagnostics, diagnostic.isError = false) ↔
        ReferencesLast compilation.declared) := by
  obtain ⟨outcome, hparse, hdeclared, -, herrors, hbuild⟩ := exists_outcome h hc
  rw [hdeclared] at hflat hg ⊢
  obtain ⟨twin, htwin, hnone, hsame⟩ := Grammar.parse_hierarchicalSource hparse herrors
  obtain ⟨other, hother, hiff⟩ := ofSource_eq_of_parse htwin hnone
  refine ⟨other, hother, hiff.trans ?_⟩
  have hwords : outcome.workspace.Given IsWord :=
    hg.combine (Grammar.given_of_parse hparse) fun _ hs hw => hw hs
  exact Build.clean_build_iff hflat (Grammar.located_of_parse hparse) hwords hsame hbuild

/-- A source in which a person uses a component, by a path from its container. -/
def signIn (path : String) : String :=
  "workspace\x7bmodel\x7b\nuser=person \"User\"\nbank=softwareSystem \"Bank\"\x7b\n" ++
    "web=container \"Web\"\x7b\nlogin=component \"SignIn\"\n\x7d\x7d\n" ++
    "live=deploymentEnvironment \"Live\"\x7b\nserver=deploymentNode \"Server\"\x7b\n" ++
    "copy=containerInstance bank.web\n\x7d\x7d\nuser->" ++ path ++ "\n\x7d\x7d"

/-- A path that ends with a name still resolves. -/
theorem hierarchical_clean_name :
    ∃ compilation, ofSource (signIn "web.SignIn") {} = .ok compilation ∧
      (∀ diagnostic ∈ compilation.diagnostics, diagnostic.isError = false) ∧
      Unqualified compilation.declared.directives ∧
      (compilation.declared.Given fun id? => id?.isSome = true) ∧
      ∃ other, ofSource (Grammar.hierarchicalSource (signIn "web.SignIn")) {} = .ok other ∧
        ∀ diagnostic ∈ other.diagnostics, diagnostic.isError = false := by
  have hd : (ofSource (signIn "web.SignIn") {}).toOption.map (fun compilation : Compilation =>
      (compilation.diagnostics, decide (Unqualified compilation.declared.directives),
        decide (compilation.declared.Given fun id? => id?.isSome = true),
        decide (ReferencesLast compilation.declared))) =
      some ([], true, true, true) := by
    decide +kernel
  obtain ⟨compilation, hp, he⟩ := exists_ok_of_map hd
  simp only [Prod.mk.injEq, decide_eq_true_eq] at he
  obtain ⟨hnone, hflat, hgiven, hlasts⟩ := he
  have hc : ∀ diagnostic ∈ compilation.diagnostics, diagnostic.isError = false := by
    intro diagnostic hm
    rw [hnone] at hm
    cases hm
  obtain ⟨other, hother, hiff⟩ := hierarchical_clean_iff hp hc hflat hgiven
  exact ⟨compilation, hp, hc, hflat, hgiven, other, hother, hiff.mpr hlasts⟩

/-- The same path with the identifier in place of the name no longer resolves. -/
theorem hierarchical_error_identifier :
    ∃ compilation other, ofSource (signIn "web.login") {} = .ok compilation ∧
      compilation.diagnostics = [] ∧
      Unqualified compilation.declared.directives ∧
      (compilation.declared.Given fun id? => id?.isSome = true) ∧
      (compilation.workspace.model.elements.map Resolved.Element.id).Nodup ∧
      ofSource (Grammar.hierarchicalSource (signIn "web.login")) {} = .ok other ∧
      ∃ diagnostic ∈ other.diagnostics, diagnostic.isError = true := by
  have hd : (ofSource (signIn "web.login") {}).toOption.map (fun compilation : Compilation =>
      (compilation.diagnostics, decide (Unqualified compilation.declared.directives),
        decide (compilation.declared.Given fun id? => id?.isSome = true),
        decide (compilation.workspace.model.elements.map Resolved.Element.id).Nodup)) =
      some ([], true, true, true) := by
    decide +kernel
  have hm : (ofSource (Grammar.hierarchicalSource (signIn "web.login")) {}).toOption.map
      (fun other : Compilation =>
        decide (∃ diagnostic ∈ other.diagnostics, diagnostic.isError = true)) = some true := by
    decide +kernel
  obtain ⟨compilation, hp, he⟩ := exists_ok_of_map hd
  obtain ⟨other, hother, herror⟩ := exists_ok_of_map hm
  simp only [Prod.mk.injEq, decide_eq_true_eq] at he herror
  exact ⟨compilation, other, hp, he.1, he.2.1, he.2.2.1, he.2.2.2, hother, herror⟩

end Blueprint.Compilation
