import Blueprint.Proofs.Grammar.Loop

/-!
# Braces of a source

A source that is read without an error has its braces paired, but for one gap: any token may be the
key of an entry, and an opening brace that is read as a key pairs with no closing brace. Where no
key is an opening brace the tokens of the source are balanced, and every block ends at the brace
that belongs to the one that opened it.
-/

namespace Blueprint.Grammar

open Blueprint.Declared

variable {source : String} {limit : Int} {outcome : Outcome} {p q : Progress}

/-! ## Tokens before the end of the input -/

/-- The token at the end of the input changes nothing about braces. -/
theorem Walk.prefixes_concat {keys tokens : List Token} (h : Walk 0 keys tokens) {last : Token}
    (hl : last.kind = .endOfInput) {front : List Token} (hf : front <+: tokens ++ [last]) :
    closings front ≤ openings front := by
  rcases List.prefix_concat_iff.mp hf with rfl | hf
  · have hp := h.prefixes List.prefix_rfl
    simp only [openings, closings, List.countP_append, List.countP_singleton, hl] at hp ⊢
    exact hp
  · exact h.prefixes hf

/-- Up to the end of the input, closing braces are as many as opening braces that are no keys. -/
theorem Walk.counts_concat {keys tokens : List Token} (h : Walk 0 keys tokens) {last : Token}
    (hl : last.kind = .endOfInput) :
    openings (tokens ++ [last]) = closings (tokens ++ [last]) + openings keys := by
  have hc := h.counts
  simp only [openings, closings, List.countP_append, List.countP_singleton, hl] at hc ⊢
  exact hc

/-- Keys have no opening brace among them if none of them is one. -/
theorem openings_eq_zero_iff {keys : List Token} :
    openings keys = 0 ↔ ∀ key ∈ keys, key.kind ≠ .sign .leftBrace := by
  unfold openings
  rw [List.countP_eq_zero]
  simp only [beq_iff_eq, ne_eq]

/-! ## Sources that are read without an error -/

/-- A source in which nothing is wrong is read to the end of its tokens. -/
theorem read_of_parse (h : parse source limit = .ok outcome)
    (hc : ∀ diagnostic ∈ outcome.diagnostics, diagnostic.isError = false) :
    ∃ stream, TokenStream.ofString source = .ok stream ∧ outcome.tokens = stream.tokens ∧
      ∃ tokens last, stream.tokens = tokens ++ [last] ∧ last.kind = .endOfInput ∧
        Walk 0 (stream.read limit).2.keys tokens := by
  obtain ⟨stream, last, q, ht, hr, he, hrest, hkind, rfl⟩ := read_eq_of_parse h hc
  have hl := (TokenStream.placed_of_ofChars ht).lands_read limit
  rw [hr] at hl
  obtain ⟨keys, tokens, htokens, hkeys, hw⟩ := hl.2.1.walk he
  rw [hrest] at htokens
  have hstart : q.keys = keys := hkeys
  refine ⟨stream, ht, rfl, tokens, last, htokens, hkind, ?_⟩
  rw [hr, hstart]
  exact hw

/-- A block was read up to the brace that belongs to the one that opened it: the tokens inside are
paired, but for opening braces that were read as keys. -/
def PairedTo (p q : Progress) : Prop :=
  ∃ keys inner closing, p.rest = inner ++ closing :: q.rest ∧ closing.kind = .sign .rightBrace ∧
    q.keys = p.keys ++ keys ∧ (∀ front, front <+: inner → closings front ≤ openings front) ∧
    (Balanced inner ↔ ∀ key ∈ keys, key.kind ≠ .sign .leftBrace)

/-- A block that is read without an error is read up to its brace. -/
theorem Closes.pairedTo (h : Closes p q) (he : q.errors = 0) : PairedTo p q := by
  obtain ⟨keys, inner, closing, hr, hk, hkeys, hw⟩ := h.walk he
  refine ⟨keys, inner, closing, hr, hk, hkeys, fun front hf => hw.prefixes hf, ?_⟩
  rw [hw.balanced_iff]
  exact openings_eq_zero_iff

/-- What holds of the braces of a source that is read with a limit of errors, given its tokens. -/
structure Paired (source : String) (limit : Int) (tokens : List Token) : Prop where
  /-- No closing brace comes before the one it pairs with. -/
  prefixes : ∀ front, front <+: tokens → closings front ≤ openings front
  /-- Every opening brace that is not read as a key pairs with a closing brace, and the tokens are
  balanced exactly if no key is an opening brace. -/
  keys : ∃ stream, TokenStream.ofString source = .ok stream ∧ tokens = stream.tokens ∧
    openings tokens = closings tokens + openings (stream.read limit).2.keys ∧
    (Balanced tokens ↔ ∀ key ∈ (stream.read limit).2.keys, key.kind ≠ .sign .leftBrace)
  /-- Every block ends at the brace that belongs to the one that opened it. -/
  blocks : ∀ {ν : Type} {bound : Nat} {good : ν → Prop} {statement : NodeReader ν Unit},
    BlockLoop (Position.InSource source.toList) bound good statement →
    ∀ {p q : Progress} {node next : ν}, p.Sound (Position.InSource source.toList) →
      p.rest.length ≤ bound → good node →
      (readBlock statement node).run.run p = (.ok next, q) → q.errors = 0 →
      PairedTo p q

/-- A source that is read without an error has its braces paired, but for opening braces that are
read as keys. -/
theorem paired_of_parse (h : parse source limit = .ok outcome)
    (hc : ∀ diagnostic ∈ outcome.diagnostics, diagnostic.isError = false) :
    Paired source limit outcome.tokens := by
  obtain ⟨stream, ht, htokens, tokens, last, he, hl, hw⟩ := read_of_parse h hc
  have hprefixes : ∀ front, front <+: outcome.tokens → closings front ≤ openings front := by
    intro front hf
    rw [htokens, he] at hf
    exact hw.prefixes_concat hl hf
  have hcounts : openings outcome.tokens =
      closings outcome.tokens + openings (stream.read limit).2.keys := by
    rw [htokens, he]
    exact hw.counts_concat hl
  refine ⟨hprefixes, ⟨stream, ht, htokens, hcounts, ?_⟩, ?_⟩
  · rw [← openings_eq_zero_iff]
    constructor
    · intro hb
      have hq := hb.totals
      omega
    · intro hk
      exact ⟨hprefixes, by omega⟩
  · intro ν bound good statement hloop p q node next hs hb hv hr he
    exact (hloop.closes hs hb hv hr).pairedTo he

/-- A source with blocks in blocks and an entry of a key and a value. -/
def nestedSource : String :=
  "workspace \x7b\n model \x7b\n a = person \"A\" \x7b\n properties \x7b\n k v\n \x7d\n \x7d\n" ++
    " \x7d\n\x7d\n"

/-- Blocks in blocks are read without an error, and their four pairs of braces are paired. -/
theorem paired_of_nested_blocks :
    ∃ outcome, parse nestedSource defaultLimit = .ok outcome ∧
      (∀ diagnostic ∈ outcome.diagnostics, diagnostic.isError = false) ∧
      openings outcome.tokens = 4 ∧ Paired nestedSource defaultLimit outcome.tokens := by
  have hd : (parse nestedSource defaultLimit).toOption.map
      (fun outcome => (outcome.diagnostics, openings outcome.tokens)) = some ([], 4) := by
    decide +kernel
  obtain ⟨outcome, hp, he⟩ := exists_ok_of_map hd
  simp only [Prod.mk.injEq] at he
  have hc : ∀ diagnostic ∈ outcome.diagnostics, diagnostic.isError = false := by
    intro diagnostic hm
    rw [he.1] at hm
    cases hm
  exact ⟨outcome, hp, hc, he.2, paired_of_parse hp hc⟩

/-- A source with an opening brace as a key is read without a word, although one of its blocks is
never closed. -/
theorem unpaired_brace_as_key :
    ∃ outcome, parse "workspace \x7b properties \x7b \x7b \x7d \x7d" defaultLimit = .ok outcome ∧
      outcome.diagnostics = [] ∧ ¬Balanced outcome.tokens := by
  have hd : (parse "workspace \x7b properties \x7b \x7b \x7d \x7d" defaultLimit).toOption.map
      (fun outcome => (outcome.diagnostics, openings outcome.tokens, closings outcome.tokens)) =
      some ([], 3, 2) := by
    decide +kernel
  obtain ⟨outcome, hp, he⟩ := exists_ok_of_map hd
  simp only [Prod.mk.injEq] at he
  refine ⟨outcome, hp, he.1, fun hb => ?_⟩
  have ht := hb.totals
  omega

end Blueprint.Grammar
