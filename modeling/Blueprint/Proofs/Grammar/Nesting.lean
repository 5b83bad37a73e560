import Blueprint.Token.Basic

/-!
# Braces that nest

Tokens are passed one after the other while blocks are opened and closed. Walking counts the blocks
that are open; a token that is read as the key of an entry is passed without counting, even if it is
an opening brace. Where no key is an opening brace, a walk that ends in no open block passes
balanced tokens.
-/

namespace Blueprint.Grammar

/-- Whether a token of a kind neither opens nor closes a block, nor ends the input. -/
def isPlain : Kind → Bool
  | .sign .leftBrace | .sign .rightBrace | .endOfInput => false
  | _ => true

/-- The count of opening braces. -/
def openings (tokens : List Token) : Nat :=
  tokens.countP fun token => token.kind == .sign .leftBrace

/-- The count of closing braces. -/
def closings (tokens : List Token) : Nat :=
  tokens.countP fun token => token.kind == .sign .rightBrace

/-- Opening braces are counted token by token. -/
theorem openings_cons (token : Token) (tokens : List Token) :
    openings (token :: tokens) =
      openings tokens + if token.kind = .sign .leftBrace then 1 else 0 := by
  simp only [openings, List.countP_cons, beq_iff_eq]

/-- Closing braces are counted token by token. -/
theorem closings_cons (token : Token) (tokens : List Token) :
    closings (token :: tokens) =
      closings tokens + if token.kind = .sign .rightBrace then 1 else 0 := by
  simp only [closings, List.countP_cons, beq_iff_eq]

/-- A plain token is no opening brace. -/
theorem ne_leftBrace_of_isPlain {kind : Kind} (h : isPlain kind = true) :
    kind ≠ .sign .leftBrace := by
  rintro rfl
  cases h

/-- A plain token is no closing brace. -/
theorem ne_rightBrace_of_isPlain {kind : Kind} (h : isPlain kind = true) :
    kind ≠ .sign .rightBrace := by
  rintro rfl
  cases h

/-- No brace closes a block that is not open, and every block is closed. -/
structure Balanced (tokens : List Token) : Prop where
  /-- At every place at least as many braces have opened as closed. -/
  prefixes : ∀ front, front <+: tokens → closings front ≤ openings front
  /-- As many braces open as close. -/
  totals : openings tokens = closings tokens

/-- A walk through tokens that starts inside a number of open blocks and ends outside of them, with
the tokens that are read as keys on the way. -/
inductive Walk : Nat → List Token → List Token → Prop
  /-- Nothing is passed. -/
  | done : Walk 0 [] []
  /-- A token that is no brace is passed. -/
  | plain {depth : Nat} {keys : List Token} {token : Token} {tokens : List Token} :
    isPlain token.kind = true → Walk depth keys tokens → Walk depth keys (token :: tokens)
  /-- A token is passed as a key. -/
  | key {depth : Nat} {keys : List Token} {token : Token} {tokens : List Token} :
    token.kind ≠ .sign .rightBrace → Walk depth keys tokens →
      Walk depth (token :: keys) (token :: tokens)
  /-- A block opens. -/
  | opening {depth : Nat} {keys : List Token} {token : Token} {tokens : List Token} :
    token.kind = .sign .leftBrace → Walk (depth + 1) keys tokens →
      Walk depth keys (token :: tokens)
  /-- A block closes. -/
  | closing {depth : Nat} {keys : List Token} {token : Token} {tokens : List Token} :
    token.kind = .sign .rightBrace → Walk depth keys tokens →
      Walk (depth + 1) keys (token :: tokens)

namespace Walk

variable {depth : Nat} {keys tokens : List Token}

/-- One walk after the other closes the blocks of both. -/
theorem append (h : Walk depth keys tokens) {other : Nat} {moreKeys more : List Token}
    (hm : Walk other moreKeys more) :
    Walk (depth + other) (keys ++ moreKeys) (tokens ++ more) := by
  induction h with
  | done =>
    rw [Nat.zero_add]
    exact hm
  | plain hp _ ih => exact ih.plain hp
  | key hk _ ih => exact ih.key hk
  | opening ho _ ih =>
    rw [Nat.add_right_comm] at ih
    exact ih.opening ho
  | closing hc _ ih =>
    rw [Nat.add_right_comm]
    exact ih.closing hc

/-- Tokens without braces are passed in the same block. -/
theorem of_plain (h : ∀ token ∈ tokens, isPlain token.kind = true) : Walk 0 [] tokens := by
  induction tokens with
  | nil => exact done
  | cons token tokens ih =>
    exact (ih fun other hm => h other (List.mem_cons_of_mem _ hm)).plain
      (h token List.mem_cons_self)

/-- Closing braces are those that opening braces pair with, and those of the blocks that were open;
opening braces that are keys pair with none. -/
theorem counts (h : Walk depth keys tokens) :
    openings tokens + depth = closings tokens + openings keys := by
  induction h with
  | done => rfl
  | plain hp _ ih =>
    rw [openings_cons, closings_cons, if_neg (ne_leftBrace_of_isPlain hp),
      if_neg (ne_rightBrace_of_isPlain hp)]
    omega
  | key hk _ ih =>
    rw [openings_cons, closings_cons, openings_cons, if_neg hk]
    omega
  | opening ho _ ih =>
    have hc : ¬Kind.sign .leftBrace = Kind.sign .rightBrace := by decide
    rw [openings_cons, closings_cons, ho, if_pos rfl, if_neg hc]
    omega
  | closing hc _ ih =>
    have ho : ¬Kind.sign .rightBrace = Kind.sign .leftBrace := by decide
    rw [openings_cons, closings_cons, hc, if_pos rfl, if_neg ho]
    omega

/-- At every place of a walk, no more blocks are closed than were open or have opened. -/
theorem prefixes (h : Walk depth keys tokens) {front : List Token} (hf : front <+: tokens) :
    closings front ≤ openings front + depth := by
  induction h generalizing front with
  | done =>
    rw [List.prefix_nil.mp hf]
    exact Nat.le_refl _
  | plain hp _ ih =>
    rcases List.prefix_cons_iff.mp hf with rfl | ⟨more, rfl, hm⟩
    · exact Nat.zero_le _
    · have hi := ih hm
      rw [openings_cons, closings_cons, if_neg (ne_rightBrace_of_isPlain hp)]
      omega
  | key hk _ ih =>
    rcases List.prefix_cons_iff.mp hf with rfl | ⟨more, rfl, hm⟩
    · exact Nat.zero_le _
    · have hi := ih hm
      rw [openings_cons, closings_cons, if_neg hk]
      omega
  | opening ho _ ih =>
    rcases List.prefix_cons_iff.mp hf with rfl | ⟨more, rfl, hm⟩
    · exact Nat.zero_le _
    · have hi := ih hm
      have hc : ¬Kind.sign .leftBrace = Kind.sign .rightBrace := by decide
      rw [openings_cons, closings_cons, ho, if_pos rfl, if_neg hc]
      omega
  | closing hc _ ih =>
    rcases List.prefix_cons_iff.mp hf with rfl | ⟨more, rfl, hm⟩
    · exact Nat.zero_le _
    · have hi := ih hm
      rw [openings_cons, closings_cons, hc, if_pos rfl]
      omega

/-- What is walked through outside of all blocks is balanced exactly if no key is an opening
brace. -/
theorem balanced_iff (h : Walk 0 keys tokens) : Balanced tokens ↔ openings keys = 0 := by
  have hc := h.counts
  constructor
  · intro hb
    have ht := hb.totals
    omega
  · intro hk
    refine ⟨fun front hf => h.prefixes hf, ?_⟩
    omega

end Walk

end Blueprint.Grammar
