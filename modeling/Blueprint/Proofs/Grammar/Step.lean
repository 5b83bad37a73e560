import Blueprint.Grammar.Documentation
import Blueprint.Proofs.Declared.Located
import Blueprint.Proofs.Grammar.Nesting

/-!
# Steps of reading

What a step of reading does, from one progress to another, whatever the tokens are: it takes tokens
from the front and leaves the end of the input, and what it reports and reads has places. A step
that goes on without an error passes whole blocks, or closes a number of them.
-/

namespace Blueprint.Grammar

open Blueprint.Declared Blueprint.Text

variable {spots : Position → Prop} {p q r : Progress} {α β : Type}

/-! ## States -/

/-- A value of digits that is read as no number. -/
def Unreadable (value : String) : Prop :=
  value.toList ≠ [] ∧ value.toList.all isDigitSign = true ∧
    ∃ fault, Number.read value.toList = .error fault

/-- The end of the input is the last token and no other. -/
def Ends (tokens : List Token) : Prop :=
  ∃ front last, tokens = front ++ [last] ∧ last.kind = .endOfInput ∧
    ∀ token ∈ front, token.kind ≠ .endOfInput

/-- What holds whenever reading has come somewhere. -/
structure Progress.Sound (spots : Position → Prop) (p : Progress) : Prop where
  /-- The tokens that are left end with the end of the input. -/
  ends : Ends p.rest
  /-- Signs are written as they are spelled. -/
  spelled : ∀ token ∈ p.rest, ∀ sign, token.kind = .sign sign → token.lexeme = sign.spelling
  /-- The tokens that are left have places. -/
  tokens : ∀ token ∈ p.rest, spots token.position
  /-- A missing end of a block is an error. -/
  missing : p.endReported = true → 0 < p.errors
  /-- Every error is reported. -/
  errors : p.errors ≤ (p.diagnostics.filter Diagnostic.isError).length
  /-- What is reported has a place. -/
  diagnostics : ∀ diagnostic ∈ p.diagnostics, Marked spots diagnostic.position
  /-- The places of sections so far are numbers. -/
  orders : ∀ value ∈ p.orders, ¬Unreadable value
  /-- What is read has places. -/
  workspace : p.workspace.Located spots

/-- A key that is read comes behind the keys before it. -/
theorem Progress.keys_key (p : Progress) (token : Token) :
    Progress.keys { p with trace := p.trace ++ [.key token] } = p.keys ++ [token] :=
  List.filterMap_append

/-- A key that is read is no place of a section. -/
theorem Progress.orders_key (p : Progress) (token : Token) :
    Progress.orders { p with trace := p.trace ++ [.key token] } = p.orders :=
  List.filterMap_append.trans (List.append_nil _)

/-- A place of a section that is read is no key. -/
theorem Progress.keys_order (p : Progress) (value : String) :
    Progress.keys { p with trace := p.trace ++ [.order value] } = p.keys :=
  List.filterMap_append.trans (List.append_nil _)

/-- A place of a section that is read comes behind the places before it. -/
theorem Progress.orders_order (p : Progress) (value : String) :
    Progress.orders { p with trace := p.trace ++ [.order value] } = p.orders ++ [value] :=
  List.filterMap_append

/-- The next token. -/
def Progress.next (p : Progress) : Token := p.rest.headD default

/-- One progress comes after another. -/
structure Follows (spots : Position → Prop) (p q : Progress) : Prop where
  /-- Tokens are taken from the front. -/
  rest : q.rest <:+ p.rest
  /-- Errors stay. -/
  errors : p.errors ≤ q.errors
  /-- What holds everywhere holds here. -/
  sound : q.Sound spots

/-- What was passed from one progress to another: at least a number of tokens, and if there is no
error, a walk that closes a number of blocks. -/
structure Goes (depth count : Nat) (p q : Progress) : Prop where
  /-- Errors stay. -/
  errors : p.errors ≤ q.errors
  /-- At least so many tokens are taken. -/
  taken : q.rest.length + count ≤ p.rest.length
  /-- Blocks are passed as a whole, or closed. -/
  walk : q.errors = 0 → ∃ keys tokens, p.rest = tokens ++ q.rest ∧ q.keys = p.keys ++ keys ∧
    Walk depth keys tokens

/-- An opening brace was passed from one progress to another. -/
structure Opens (p q : Progress) : Prop where
  /-- Errors stay. -/
  errors : p.errors ≤ q.errors
  /-- The brace was the next token. -/
  rest : ∃ token, token.kind = .sign .leftBrace ∧ p.rest = token :: q.rest
  /-- No key was passed. -/
  keys : q.keys = p.keys

/-- The rest of a block was passed from one progress to another. -/
structure Closes (p q : Progress) : Prop where
  /-- Tokens are taken from the front. -/
  rest : q.rest <:+ p.rest
  /-- Errors stay. -/
  errors : p.errors ≤ q.errors
  /-- A closing brace was the last token, or the end of the input is reached. -/
  ended : (∃ inner token, p.rest = inner ++ token :: q.rest ∧ token.kind = .sign .rightBrace) ∨
    q.next.kind = .endOfInput
  /-- Without an error it was the brace that closes the block: what stands before it was passed in
  whole blocks. -/
  walk : q.errors = 0 → ∃ keys inner token, p.rest = inner ++ token :: q.rest ∧
    token.kind = .sign .rightBrace ∧ q.keys = p.keys ++ keys ∧ Walk 0 keys inner

/-- Every progress comes after itself. -/
theorem Follows.refl (h : p.Sound spots) : Follows spots p p :=
  ⟨List.suffix_rfl, Nat.le_refl _, h⟩

/-- What comes after what comes after comes after. -/
theorem Follows.trans (h₁ : Follows spots p q) (h₂ : Follows spots q r) : Follows spots p r :=
  ⟨h₂.rest.trans h₁.rest, Nat.le_trans h₁.errors h₂.errors, h₂.sound⟩

/-- Nothing is passed where nothing is done. -/
theorem Goes.refl (p : Progress) : Goes 0 0 p p :=
  ⟨Nat.le_refl _, Nat.le_refl _, fun _ => ⟨[], [], rfl, (List.append_nil _).symm, .done⟩⟩

/-- What is passed adds up. -/
theorem Goes.trans {j k m n : Nat} (h₁ : Goes j m p q) (h₂ : Goes k n q r) :
    Goes (j + k) (m + n) p r where
  errors := Nat.le_trans h₁.errors h₂.errors
  taken := by
    have h₃ := h₁.taken
    have h₄ := h₂.taken
    omega
  walk := by
    intro hr
    have hq : q.errors = 0 := by
      have := h₂.errors
      omega
    obtain ⟨keys, tokens, he, hk, hw⟩ := h₁.walk hq
    obtain ⟨more, others, hf, hl, hv⟩ := h₂.walk hr
    refine ⟨keys ++ more, tokens ++ others, ?_, ?_, hw.append hv⟩
    · rw [he, hf, List.append_assoc]
    · rw [hl, hk, List.append_assoc]

/-- What takes many tokens takes few. -/
theorem Goes.weaken {k m n : Nat} (h : Goes k n p q) (hm : m ≤ n) : Goes k m p q :=
  ⟨h.errors, by have := h.taken; omega, h.walk⟩

/-- Where nothing but other things changes, nothing is passed. -/
theorem Goes.of_eq (he : p.errors ≤ q.errors) (hr : q.rest = p.rest) (hk : q.keys = p.keys) :
    Goes 0 0 p q :=
  ⟨he, by rw [hr]; exact Nat.le_refl _, fun _ => ⟨[], [], by rw [hr]; rfl, by
    rw [hk, List.append_nil], .done⟩⟩

/-- A block that is opened and closed is passed as a whole. -/
theorem Opens.trans {k n : Nat} (h₁ : Opens p q) (h₂ : Goes (k + 1) n q r) :
    Goes k (n + 1) p r where
  errors := Nat.le_trans h₁.errors h₂.errors
  taken := by
    obtain ⟨token, _, hr⟩ := h₁.rest
    have h₃ := h₂.taken
    rw [hr, List.length_cons]
    omega
  walk := by
    intro hr
    obtain ⟨token, ht, hp⟩ := h₁.rest
    obtain ⟨keys, tokens, he, hk, hw⟩ := h₂.walk hr
    refine ⟨keys, token :: tokens, ?_, ?_, hw.opening ht⟩
    · rw [hp, he, List.cons_append]
    · rw [hk, h₁.keys]

/-- The rest of a block begins with what is passed before its rest. -/
theorem Goes.closes {n : Nat} (h₁ : Goes 0 n p q) (hs : q.rest <:+ p.rest) (h₂ : Closes q r) :
    Closes p r where
  rest := h₂.rest.trans hs
  errors := Nat.le_trans h₁.errors h₂.errors
  ended := by
    obtain ⟨front, hf⟩ := hs
    rcases h₂.ended with ⟨inner, token, he, ht⟩ | he
    · refine .inl ⟨front ++ inner, token, ?_, ht⟩
      rw [← hf, he, List.append_assoc]
    · exact .inr he
  walk := by
    intro hr
    have hq : q.errors = 0 := by
      have := h₂.errors
      omega
    obtain ⟨keys, tokens, he, hk, hw⟩ := h₁.walk hq
    obtain ⟨more, inner, token, hf, ht, hl, hv⟩ := h₂.walk hr
    refine ⟨keys ++ more, tokens ++ inner, token, ?_, ht, ?_, hw.append hv⟩
    · rw [he, hf, List.append_assoc]
    · rw [hl, hk, List.append_assoc]

/-- The rest of a block closes it. -/
theorem Closes.goes (h : Closes p q) : Goes 1 0 p q where
  errors := h.errors
  taken := h.rest.length_le
  walk := by
    intro hq
    obtain ⟨keys, inner, token, he, ht, hk, hw⟩ := h.walk hq
    refine ⟨keys, inner ++ [token], ?_, hk, ?_⟩
    · rw [he, List.append_assoc, List.singleton_append]
    · have hv := hw.append (.closing ht .done)
      rw [List.append_nil, Nat.zero_add] at hv
      exact hv

/-! ## The next token -/

namespace Progress.Sound

/-- There always is a next token. -/
theorem rest_eq (h : p.Sound spots) : ∃ tokens, p.rest = p.next :: tokens := by
  obtain ⟨front, last, he, _⟩ := h.ends
  unfold next
  cases hr : p.rest with
  | nil =>
    rw [hr] at he
    simp at he
  | cons token tokens => exact ⟨tokens, rfl⟩

/-- The next token is one of the tokens that are left. -/
theorem next_mem (h : p.Sound spots) : p.next ∈ p.rest := by
  obtain ⟨tokens, hr⟩ := h.rest_eq
  rw [hr]
  exact List.mem_cons_self

/-- The next token has a place. -/
theorem next_spot (h : p.Sound spots) : spots p.next.position := h.tokens _ h.next_mem

/-- The next token is marked with its place. -/
theorem next_marked (h : p.Sound spots) : Marked spots (some p.next.position) :=
  ⟨_, rfl, h.next_spot⟩

/-- Tokens are always left. -/
theorem rest_pos (h : p.Sound spots) : 0 < p.rest.length := by
  obtain ⟨tokens, hr⟩ := h.rest_eq
  rw [hr]
  exact Nat.succ_pos _

/-- Before the end of the input there is a further token. -/
theorem rest_cons (h : p.Sound spots) (hk : p.next.kind ≠ .endOfInput) :
    ∃ token tokens, p.rest = p.next :: token :: tokens := by
  obtain ⟨tokens, hr⟩ := h.rest_eq
  cases tokens with
  | nil =>
    obtain ⟨front, last, he, hl, _⟩ := h.ends
    have hb : [] ++ [p.next] = front ++ [last] := hr.symm.trans he
    obtain ⟨_, hc⟩ := List.append_inj' hb rfl
    rw [List.cons.inj hc |>.1] at hk
    exact absurd hl hk
  | cons token tokens => exact ⟨token, tokens, hr⟩

/-- With the tokens that are left, reading has come as far. -/
theorem of_suffix (h : p.Sound spots) {tokens : List Token} (hs : tokens <:+ p.rest)
    (hn : tokens ≠ []) : Sound spots { p with rest := tokens } where
  ends := by
    obtain ⟨front, last, he, hl, hf⟩ := h.ends
    obtain ⟨taken, ht⟩ := hs
    rcases List.eq_nil_or_concat tokens with rfl | ⟨more, end', rfl⟩
    · exact absurd rfl hn
    · rw [List.concat_eq_append, ← List.append_assoc, he] at ht
      obtain ⟨hb, hc⟩ := List.append_inj' ht rfl
      refine ⟨more, end', List.concat_eq_append .., ?_, ?_⟩
      · rw [(List.cons.inj hc).1, hl]
      · intro token hm
        rw [← hb] at hf
        exact hf token (List.mem_append_right _ hm)
  spelled := fun token hm => h.spelled token (hs.subset hm)
  tokens := fun token hm => h.tokens token (hs.subset hm)
  missing := h.missing
  errors := h.errors
  diagnostics := h.diagnostics
  orders := h.orders
  workspace := h.workspace

end Progress.Sound

end Blueprint.Grammar
