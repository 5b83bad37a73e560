import Blueprint.Proofs.Registry.Unresolved

/-!
# What references stand for

Where every alias stands for a registered element, a reference is resolved in one step: a relative
reference against the context, a word as an identifier, an alias or a name, and a path from what its
first part stands for, part by part. Nothing is circular then, and a reference with a position is an
error exactly if it stands for nothing.
-/

namespace Blueprint

variable {registry : Registry} {position : Option Position}

/-! ## Answers -/

/-- A resolution yields what its reference stands for. If that is nothing, and there is a position
to report it at, this is an error; nothing else is. -/
structure Resolution.Answers (resolution : Resolution) (position : Option Position)
    (meaning : Option Entry) : Prop where
  /-- The element that the reference stands for is found. -/
  value : resolution.value = meaning
  /-- Only that there is none is an error. -/
  clean : resolution.Clean ↔ (position.isSome = true → meaning.isSome = true)

namespace Resolution

/-- An element without problems is an answer. -/
theorem answers_found (entry : Entry) (position : Option Position) :
    (found entry).Answers position (some entry) :=
  ⟨rfl, iff_of_true (fun _ hm => absurd hm List.not_mem_nil) fun _ => rfl⟩

/-- That there is no element is an answer. -/
theorem answers_missing (issue : ReferenceIssue) (position : Option Position) :
    (missing issue position).Answers position none := by
  refine ⟨rfl, ?_⟩
  cases position with
  | none => exact iff_of_true (fun _ hm => absurd hm List.not_mem_nil) nofun
  | some place => exact iff_of_false (not_clean_missing rfl) fun h => nomatch h rfl

/-- An element or none is an answer. -/
theorem answers_option (meaning : Option Entry) (issue : ReferenceIssue)
    (position : Option Position) :
    (match meaning with
      | some entry => found entry
      | none => missing issue position).Answers position meaning := by
  cases meaning with
  | none => exact answers_missing issue position
  | some entry => exact answers_found entry position

/-- Where the position of an answer is not reported, what follows answers by itself. -/
theorem Answers.bind {first : Resolution} {next : Option Entry → Resolution}
    {meaning last : Option Entry} (h : first.Answers none meaning)
    (hn : (next meaning).Answers position last) :
    Resolution.Answers (first >>= next) position last := by
  have hclean : first.Clean := h.clean.mpr nofun
  refine ⟨?_, ?_⟩
  · rw [Reported.bind_value, h.value]
    exact hn.value
  · rw [Reported.clean_bind, h.value]
    exact (and_iff_right hclean).trans hn.clean

end Resolution

namespace Registry

/-! ## Words -/

/-- What `this` or `parent` stands for. -/
def relativeMeaning (registry : Registry) (word : String) : Option Entry :=
  (registry.context.bind registry.get?).bind fun entry =>
    if word = "this" then some entry else entry.parent.bind registry.get?

/-- What a reference without a point stands for. -/
def wordMeaning (registry : Registry) (word : String) : Option Entry :=
  if word = "this" ∨ word = "parent" then registry.relativeMeaning word
  else (registry.get? word).or
    (((registry.aliases.get? word).bind registry.get?).or (registry.resolveName word))

/-- Every alias stands for a registered element. -/
def Direct (registry : Registry) : Prop :=
  ∀ word target, registry.aliases.get? word = some target →
    ∃ entry, registry.get? target = some entry

/-- A relative reference stands for what is found by the context. -/
theorem answers_resolveRelative (word : String) :
    (registry.resolveRelative word position).Answers position (registry.relativeMeaning word) := by
  unfold resolveRelative relativeMeaning
  cases registry.context.bind registry.get? with
  | none => exact Resolution.answers_missing _ _
  | some entry =>
    dsimp only [Option.bind_some]
    split
    · exact Resolution.answers_found _ _
    · exact Resolution.answers_option _ _ _

/-- A word stands for what it is resolved to. -/
theorem answers_word (hd : registry.Direct) {chain : List String} {word : String}
    (hw : isPath word = false) (hn : word ∉ chain) :
    (registry.resolveAfter chain word position true).Answers position
      (registry.wordMeaning word) := by
  rw [resolveAfter, dif_neg hn]
  unfold wordMeaning
  split
  · exact answers_resolveRelative word
  · cases hg : registry.get? word with
    | some entry => exact Resolution.answers_found _ _
    | none =>
      dsimp only
      split
      · rename_i target ha
        obtain ⟨entry, he⟩ := hd word target ha
        simp only [he, ha, Option.bind_some, Option.none_or, Option.some_or]
        exact Resolution.answers_found _ _
      · rename_i ha
        rw [dif_neg (by rw [hw]; decide)]
        simp only [ha, Option.bind_none, Option.none_or, if_true]
        exact Resolution.answers_option _ _ _

/-! ## Paths -/

/-- Where the parts of a path lead from an element. -/
def follow (registry : Registry) (start : Entry) (parts : List String) : Option Entry :=
  parts.foldlM (fun entry part => registry.findChild entry.id part) start

/-- What the parts of a path stand for, one after the other. -/
def pathMeaning (registry : Registry) (path : String) : Option Entry :=
  (registry.wordMeaning (firstPart path)).bind fun start =>
    registry.follow start (pathParts path).tail

/-- What a reference stands for. -/
def meaning (registry : Registry) (reference : String) : Option Entry :=
  if isPath reference then
    (registry.get? reference).or
      (((registry.aliases.get? reference).bind registry.get?).or (registry.pathMeaning reference))
  else registry.wordMeaning reference

/-- Following a path leads to what its parts stand for. -/
theorem answers_followPath (path : String) (start : Entry) (parts : List String) :
    (registry.followPath path position start parts).Answers position
      (registry.follow start parts) := by
  unfold follow
  induction parts generalizing start with
  | nil => exact Resolution.answers_found start position
  | cons part parts ih =>
    rw [followPath, List.foldlM_cons]
    cases registry.findChild start.id part with
    | none => exact Resolution.answers_missing _ _
    | some child => exact ih child

/-- A path is no relative reference. -/
theorem not_relative_of_isPath {reference : String} (h : isPath reference = true) :
    ¬(reference = "this" ∨ reference = "parent") := by
  rintro (rfl | rfl) <;> revert h <;> decide

/-- The first part of a path is another reference than the path. -/
theorem firstPart_ne {reference : String} (h : isPath reference = true) :
    firstPart reference ≠ reference := by
  intro he
  have hf := isPath_firstPart reference
  rw [he, h] at hf
  cases hf

/-- A reference stands for what it is resolved to. -/
theorem answers_resolveAfter (hd : registry.Direct) (reference : String) :
    (registry.resolveAfter [] reference position true).Answers position
      (registry.meaning reference) := by
  unfold meaning
  split
  · rename_i hp
    rw [resolveAfter, dif_neg List.not_mem_nil, if_neg (not_relative_of_isPath hp)]
    cases hg : registry.get? reference with
    | some entry => exact Resolution.answers_found _ _
    | none =>
      dsimp only
      split
      · rename_i target ha
        obtain ⟨entry, he⟩ := hd reference target ha
        simp only [he, ha, Option.bind_some, Option.none_or, Option.some_or]
        exact Resolution.answers_found _ _
      · rename_i ha
        rw [dif_pos hp]
        simp only [ha, Option.bind_none, Option.none_or]
        have hne : firstPart reference ∉ [] ++ [reference] := by
          rw [List.nil_append, List.mem_singleton]
          exact firstPart_ne hp
        refine (answers_word hd (isPath_firstPart reference) hne).bind ?_
        unfold pathMeaning
        cases registry.wordMeaning (firstPart reference) with
        | none => exact Resolution.answers_missing _ _
        | some start => exact answers_followPath reference start _
  · rename_i hp
    exact answers_word hd (Bool.eq_false_iff.mpr hp) List.not_mem_nil

/-- What a reference to an element of a class stands for: nothing of another class. -/
def meaningOf (registry : Registry) (reference : String) (wanted : ElementClass) : Option Entry :=
  (registry.meaning reference).filter fun entry => entry.kind.isA wanted

/-- A reference to an element of a class stands for what it is resolved to. -/
theorem answers_resolve (hd : registry.Direct) (reference : String) (wanted : ElementClass) :
    (registry.resolve reference position true wanted).Answers position
      (registry.meaningOf reference wanted) := by
  have h : (registry.resolveAfter [] reference position true).Answers position
      (registry.meaning reference) := answers_resolveAfter hd reference
  have hnext : ∀ entry : Entry,
      (if entry.kind.isA wanted then Resolution.found entry
        else Resolution.missing (.mismatch wanted entry.kind reference) position).Answers position
      ((some entry).filter fun entry => entry.kind.isA wanted) := by
    intro entry
    rw [Option.filter_some]
    split
    · exact Resolution.answers_found _ _
    · exact Resolution.answers_missing _ _
  unfold resolve meaningOf
  refine ⟨?_, ?_⟩
  · rw [Reported.bind_value, h.value]
    cases registry.meaning reference with
    | none => rfl
    | some entry => exact (hnext entry).value
  · rw [Reported.clean_bind, h.value, h.clean]
    cases registry.meaning reference with
    | none => exact and_iff_left fun _ hm => absurd hm List.not_mem_nil
    | some entry =>
      exact (and_iff_right fun _ => rfl).trans (hnext entry).clean

end Registry

end Blueprint
