import Mathlib.Data.List.Find
import Blueprint.Proofs.Qualified.Meaning
import Blueprint.Proofs.Registry.Named

/-!
# Registries with longer identifiers

Where identifiers are hierarchical, that of a plain element starts with that of the element around
it, and the shorter one is an alias. A registry with longer identifiers mirrors the one with short
identifiers: words stand for the same elements in both. A path stands for the element whose full
identifier it spells, if there is one, and else for what its parts after the first one lead to by
names, or by the identifiers of instances, which stay short.
-/

namespace Blueprint

/-- Whether the full identifier of an element starts with that of the element around it. -/
def ElementClass.isQualified : ElementClass → Bool
  | .deploymentEnvironment | .softwareSystemInstance | .containerInstance => false
  | _ => true

/-- What the registry knows of an element, with other identifiers. -/
def Entry.renamed (entry : Entry) (rename : String → String) : Entry :=
  { entry with id := rename entry.id, parent := entry.parent.map rename }

namespace Registry

open Blueprint.Text

variable {short long : Registry}

/-! ## Full identifiers -/

/-- The full identifier of an element, given those of others. -/
def qualify (rename : String → String) (entry : Entry) : String :=
  match entry.parent with
  | some parent =>
    if entry.kind.isQualified then rename parent ++ "." ++ entry.id else entry.id
  | none => entry.id

/-- The full identifier of an element, looked up among some. -/
def lookUpId (known : List (String × String)) (id : String) : String :=
  ((known.find? fun pair => pair.1 = id).map Prod.snd).getD id

/-- Full identifiers with that of one more element. -/
def qualifyNext (known : List (String × String)) (entry : Entry) : List (String × String) :=
  known ++ [(entry.id, qualify (lookUpId known) entry)]

/-- The full identifier of an element: it starts with that of its parent, if it is one that does. -/
def fullId (registry : Registry) (id : String) : String :=
  lookUpId (registry.all.foldl qualifyNext []) id

/-- The elements that have their full identifiers are those among which they are looked up. -/
theorem map_fst_qualifyNext (entries : List Entry) (known : List (String × String)) :
    (entries.foldl qualifyNext known).map Prod.fst =
      known.map Prod.fst ++ entries.map Entry.id := by
  induction entries generalizing known with
  | nil => rw [List.foldl_nil, List.map_nil, List.append_nil]
  | cons entry entries ih =>
    rw [List.foldl_cons, ih]
    simp [qualifyNext]

/-- The full identifier of one more element is the one that it is given; the others keep theirs. -/
theorem lookUpId_qualifyNext {known : List (String × String)} {entry : Entry}
    (h : entry.id ∉ known.map Prod.fst) (id : String) :
    lookUpId (qualifyNext known entry) id =
      if entry.id = id then qualify (lookUpId known) entry else lookUpId known id := by
  unfold lookUpId qualifyNext
  rw [List.find?_append]
  by_cases he : entry.id = id
  · subst he
    have hn : (known.find? fun pair => pair.1 = entry.id) = none := by
      rw [List.find?_eq_none]
      intro pair hm hp
      exact h (List.mem_map.mpr ⟨pair, hm, of_decide_eq_true hp⟩)
    rw [hn]
    simp
    rfl
  · rw [if_neg he]
    simp [he]

/-- With one more element, it has the full identifier that it is given, and the others keep
theirs. -/
theorem fullId_register {registry : Registry} (h : registry.Indexed) {entry : Entry}
    (hn : registry.get? entry.id = none) (id : String) :
    (registry.register entry).fullId id =
      if entry.id = id then qualify registry.fullId entry else registry.fullId id := by
  have hfresh : entry.id ∉ (registry.all.foldl qualifyNext []).map Prod.fst := by
    rw [map_fst_qualifyNext, List.map_nil, List.nil_append]
    intro hm
    obtain ⟨other, ho, he⟩ := List.mem_map.mp hm
    rw [← he, h.mem_all_iff.mp ho] at hn
    cases hn
  unfold fullId
  rw [all_register hn, List.foldl_append]
  exact lookUpId_qualifyNext hfresh id

/-! ## Registries with short identifiers -/

/-- A registry whose identifiers are those that the elements are given: no path, and no alias. -/
structure Short (registry : Registry) : Prop where
  /-- The tables agree with the elements. -/
  indexed : registry.Indexed
  /-- Every name stands for the first element that has it. -/
  named : registry.Complete
  /-- There is no alias. -/
  unaliased : ∀ word, registry.aliases.get? word = none
  /-- No identifier is a path. -/
  undotted : ∀ id entry, registry.get? id = some entry → isPath id = false
  /-- Parents are registered. -/
  parents : ∀ id entry, registry.get? id = some entry → ∀ parent, entry.parent = some parent →
    ∃ outer, registry.get? parent = some outer
  /-- Every element has its full identifier. -/
  full : ∀ id entry, registry.get? id = some entry →
    registry.fullId id = qualify registry.fullId entry
  /-- The context is registered. -/
  context : ∀ id, registry.context = some id → ∃ entry, registry.get? id = some entry

/-- A text that ends with a point and a word is a path. -/
theorem isPath_append (front word : String) : isPath (front ++ "." ++ word) = true := by
  unfold isPath
  rw [List.contains_iff_mem, String.toList_append, String.toList_append]
  exact List.mem_append_left _ (List.mem_append_right _ List.mem_cons_self)

/-- The word behind the last point of a text is the only one. -/
theorem word_of_append {front other word last : String} (hw : isPath word = false)
    (hl : isPath last = false) (h : front ++ "." ++ word = other ++ "." ++ last) : word = last := by
  have hend : ∀ {text : String}, isPath text = false → ∀ before : String,
      ((before ++ "." ++ text).toList.reverse.takeWhile (· ≠ '.')).reverse = text.toList := by
    intro text ht before
    have hall : ∀ c ∈ text.toList.reverse, decide (c ≠ '.') = true := by
      intro c hc
      refine decide_eq_true fun he => ?_
      rw [isPath, ← Bool.not_eq_true, List.contains_iff_mem] at ht
      exact ht (he ▸ List.mem_reverse.mp hc)
    have hpoint : ".".toList = ['.'] := rfl
    rw [String.toList_append, String.toList_append, List.reverse_append, List.reverse_append,
      hpoint, List.takeWhile_append_of_pos hall, List.reverse_singleton, List.singleton_append,
      List.takeWhile_cons_of_neg (by decide), List.append_nil, List.reverse_reverse]
  have heq := congrArg (fun text : String =>
    (text.toList.reverse.takeWhile (· ≠ '.')).reverse) h
  rw [hend hw front, hend hl other] at heq
  exact String.toList_injective heq

namespace Short

variable {id other : String} {entry twin : Entry}

/-- The full identifier of an element is its own, or a path that ends with its own. -/
theorem fullId_cases (h : short.Short) (hg : short.get? id = some entry) :
    short.fullId id = id ∨ ∃ front, short.fullId id = front ++ "." ++ id := by
  have hid : entry.id = id := h.indexed.keyed id entry hg
  rw [h.full id entry hg, ← hid]
  unfold qualify
  split
  · split
    · exact .inr ⟨_, rfl⟩
    · exact .inl rfl
  · exact .inl rfl

/-- A full identifier that is no path is the identifier itself. -/
theorem fullId_eq (h : short.Short) (hg : short.get? id = some entry)
    (hp : isPath (short.fullId id) = false) : short.fullId id = id := by
  rcases h.fullId_cases hg with he | ⟨front, he⟩
  · exact he
  · rw [he, isPath_append] at hp
    cases hp

/-- Elements with one full identifier are one element. -/
theorem fullId_inj (h : short.Short) (hg : short.get? id = some entry)
    (ho : short.get? other = some twin) (he : short.fullId id = short.fullId other) :
    id = other := by
  have hid := h.undotted id entry hg
  have hother := h.undotted other twin ho
  rcases h.fullId_cases hg with hf | ⟨front, hf⟩ <;> rcases h.fullId_cases ho with hl | ⟨back, hl⟩
  · rw [← hf, he, hl]
  · rw [hf, hl] at he
    rw [he, isPath_append] at hid
    cases hid
  · rw [hf, hl] at he
    rw [← he, isPath_append] at hother
    cases hother
  · rw [hf, hl] at he
    exact word_of_append hid hother he

/-- Aliases do not lead anywhere. -/
theorem direct (h : short.Short) : short.Direct := by
  intro word target ha
  rw [h.unaliased] at ha
  cases ha

end Short

/-! ## Mirrors -/

/-- A registry mirrors another one: it has its elements under their full identifiers, and the short
ones are aliases. -/
structure Mirrors (short long : Registry) : Prop where
  /-- The elements have their full identifiers. -/
  entries : long.elements.entries =
    short.elements.entries.map fun pair => (short.fullId pair.1, pair.2.renamed short.fullId)
  /-- Names stand for the same elements. -/
  names : ∀ name, long.names.get? name = (short.names.get? name).map short.fullId
  /-- Elements have the same children. -/
  children : ∀ id entry, short.get? id = some entry →
    listed long.children (short.fullId id) = (listed short.children id).map short.fullId
  /-- An identifier that is not the full one is an alias of that. -/
  aliases : ∀ word, long.aliases.get? word =
    if (short.get? word).isSome ∧ short.fullId word ≠ word then some (short.fullId word) else none
  /-- The context is the same element. -/
  context : long.context = short.context.map short.fullId

namespace Mirrors

variable {id : String} {entry : Entry}

/-- What is registered under an identifier is registered under the full one. -/
theorem get?_eq_some_iff (h : Mirrors short long) {key : String} {found : Entry} :
    long.get? key = some found ↔
      ∃ id entry, short.get? id = some entry ∧ short.fullId id = key ∧
        entry.renamed short.fullId = found := by
  unfold get?
  rw [OrderedMap.get?_eq_some_iff, h.entries, List.mem_map]
  constructor
  · rintro ⟨⟨id, entry⟩, hm, he⟩
    obtain ⟨rfl, rfl⟩ := Prod.mk.inj he
    exact ⟨id, entry, OrderedMap.get?_eq_some_iff.mpr hm, rfl, rfl⟩
  · rintro ⟨id, entry, hg, rfl, rfl⟩
    exact ⟨(id, entry), OrderedMap.get?_eq_some_iff.mp hg, rfl⟩

/-- A registered element is registered under its full identifier. -/
theorem get?_fullId (h : Mirrors short long) (hg : short.get? id = some entry) :
    long.get? (short.fullId id) = some (entry.renamed short.fullId) :=
  h.get?_eq_some_iff.mpr ⟨id, entry, hg, rfl, rfl⟩

/-- Aliases stand for registered elements. -/
theorem direct (h : Mirrors short long) : long.Direct := by
  intro word target ha
  rw [h.aliases] at ha
  split at ha
  · rename_i hw
    obtain rfl := Option.some.inj ha
    obtain ⟨entry, hg⟩ := Option.isSome_iff_exists.mp hw.1
    exact ⟨_, h.get?_eq_some_iff.mpr ⟨word, entry, hg, rfl, rfl⟩⟩
  · cases ha

/-- The registered elements are the same, with their full identifiers. -/
theorem all (h : Mirrors short long) :
    long.all = short.all.map (Entry.renamed · short.fullId) := by
  unfold Registry.all OrderedMap.values
  rw [h.entries, List.map_map, List.map_map]
  rfl

/-- A word is the identifier or an alias of the same element. -/
theorem get?_or_alias (h : Mirrors short long) (hs : short.Short) {word : String}
    (hw : isPath word = false) :
    (long.get? word).or ((long.aliases.get? word).bind long.get?) =
      (short.get? word).map (Entry.renamed · short.fullId) := by
  cases hg : short.get? word with
  | none =>
    have hnone : long.get? word = none := by
      rw [Option.eq_none_iff_forall_ne_some]
      intro found hf
      obtain ⟨id, entry, hid, rfl, _⟩ := h.get?_eq_some_iff.mp hf
      rw [hs.fullId_eq hid hw, hid] at hg
      cases hg
    rw [hnone, h.aliases, hg]
    rfl
  | some entry =>
    by_cases he : short.fullId word = word
    · have hf := h.get?_fullId hg
      rw [he] at hf
      rw [hf]
      rfl
    · have hnone : long.get? word = none := by
        rw [Option.eq_none_iff_forall_ne_some]
        intro found hf
        obtain ⟨id, other, hid, hkey, _⟩ := h.get?_eq_some_iff.mp hf
        have hsame := hs.fullId_eq hid (hkey ▸ hw)
        exact he ((congrArg short.fullId (hkey.symm.trans hsame)).trans hkey)
      rw [hnone, h.aliases, hg, if_pos ⟨rfl, he⟩]
      exact h.get?_fullId hg

/-- A name stands for the same element. -/
theorem resolveName (h : Mirrors short long) (hs : short.Short) (name : String) :
    long.resolveName name = (short.resolveName name).map (Entry.renamed · short.fullId) := by
  unfold Registry.resolveName
  have hfirst : (long.names.get? name).bind long.get? =
      ((short.names.get? name).bind short.get?).map (Entry.renamed · short.fullId) := by
    rw [h.names]
    cases hn : short.names.get? name with
    | none => rfl
    | some id =>
      obtain ⟨entry, hg, _⟩ := hs.indexed.names name id hn
      simp only [Option.map_some, Option.bind_some, hg]
      exact h.get?_fullId hg
  rw [hfirst, h.all, List.find?_map, Option.map_or]
  rfl

/-- A relative reference stands for the same element. -/
theorem relativeMeaning (h : Mirrors short long) (hs : short.Short) (word : String) :
    long.relativeMeaning word =
      (short.relativeMeaning word).map (Entry.renamed · short.fullId) := by
  unfold Registry.relativeMeaning
  rw [h.context]
  cases hc : short.context with
  | none => rfl
  | some id =>
    obtain ⟨entry, hg⟩ := hs.context id hc
    simp only [Option.map_some, Option.bind_some, hg, h.get?_fullId hg]
    split
    · rfl
    · cases hp : entry.parent with
      | none => simp [Entry.renamed, hp]
      | some parent =>
        obtain ⟨outer, ho⟩ := hs.parents id entry hg parent hp
        simp [Entry.renamed, hp, ho, h.get?_fullId ho]

/-- A word stands for the same element. -/
theorem wordMeaning (h : Mirrors short long) (hs : short.Short) {word : String}
    (hw : isPath word = false) :
    long.wordMeaning word = (short.wordMeaning word).map (Entry.renamed · short.fullId) := by
  unfold Registry.wordMeaning
  split
  · exact h.relativeMeaning hs word
  · rw [← Option.or_assoc, h.get?_or_alias hs hw, h.resolveName hs, hs.unaliased, Option.map_or]
    rfl

end Mirrors

/-! ## Paths -/

/-- The parts of a path are no paths. -/
theorem isPath_of_mem_pathParts {path part : String} (h : part ∈ pathParts path) :
    isPath part = false := by
  obtain ⟨piece, hm, rfl⟩ := List.mem_map.mp h
  rw [isPath, String.toList_ofList, ← Bool.not_eq_true, List.contains_iff_mem]
  exact Text.separator_notMem_of_mem_splitOn hm

/-- A word stands for a registered element. -/
theorem wordMeaning_mem {registry : Registry} {word : String} {entry : Entry}
    (h : registry.wordMeaning word = some entry) : entry ∈ registry.all := by
  unfold wordMeaning at h
  split at h
  · unfold relativeMeaning at h
    obtain ⟨found, hf, h⟩ := Option.bind_eq_some_iff.mp h
    split at h
    · obtain rfl := Option.some.inj h
      exact mem_all_of_bind_get? hf
    · exact mem_all_of_bind_get? h
  · rcases Option.or_eq_some_iff.mp h with h | ⟨-, h⟩
    · exact mem_all_of_get? h
    · rcases Option.or_eq_some_iff.mp h with h | ⟨-, h⟩
      · exact mem_all_of_bind_get? h
      · exact resolveName_mem h

/-- The child of an element that a part of a path still names where identifiers are hierarchical: by
its name, or its identifier if that stays short. -/
def findLastingChild (registry : Registry) (parent part : String) : Option Entry :=
  ((registry.childrenOf parent).find? fun child =>
      child.name == part || (!child.kind.isQualified && child.id == part)).or
    ((registry.childrenOf parent).find? fun child => child.hasNameLike part)

/-- The child that is still named is a child. -/
theorem findLastingChild_mem {registry : Registry} {parent part : String} {child : Entry}
    (h : registry.findLastingChild parent part = some child) :
    child ∈ registry.childrenOf parent := by
  rcases Option.or_eq_some_iff.mp h with h | ⟨-, h⟩
  · exact List.mem_of_find?_eq_some h
  · exact List.mem_of_find?_eq_some h

/-- What the parts of a path still lead to where identifiers are hierarchical. -/
def lastingFollow (registry : Registry) (start : Entry) (parts : List String) : Option Entry :=
  parts.foldlM (fun entry part => registry.findLastingChild entry.id part) start

/-- What a path still stands for where identifiers are hierarchical: the element whose full
identifier it spells, or else what its parts lead to. -/
def lastingPathMeaning (registry : Registry) (path : String) : Option Entry :=
  (registry.all.find? fun entry => registry.fullId entry.id == path).or
    ((registry.wordMeaning (firstPart path)).bind fun start =>
      registry.lastingFollow start (pathParts path).tail)

/-- What a reference still stands for where identifiers are hierarchical. -/
def lastingMeaning (registry : Registry) (reference : String) : Option Entry :=
  if isPath reference then registry.lastingPathMeaning reference
  else registry.wordMeaning reference

/-- What a reference to an element of a class still stands for where identifiers are
hierarchical. -/
def lastingMeaningOf (registry : Registry) (reference : String) (wanted : ElementClass) :
    Option Entry :=
  (registry.lastingMeaning reference).filter fun entry => entry.kind.isA wanted

/-- What the parts of a path still lead to from a registered element is registered. -/
theorem lastingFollow_mem {registry : Registry} {start entry : Entry} (hs : start ∈ registry.all)
    {parts : List String} (h : registry.lastingFollow start parts = some entry) :
    entry ∈ registry.all := by
  unfold lastingFollow at h
  induction parts generalizing start with
  | nil => exact Option.some.inj h ▸ hs
  | cons part parts ih =>
    rw [List.foldlM_cons] at h
    obtain ⟨child, hc, h⟩ := Option.bind_eq_some_iff.mp h
    exact ih (mem_all_of_mem_childrenOf (findLastingChild_mem hc)) h

/-- What a reference still stands for is registered. -/
theorem lastingMeaningOf_mem {registry : Registry} {reference : String} {wanted : ElementClass}
    {entry : Entry} (h : registry.lastingMeaningOf reference wanted = some entry) :
    entry ∈ registry.all := by
  obtain ⟨h, -⟩ := Option.filter_eq_some_iff.mp h
  unfold lastingMeaning lastingPathMeaning at h
  split at h
  · rcases Option.or_eq_some_iff.mp h with h | ⟨-, h⟩
    · exact List.mem_of_find?_eq_some h
    · obtain ⟨start, hw, h⟩ := Option.bind_eq_some_iff.mp h
      exact lastingFollow_mem (wordMeaning_mem hw) h
  · exact wordMeaning_mem h

/-- What is no path stands for the same element where identifiers are hierarchical. -/
theorem lastingMeaning_word (registry : Registry) {reference : String}
    (h : isPath reference = false) :
    registry.lastingMeaning reference = registry.meaning reference := by
  unfold lastingMeaning meaning
  rw [h]
  rfl

namespace Mirrors

variable {id : String} {entry : Entry}

/-- The children of an element are the same. -/
theorem childrenOf (h : Mirrors short long) (hs : short.Short) (hg : short.get? id = some entry) :
    long.childrenOf (short.fullId id) =
      (short.childrenOf id).map (Entry.renamed · short.fullId) := by
  unfold Registry.childrenOf
  rw [h.children id entry hg, List.filterMap_map, List.map_filterMap]
  refine List.filterMap_congr fun child hc => ?_
  obtain ⟨found, hf, _⟩ := (hs.indexed.children.mem_iff id child).mp hc
  have hchild : short.get? child = some found := hf
  simp only [Function.comp_apply, hchild, h.get?_fullId hchild, Option.map_some]

/-- A part of a path names the child that it still names. -/
theorem findChild (h : Mirrors short long) (hs : short.Short) (hl : long.Indexed)
    (hg : short.get? id = some entry) {part : String} (hp : isPath part = false) :
    long.findChild (short.fullId id) part =
      (short.findLastingChild id part).map (Entry.renamed · short.fullId) := by
  rw [hl.findChild_eq, h.childrenOf hs hg, List.find?_map, List.find?_map, ← Option.map_or]
  unfold findLastingChild
  refine congrArg (Option.map _) (congrArg₂ Option.or ?_ rfl)
  refine List.find?_congr fun child hc => ?_
  obtain ⟨hm, hparent⟩ := List.mem_filter.mp ((hs.indexed.childrenOf_perm id).mem_iff.mp hc)
  have hchild := hs.indexed.mem_all_iff.mp hm
  have hfull : short.fullId child.id =
      if child.kind.isQualified then short.fullId id ++ "." ++ child.id else child.id := by
    rw [hs.full child.id child hchild]
    unfold qualify
    rw [of_decide_eq_true hparent]
  simp only [Function.comp_apply, Entry.renamed, hfull]
  cases hq : child.kind.isQualified with
  | false => rfl
  | true =>
    -- A full identifier with a point is no part of a path.
    have hne : short.fullId id ++ "." ++ child.id ≠ part := by
      rintro rfl
      rw [isPath_append] at hp
      cases hp
    rw [if_pos rfl, beq_eq_false_iff_ne.mpr hne, Bool.not_true, Bool.false_and]

/-- The element with a full identifier. -/
theorem get?_eq_find? (h : Mirrors short long) (hs : short.Short) (path : String) :
    long.get? path =
      (short.all.find? fun entry => short.fullId entry.id == path).map
        (Entry.renamed · short.fullId) := by
  cases hf : short.all.find? fun entry => short.fullId entry.id == path with
  | none =>
    rw [List.find?_eq_none] at hf
    rw [Option.map_none, Option.eq_none_iff_forall_ne_some]
    intro found hfound
    obtain ⟨id, entry, hg, hid, -⟩ := h.get?_eq_some_iff.mp hfound
    refine hf entry (mem_all_of_get? hg) (beq_iff_eq.mpr ?_)
    rw [hs.indexed.keyed id entry hg, hid]
  | some entry =>
    have hg := hs.indexed.mem_all_iff.mp (List.mem_of_find?_eq_some hf)
    have hid := List.find?_some hf
    exact h.get?_eq_some_iff.mpr ⟨entry.id, entry, hg, beq_iff_eq.mp hid, rfl⟩

/-- Paths lead to what they still lead to. -/
theorem follow (h : Mirrors short long) (hs : short.Short) (hl : long.Indexed)
    {parts : List String} (hp : ∀ part ∈ parts, isPath part = false) {start : Entry}
    (hg : short.get? start.id = some start) :
    long.follow (start.renamed short.fullId) parts =
      (short.lastingFollow start parts).map (Entry.renamed · short.fullId) := by
  induction parts generalizing start with
  | nil => rfl
  | cons part parts ih =>
    have hpart := hp part List.mem_cons_self
    unfold Registry.follow lastingFollow
    rw [List.foldlM_cons, List.foldlM_cons]
    have hchild : long.findChild (start.renamed short.fullId).id part = _ :=
      h.findChild hs hl hg hpart
    rw [hchild]
    cases hf : short.findLastingChild start.id part with
    | none => rfl
    | some child =>
      refine ih (fun later hlater => hp later (List.mem_cons_of_mem _ hlater)) ?_
      exact hs.indexed.mem_all_iff.mp (mem_all_of_mem_childrenOf (findLastingChild_mem hf))

/-- What a path leads to by its full identifier, an alias or its parts is what it still stands
for. -/
theorem pathMeaning (h : Mirrors short long) (hs : short.Short) (hl : long.Indexed)
    {path : String} (hp : isPath path = true) :
    (long.get? path).or
        (((long.aliases.get? path).bind long.get?).or (long.pathMeaning path)) =
      (short.lastingPathMeaning path).map (Entry.renamed · short.fullId) := by
  have halias : long.aliases.get? path = none := by
    rw [h.aliases, if_neg]
    rintro ⟨hsome, -⟩
    obtain ⟨entry, hg⟩ := Option.isSome_iff_exists.mp hsome
    rw [hs.undotted path entry hg] at hp
    cases hp
  have hparts : long.pathMeaning path =
      ((short.wordMeaning (firstPart path)).bind fun start =>
        short.lastingFollow start (pathParts path).tail).map
          (Entry.renamed · short.fullId) := by
    unfold Registry.pathMeaning
    rw [h.wordMeaning hs (isPath_firstPart path)]
    cases hw : short.wordMeaning (firstPart path) with
    | none => rfl
    | some start =>
      exact h.follow hs hl
        (fun part hm => isPath_of_mem_pathParts (List.mem_of_mem_tail hm))
        (hs.indexed.mem_all_iff.mp (wordMeaning_mem hw))
  rw [halias, Option.bind_none, Option.none_or, hparts, h.get?_eq_find? hs]
  unfold lastingPathMeaning
  rw [Option.map_or]

/-- References stand for what they still stand for. -/
theorem meaning (h : Mirrors short long) (hs : short.Short) (hl : long.Indexed)
    (reference : String) :
    long.meaning reference =
      (short.lastingMeaning reference).map (Entry.renamed · short.fullId) := by
  unfold Registry.meaning lastingMeaning
  split
  · rename_i hp
    exact h.pathMeaning hs hl hp
  · rename_i hp
    exact h.wordMeaning hs (Bool.eq_false_iff.mpr hp)

/-- References to elements of a class stand for what they still stand for. -/
theorem meaningOf (h : Mirrors short long) (hs : short.Short) (hl : long.Indexed)
    (reference : String) (wanted : ElementClass) :
    long.meaningOf reference wanted =
      (short.lastingMeaningOf reference wanted).map (Entry.renamed · short.fullId) := by
  unfold Registry.meaningOf lastingMeaningOf
  rw [h.meaning hs hl]
  cases short.lastingMeaning reference with
  | none => rfl
  | some entry =>
    rw [Option.map_some, Option.filter_some, Option.filter_some]
    show (if entry.kind.isA wanted = true then _ else _) = _
    cases entry.kind.isA wanted <;> rfl

end Mirrors

end Registry

end Blueprint
