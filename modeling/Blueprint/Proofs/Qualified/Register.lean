import Blueprint.Proofs.Qualified.Mirror

/-!
# Mirrors of growing registries

A registry and its mirror stay mirrors when an element joins both, in the one under its identifier
and in the other under its full one with the short one as an alias.
-/

namespace Blueprint

namespace Registry

variable {short long : Registry} {entry : Entry} {id : String}

/-! ## Growth -/

/-- A registry has grown: it has all elements of an earlier one, with the full identifiers that they
had there. -/
structure Grown (earlier later : Registry) : Prop where
  /-- The elements are there. -/
  get? : ∀ id entry, earlier.get? id = some entry → later.get? id = some entry
  /-- Their full identifiers are the same. -/
  fullId : ∀ id entry, earlier.get? id = some entry → later.fullId id = earlier.fullId id

/-- A registry has grown by nothing. -/
theorem Grown.refl (registry : Registry) : Grown registry registry :=
  ⟨fun _ _ h => h, fun _ _ _ => rfl⟩

/-- A registry that has grown grows further. -/
theorem Grown.trans {earlier middle later : Registry} (h : Grown earlier middle)
    (hl : Grown middle later) : Grown earlier later where
  get? := fun id entry hg => hl.get? id entry (h.get? id entry hg)
  fullId := fun id entry hg =>
    (hl.fullId id entry (h.get? id entry hg)).trans (h.fullId id entry hg)

/-- A registry grows by an element with a new identifier. -/
theorem grown_register (hi : short.Indexed) (hn : short.get? entry.id = none) :
    Grown short (short.register entry) where
  get? := by
    intro id found hg
    rw [get?_register, if_neg fun he => by rw [he, hg] at hn; cases hn]
    exact hg
  fullId := by
    intro id found hg
    rw [fullId_register hi hn, if_neg fun he => by rw [he, hg] at hn; cases hn]

/-- An element whose parent is registered has one full identifier when the registry grows. -/
theorem Grown.qualify {later : Registry} (h : Grown short later)
    (hp : ∀ parent, entry.parent = some parent → ∃ outer, short.get? parent = some outer) :
    qualify later.fullId entry = qualify short.fullId entry := by
  unfold Registry.qualify
  split
  · rename_i parent hparent
    obtain ⟨outer, ho⟩ := hp parent hparent
    rw [h.fullId parent outer ho]
  · rfl

/-- An element is the same under its full identifier when the registry grows. -/
theorem Grown.renamed {later : Registry} (h : Grown short later)
    (hg : short.get? entry.id = some entry)
    (hp : ∀ parent, entry.parent = some parent → ∃ outer, short.get? parent = some outer) :
    entry.renamed later.fullId = entry.renamed short.fullId := by
  unfold Entry.renamed
  rw [h.fullId entry.id entry hg]
  congr 1
  refine Option.map_congr fun parent hm => ?_
  obtain ⟨outer, ho⟩ := hp parent hm
  exact h.fullId parent outer ho

/-! ## Registration -/

/-- An element that can join a registry with short identifiers: its identifier is new and no path,
and its parent is registered. -/
structure Joins (registry : Registry) (entry : Entry) : Prop where
  /-- The identifier is new. -/
  fresh : registry.get? entry.id = none
  /-- It is no path. -/
  undotted : isPath entry.id = false
  /-- The parent is registered. -/
  parent : ∀ parent, entry.parent = some parent → ∃ outer, registry.get? parent = some outer

/-- Identifiers stay short when an element joins. -/
theorem Short.register (h : short.Short) (hj : short.Joins entry) :
    (short.register entry).Short := by
  have hgrown := grown_register h.indexed hj.fresh
  have hget := get?_register short entry
  have hparents : ∀ id found, (short.register entry).get? id = some found →
      ∀ parent, found.parent = some parent → ∃ outer, short.get? parent = some outer := by
    intro id found hf
    rw [hget] at hf
    split at hf
    · obtain rfl := Option.some.inj hf
      exact hj.parent
    · exact h.parents id found hf
  refine ⟨h.indexed.register entry, h.named.register hj.fresh, ?_, ?_, ?_, ?_, ?_⟩
  · intro word
    rw [aliases_register]
    exact h.unaliased word
  · intro id found hf
    rw [hget] at hf
    split at hf
    · rename_i he
      rw [← he]
      exact hj.undotted
    · exact h.undotted id found hf
  · intro id found hf parent hparent
    obtain ⟨outer, ho⟩ := hparents id found hf parent hparent
    exact ⟨outer, hgrown.get? parent outer ho⟩
  · intro id found hf
    rw [hgrown.qualify (hparents id found hf), fullId_register h.indexed hj.fresh]
    rw [hget] at hf
    split at hf
    · rename_i he
      rw [if_pos he, Option.some.inj hf]
    · rename_i he
      rw [if_neg he]
      exact h.full id found hf
  · intro id hc
    rw [context_register] at hc
    obtain ⟨found, hf⟩ := h.context id hc
    exact ⟨found, hgrown.get? id found hf⟩

/-- An element under its full identifier. -/
def qualified (registry : Registry) (entry : Entry) : Entry :=
  { entry with
    id := qualify registry.fullId entry
    parent := entry.parent.map registry.fullId }

/-- A registry with an element under its full identifier. A short identifier that differs is an
alias. -/
def registerQualified (long : Registry) (short : Registry) (entry : Entry) : Registry :=
  if qualify short.fullId entry = entry.id then long.register (short.qualified entry)
  else
    (long.register (short.qualified entry)).registerAlias entry.id (qualify short.fullId entry)

/-- The element that has joined is the one under its full identifier. -/
theorem renamed_of_joins (h : short.Short) (hj : short.Joins entry) :
    entry.renamed (short.register entry).fullId = short.qualified entry := by
  have hgrown := grown_register h.indexed hj.fresh
  unfold Entry.renamed qualified
  rw [fullId_register h.indexed hj.fresh, if_pos rfl]
  congr 1
  refine Option.map_congr fun parent hm => ?_
  obtain ⟨outer, ho⟩ := hj.parent parent hm
  exact hgrown.fullId parent outer ho

/-- A full identifier is new to the mirror when the short one is new. -/
theorem Mirrors.fresh (h : Mirrors short long) (hs : short.Short) (hj : short.Joins entry) :
    long.get? (qualify short.fullId entry) = none := by
  rw [Option.eq_none_iff_forall_ne_some]
  intro found hf
  obtain ⟨id, other, hg, he, -⟩ := h.get?_eq_some_iff.mp hf
  have hgrown := grown_register hs.indexed hj.fresh
  have hfull : (short.register entry).fullId entry.id = qualify short.fullId entry := by
    rw [fullId_register hs.indexed hj.fresh, if_pos rfl]
  have hid : id = entry.id := by
    refine (hs.register hj).fullId_inj (hgrown.get? id other hg)
      ((get?_register short entry entry.id).trans (if_pos rfl)) ?_
    rw [hgrown.fullId id other hg, he, hfull]
  rw [hid, hj.fresh] at hg
  cases hg

/-- The elements of a mirror are the same in a registry that has grown. -/
theorem Short.map_renamed {later : Registry} (h : short.Short) (hgrown : Grown short later) :
    (short.elements.entries.map fun pair => (later.fullId pair.1, pair.2.renamed later.fullId)) =
      short.elements.entries.map fun pair =>
        (short.fullId pair.1, pair.2.renamed short.fullId) := by
  refine List.map_congr_left fun pair hm => ?_
  have hg : short.get? pair.1 = some pair.2 := OrderedMap.get?_of_mem_entries hm
  have hid := h.indexed.keyed pair.1 pair.2 hg
  rw [hgrown.fullId pair.1 pair.2 hg,
    hgrown.renamed (hid.symm ▸ hg) (h.parents pair.1 pair.2 hg)]

/-- Names stand for the same elements when an element joins. -/
theorem Mirrors.names_register (h : Mirrors short long) (hs : short.Short)
    (hj : short.Joins entry) (name : String) :
    (long.register (short.qualified entry)).names.get? name =
      ((short.register entry).names.get? name).map (short.register entry).fullId := by
  have hgrown := grown_register hs.indexed hj.fresh
  have hold : long.names.get? name =
      (short.names.get? name).map (short.register entry).fullId := by
    rw [h.names]
    refine Option.map_congr fun id hm => ?_
    obtain ⟨found, hf, -⟩ := hs.indexed.names name id hm
    exact (hgrown.fullId id found hf).symm
  have hcontains :
      long.names.contains (short.qualified entry).name = short.names.contains entry.name := by
    unfold OrderedMap.contains
    rw [h.names, Option.isSome_map]
    rfl
  have hshort : short.freedNames entry.id = short.names := by
    unfold freedNames
    rw [hj.fresh]
  have hlong : long.freedNames (short.qualified entry).id = long.names := by
    have hfresh : long.get? (short.qualified entry).id = none := h.fresh hs hj
    unfold freedNames
    rw [hfresh]
  rw [Registry.names_register, Registry.names_register, hshort, hlong, hcontains]
  split
  · exact hold
  · rw [OrderedMap.get?_insert, OrderedMap.get?_insert]
    by_cases he : entry.name = name
    · rw [if_pos he, if_pos (show (short.qualified entry).name = name from he), Option.map_some,
        fullId_register hs.indexed hj.fresh, if_pos rfl]
      rfl
    · rw [if_neg he, if_neg (show (short.qualified entry).name ≠ name from he)]
      exact hold

/-- A new element comes last among the children of its parent. -/
theorem listed_children_register {registry : Registry} (h : registry.Indexed)
    (hn : registry.get? entry.id = none) (id : String) :
    listed (registry.register entry).children id =
      if entry.parent = some id then listed registry.children id ++ [entry.id]
      else listed registry.children id := by
  have htables := (registry.register_tables entry (by rw [hn]; nofun)).2.1
  rw [hn, Option.bind_none] at htables
  have hnew : entry.id ∉ listed registry.children id := by
    rw [h.children.mem_iff]
    rintro ⟨found, hf, -⟩
    rw [show registry.elements.get? entry.id = registry.get? entry.id from rfl, hn] at hf
    cases hf
  rw [htables, listed_enlist]
  unfold withdraw
  dsimp only
  split
  · unfold addOnce
    rw [if_neg hnew]
  · rfl

/-- An identifier that is not registered has no children. -/
theorem listed_children_of_fresh {registry : Registry} (h : registry.Indexed)
    (hp : ∀ id entry, registry.get? id = some entry → ∀ parent, entry.parent = some parent →
      ∃ outer, registry.get? parent = some outer)
    (hn : registry.get? id = none) : listed registry.children id = [] := by
  rw [List.eq_nil_iff_forall_not_mem]
  intro child hm
  obtain ⟨found, hf, hparent⟩ := (h.children.mem_iff id child).mp hm
  obtain ⟨outer, ho⟩ := hp child found hf id hparent
  rw [hn] at ho
  cases ho

/-- The parents of the elements of a mirror are registered. -/
theorem Mirrors.parents (h : Mirrors short long) (hs : short.Short) :
    ∀ id entry, long.get? id = some entry → ∀ parent, entry.parent = some parent →
      ∃ outer, long.get? parent = some outer := by
  intro id found hf parent hparent
  obtain ⟨own, entry, hg, -, rfl⟩ := h.get?_eq_some_iff.mp hf
  obtain ⟨outer, hp, rfl⟩ := Option.map_eq_some_iff.mp hparent
  obtain ⟨top, ht⟩ := hs.parents own entry hg outer hp
  exact ⟨_, h.get?_fullId ht⟩

/-- Elements have the same children when an element joins. -/
theorem Mirrors.children_register (h : Mirrors short long) (hs : short.Short)
    (hl : long.Indexed) (hj : short.Joins entry) {found : Entry}
    (hf : (short.register entry).get? id = some found) :
    listed (long.register (short.qualified entry)).children ((short.register entry).fullId id) =
      (listed (short.register entry).children id).map (short.register entry).fullId := by
  have hgrown := grown_register hs.indexed hj.fresh
  have hfull : (short.register entry).fullId entry.id = qualify short.fullId entry := by
    rw [fullId_register hs.indexed hj.fresh, if_pos rfl]
  have hfresh := h.fresh hs hj
  rw [listed_children_register hs.indexed hj.fresh, listed_children_register hl hfresh]
  rw [get?_register] at hf
  split at hf
  · -- The new element has no children yet.
    rename_i he
    subst he
    have hself : entry.parent ≠ some entry.id := by
      intro hp
      obtain ⟨outer, ho⟩ := hj.parent entry.id hp
      rw [hj.fresh] at ho
      cases ho
    have hother : (short.qualified entry).parent ≠ some (qualify short.fullId entry) := by
      intro hp
      obtain ⟨parent, hparent, hpath⟩ := Option.map_eq_some_iff.mp hp
      obtain ⟨outer, ho⟩ := hj.parent parent hparent
      rw [← hpath, h.get?_fullId ho] at hfresh
      cases hfresh
    rw [hfull, if_neg hself, if_neg hother, listed_children_of_fresh hs.indexed hs.parents hj.fresh,
      listed_children_of_fresh hl (h.parents hs) hfresh]
    rfl
  · have hold : listed long.children (short.fullId id) =
        (listed short.children id).map (short.register entry).fullId := by
      rw [h.children id found hf]
      refine List.map_congr_left fun child hm => ?_
      obtain ⟨other, ho, -⟩ := (hs.indexed.children.mem_iff id child).mp hm
      exact (hgrown.fullId child other ho).symm
    have hparent : (short.qualified entry).parent = some (short.fullId id) ↔
        entry.parent = some id := by
      refine ⟨fun hp => ?_, fun hp => congrArg (Option.map short.fullId) hp⟩
      obtain ⟨parent, hparent, hpath⟩ := Option.map_eq_some_iff.mp hp
      obtain ⟨outer, ho⟩ := hj.parent parent hparent
      rw [hparent, hs.fullId_inj ho hf hpath]
    rw [hgrown.fullId id found hf, hold]
    by_cases hp : entry.parent = some id
    · rw [if_pos hp, if_pos (hparent.mpr hp), List.map_append, List.map_singleton, hfull]
      rfl
    · rw [if_neg hp, if_neg fun hq => hp (hparent.mp hq)]

/-- Short identifiers are the aliases of longer ones when an element joins. -/
theorem Mirrors.aliases_registerQualified (h : Mirrors short long) (hs : short.Short)
    (hj : short.Joins entry) (word : String) :
    (long.registerQualified short entry).aliases.get? word =
      if ((short.register entry).get? word).isSome ∧ (short.register entry).fullId word ≠ word
      then some ((short.register entry).fullId word) else none := by
  have hfull := fullId_register hs.indexed hj.fresh word
  have hget := get?_register short entry word
  have hold : entry.id ≠ word →
      long.aliases.get? word =
        if ((short.register entry).get? word).isSome ∧
            (short.register entry).fullId word ≠ word
        then some ((short.register entry).fullId word) else none := by
    intro hne
    rw [h.aliases, hfull, hget, if_neg hne, if_neg hne]
  unfold registerQualified
  by_cases hq : qualify short.fullId entry = entry.id
  · rw [if_pos hq, aliases_register]
    by_cases hw : entry.id = word
    · subst hw
      rw [h.aliases, hj.fresh, hfull, if_pos rfl, hq, if_neg (by simp), if_neg (by simp)]
    · exact hold hw
  · rw [if_neg hq]
    have halias : ((long.register (short.qualified entry)).registerAlias entry.id
        (qualify short.fullId entry)).aliases =
          long.aliases.insert entry.id (qualify short.fullId entry) :=
      congrArg (OrderedMap.insert · entry.id _) (aliases_register ..)
    rw [halias, OrderedMap.get?_insert]
    by_cases hw : entry.id = word
    · subst hw
      rw [if_pos rfl, hget, hfull, if_pos rfl, if_pos rfl, if_pos ⟨rfl, hq⟩]
    · rw [if_neg hw]
      exact hold hw

/-- An alias changes nothing but the aliases. -/
theorem registerQualified_eq (long short : Registry) (entry : Entry) :
    (long.registerQualified short entry).elements =
        (long.register (short.qualified entry)).elements ∧
      (long.registerQualified short entry).names =
        (long.register (short.qualified entry)).names ∧
      (long.registerQualified short entry).children =
        (long.register (short.qualified entry)).children ∧
      (long.registerQualified short entry).context = long.context := by
  unfold registerQualified
  split
  · exact ⟨rfl, rfl, rfl, context_register ..⟩
  · exact ⟨rfl, rfl, rfl, context_register ..⟩

/-- Mirrors stay mirrors when an element joins. -/
theorem Mirrors.register (h : Mirrors short long) (hs : short.Short) (hl : long.Indexed)
    (hj : short.Joins entry) :
    Mirrors (short.register entry) (long.registerQualified short entry) := by
  have hgrown := grown_register hs.indexed hj.fresh
  obtain ⟨helements, hnames, hchildren, hcontext⟩ := registerQualified_eq long short entry
  refine ⟨?_, ?_, ?_, h.aliases_registerQualified hs hj, ?_⟩
  · rw [helements, entries_register (h.fresh hs hj), entries_register hj.fresh, List.map_append,
      hs.map_renamed hgrown, h.entries, List.map_singleton, renamed_of_joins hs hj,
      fullId_register hs.indexed hj.fresh, if_pos rfl]
    rfl
  · intro name
    rw [hnames]
    exact h.names_register hs hj name
  · intro id found hf
    rw [hchildren]
    exact h.children_register hs hl hj hf
  · rw [hcontext, context_register, h.context]
    refine Option.map_congr fun id hm => ?_
    obtain ⟨found, hf⟩ := hs.context id hm
    exact (hgrown.fullId id found hf).symm

/-- The tables of a mirror agree when an element joins. -/
theorem Indexed.registerQualified (hl : long.Indexed) (short : Registry) (entry : Entry) :
    (long.registerQualified short entry).Indexed := by
  have hi := hl.register (short.qualified entry)
  unfold Registry.registerQualified
  split
  · exact hi
  · exact ⟨hi.keyed, hi.names, hi.children, hi.classes⟩

/-! ## Contexts -/

/-- Identifiers stay short when the context changes. -/
theorem Short.withContext (h : short.Short) {context : Option String}
    (hc : ∀ id, context = some id → ∃ entry, short.get? id = some entry) :
    (short.withContext context).Short :=
  ⟨⟨h.indexed.keyed, h.indexed.names, h.indexed.children, h.indexed.classes⟩, h.named, h.unaliased,
    h.undotted, h.parents, h.full, hc⟩

/-- Mirrors stay mirrors when the context changes. -/
theorem Mirrors.withContext (h : Mirrors short long) (context : Option String) :
    Mirrors (short.withContext context) (long.withContext (context.map short.fullId)) :=
  ⟨h.entries, h.names, h.children, h.aliases, rfl⟩

end Registry

end Blueprint
