import Blueprint.Proofs.Registry.Alias
import Blueprint.Proofs.Registry.Named

/-!
# References with points

A reference with a point that is neither an identifier nor an alias is read as a path and as nothing
else. Its first part is resolved like any reference with name search, and the other parts lead on
from there. So an element is never found by a name with a point, and turning name search off does
not reach the first part of a path.
-/

namespace Blueprint

namespace Registry

variable {registry other : Registry} {chain : List String} {reference target path name : String}
  {position place : Option Position} {byName : Bool}

/-! ## What a path is read as -/

/-- What a path is read as: where its parts lead from what its first part resolves to. -/
def pathReading (registry : Registry) (path : String) : Option Entry :=
  (registry.resolve (firstPart path) none).value.bind fun start =>
    registry.follow start (pathParts path).tail

/-- A reference with a point that is neither an identifier nor an alias is a path. -/
theorem pathStep_of_isPath (hp : isPath path = true) (hg : registry.get? path = none)
    (ha : registry.aliases.get? path = none) : registry.PathStep [] path :=
  ⟨List.not_mem_nil, not_relative_of_isPath hp, hg, ha, hp⟩

/-- A path resolves to what it is read as, whether names are searched or not. -/
theorem PathStep.value_eq (step : registry.PathStep [] path) :
    (registry.resolve path position byName).value = registry.pathReading path := by
  have hne : firstPart path ∉ [] ++ [path] := by
    rw [List.nil_append, List.mem_singleton]
    exact firstPart_ne step.path
  have hback : ∀ earlier ∈ [] ++ [path], registry.LeadsTo [firstPart path] earlier := by
    intro earlier he
    obtain rfl := List.mem_singleton.mp he
    exact .byPath step (.here (List.mem_singleton_self _))
  have hfirst : (registry.resolveAfter ([] ++ [path]) (firstPart path) none true).value =
      (registry.resolve (firstPart path) none).value :=
    (value_alone hne hback).trans value_resolve_element.symm
  rw [value_resolve_element, step.resolveAfter_eq, Reported.bind_value, continuePath_value, hfirst]
  rfl

/-! ## Names with points -/

/-- A name that no step before name search finds: it is no relative reference, no identifier and no
alias, and if it has a point it stands for nothing as a path. -/
structure LeftToNames (registry : Registry) (name : String) : Prop where
  /-- It is no relative reference. -/
  notRelative : ¬(name = "this" ∨ name = "parent")
  /-- It is no identifier. -/
  noElement : registry.get? name = none
  /-- It is no alias. -/
  noAlias : registry.aliases.get? name = none
  /-- As a path it stands for nothing. -/
  noReading : isPath name = true → registry.pathReading name = none

/-- With a point, such a name finds nothing. -/
theorem LeftToNames.value_of_isPath (h : registry.LeftToNames name) (hp : isPath name = true) :
    (registry.resolve name position).value = none := by
  rw [(pathStep_of_isPath hp h.noElement h.noAlias).value_eq, h.noReading hp]

/-- Without a point, such a name is looked up by name. -/
theorem LeftToNames.isName (h : registry.LeftToNames name) (hp : isPath name = false) :
    registry.IsName name :=
  ⟨hp, fun he => h.notRelative (.inl he), fun he => h.notRelative (.inr he), h.noElement,
    h.noAlias⟩

/-- Where an element has a name, the first element that has it is found. -/
theorem exists_find?_name {entries : List Entry} {entry : Entry} (hm : entry ∈ entries) :
    ∃ found, (entries.find? fun other => other.name == entry.name) = some found ∧
      found.name = entry.name := by
  cases hf : entries.find? fun other => other.name == entry.name with
  | none => exact absurd (beq_self_eq_true _) (List.find?_eq_none.mp hf entry hm)
  | some found => exact ⟨found, rfl, by simpa using List.find?_some hf⟩

/-- Where no element was registered again, the name of an element that no step before name search
finds is looked up exactly if it has no point: then the first element with exactly this name is
found, and else nothing is. -/
theorem resolve_name_iff_noPoint (operations : List Operation)
    (hf : Registry.empty.Undisturbed operations) (entry : Entry)
    (hm : entry ∈ (Registry.empty.performAll operations).value.all)
    (h : (Registry.empty.performAll operations).value.LeftToNames entry.name)
    (position : Option Position) :
    let registry := (Registry.empty.performAll operations).value
    ((∃ found, (registry.resolve entry.name position).value = some found ∧
        found.name = entry.name) ↔ isPath entry.name = false) ∧
      (isPath entry.name = false → (registry.resolve entry.name position).value =
        registry.all.find? fun other => other.name == entry.name) ∧
      (isPath entry.name = true → (registry.resolve entry.name position).value = none) := by
  intro registry
  have hi : registry.Indexed := indexed_empty.performAll operations
  have hc : registry.Complete := complete_empty.performAll hf
  have hpath : isPath entry.name = true → (registry.resolve entry.name position).value = none :=
    h.value_of_isPath
  obtain ⟨first, hfirst, hname⟩ := exists_find?_name hm
  have hlookup : isPath entry.name = false → (registry.resolve entry.name position).value =
      registry.all.find? fun other => other.name == entry.name := by
    intro hp
    have hsame : registry.resolveName entry.name = registry.findByName entry.name .element :=
      hi.resolveName_eq_iff.mpr fun hr => hc.not_released hr.1
    rw [(h.isName hp).resolve, hsame, hc.findByName hi, hfirst, Option.some_or]
  refine ⟨⟨?_, fun hp => ?_⟩, hlookup, hpath⟩
  · rintro ⟨found, hv, -⟩
    cases hp : isPath entry.name with
    | false => rfl
    | true => cases (hpath hp).symm.trans hv
  · rw [hlookup hp]
    exact ⟨first, hfirst, hname⟩

/-- Two systems, of which one has a point in its name. -/
def pointed : List Operation :=
  [.register { id := "runtime", name := "node.js", kind := .softwareSystem },
    .register { id := "shop", name := "Web Shop", kind := .softwareSystem }]

/-- A name that is no identifier and no path finds its element. -/
theorem resolve_name_without_point :
    Registry.empty.Undisturbed pointed ∧
      (Registry.empty.performAll pointed).value.LeftToNames "Web Shop" ∧
      ∃ found, ((Registry.empty.performAll pointed).value.resolve "Web Shop" none).value =
        some found ∧ found.name = "Web Shop" := by
  have hf : Registry.empty.Undisturbed pointed := ⟨rfl, rfl, trivial⟩
  have hleft : (Registry.empty.performAll pointed).value.LeftToNames "Web Shop" :=
    ⟨by decide, rfl, rfl, by decide⟩
  exact ⟨hf, hleft, (resolve_name_iff_noPoint pointed hf
    { id := "shop", name := "Web Shop", kind := .softwareSystem } (by decide) hleft none).1.mpr
      (by decide)⟩

/-- A name with a point finds nothing, although it stands for nothing as a path and a registered
element has it. -/
theorem resolve_name_with_point :
    Registry.empty.Undisturbed pointed ∧
      (∃ entry ∈ (Registry.empty.performAll pointed).value.all, entry.name = "node.js") ∧
      (Registry.empty.performAll pointed).value.LeftToNames "node.js" ∧
      ((Registry.empty.performAll pointed).value.resolve "node.js" none).value = none := by
  have hfirst : (Registry.empty.performAll pointed).value.IsName (firstPart "node.js") :=
    ⟨by decide, by decide, by decide, by decide, by decide⟩
  have hleft : (Registry.empty.performAll pointed).value.LeftToNames "node.js" := by
    refine ⟨by decide, rfl, rfl, fun _ => ?_⟩
    unfold pathReading
    rw [hfirst.resolve]
    decide +kernel
  exact ⟨⟨rfl, rfl, trivial⟩, ⟨_, List.mem_cons_self, rfl⟩, hleft,
    hleft.value_of_isPath (by decide)⟩

/-! ## Without name search -/

/-- Without name search, what can only be a name finds nothing. -/
theorem IsName.value_false (h : registry.IsName name) :
    (registry.resolve name position false).value = none := by
  have hs : registry.Settles [] name := by
    refine ⟨List.not_mem_nil, fun target step => ?_, fun step => ?_⟩
    · cases h.noAlias.symm.trans step.known
    · cases h.noPath.symm.trans step.path
  have hr : ¬(name = "this" ∨ name = "parent") := by
    rintro (he | he)
    · exact h.notThis he
    · exact h.notParent he
  rw [value_resolve_element, hs.value, outright, if_neg hr, h.noElement, h.noAlias]
  rfl

/-- What is found without name search is found with it too, and is the same element. -/
theorem value_of_value_false {entry : Entry}
    (h : (registry.resolveAfter chain reference position false).value = some entry) :
    (registry.resolveAfter chain reference place true).value = some entry := by
  induction chain, reference using following_induction registry
    generalizing position place with
  | back chain reference hm =>
    rw [resolveAfter_of_mem hm] at h
    cases h
  | byAlias chain reference target step ih =>
    rw [step.resolveAfter_eq] at h ⊢
    exact ih h
  | byPath chain reference step =>
    -- Name search is on for the first part in both cases.
    rw [step.resolveAfter_eq, Reported.bind_value, continuePath_value] at h ⊢
    exact h
  | settled chain reference hs =>
    rw [hs.value] at h ⊢
    unfold outright at h ⊢
    split at h
    · rename_i hr
      rw [if_pos hr, h]
    · rename_i hr
      rw [if_neg Bool.false_ne_true, Option.or_none] at h
      rw [if_neg hr, ← Option.or_assoc, h, Option.some_or]

/-- An element, or what it becomes where the element with an identifier gets another name. -/
def renamed (id name : String) (entry : Entry) : Entry :=
  if entry.id = id then { entry with name } else entry

/-- Renaming changes no parent. -/
theorem renamed_parent (id name : String) (entry : Entry) :
    (renamed id name entry).parent = entry.parent := by
  unfold renamed
  split <;> rfl

/-- A registry is another one up to a change of its elements that leaves their identifiers and
parents alone. -/
structure Alters (change : Entry → Entry) (registry other : Registry) : Prop where
  /-- The same identifiers find elements, which are changed. -/
  get? : ∀ id, other.get? id = (registry.get? id).map change
  /-- The aliases are the same. -/
  aliases : other.aliases = registry.aliases
  /-- The context is the same. -/
  context : other.context = registry.context
  /-- No parent is changed. -/
  parent : ∀ entry, (change entry).parent = entry.parent

/-- Where one element has got another name and all else is as before, it is just renamed. -/
theorem Indexed.alters (hi : registry.Indexed) {entry : Entry}
    (hg : ∀ id, other.get? id =
      if entry.id = id then some { entry with name } else registry.get? id)
    (he : registry.get? entry.id = some entry) (ha : other.aliases = registry.aliases)
    (hc : other.context = registry.context) :
    Alters (renamed entry.id name) registry other where
  get? := by
    intro id
    rw [hg]
    split
    · rename_i hid
      rw [← hid, he, Option.map_some, renamed, if_pos rfl]
    · rename_i hne
      cases hf : registry.get? id with
      | none => rfl
      | some found =>
        have hid : found.id = id := hi.keyed id found hf
        rw [Option.map_some, renamed, hid, if_neg fun he => hne he.symm]
  aliases := ha
  context := hc
  parent := renamed_parent entry.id name

/-- Registering an element again under another name just renames it. -/
theorem Indexed.alters_register (hi : registry.Indexed) {entry : Entry}
    (he : registry.get? entry.id = some entry) (name : String) :
    Alters (renamed entry.id name) registry (registry.register { entry with name }) :=
  hi.alters (get?_register registry _) he (aliases_register _ _) (context_register _ _)

/-- Giving an element another name in its place just renames it. -/
theorem Indexed.alters_amend (hi : registry.Indexed) {entry : Entry}
    (he : registry.get? entry.id = some entry) (name : String) :
    Alters (renamed entry.id name) registry
      (registry.amend entry.id fun entry => { entry with name }) := by
  refine hi.alters (fun id => ?_) he rfl rfl
  unfold Registry.get? at he
  unfold Registry.get? amend
  rw [OrderedMap.get?_modify, he, Option.map_some]

namespace Alters

variable {change : Entry → Entry}

/-- The same identifiers find nothing. -/
theorem get?_eq_none_iff (h : Alters change registry other) :
    other.get? reference = none ↔ registry.get? reference = none := by
  rw [h.get?, Option.map_eq_none_iff]

/-- An alias is followed in both. -/
theorem aliasStep_iff (h : Alters change registry other) :
    other.AliasStep chain reference target ↔ registry.AliasStep chain reference target := by
  constructor
  · intro step
    exact ⟨step.new, step.notRelative, h.get?_eq_none_iff.mp step.noElement,
      h.aliases ▸ step.known, h.get?_eq_none_iff.mp step.dangling⟩
  · intro step
    exact ⟨step.new, step.notRelative, h.get?_eq_none_iff.mpr step.noElement,
      h.aliases ▸ step.known, h.get?_eq_none_iff.mpr step.dangling⟩

/-- A path is followed in the other registry only if it is in this one. -/
theorem pathStep (h : Alters change registry other) (step : other.PathStep chain reference) :
    registry.PathStep chain reference :=
  ⟨step.new, step.notRelative, h.get?_eq_none_iff.mp step.noElement, h.aliases ▸ step.noAlias,
    step.path⟩

/-- What is settled is settled in both. -/
theorem settles (h : Alters change registry other) (hs : registry.Settles chain reference) :
    other.Settles chain reference :=
  ⟨hs.new, fun target step => hs.noAlias target (h.aliasStep_iff.mp step), fun step =>
    hs.noPath (h.pathStep step)⟩

/-- An identifier that may be missing finds the changed element. -/
theorem bind_get? (h : Alters change registry other) (id? : Option String) :
    id?.bind other.get? = (id?.bind registry.get?).map change := by
  cases id? with
  | none => rfl
  | some id => exact h.get? id

/-- A relative reference stands for the changed element. -/
theorem relativeMeaning (h : Alters change registry other) :
    other.relativeMeaning reference = (registry.relativeMeaning reference).map change := by
  unfold Registry.relativeMeaning
  rw [h.context, h.bind_get?]
  cases registry.context.bind registry.get? with
  | none => rfl
  | some entry =>
    rw [Option.map_some, Option.bind_some, Option.bind_some, h.parent, h.bind_get?]
    split <;> rfl

/-- Without name search, a settled reference stands for the changed element. -/
theorem outright (h : Alters change registry other) :
    other.outright reference false = (registry.outright reference false).map change := by
  unfold Registry.outright
  rw [h.relativeMeaning, h.get?, h.aliases, h.bind_get?, if_neg Bool.false_ne_true,
    if_neg Bool.false_ne_true, Option.or_none, Option.or_none]
  split
  · rfl
  · rw [Option.map_or]

/-- Without name search, a reference that leads to no path resolves to the changed element. -/
theorem value_eq (h : Alters change registry other)
    (hp : ∀ trail last, registry.AliasTrail reference trail last → ¬registry.PathStep [] last) :
    (other.resolveAfter chain reference position false).value =
      (registry.resolveAfter chain reference position false).value.map change := by
  induction chain, reference using following_induction registry generalizing position with
  | back chain reference hm => rw [resolveAfter_of_mem hm, resolveAfter_of_mem hm]; rfl
  | byAlias chain reference target step ih =>
    rw [step.resolveAfter_eq, (h.aliasStep_iff.mpr step).resolveAfter_eq]
    exact ih fun trail last ht => hp (reference :: trail) last (.step step.aliasOf?_eq ht)
  | byPath chain reference step =>
    exact absurd (step.within List.not_mem_nil) (hp [] reference (.here reference))
  | settled chain reference hs => rw [hs.value, (h.settles hs).value, h.outright]

end Alters

/-- Whatever is done with a registry that was empty: a path resolves, with name search or without,
to where its parts lead from what its first part resolves to with name search. If the first part
resolves to an element without name search, they lead on from this element. Where references lead to
no path, renaming an element changes nothing of what they resolve to without name search but the
name. -/
theorem resolve_path_searches_names (operations : List Operation)
    (position place : Option Position) :
    let registry := (Registry.empty.performAll operations).value
    (∀ path, isPath path = true → registry.get? path = none →
        registry.aliases.get? path = none →
        (∀ byName, (registry.resolve path position byName).value =
          (registry.resolve (firstPart path) place true).value.bind fun start =>
            registry.follow start (pathParts path).tail) ∧
        ∀ start, (registry.resolve (firstPart path) place false).value = some start →
          (registry.resolve path position false).value =
            registry.follow start (pathParts path).tail) ∧
      ∀ entry name, registry.get? entry.id = some entry → ∀ reference,
        (∀ trail last, registry.AliasTrail reference trail last →
          ¬registry.PathStep [] last) →
        ((registry.register { entry with name }).resolve reference position false).value =
            (registry.resolve reference position false).value.map (renamed entry.id name) ∧
          ((registry.amend entry.id fun entry => { entry with name }).resolve reference position
            false).value =
            (registry.resolve reference position false).value.map (renamed entry.id name) := by
  intro registry
  have hi : registry.Indexed := indexed_empty.performAll operations
  refine ⟨fun path hp hg ha => ?_, fun entry name hg reference hpath => ?_⟩
  · have hall : ∀ byName, (registry.resolve path position byName).value =
        (registry.resolve (firstPart path) place true).value.bind fun start =>
          registry.follow start (pathParts path).tail := by
      intro byName
      have hplace : (registry.resolve (firstPart path) none true).value =
          (registry.resolve (firstPart path) place true).value := value_resolve_place
      rw [(pathStep_of_isPath hp hg ha).value_eq, pathReading, hplace]
    refine ⟨hall, fun start hs => ?_⟩
    rw [value_resolve_element] at hs
    rw [hall, value_resolve_element, value_of_value_false hs, Option.bind_some]
  · rw [value_resolve_element, value_resolve_element, value_resolve_element]
    exact ⟨(hi.alters_register hg name).value_eq hpath,
      (hi.alters_amend hg name).value_eq hpath⟩

/-- A system. -/
def bankSystem : Entry := { id := "bank", name := "Bank", kind := .softwareSystem }

/-- A container in the system. -/
def webContainer : Entry :=
  { id := "web", name := "Web", parent := some "bank", kind := .container }

/-- A system and a container in it. -/
def banking : List Operation := [.register bankSystem, .register webContainer]

/-- The system is found by its identifier without name search. -/
theorem resolve_bank :
    ((Registry.empty.performAll banking).value.resolve "bank" none false).value =
      some bankSystem := by
  have hs : (Registry.empty.performAll banking).value.Settles [] "bank" :=
    settles_of_get? List.not_mem_nil rfl
  rw [value_resolve_element, hs.value]
  rfl

/-- No alias leads from the identifier of the system to a path. -/
theorem not_pathStep_of_bank (trail : List String) (last : String)
    (h : (Registry.empty.performAll banking).value.AliasTrail "bank" trail last) :
    ¬(Registry.empty.performAll banking).value.PathStep [] last := by
  cases h with
  | here => exact fun step => Bool.false_ne_true (step.path ▸ rfl)
  | step ha => cases ha

/-- A path from the identifier of the system leads on from the system, and the identifier resolves
to the system under another name too. -/
theorem resolve_path_searches_names_banking :
    isPath "bank.Web" = true ∧
      (Registry.empty.performAll banking).value.get? "bank.Web" = none ∧
      (Registry.empty.performAll banking).value.aliases.get? "bank.Web" = none ∧
      ((Registry.empty.performAll banking).value.resolve "bank.Web" none false).value =
        some webContainer ∧
      (Registry.empty.performAll banking).value.get? bankSystem.id = some bankSystem ∧
      (((Registry.empty.performAll banking).value.register
        { bankSystem with name := "Trust" }).resolve "bank" none false).value =
        some { bankSystem with name := "Trust" } := by
  obtain ⟨hpaths, hnames⟩ := resolve_path_searches_names banking none none
  have hfollow := (hpaths "bank.Web" (by decide) rfl rfl).2 bankSystem
    (by rw [show firstPart "bank.Web" = "bank" by decide]; exact resolve_bank)
  have hrename := (hnames bankSystem "Trust" rfl "bank" not_pathStep_of_bank).1
  refine ⟨by decide, rfl, rfl, hfollow.trans (by decide +kernel), rfl, hrename.trans ?_⟩
  rw [resolve_bank]
  rfl

/-- Without name search the name of the system finds nothing, but a path that starts with it does,
until the system is renamed. -/
theorem resolve_path_from_name :
    isPath "Bank.Web" = true ∧
      (Registry.empty.performAll banking).value.get? "Bank.Web" = none ∧
      (Registry.empty.performAll banking).value.aliases = .empty ∧
      firstPart "Bank.Web" = "Bank" ∧
      ((Registry.empty.performAll banking).value.resolve "Bank" none false).value = none ∧
      ((Registry.empty.performAll banking).value.resolve "Bank.Web" none false).value =
        some webContainer ∧
      (((Registry.empty.performAll banking).value.register
        { bankSystem with name := "Trust" }).resolve "Bank.Web" none false).value = none := by
  have hfirst : firstPart "Bank.Web" = "Bank" := by decide
  have hname : (Registry.empty.performAll banking).value.IsName "Bank" :=
    ⟨by decide, by decide, by decide, rfl, rfl⟩
  have hrenamed : ((Registry.empty.performAll banking).value.register
      { bankSystem with name := "Trust" }).IsName "Bank" :=
    ⟨by decide, by decide, by decide, rfl, rfl⟩
  refine ⟨by decide, rfl, rfl, hfirst, hname.value_false, ?_, ?_⟩
  · rw [(pathStep_of_isPath (by decide) rfl rfl).value_eq, pathReading, hfirst, hname.resolve]
    decide +kernel
  · rw [(pathStep_of_isPath (by decide) rfl rfl).value_eq, pathReading, hfirst, hrenamed.resolve]
    decide +kernel

end Registry

end Blueprint
