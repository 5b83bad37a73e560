import Blueprint.Proofs.Built.Statement
import Blueprint.Proofs.Completeness
import Blueprint.Proofs.Places.Build
import Blueprint.Proofs.Qualified.Viewed

/-!
# Workspaces with longer identifiers

A workspace without a directive about identifiers is built once more with one that makes them
hierarchical. Where all elements are given identifiers, and the workspace is built without an error,
it is built without an error again exactly if the references of its instances and the paths among
those of its relationships and views still stand for elements of the right classes.
-/

namespace Blueprint

namespace Declared

/-- What identifiers are given to the elements of a workspace has a property. -/
def Workspace.Given (property : Option String → Prop) (workspace : Workspace) : Prop :=
  ∀ model, workspace.model = some model → model.Given property

/-- The identifiers that are given to the elements of a workspace have a property if those of its
members and of the members of the enterprise have it. -/
theorem Workspace.given_iff {property : Option String → Prop} {workspace : Workspace} :
    workspace.Given property ↔ ∀ model ∈ workspace.model,
      Element.AllGiven property model.members ∧
        ∀ enterprise ∈ model.enterprise, Element.AllGiven property enterprise.members :=
  forall₂_congr fun _ _ => ⟨fun h => ⟨h.members, h.enterprise⟩, fun h => ⟨h.1, h.2⟩⟩

instance {property : Option String → Prop} [DecidablePred property] {workspace : Workspace} :
    Decidable (workspace.Given property) :=
  decidable_of_iff' _ Workspace.given_iff

/-- The directive that makes identifiers hierarchical. -/
def Directive.hierarchical (position : Option Position) : Directive :=
  { position, name := "identifiers", value := "hierarchical" }

end Declared

namespace Build

open Registry (Grown)

variable {declared other : Declared.Workspace} {directive : Declared.Directive}
  {position : Option Position} {registry : Registry}

/-! ## Directives -/

/-- The last directive with a name has the same value wherever it stands. -/
theorem directiveValue_unplaced (workspace : Declared.Workspace) (name : String) :
    workspace.directiveValue name =
      (((workspace.directives.map Declared.Directive.unplaced).reverse.find? fun directive =>
        directive.name == name).map Declared.Directive.value) := by
  unfold Declared.Workspace.directiveValue
  rw [← List.map_reverse, List.find?_map, Option.map_map]
  rfl

/-- No directive is about identifiers. -/
def Unqualified (directives : List Declared.Directive) : Prop :=
  ∀ directive ∈ directives, directive.name ≠ "identifiers"

instance {directives : List Declared.Directive} : Decidable (Unqualified directives) :=
  inferInstanceAs (Decidable (∀ directive ∈ directives, directive.name ≠ "identifiers"))

/-- Among directives of which none is about identifiers there is none with this name. -/
theorem Unqualified.find? {directives : List Declared.Directive} (h : Unqualified directives) :
    (directives.reverse.find? fun directive => directive.name == "identifiers") = none := by
  rw [List.find?_eq_none]
  intro directive hm he
  exact h directive (List.mem_reverse.mp hm) (eq_of_beq he)

/-- Identifiers are not hierarchical where no directive is about them. -/
theorem Unqualified.isHierarchical_eq_false (h : Unqualified declared.directives) :
    isHierarchical declared = false := by
  unfold isHierarchical Declared.Workspace.directiveValue
  rw [h.find?]
  rfl

/-- Identifiers are hierarchical where the only directive about them says so. -/
theorem Unqualified.isHierarchical_eq_true (h : Unqualified declared.directives)
    (hu : other.directives.map Declared.Directive.unplaced =
      (.hierarchical position :: declared.directives).map Declared.Directive.unplaced) :
    isHierarchical other = true := by
  unfold isHierarchical
  rw [directiveValue_unplaced, hu, ← List.map_reverse, List.find?_map, Option.map_map,
    List.reverse_cons, List.find?_append]
  have hnone : (declared.directives.reverse.find? ((fun directive : Declared.Directive =>
      directive.name == "identifiers") ∘ Declared.Directive.unplaced)) = none := h.find?
  rw [hnone]
  rfl

/-- The directives that name other files are reported again, and that about identifiers is none of
them. -/
theorem keeps_checkDirectives {directives others : List Declared.Directive}
    (hu : others.map Declared.Directive.unplaced = directives.map Declared.Directive.unplaced) :
    Keeps registry [] Whatever (checkDirectives directives) (checkDirectives others) := by
  replace hu := forall₂_of_map_eq hu
  induction hu with
  | nil => exact keeps_pure trivial
  | @cons directive other directives others hfirst hrest ih =>
    obtain ⟨-, hname, hvalue⟩ := Declared.Directive.mk.inj hfirst
    rw [checkDirectives, checkDirectives, hname, hvalue]
    split
    · rw [← List.append_nil []]
      exact (keeps_report _ _ _).bind fun _ => ih
    · exact ih

/-- The directive about identifiers names no other file. -/
theorem checkDirectives_hierarchical {first : Declared.Directive}
    (hu : first.unplaced = (Declared.Directive.hierarchical position).unplaced)
    (directives : List Declared.Directive) :
    checkDirectives (first :: directives) = checkDirectives directives := by
  have hname : first.name = "identifiers" := (Declared.Directive.mk.inj hu).2.1
  have hread : "identifiers" ∉ fileDirectives := by decide
  rw [checkDirectives, hname, if_neg hread]

/-! ## Elements -/

/-- Elements that are registered without an error are followed by themselves with their full
identifiers, before the instances. -/
theorem follows_registerDeclared
    (hu : other.model.map Declared.Model.unplaced = declared.model.map Declared.Model.unplaced)
    (hg : declared.Given IsWord) (hc : (registerDeclared false declared.model).Clean) :
    Follows .empty (registerDeclared false declared.model).value
      (registerDeclared true other.model) := by
  unfold Declared.Workspace.Given at hg
  cases hmodel : declared.model with
  | none =>
    rw [hmodel] at hu
    rw [Option.map_eq_none_iff.mp hu]
    exact follows_pure Draft.mirrors_empty (.refl _)
  | some model =>
    rw [hmodel] at hu hc
    obtain ⟨twin, htwin, hsame⟩ := Option.map_eq_some_iff.mp hu
    rw [htwin]
    exact follows_registerModel hsame (hg model hmodel) hc

/-- All elements that are registered without an error are followed by themselves with their full
identifiers, the instances by those of what their references still stand for. -/
theorem followsLasting_registerAll {spots : Position → Prop}
    (hf : isHierarchical declared = false) (ht : isHierarchical other = true)
    (hu : other.model.map Declared.Model.unplaced = declared.model.map Declared.Model.unplaced)
    (hl : declared.Located spots) (hg : declared.Given IsWord) (hc : (registerAll declared).Clean) :
    FollowsLasting .empty (registerAll declared).value (lastingDraft? declared)
      (registerAll other) := by
  unfold registerAll at hc ⊢
  rw [hf] at hc ⊢
  rw [ht]
  obtain ⟨hcm, hci⟩ := Reported.clean_bind.mp hc
  have hm := follows_registerDeclared hu hg hcm
  have hp : ∀ waiting ∈ (registerDeclared false declared.model).value.instances,
      waiting.declared.position.isSome = true := by
    intro waiting hw
    obtain ⟨place, hplace, -⟩ := (registerDeclared_points false hl).2.instances waiting hw
    exact hplace ▸ rfl
  have hi := followsLasting_registerInstances ⟨hm.mirrors.short, .refl _, rfl⟩ hm.mirrors
    hm.mirrors.instances hp hci
  rw [Reported.bind_value]
  unfold lastingDraft?
  dsimp only
  cases hq : (registerDeclared false declared.model).value.instances.foldlM registerLasting
      (registerDeclared false declared.model).value with
  | none =>
    rw [hq] at hi
    exact fun hall => hi (Reported.clean_bind.mp hall).2
  | some next =>
    rw [hq] at hi
    exact ⟨hi.1, hm.bind hi.2⟩

/-! ## Workspaces -/

/-- What the relationships and views of a workspace look up. -/
def lookupsOf (declared : Declared.Workspace) : List Lookup :=
  (registerAll declared).value.relationships.flatMap WaitingRelationship.lookups ++
    (viewsOf declared).flatMap viewLookups

/-- A computation keeps itself. -/
theorem keeps_self {α : Type} (first : Reported α) : Keeps registry [] Whatever first first :=
  ⟨fun hc => iff_of_true hc fun _ hm => absurd hm List.not_mem_nil, fun _ _ => trivial⟩

/-- Decisions are the same. -/
theorem keeps_addDecisions {decisions others : List Declared.Decision}
    (hu : others.map Declared.Decision.unplaced = decisions.map Declared.Decision.unplaced)
    (known : List Resolved.Decision) :
    Keeps registry [] Eq (addDecisions known decisions) (addDecisions known others) := by
  replace hu := forall₂_of_map_eq hu
  induction hu generalizing known with
  | nil => exact keeps_pure rfl
  | @cons decision other decisions others hfirst hrest ih =>
    have hid : other.unplaced.id = decision.unplaced.id := by rw [hfirst]
    have hmade : makeDecision other.unplaced = makeDecision decision.unplaced := by rw [hfirst]
    rw [addDecisions, addDecisions, show other.id = decision.id from hid]
    split
    · rw [← List.append_nil []]
      exact (keeps_report _ _ _).bind fun _ => ih known
    · rw [show makeDecision other = makeDecision decision from hmade]
      exact ih _

/-- A registry of elements, one that differs in the names of instances, and that with their full
identifiers. -/
theorem Draft.Mirrors.reflected {first draft mirror : Draft} (h : draft.Mirrors mirror)
    (ha : first.Alike draft) : Reflected first.registry draft.registry mirror.registry :=
  ⟨ha.short, ha.registry, h.short, h.indexed, h.registry, h.context⟩

/-- The relationships of a model are kept if their ends last. -/
theorem keeps_buildModel {first draft mirror : Draft} (ha : first.Alike draft)
    (h : draft.Mirrors mirror)
    (hp : ∀ waiting ∈ first.relationships, waiting.declared.position.isSome = true)
    (implied : Bool) :
    Keeps draft.registry (first.relationships.flatMap WaitingRelationship.lookups) Whatever
      (buildModel declared first implied) (buildModel other mirror implied) := by
  rw [← List.append_nil (List.flatMap _ _)]
  exact (keeps_resolveRelationships (h.reflected ha) (ha.relationships ▸ h.relationships) hp
    rfl).bind fun _ => keeps_pure trivial

/-- The relationships that wait have positions. -/
theorem isSome_position_waiting {spots : Position → Prop} (hl : declared.Located spots) :
    ∀ waiting ∈ (registerAll declared).value.relationships,
      waiting.declared.position.isSome = true := by
  intro waiting hw
  obtain ⟨place, hplace, -⟩ := (registerAll_points hl).2.relationships waiting hw
  exact hplace ▸ rfl

/-- References last in a workspace: that of every instance still stands for an element of its class
where identifiers are hierarchical, and among the elements and the instances of those the paths that
relationships and views look up still stand for elements of the right classes. -/
def ReferencesLast (declared : Declared.Workspace) : Prop :=
  ∃ draft, lastingDraft? declared = some draft ∧
    ∀ lookup ∈ lookupsOf declared, draft.registry.Lasts lookup

instance : Decidable (ReferencesLast declared) :=
  inferInstanceAs (Decidable (∃ draft ∈ lastingDraft? declared,
    ∀ lookup ∈ lookupsOf declared, draft.registry.Lasts lookup))

/-- A workspace that is built without an error with short identifiers is built without an error with
full ones exactly if its references last. -/
theorem clean_build_iff {spots : Position → Prop} (hflat : Unqualified declared.directives)
    (hl : declared.Located spots) (hg : declared.Given IsWord)
    (hu : other.unplaced = (declared.led (.hierarchical position)).unplaced) {implied : Bool}
    (hc : (build declared implied).Clean) :
    (build other implied).Clean ↔ ReferencesLast declared := by
  have hdirectives : other.unplaced.directives =
      (declared.led (.hierarchical position)).unplaced.directives := by rw [hu]
  have hmodel : other.unplaced.model = declared.unplaced.model := by rw [hu]; rfl
  have hviews : other.unplaced.views = declared.unplaced.views := by rw [hu]; rfl
  have hdecisions : other.unplaced.decisions = declared.unplaced.decisions := by rw [hu]; rfl
  have hclean := (Reported.clean_bind.mp hc).1
  have hregister := (Reported.clean_bind.mp (Reported.clean_bind.mp hclean).2).1
  have hfollows := followsLasting_registerAll hflat.isHierarchical_eq_false
    (hflat.isHierarchical_eq_true hdirectives) hmodel hl hg hregister
  unfold ReferencesLast
  cases hlasting : lastingDraft? declared with
  | none =>
    rw [hlasting] at hfollows
    refine iff_of_false (fun hall => hfollows ?_) fun ⟨_, hn, _⟩ => nomatch hn
    exact (Reported.clean_bind.mp (Reported.clean_bind.mp (Reported.clean_bind.mp hall).1).2).1
  | some draft =>
    rw [hlasting] at hfollows
    obtain ⟨ha, hf⟩ := hfollows
    have hchecks : Keeps draft.registry [] Whatever (checkDirectives declared.directives)
        (checkDirectives other.directives) := by
      obtain ⟨first, rest, hothers, hfirst, hrest⟩ := List.map_eq_cons_iff.mp hdirectives
      rw [hothers, checkDirectives_hierarchical hfirst]
      exact keeps_checkDirectives hrest
    have helements : Keeps draft.registry [] (fun first mirror : Draft =>
        first.Alike draft ∧ draft.Mirrors mirror) (registerAll declared) (registerAll other) :=
      ⟨fun _ => iff_of_true hf.clean fun _ hm => absurd hm List.not_mem_nil,
        fun _ _ => ⟨ha, hf.mirrors⟩⟩
    have hwith : Keeps draft.registry (lookupsOf declared) Whatever
        (buildWith declared implied) (buildWith other implied) := by
      unfold buildWith lookupsOf
      rw [← List.append_nil ((viewsOf declared).flatMap viewLookups)]
      show Keeps _ ([] ++ ([] ++ (_ ++ (_ ++ ([] ++ ([] ++ [])))))) _ _ _
      refine hchecks.bind fun _ => helements.bind fun ⟨ha, hm⟩ => ?_
      refine (keeps_buildModel ha hm (isSome_position_waiting hl) implied).bind fun _ => ?_
      refine (keeps_bindDeclared (hm.reflected ha) hviews hl.views).bind fun _ => ?_
      refine (keeps_addDecisions hdecisions []).bind fun hsame => ?_
      rw [hsame]
      exact (keeps_self _).bind fun _ => keeps_pure trivial
    have hbuild : Keeps draft.registry (lookupsOf declared ++ []) Whatever
        (build declared implied) (build other implied) :=
      hwith.bind fun _ => keeps_pure trivial
    rw [List.append_nil] at hbuild
    exact (hbuild.clean hc).trans
      ⟨fun h => ⟨draft, rfl, h⟩, fun ⟨_, he, h⟩ => Option.some.inj he ▸ h⟩

end Build

end Blueprint
