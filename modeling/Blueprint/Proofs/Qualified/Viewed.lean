import Blueprint.Proofs.Build.Shown
import Blueprint.Proofs.Qualified.Bound

/-!
# Views with longer identifiers

A view that is bound to the elements of a registry without an error is bound to those of its mirror
without an error exactly if the paths among its references still stand for elements of the right
classes. Its key is the same.
-/

namespace Blueprint.Build

open Resolved (View ViewKind Interaction)
open Declared (Selection Animation ViewDetails)

variable {spots : Position → Prop} {plain registry mirror : Registry}

/-! ## What is looked up -/

/-- What a selection looks up: a reference, or the ends of an expression. -/
def selectionLookups (selection : Selection) : List Lookup :=
  if isExpression selection.expression.toList then
    (expressionEnds selection.expression).map fun reference => { reference }
  else [{ reference := selection.expression }]

/-- What the steps of an animation look up. -/
def animationLookups (animation : Animation) : List Lookup :=
  animation.steps.flatMap fun step => step.map fun reference => { reference }

/-- What all views look up. -/
def detailLookups (details : ViewDetails) : List Lookup :=
  (namedOf details.includes).flatMap selectionLookups ++
    (details.excludes.flatMap selectionLookups ++ details.animations.flatMap animationLookups)

/-- What an interaction looks up. -/
def interactionLookups (declared : Declared.Relationship) : List Lookup :=
  [{ reference := declared.source }, { reference := declared.destination }]

/-- What a scope looks up, unless it is everything. -/
def scopeLookups (reference : String) (wanted : List ElementClass) : List Lookup :=
  if reference = "*" then [] else [{ reference, wanted }]

/-- What a view looks up. -/
def viewLookups (view : Declared.View) : List Lookup :=
  match view.sort with
  | .systemLandscape | .filtered _ _ _ | .custom => detailLookups view.details
  | .systemContext system | .container system =>
    { reference := system, wanted := [.softwareSystem] } :: detailLookups view.details
  | .component container =>
    { reference := container, wanted := [.container] } :: detailLookups view.details
  | .dynamic scope steps =>
    scopeLookups scope [.softwareSystem, .container] ++
      (detailLookups view.details ++ steps.flatMap interactionLookups)
  | .deployment system environment =>
    (system.toList.map fun reference => { reference, wanted := [.softwareSystem] }) ++
      ({ reference := environment, wanted := [.deploymentEnvironment] } ::
        detailLookups view.details)
  | .image scope _ _ => scopeLookups scope [.element] ++ detailLookups view.details

/-! ## Selections, animations and interactions -/

/-- A place that is known is there where the place is forgotten. -/
theorem isSome_of_somewhere {position place : Option Position} (hp : Marked spots position)
    (h : somewhere place = somewhere position) : position.isSome = true ∧ place.isSome = true := by
  obtain ⟨mark, rfl, -⟩ := hp
  refine ⟨rfl, ?_⟩
  rw [← isSome_somewhere, h]
  rfl

/-- A reference to an identifier is kept if it lasts. -/
theorem keeps_resolveId (h : Reflected plain registry mirror) {position place : Option Position}
    (hp : position.isSome = true) (hs : place.isSome = true) (reference : String) :
    Keeps registry [{ reference }] Whatever (resolveId plain position reference)
      (resolveId mirror place reference) :=
  (keeps_reference h hp hs reference).bind fun _ => keeps_pure trivial

/-- The ends of an expression are kept if they last. -/
theorem keeps_checkEnds (h : Reflected plain registry mirror) {position place : Option Position}
    (hp : position.isSome = true) (hs : place.isSome = true) (names : List String) :
    Keeps registry (names.map fun reference => { reference }) Whatever
      (checkEnds plain position names) (checkEnds mirror place names) := by
  induction names with
  | nil => exact keeps_pure trivial
  | cons name names ih =>
    rw [checkEnds, checkEnds]
    exact (keeps_reference h hp hs name).bind fun _ => ih

/-- A selection is kept if what it looks up lasts. -/
theorem keeps_bindSelection (h : Reflected plain registry mirror) {selection other : Selection}
    (hu : other.unplaced = selection.unplaced) (hp : Marked spots selection.position) :
    Keeps registry (selectionLookups selection) Whatever (bindSelection plain selection)
      (bindSelection mirror other) := by
  obtain ⟨hposition, hexpression⟩ := Selection.mk.inj hu
  obtain ⟨hp, hs⟩ := isSome_of_somewhere hp hposition
  unfold bindSelection selectionLookups
  rw [hexpression]
  split
  · rw [← List.append_nil (List.map _ _)]
    exact (keeps_checkEnds h hp hs _).bind fun _ => keeps_pure trivial
  · exact (keeps_resolveId h hp hs _).bind fun _ => keeps_pure trivial

/-- The key of a view is kept. -/
def SameKey (view other : View) : Prop := other.key = view.key

/-- What a view includes is kept if what it looks up lasts. -/
theorem keeps_bindIncludes (h : Reflected plain registry mirror) {view found : View}
    (hk : SameKey view found) {selections others : List Selection}
    (hu : others.map Selection.unplaced = selections.map Selection.unplaced)
    (hp : Selected spots selections) :
    Keeps registry ((namedOf selections).flatMap selectionLookups) SameKey
      (bindIncludes plain view selections) (bindIncludes mirror found others) := by
  replace hu := forall₂_of_map_eq hu
  induction hu generalizing view found with
  | nil => exact keeps_pure hk
  | @cons selection other selections others hfirst hrest ih =>
    have hexpression : other.unplaced.expression = selection.unplaced.expression := by rw [hfirst]
    have hmarked := fun later hm => hp later (List.mem_cons_of_mem _ hm)
    rw [bindIncludes, bindIncludes, show other.expression = selection.expression from hexpression]
    by_cases hall : selection.expression = "*"
    · rw [if_pos hall, if_pos hall, namedOf_all _ hall]
      exact ih hk hmarked
    · rw [if_neg hall, if_neg hall, namedOf_named _ hall, List.flatMap_cons]
      refine (keeps_bindSelection h hfirst (hp _ List.mem_cons_self)).bind fun _ => ?_
      split <;> split <;> exact ih hk hmarked

/-- What a view excludes is kept if what it looks up lasts. -/
theorem keeps_bindExcludes (h : Reflected plain registry mirror) {view found : View}
    (hk : SameKey view found) {selections others : List Selection}
    (hu : others.map Selection.unplaced = selections.map Selection.unplaced)
    (hp : Selected spots selections) :
    Keeps registry (selections.flatMap selectionLookups) SameKey
      (bindExcludes plain view selections) (bindExcludes mirror found others) := by
  replace hu := forall₂_of_map_eq hu
  induction hu generalizing view found with
  | nil => exact keeps_pure hk
  | @cons selection other selections others hfirst hrest ih =>
    have hmarked := fun later hm => hp later (List.mem_cons_of_mem _ hm)
    rw [bindExcludes, bindExcludes, List.flatMap_cons]
    refine (keeps_bindSelection h hfirst (hp _ List.mem_cons_self)).bind fun _ => ?_
    split <;> split <;> exact ih hk hmarked

/-- The references of a step are kept if they last. -/
theorem keeps_collect (h : Reflected plain registry mirror) {position place : Option Position}
    (hp : position.isSome = true) (hs : place.isSome = true) (step : List String) :
    Keeps registry (step.map fun reference => { reference }) Whatever
      (Reported.collect (resolveId plain position) step)
      (Reported.collect (resolveId mirror place) step) := by
  induction step with
  | nil => exact keeps_pure trivial
  | cons reference step ih =>
    rw [Reported.collect, Reported.collect, ← List.append_nil (List.map _ _)]
    exact (keeps_resolveId h hp hs reference).bind fun _ => ih.bind fun _ => keeps_pure trivial

/-- The steps of an animation are kept if what they look up lasts. -/
theorem keeps_bindSteps (h : Reflected plain registry mirror) {position place : Option Position}
    (hp : position.isSome = true) (hs : place.isSome = true) (steps : List (List String)) :
    Keeps registry (steps.flatMap fun step => step.map fun reference => { reference }) Whatever
      (bindSteps plain position steps) (bindSteps mirror place steps) := by
  induction steps with
  | nil => exact keeps_pure trivial
  | cons step steps ih =>
    rw [bindSteps, bindSteps, List.flatMap_cons, ← List.append_nil (List.flatMap _ _)]
    exact (keeps_collect h hp hs step).bind fun _ => ih.bind fun _ => keeps_pure trivial

/-- Animations are kept if what they look up lasts. -/
theorem keeps_bindAnimations (h : Reflected plain registry mirror)
    {animations others : List Animation}
    (hu : others.map Animation.unplaced = animations.map Animation.unplaced)
    (hp : ∀ animation ∈ animations, Marked spots animation.position) :
    Keeps registry (animations.flatMap animationLookups) Whatever
      (bindAnimations plain animations) (bindAnimations mirror others) := by
  replace hu := forall₂_of_map_eq hu
  induction hu with
  | nil => exact keeps_pure trivial
  | @cons animation other animations others hfirst hrest ih =>
    obtain ⟨hposition, hsteps⟩ := Animation.mk.inj hfirst
    obtain ⟨hmark, hs⟩ := isSome_of_somewhere (hp _ List.mem_cons_self) hposition
    rw [bindAnimations, bindAnimations, List.flatMap_cons, ← List.append_nil (List.flatMap _ _),
      hsteps]
    exact (keeps_bindSteps h hmark hs animation.steps).bind fun _ =>
      (ih fun later hm => hp later (List.mem_cons_of_mem _ hm)).bind fun _ => keeps_pure trivial

/-- Interactions are kept if their ends last. -/
theorem keeps_bindInteractions (h : Reflected plain registry mirror)
    {steps others : List Declared.Relationship}
    (hu : others.map Declared.Relationship.unplaced = steps.map Declared.Relationship.unplaced)
    (hp : Declared.Traced spots steps) {known found : List Interaction} :
    Keeps registry (steps.flatMap interactionLookups) Whatever
      (bindInteractions plain known steps) (bindInteractions mirror found others) := by
  replace hu := forall₂_of_map_eq hu
  induction hu generalizing known found with
  | nil => exact keeps_pure trivial
  | @cons declared other steps others hfirst hrest ih =>
    obtain ⟨hposition, hsource, hdestination, -⟩ := Declared.Relationship.mk.inj hfirst
    obtain ⟨hmark, hs⟩ := isSome_of_somewhere (hp _ List.mem_cons_self) hposition
    have hmarked := fun later hm => hp later (List.mem_cons_of_mem _ hm)
    rw [bindInteractions, bindInteractions, List.flatMap_cons, hsource, hdestination]
    show Keeps registry ([_] ++ ([_] ++ _)) _ _ _
    refine (keeps_reference h hmark hs declared.source).bind fun _ =>
      (keeps_reference h hmark hs declared.destination).bind fun _ => ?_
    split <;> split <;> exact ih hmarked

/-! ## Views -/

/-- Views of one sort up to places are of one sort, but for the places of interactions. -/
theorem viewSort_of_unplaced_eq {sort other : Declared.ViewSort}
    (h : other.unplaced = sort.unplaced) :
    (∃ scope steps interactions, sort = .dynamic scope steps ∧
      other = .dynamic scope interactions ∧
      interactions.map Declared.Relationship.unplaced =
        steps.map Declared.Relationship.unplaced) ∨
      (other = sort ∧ ∀ scope steps, sort ≠ .dynamic scope steps) := by
  cases sort with
  | dynamic scope steps =>
    cases other with
    | dynamic other interactions =>
      obtain ⟨rfl, hi⟩ := Declared.ViewSort.dynamic.inj h
      exact .inl ⟨_, steps, interactions, rfl, rfl, hi⟩
    | _ => cases h
  | _ =>
    cases other with
    | dynamic scope steps => cases h
    | _ => exact .inr ⟨h, nofun⟩

/-- Two views are bound, and they have one key. -/
def SameView (view? other? : Option View) : Prop :=
  ∃ view other, view? = some view ∧ other? = some other ∧ SameKey view other

/-- What all views have is kept if what they look up lasts. -/
theorem keeps_bindDetails (h : Reflected plain registry mirror) {known found : List View}
    (hk : found.map View.key = known.map View.key) {details others : ViewDetails}
    (hu : others.unplaced = details.unplaced) (hp : details.Located spots) (kind : ViewKind)
    (scope range : Option String) :
    Keeps registry (detailLookups details) SameView
      (bindDetails plain known details kind scope)
      (bindDetails mirror found others kind range) := by
  have hkey : others.unplaced.key = details.unplaced.key := by rw [hu]
  have hincludes : others.unplaced.includes = details.unplaced.includes := by rw [hu]
  have hexcludes : others.unplaced.excludes = details.unplaced.excludes := by rw [hu]
  have hanimations : others.unplaced.animations = details.unplaced.animations := by rw [hu]
  have hcount : found.length = known.length := by
    rw [← List.length_map (f := View.key), hk, List.length_map]
  have hdefault : defaultKey kind found = defaultKey kind known := by
    unfold defaultKey
    rw [hcount]
  unfold bindDetails
  dsimp only
  rw [show others.key = details.key from hkey, hdefault, hk]
  split
  · exact keeps_of_not_clean fun hc =>
      Reported.not_clean_report rfl (Reported.clean_bind.mp hc).1
  · unfold detailLookups
    refine (keeps_bindIncludes h ?_ hincludes hp.includes).bind fun hsame =>
      (keeps_bindExcludes h hsame hexcludes hp.excludes).bind fun hsame => ?_
    · rfl
    · rw [← List.append_nil (List.flatMap _ _)]
      exact (keeps_bindAnimations h hanimations hp.animations).bind fun _ =>
        keeps_pure ⟨_, _, rfl, rfl, hsame⟩

/-- A view about an element of a class is kept if what it looks up lasts. -/
theorem keeps_bindScoped (h : Reflected plain registry mirror) {known found : List View}
    (hk : found.map View.key = known.map View.key) {details others : ViewDetails}
    (hu : others.unplaced = details.unplaced) (hp : details.Located spots) (kind : ViewKind)
    (reference : String) (wanted : ElementClass) :
    Keeps registry ({ reference, wanted := [wanted] } :: detailLookups details) SameView
      (bindScoped plain known details kind reference wanted)
      (bindScoped mirror found others kind reference wanted) := by
  have hposition : others.unplaced.position = details.unplaced.position := by rw [hu]
  obtain ⟨hmark, hs⟩ := isSome_of_somewhere hp.position hposition
  show Keeps registry ([_] ++ _) _ _ _
  refine (keeps_reference h hmark hs reference wanted).bind fun hfound => ?_
  obtain ⟨scope, range, hscope, hrange⟩ := hfound.exists
  rw [hscope, hrange]
  exact keeps_bindDetails h hk hu hp kind _ _

/-- A software system or a container is an element of one of these classes. -/
theorem exists_isA_scope_iff (kind : ElementClass) :
    (∃ wanted ∈ [ElementClass.softwareSystem, .container], kind.isA wanted = true) ↔
      (kind = .softwareSystem || kind = .container) = true := by
  cases kind <;> decide

/-- The scope of a dynamic view is an error exactly if it is no software system and no container. -/
theorem clean_dynamicScope_iff (hd : registry.Direct) {details : ViewDetails}
    (hp : details.position.isSome = true) (reference : String) :
    (dynamicScope registry details reference).Clean ↔
      Suits (registry.meaning reference) [.softwareSystem, .container] := by
  have hanswers : (registry.resolve reference details.position).Answers details.position _ :=
    Registry.answers_resolve hd reference .element
  have hmeaning : registry.meaningOf reference .element = registry.meaning reference := by
    unfold Registry.meaningOf
    cases registry.meaning reference <;> simp
  rw [hmeaning] at hanswers
  unfold dynamicScope
  rw [Reported.clean_bind, hanswers.clean, hanswers.value, forall_prop_of_true hp]
  cases registry.meaning reference with
  | none => exact iff_of_false (fun hc => Bool.noConfusion hc.1) fun ⟨entry, he, _⟩ => nomatch he
  | some scope =>
    have hsuits : Suits (some scope) [.softwareSystem, .container] ↔ _ :=
      ⟨fun ⟨_, he, hk⟩ => Option.some.inj he ▸ hk, fun hk => ⟨scope, rfl, hk⟩⟩
    rw [hsuits, exists_isA_scope_iff]
    refine (and_iff_right rfl).trans ?_
    dsimp only
    split
    · rename_i hk
      exact iff_of_true (fun _ hm => absurd hm List.not_mem_nil) hk
    · rename_i hk
      exact iff_of_false (fun hc => Reported.not_clean_report rfl (Reported.clean_bind.mp hc).1) hk

/-- The scope of a dynamic view is there where it is no error. -/
theorem dynamicScope_found {details : ViewDetails} (hp : details.position.isSome = true)
    {reference : String} (hc : (dynamicScope registry details reference).Clean) :
    (dynamicScope registry details reference).value.isSome = true := by
  unfold dynamicScope at hc ⊢
  obtain ⟨hr, hc⟩ := Reported.clean_bind.mp hc
  obtain ⟨scope, hs⟩ := Registry.resolve_found hp hr
  rw [Reported.bind_value]
  rw [hs] at hc ⊢
  dsimp only at hc ⊢
  split at hc
  · rename_i hk
    rw [if_pos hk]
    rfl
  · exact absurd (Reported.clean_bind.mp hc).1 (Reported.not_clean_report rfl)

/-- The scope of a dynamic view is kept if it lasts. -/
theorem keeps_dynamicScope (h : Reflected plain registry mirror) {details others : ViewDetails}
    (hp : details.position.isSome = true) (hs : others.position.isSome = true)
    (reference : String) :
    Keeps registry [{ reference, wanted := [.softwareSystem, .container] }] BothFound
      (dynamicScope plain details reference) (dynamicScope mirror others reference) := by
  obtain ⟨hfirst, hsecond⟩ := h.withContext_none
  refine keeps_lookup h registered_none ?_ ?_ (dynamicScope_found hp) (dynamicScope_found hs)
  · rw [hfirst]
    exact clean_dynamicScope_iff h.origin.direct hp reference
  · rw [Option.map_none, hsecond]
    exact clean_dynamicScope_iff h.mirrors.direct hs reference

/-- A scope that may be everything is kept if it lasts. -/
theorem keeps_openScope {resolve follow : String → Reported (Option Entry)} {reference : String}
    {wanted : List ElementClass}
    (h : Keeps registry [{ reference, wanted }] BothFound (resolve reference) (follow reference)) :
    Keeps registry (scopeLookups reference wanted) BothFound (openScope resolve reference)
      (openScope follow reference) := by
  unfold openScope scopeLookups
  split
  · exact keeps_pure ⟨rfl, rfl⟩
  · rw [← List.append_nil [_]]
    refine h.bind fun hfound => ?_
    obtain ⟨scope, range, hscope, hrange⟩ := hfound.exists
    rw [hscope, hrange]
    exact keeps_pure ⟨rfl, rfl⟩

/-- The scope of a deployment view is kept if it lasts. -/
theorem keeps_deploymentScope (h : Reflected plain registry mirror) {details others : ViewDetails}
    (hp : details.position.isSome = true) (hs : others.position.isSome = true)
    (system : Option String) :
    Keeps registry (system.toList.map fun reference => { reference, wanted := [.softwareSystem] })
      BothFound (deploymentScope plain details system)
      (deploymentScope mirror others system) := by
  cases system with
  | none => exact keeps_pure ⟨rfl, rfl⟩
  | some reference =>
    show Keeps registry ([_] ++ []) _ _ _
    refine (keeps_reference h hp hs reference .softwareSystem).bind fun hfound => ?_
    obtain ⟨scope, range, hscope, hrange⟩ := hfound.exists
    rw [hscope, hrange]
    exact keeps_pure ⟨rfl, rfl⟩

/-- Changing a view without its key keeps the key. -/
theorem Keeps.mapView {asked : List Lookup} {first second : Reported (Option View)}
    (h : Keeps registry asked SameView first second) {change alter : View → View}
    (hc : ∀ view, (change view).key = view.key) (ha : ∀ view, (alter view).key = view.key) :
    Keeps registry asked SameView (first >>= fun view? => pure (view?.map change))
      (second >>= fun view? => pure (view?.map alter)) := by
  rw [← List.append_nil asked]
  refine h.bind fun ⟨view, other, hview, hother, hsame⟩ => ?_
  rw [hview, hother]
  exact keeps_pure ⟨_, _, rfl, rfl, (ha other).trans (hsame.trans (hc view).symm)⟩

/-- A dynamic view is kept if what it looks up lasts. -/
theorem keeps_dynamicView (h : Reflected plain registry mirror) {known found : List View}
    (hk : found.map View.key = known.map View.key) {details others : ViewDetails}
    (hu : others.unplaced = details.unplaced) {scope : String}
    {steps interactions : List Declared.Relationship}
    (hi : interactions.map Declared.Relationship.unplaced =
      steps.map Declared.Relationship.unplaced)
    (hp : Declared.View.Located spots ⟨details, .dynamic scope steps⟩) :
    Keeps registry (viewLookups ⟨details, .dynamic scope steps⟩) SameView
      (bindView plain known ⟨details, .dynamic scope steps⟩)
      (bindView mirror found ⟨others, .dynamic scope interactions⟩) := by
  have hl : details.Located spots := hp.details
  have hposition : others.unplaced.position = details.unplaced.position := by rw [hu]
  obtain ⟨hmark, hs⟩ := isSome_of_somewhere hl.position hposition
  refine (keeps_openScope (keeps_dynamicScope h hmark hs scope)).bind fun hscopes => ?_
  obtain ⟨range, extent, hrange, hextent⟩ := hscopes.exists
  rw [hrange, hextent]
  refine (keeps_bindDetails h hk hu hl .dynamic range extent).bind
    fun ⟨view, other, hview, hother, hsame⟩ => ?_
  rw [hview, hother, ← List.append_nil (List.flatMap _ _)]
  exact (keeps_bindInteractions h hi (hp.steps scope steps rfl)).bind fun _ =>
    keeps_pure ⟨_, _, rfl, rfl, hsame⟩

/-- A deployment view is kept if what it looks up lasts. -/
theorem keeps_deploymentView (h : Reflected plain registry mirror) {known found : List View}
    (hk : found.map View.key = known.map View.key) {details others : ViewDetails}
    (hu : others.unplaced = details.unplaced) (hl : details.Located spots)
    (system : Option String) (environment : String) :
    Keeps registry (viewLookups ⟨details, .deployment system environment⟩) SameView
      (bindView plain known ⟨details, .deployment system environment⟩)
      (bindView mirror found ⟨others, .deployment system environment⟩) := by
  have hposition : others.unplaced.position = details.unplaced.position := by rw [hu]
  obtain ⟨hmark, hs⟩ := isSome_of_somewhere hl.position hposition
  refine (keeps_deploymentScope h hmark hs system).bind fun hscopes => ?_
  obtain ⟨range, extent, hrange, hextent⟩ := hscopes.exists
  rw [hrange, hextent]
  show Keeps registry ([_] ++ _) _ _ _
  refine (keeps_reference h hmark hs environment .deploymentEnvironment).bind fun hfound => ?_
  obtain ⟨heading, other, hheading, hother⟩ := hfound.exists
  rw [hheading, hother]
  exact (keeps_bindDetails h hk hu hl .deployment range extent).mapView (fun _ => rfl) fun _ => rfl

/-- A view is kept if what it looks up lasts. -/
theorem keeps_bindView (h : Reflected plain registry mirror) {known found : List View}
    (hk : found.map View.key = known.map View.key) {view other : Declared.View}
    (hu : other.unplaced = view.unplaced) (hp : view.Located spots) :
    Keeps registry (viewLookups view) SameView (bindView plain known view)
      (bindView mirror found other) := by
  obtain ⟨details, sort⟩ := view
  obtain ⟨others, twin⟩ := other
  obtain ⟨hu, hsort⟩ := Declared.View.mk.inj hu
  have hl : details.Located spots := hp.details
  have hdetails := keeps_bindDetails h hk hu hl
  have hposition : others.unplaced.position = details.unplaced.position := by rw [hu]
  obtain ⟨hmark, hs⟩ := isSome_of_somewhere hl.position hposition
  rcases viewSort_of_unplaced_eq hsort with
    ⟨scope, steps, interactions, rfl, rfl, hi⟩ | ⟨rfl, hstatic⟩
  · exact keeps_dynamicView h hk hu hi hp
  · cases twin with
    | systemLandscape => exact hdetails .systemLandscape none none
    | systemContext system => exact keeps_bindScoped h hk hu hl .systemContext system _
    | container system => exact keeps_bindScoped h hk hu hl .container system _
    | component container => exact keeps_bindScoped h hk hu hl .component container _
    | dynamic scope steps => exact absurd rfl (hstatic scope steps)
    | deployment system environment => exact keeps_deploymentView h hk hu hl system environment
    | filtered base mode tags =>
      exact (hdetails .filtered none none).mapView (fun _ => rfl) fun _ => rfl
    | custom => exact hdetails .custom none none
    | image scope content contentType =>
      refine (keeps_openScope (keeps_reference h hmark hs scope)).bind fun hscopes => ?_
      obtain ⟨range, extent, hrange, hextent⟩ := hscopes.exists
      rw [hrange, hextent]
      exact (hdetails .image range extent).mapView (fun _ => rfl) fun _ => rfl

/-- Views are kept if what they look up lasts. -/
theorem keeps_bindViews (h : Reflected plain registry mirror) {known found : List View}
    (hk : found.map View.key = known.map View.key) {views others : List Declared.View}
    (hu : others.map Declared.View.unplaced = views.map Declared.View.unplaced)
    (hp : ∀ view ∈ views, view.Located spots) :
    Keeps registry (views.flatMap viewLookups)
      (fun bound other => other.map View.key = bound.map View.key)
      (bindViews plain known views) (bindViews mirror found others) := by
  replace hu := forall₂_of_map_eq hu
  induction hu generalizing known found with
  | nil => exact keeps_pure hk
  | cons hfirst hrest ih =>
    rw [bindViews, bindViews, List.flatMap_cons]
    refine (keeps_bindView h hk hfirst (hp _ List.mem_cons_self)).bind fun hbound => ?_
    obtain ⟨view, other, hview, hother, hsame⟩ := hbound
    refine ih ?_ fun later hm => hp later (List.mem_cons_of_mem _ hm)
    rw [hview, hother, List.map_append, List.map_append, hk]
    exact congrArg (List.map View.key known ++ [·]) hsame

/-- The bases of filtered views are errors in both or in neither. -/
theorem keeps_checkBases (keys : List String) {views others : List Declared.View}
    (hu : others.map Declared.View.unplaced = views.map Declared.View.unplaced) :
    Keeps registry [] Whatever (checkBases keys views) (checkBases keys others) := by
  replace hu := forall₂_of_map_eq hu
  induction hu with
  | nil => exact keeps_pure trivial
  | @cons view other views others hfirst hrest ih =>
    obtain ⟨-, hsort⟩ := Declared.View.mk.inj hfirst
    rw [checkBases, checkBases]
    rcases viewSort_of_unplaced_eq hsort with ⟨scope, steps, interactions, hv, ho, -⟩ | ⟨he, -⟩
    · rw [hv, ho]
      exact ih
    · rw [he]
      split
      · split
        · rw [← List.append_nil []]
          exact (keeps_report _ _ _).bind fun _ => ih
        · exact ih
      · exact ih

/-- The views of a block that may be missing are kept if what they look up lasts. -/
theorem keeps_bindDeclared (h : Reflected plain registry mirror)
    {block other : Option Declared.Views}
    (hu : other.map Declared.Views.unplaced = block.map Declared.Views.unplaced)
    (hp : ∀ declared, block = some declared → ∀ view ∈ declared.views, view.Located spots) :
    Keeps registry (((block.map Declared.Views.views).getD []).flatMap viewLookups) Whatever
      (bindDeclared plain block) (bindDeclared mirror other) := by
  cases block with
  | none =>
    cases other with
    | none => exact keeps_pure trivial
    | some twin => cases hu
  | some declared =>
    cases other with
    | none => cases hu
    | some twin =>
      have hunplaced := Option.some.inj hu
      have hviews : twin.unplaced.views = declared.unplaced.views := by rw [hunplaced]
      unfold bindDeclared bindBlock
      rw [← List.append_nil (List.flatMap _ _)]
      refine (keeps_bindViews h rfl hviews (hp declared rfl)).bind fun hkeys => ?_
      rw [hkeys, ← List.append_nil []]
      exact (keeps_checkBases _ hviews).bind fun _ => keeps_pure trivial

end Blueprint.Build
