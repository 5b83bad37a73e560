import Blueprint.Proofs.Build.Joined

/-!
# Views in the order of their declarations

Where no error is reported, every declared view makes one view, in the order in which they are
declared. The view includes and excludes what is selected, its animations reveal what they name step
by step, and its interactions are those that are declared, numbered from one on.
-/

namespace Blueprint.Build

open Resolved (View ViewKind Interaction)
open Declared (Selection ViewDetails)

variable {spots : Position → Prop} {registry : Registry}

/-! ## Selections -/

/-- The selections other than that of everything. -/
def namedOf (selections : List Selection) : List Selection :=
  selections.filter fun selection => decide (selection.expression ≠ "*")

/-- The selections that are references. -/
def referencesOf (selections : List Selection) : List Selection :=
  selections.filter fun selection => !isExpression selection.expression.toList

/-- The expressions of the selections that are no references. -/
def expressionsOf (selections : List Selection) : List String :=
  (selections.filter fun selection => isExpression selection.expression.toList).map
    Selection.expression

section Lists

variable {selection : Selection} (selections : List Selection)

/-- The selection of everything has no name. -/
theorem namedOf_all (h : selection.expression = "*") :
    namedOf (selection :: selections) = namedOf selections :=
  List.filter_cons_of_neg (by simp [h])

/-- A selection other than that of everything has a name. -/
theorem namedOf_named (h : ¬selection.expression = "*") :
    namedOf (selection :: selections) = selection :: namedOf selections :=
  List.filter_cons_of_pos (by simp [h])

/-- An expression is no reference. -/
theorem referencesOf_expression (h : isExpression selection.expression.toList = true) :
    referencesOf (selection :: selections) = referencesOf selections :=
  List.filter_cons_of_neg (by simp [h])

/-- A selection that is no expression is a reference. -/
theorem referencesOf_reference (h : ¬isExpression selection.expression.toList = true) :
    referencesOf (selection :: selections) = selection :: referencesOf selections :=
  List.filter_cons_of_pos (by simp [h])

/-- An expression is among the expressions. -/
theorem expressionsOf_expression (h : isExpression selection.expression.toList = true) :
    expressionsOf (selection :: selections) = selection.expression :: expressionsOf selections := by
  simp [expressionsOf, h]

/-- A reference is not among the expressions. -/
theorem expressionsOf_reference (h : ¬isExpression selection.expression.toList = true) :
    expressionsOf (selection :: selections) = expressionsOf selections := by
  simp [expressionsOf, h]

end Lists

/-- An identifier is that of the element that is selected. -/
def Selects (registry : Registry) (id : String) (selection : Selection) : Prop :=
  registry.Binds selection.position selection.expression id

/-- Selections have places. -/
def Selected (spots : Position → Prop) (selections : List Selection) : Prop :=
  ∀ selection ∈ selections, Marked spots selection.position

/-- A reference that is resolved without an error has an identifier. -/
theorem resolveId_binds {position : Option Position} (hp : Marked spots position)
    {reference : String} (hc : (resolveId registry position reference).Clean) :
    ∃ id, (resolveId registry position reference).value = some id ∧
      registry.Binds position reference id := by
  unfold resolveId at hc ⊢
  obtain ⟨entry, he, hb⟩ := Registry.binds_of_clean hp (Reported.clean_bind.mp hc).1
  refine ⟨entry.id, ?_, hb⟩
  rw [Reported.bind_value, he]
  rfl

/-- An expression is kept as it is. -/
theorem bindSelection_expression {selection : Selection}
    (he : isExpression selection.expression.toList = true) :
    (bindSelection registry selection).value = some (.inl selection.expression) := by
  unfold bindSelection
  rw [if_pos he]
  rfl

/-- A reference that is bound without an error has an identifier. -/
theorem bindSelection_reference {selection : Selection} (hp : Marked spots selection.position)
    (he : ¬isExpression selection.expression.toList = true)
    (hc : (bindSelection registry selection).Clean) :
    ∃ id, (bindSelection registry selection).value = some (.inr id) ∧
      Selects registry id selection := by
  unfold bindSelection at hc ⊢
  rw [if_neg he] at hc ⊢
  obtain ⟨id, hi, hb⟩ := resolveId_binds hp (Reported.clean_bind.mp hc).1
  refine ⟨id, ?_, hb⟩
  rw [Reported.bind_value, hi]
  rfl

/-- Without an error a view includes what is selected, and nothing else about it changes. -/
theorem bindIncludes_selects {view : View} {selections : List Selection}
    (hs : Selected spots selections) (hc : (bindIncludes registry view selections).Clean) :
    ∃ ids, List.Forall₂ (Selects registry) ids (referencesOf (namedOf selections)) ∧
      (bindIncludes registry view selections).value =
        { view with
          includesAll := view.includesAll ||
            selections.any fun selection => decide (selection.expression = "*")
          elements := view.elements ++ ids
          expressions := view.expressions ++ expressionsOf (namedOf selections) } := by
  induction selections generalizing view with
  | nil =>
    refine ⟨[], .nil, ?_⟩
    simp [bindIncludes, expressionsOf, namedOf]
  | cons selection selections ih =>
    have hrest : Selected spots selections := fun other hm => hs other (List.mem_cons_of_mem _ hm)
    have hp := hs selection List.mem_cons_self
    rw [bindIncludes] at hc ⊢
    by_cases ha : selection.expression = "*"
    · rw [if_pos ha] at hc ⊢
      obtain ⟨ids, hids, he⟩ := ih hrest hc
      rw [namedOf_all selections ha]
      refine ⟨ids, hids, ?_⟩
      rw [he]
      simp [ha]
    · rw [if_neg ha] at hc ⊢
      rw [namedOf_named selections ha, Reported.bind_value]
      obtain ⟨hfirst, hthen⟩ := Reported.clean_bind.mp hc
      by_cases hx : isExpression selection.expression.toList = true
      · rw [bindSelection_expression hx] at hthen ⊢
        obtain ⟨ids, hids, he⟩ := ih hrest hthen
        rw [referencesOf_expression _ hx, expressionsOf_expression _ hx]
        refine ⟨ids, hids, ?_⟩
        rw [he]
        simp [ha]
      · obtain ⟨id, hi, hb⟩ := bindSelection_reference hp hx hfirst
        rw [hi] at hthen ⊢
        obtain ⟨ids, hids, he⟩ := ih hrest hthen
        rw [referencesOf_reference _ hx, expressionsOf_reference _ hx]
        refine ⟨id :: ids, .cons hb hids, ?_⟩
        rw [he]
        simp [ha]

/-- Without an error a view excludes what is selected, and nothing else about it changes. -/
theorem bindExcludes_selects {view : View} {selections : List Selection}
    (hs : Selected spots selections) (hc : (bindExcludes registry view selections).Clean) :
    ∃ ids, List.Forall₂ (Selects registry) ids (referencesOf selections) ∧
      (bindExcludes registry view selections).value =
        { view with
          excluded := view.excluded ++ ids
          excludedExpressions := view.excludedExpressions ++ expressionsOf selections } := by
  induction selections generalizing view with
  | nil =>
    refine ⟨[], .nil, ?_⟩
    simp [bindExcludes, expressionsOf]
  | cons selection selections ih =>
    have hrest : Selected spots selections := fun other hm => hs other (List.mem_cons_of_mem _ hm)
    have hp := hs selection List.mem_cons_self
    rw [bindExcludes] at hc ⊢
    rw [Reported.bind_value]
    obtain ⟨hfirst, hthen⟩ := Reported.clean_bind.mp hc
    by_cases hx : isExpression selection.expression.toList = true
    · rw [bindSelection_expression hx] at hthen ⊢
      obtain ⟨ids, hids, he⟩ := ih hrest hthen
      rw [referencesOf_expression _ hx, expressionsOf_expression _ hx]
      refine ⟨ids, hids, ?_⟩
      rw [he]
      simp
    · obtain ⟨id, hi, hb⟩ := bindSelection_reference hp hx hfirst
      rw [hi] at hthen ⊢
      obtain ⟨ids, hids, he⟩ := ih hrest hthen
      rw [referencesOf_reference _ hx, expressionsOf_reference _ hx]
      refine ⟨id :: ids, .cons hb hids, ?_⟩
      rw [he]
      simp

/-! ## Animations and interactions -/

/-- The steps of animations one after the other, each with the place of its animation. -/
def stepsOf (animations : List Declared.Animation) : List (Option Position × List String) :=
  animations.flatMap fun animation => animation.steps.map (animation.position, ·)

/-- A step reveals the elements that it names. -/
def Reveals (registry : Registry) (ids : List String)
    (step : Option Position × List String) : Prop :=
  List.Forall₂ (fun id reference => registry.Binds step.1 reference id) ids step.2

/-- What is collected without an error is there for each item. -/
theorem forall₂_collect {α β : Type} {f : α → Reported (Option β)} {R : β → α → Prop}
    (hf : ∀ item, (f item).Clean → ∃ result, (f item).value = some result ∧ R result item)
    {items : List α} (hc : (Reported.collect f items).Clean) :
    List.Forall₂ R (Reported.collect f items).value items := by
  induction items with
  | nil => exact .nil
  | cons item items ih =>
    rw [Reported.collect] at hc ⊢
    rw [Reported.bind_value]
    obtain ⟨hfirst, hc⟩ := Reported.clean_bind.mp hc
    obtain ⟨hothers, _⟩ := Reported.clean_bind.mp hc
    obtain ⟨result, hr, hm⟩ := hf item hfirst
    rw [hr]
    exact .cons hm (ih hothers)

/-- The steps of an animation reveal what they name. -/
theorem bindSteps_reveals {position : Option Position} (hp : Marked spots position)
    {steps : List (List String)} (hc : (bindSteps registry position steps).Clean) :
    List.Forall₂ (Reveals registry) (bindSteps registry position steps).value
      (steps.map (position, ·)) := by
  induction steps with
  | nil => exact .nil
  | cons step steps ih =>
    rw [bindSteps] at hc ⊢
    rw [List.map_cons]
    obtain ⟨hfirst, hc⟩ := Reported.clean_bind.mp hc
    obtain ⟨hothers, _⟩ := Reported.clean_bind.mp hc
    have hr : Reveals registry _ (position, step) :=
      forall₂_collect (fun reference hi => resolveId_binds hp hi) hfirst
    exact .cons hr (ih hothers)

/-- Animations reveal what they name, step by step. -/
theorem bindAnimations_reveals {animations : List Declared.Animation}
    (hp : ∀ animation ∈ animations, Marked spots animation.position)
    (hc : (bindAnimations registry animations).Clean) :
    List.Forall₂ (Reveals registry) (bindAnimations registry animations).value
      (stepsOf animations) := by
  induction animations with
  | nil => exact .nil
  | cons animation animations ih =>
    rw [bindAnimations] at hc ⊢
    unfold stepsOf at ih ⊢
    rw [List.flatMap_cons]
    obtain ⟨hfirst, hc⟩ := Reported.clean_bind.mp hc
    obtain ⟨hothers, _⟩ := Reported.clean_bind.mp hc
    have hsteps := bindSteps_reveals (hp animation List.mem_cons_self) hfirst
    have hrest := ih (fun other hm => hp other (List.mem_cons_of_mem _ hm)) hothers
    exact List.rel_append hsteps hrest

/-- An interaction is what a declaration says, and has the number of the declaration. -/
structure Enacts (registry : Registry) (interaction : Interaction)
    (numbered : Declared.Relationship × Nat) : Prop where
  /-- The number is that of the declaration. -/
  order : interaction.order = numbered.2
  /-- The description is kept. -/
  description : interaction.description = numbered.1.description
  /-- The technology is kept. -/
  technology : interaction.technology = numbered.1.technology
  /-- It starts at the element that is referred to. -/
  source : registry.Binds numbered.1.position numbered.1.source interaction.source
  /-- It leads to the element that is referred to. -/
  destination :
    registry.Binds numbered.1.position numbered.1.destination interaction.destination

/-- Interactions that are bound without an error are there, numbered one after the other. -/
theorem bindInteractions_enacts {known : List Interaction} {steps : List Declared.Relationship}
    (hp : Declared.Traced spots steps) (hc : (bindInteractions registry known steps).Clean) :
    ∃ more, (bindInteractions registry known steps).value = known ++ more ∧
      List.Forall₂ (Enacts registry) more (steps.zipIdx (known.length + 1)) := by
  induction steps generalizing known with
  | nil => exact ⟨[], (List.append_nil _).symm, .nil⟩
  | cons declared steps ih =>
    have hm := hp declared List.mem_cons_self
    rw [bindInteractions] at hc ⊢
    obtain ⟨hsource, hc⟩ := Reported.clean_bind.mp hc
    obtain ⟨hdestination, hc⟩ := Reported.clean_bind.mp hc
    obtain ⟨source, hs, hsb⟩ := Registry.binds_of_clean hm hsource
    obtain ⟨destination, hd, hdb⟩ := Registry.binds_of_clean hm hdestination
    rw [Reported.bind_value, Reported.bind_value, hs, hd]
    rw [hs, hd] at hc
    obtain ⟨more, he, hall⟩ := ih (fun other hm => hp other (List.mem_cons_of_mem _ hm)) hc
    rw [List.length_append, List.length_singleton] at hall
    dsimp only
    rw [he, List.zipIdx_cons]
    refine ⟨_, List.append_assoc .., .cons ⟨?_, rfl, rfl, hsb, hdb⟩ hall⟩
    exact (Int.natCast_add_one _).symm

/-! ## Views -/

/-- What a view has from the details of its declaration. -/
structure Presents (registry : Registry) (view : View) (details : ViewDetails) : Prop where
  /-- A key that is given is kept. -/
  key : ∀ key, given? details.key = some key → view.key = key
  /-- The title is kept. -/
  title : view.title = details.title
  /-- The description is kept. -/
  description : view.description = details.description
  /-- The properties are kept. -/
  properties : view.properties = details.properties
  /-- The automatic layout is kept. -/
  layout : view.autoLayout = details.autoLayout.map fun layout =>
    ⟨layout.rankDirection, layout.rankSeparation, layout.nodeSeparation⟩
  /-- Everything is included if this is selected. -/
  includesAll : view.includesAll =
    details.includes.any fun selection => decide (selection.expression = "*")
  /-- The elements are those that are included. -/
  elements : List.Forall₂ (Selects registry) view.elements
    (referencesOf (namedOf details.includes))
  /-- The expressions are those that are included. -/
  expressions : view.expressions = expressionsOf (namedOf details.includes)
  /-- The excluded elements are those that are declared. -/
  excluded : List.Forall₂ (Selects registry) view.excluded (referencesOf details.excludes)
  /-- The excluded expressions are those that are declared. -/
  excludedExpressions : view.excludedExpressions = expressionsOf details.excludes
  /-- The animations are those that are declared, step by step. -/
  animations : List.Forall₂ (Reveals registry) view.animations (stepsOf details.animations)

/-- The scope of a view is the element of a class that is referred to. -/
def IsAbout (registry : Registry) (position : Option Position) (reference : String)
    (wanted : ElementClass) (scope : Option String) : Prop :=
  ∃ id, scope = some id ∧ registry.Binds position reference id wanted

/-- The scope of a view is the element that is referred to, or none if it is everything. -/
def IsOpenTo (registry : Registry) (position : Option Position) (reference : String)
    (scope : Option String) : Prop :=
  (reference = "*" ∧ scope = none) ∨
    (reference ≠ "*" ∧ IsAbout registry position reference .element scope)

/-- The scope of a view is the software system that is referred to, or there is neither. -/
def IsAboutAny (registry : Registry) (position : Option Position) (scope : Option String) :
    Option String → Prop
  | some reference => IsAbout registry position reference .softwareSystem scope
  | none => scope = none

/-- The kind of view that a declaration makes. -/
def kindOf : Declared.ViewSort → ViewKind
  | .systemLandscape => .systemLandscape
  | .systemContext _ => .systemContext
  | .container _ => .container
  | .component _ => .component
  | .dynamic _ _ => .dynamic
  | .deployment _ _ => .deployment
  | .filtered _ _ _ => .filtered
  | .custom => .custom
  | .image _ _ _ => .image

/-- What a view has from the sort of its declaration. -/
def Depicts (registry : Registry) (view : View) (position : Option Position) :
    Declared.ViewSort → Prop
  | .systemLandscape | .custom => view.scope = none
  | .systemContext system | .container system =>
    IsAbout registry position system .softwareSystem view.scope
  | .component container => IsAbout registry position container .container view.scope
  | .dynamic scope steps =>
    IsOpenTo registry position scope view.scope ∧
      List.Forall₂ (Enacts registry) view.interactions (steps.zipIdx 1)
  | .deployment system environment =>
    IsAboutAny registry position view.scope system ∧
      ∃ entry, (registry.resolve environment position true .deploymentEnvironment).value =
        some entry ∧ view.environment = some entry.name
  | .filtered base mode tags =>
    view.scope = none ∧ view.baseKey = some base ∧ view.filterMode = some mode ∧
      view.filterTags = tags
  | .image scope content contentType =>
    IsOpenTo registry position scope view.scope ∧ view.content = content ∧
      view.contentType = contentType

/-- A view is what a declaration says. -/
structure Shows (registry : Registry) (view : View) (declared : Declared.View) : Prop where
  /-- The kind follows from the sort. -/
  kind : view.kind = kindOf declared.sort
  /-- It has what all views have. -/
  details : Presents registry view declared.details
  /-- It has what views of its sort have. -/
  sort : Depicts registry view declared.details.position declared.sort

/-- The details of a view that are bound without an error are there. -/
theorem bindDetails_presents {known : List View} {details : ViewDetails} {kind : ViewKind}
    {scope : Option String} (hl : details.Located spots)
    (hc : (bindDetails registry known details kind scope).Clean) :
    ∃ view, (bindDetails registry known details kind scope).value = some view ∧
      view.kind = kind ∧ view.scope = scope ∧ Presents registry view details := by
  unfold bindDetails at hc ⊢
  dsimp only at hc ⊢
  split at hc
  · exact absurd (Reported.clean_bind.mp hc).1 (Reported.not_clean_report rfl)
  · rename_i hn
    rw [if_neg hn]
    obtain ⟨hincludes, hc⟩ := Reported.clean_bind.mp hc
    obtain ⟨hexcludes, hc⟩ := Reported.clean_bind.mp hc
    obtain ⟨hanimations, _⟩ := Reported.clean_bind.mp hc
    obtain ⟨included, hi, hie⟩ := bindIncludes_selects hl.includes hincludes
    obtain ⟨excluded, hx, hxe⟩ := bindExcludes_selects hl.excludes hexcludes
    have ha := bindAnimations_reveals hl.animations hanimations
    rw [hie] at hxe
    simp only [Reported.bind_value, Reported.pure_value]
    rw [hie, hxe]
    refine ⟨_, rfl, rfl, rfl, ?_, rfl, rfl, rfl, rfl, ?_, hi, ?_, hx, ?_, ha⟩
    · intro key hk
      rw [hk]
      rfl
    · exact Bool.false_or _
    · exact List.nil_append _
    · exact List.nil_append _

/-- What only views of some sorts have changes nothing about what all views have. -/
theorem Presents.amend {view : View} {details : ViewDetails} (h : Presents registry view details)
    (environment : Option String) (interactions : List Interaction)
    (baseKey filterMode : Option String) (filterTags : List String)
    (content contentType : Option String) :
    Presents registry
      { view with
        environment, interactions, baseKey, filterMode, filterTags, content, contentType }
      details where
  key := h.key
  title := h.title
  description := h.description
  properties := h.properties
  layout := h.layout
  includesAll := h.includesAll
  elements := h.elements
  expressions := h.expressions
  excluded := h.excluded
  excludedExpressions := h.excludedExpressions
  animations := h.animations

/-- A view about an element of a class that is bound without an error is there. -/
theorem bindScoped_presents {known : List View} {details : ViewDetails} {kind : ViewKind}
    {reference : String} {wanted : ElementClass} (hl : details.Located spots)
    (hc : (bindScoped registry known details kind reference wanted).Clean) :
    ∃ view, (bindScoped registry known details kind reference wanted).value = some view ∧
      view.kind = kind ∧ IsAbout registry details.position reference wanted view.scope ∧
      Presents registry view details := by
  unfold bindScoped at hc ⊢
  obtain ⟨hscope, hc⟩ := Reported.clean_bind.mp hc
  obtain ⟨scope, hs, hb⟩ := Registry.binds_of_clean hl.position hscope
  rw [Reported.bind_value, hs]
  rw [hs] at hc
  obtain ⟨view, hv, hk, hi, hp⟩ := bindDetails_presents hl hc
  exact ⟨view, hv, hk, ⟨scope.id, hi, hb⟩, hp⟩

/-- The scope of a dynamic view that is resolved without an error is there. -/
theorem dynamicScope_binds {details : ViewDetails} {reference : String}
    (hp : Marked spots details.position)
    (hc : (dynamicScope registry details reference).Clean) :
    ∃ entry, (dynamicScope registry details reference).value = some entry ∧
      registry.Binds details.position reference entry.id := by
  unfold dynamicScope at hc ⊢
  obtain ⟨hscope, hc⟩ := Reported.clean_bind.mp hc
  obtain ⟨scope, hs, hb⟩ := Registry.binds_of_clean hp hscope
  rw [Reported.bind_value, hs]
  rw [hs] at hc
  dsimp only at hc ⊢
  split at hc
  · rename_i hk
    rw [if_pos hk]
    exact ⟨scope, rfl, hb⟩
  · exact absurd (Reported.clean_bind.mp hc).1 (Reported.not_clean_report rfl)

/-- A scope that may be everything and is resolved without an error is there. -/
theorem openScope_isOpenTo {resolve : String → Reported (Option Entry)}
    {position : Option Position} {reference : String}
    (hr : (resolve reference).Clean → ∃ entry, (resolve reference).value = some entry ∧
      registry.Binds position reference entry.id)
    (hc : (openScope resolve reference).Clean) :
    ∃ scope, (openScope resolve reference).value = some scope ∧
      IsOpenTo registry position reference scope := by
  unfold openScope at hc ⊢
  by_cases ha : reference = "*"
  · rw [if_pos ha]
    exact ⟨none, rfl, .inl ⟨ha, rfl⟩⟩
  · rw [if_neg ha] at hc ⊢
    obtain ⟨entry, he, hb⟩ := hr (Reported.clean_bind.mp hc).1
    rw [Reported.bind_value, he]
    exact ⟨some entry.id, rfl, .inr ⟨ha, entry.id, rfl, hb⟩⟩

/-- The scope of a deployment view that is resolved without an error is there. -/
theorem deploymentScope_binds {details : ViewDetails} {system : Option String}
    (hp : Marked spots details.position)
    (hc : (deploymentScope registry details system).Clean) :
    ∃ scope, (deploymentScope registry details system).value = some scope ∧
      IsAboutAny registry details.position scope system := by
  cases system with
  | none => exact ⟨none, rfl, rfl⟩
  | some reference =>
    unfold deploymentScope at hc ⊢
    dsimp only at hc ⊢
    obtain ⟨entry, he, hb⟩ := Registry.binds_of_clean hp (Reported.clean_bind.mp hc).1
    refine ⟨some entry.id, ?_, entry.id, rfl, hb⟩
    rw [Reported.bind_value, he]
    rfl

/-- A dynamic view that is bound without an error is there with its interactions. -/
theorem bindView_dynamic {known : List View} {details : ViewDetails} {reference : String}
    {steps : List Declared.Relationship} (hd : details.Located spots)
    (hl : Declared.Traced spots steps)
    (hc : (bindView registry known ⟨details, .dynamic reference steps⟩).Clean) :
    ∃ view, (bindView registry known ⟨details, .dynamic reference steps⟩).value = some view ∧
      Shows registry view ⟨details, .dynamic reference steps⟩ := by
  unfold bindView at hc ⊢
  dsimp only at hc ⊢
  obtain ⟨hscope, hc⟩ := Reported.clean_bind.mp hc
  obtain ⟨scope, ho, hopen⟩ := openScope_isOpenTo (dynamicScope_binds hd.position) hscope
  rw [Reported.bind_value, ho]
  rw [ho] at hc
  obtain ⟨hdetails, hc⟩ := Reported.clean_bind.mp hc
  obtain ⟨view, hv, hk, hs, hp⟩ := bindDetails_presents hd hdetails
  dsimp only
  rw [Reported.bind_value, hv]
  rw [hv] at hc
  obtain ⟨interactions, hi, hall⟩ := bindInteractions_enacts hl (Reported.clean_bind.mp hc).1
  have hall : List.Forall₂ (Enacts registry) interactions (steps.zipIdx 1) := hall
  rw [List.nil_append] at hi
  rw [← hs] at hopen
  dsimp only
  rw [Reported.bind_value, hi]
  exact ⟨_, rfl, hk, hp.amend .., hopen, hall⟩

/-- A deployment view that is bound without an error is there with its environment. -/
theorem bindView_deployment {known : List View} {details : ViewDetails}
    {system : Option String} {environment : String} (hd : details.Located spots)
    (hc : (bindView registry known ⟨details, .deployment system environment⟩).Clean) :
    ∃ view, (bindView registry known ⟨details, .deployment system environment⟩).value =
        some view ∧
      Shows registry view ⟨details, .deployment system environment⟩ := by
  unfold bindView at hc ⊢
  dsimp only at hc ⊢
  obtain ⟨hscope, hc⟩ := Reported.clean_bind.mp hc
  obtain ⟨scope, hs, hb⟩ := deploymentScope_binds hd.position hscope
  rw [Reported.bind_value, hs]
  rw [hs] at hc
  obtain ⟨henvironment, hc⟩ := Reported.clean_bind.mp hc
  obtain ⟨entry, he, _⟩ := Registry.binds_of_clean hd.position henvironment
  dsimp only
  rw [Reported.bind_value, he]
  rw [he] at hc
  obtain ⟨view, hv, hk, hi, hp⟩ := bindDetails_presents hd (Reported.clean_bind.mp hc).1
  rw [← hi] at hb
  dsimp only
  rw [Reported.bind_value, hv]
  exact ⟨_, rfl, hk, hp.amend .., hb, entry, he, rfl⟩

/-- An image view that is bound without an error is there with its picture. -/
theorem bindView_image {known : List View} {details : ViewDetails} {reference : String}
    {content contentType : Option String} (hd : details.Located spots)
    (hc : (bindView registry known ⟨details, .image reference content contentType⟩).Clean) :
    ∃ view, (bindView registry known ⟨details, .image reference content contentType⟩).value =
        some view ∧
      Shows registry view ⟨details, .image reference content contentType⟩ := by
  unfold bindView at hc ⊢
  dsimp only at hc ⊢
  obtain ⟨hscope, hc⟩ := Reported.clean_bind.mp hc
  have hresolve : (registry.resolve reference details.position).Clean →
      ∃ entry, (registry.resolve reference details.position).value = some entry ∧
        registry.Binds details.position reference entry.id :=
    fun hr => Registry.binds_of_clean hd.position hr
  obtain ⟨scope, ho, hopen⟩ := openScope_isOpenTo hresolve hscope
  rw [Reported.bind_value, ho]
  rw [ho] at hc
  obtain ⟨view, hv, hk, hs, hp⟩ := bindDetails_presents hd (Reported.clean_bind.mp hc).1
  rw [← hs] at hopen
  dsimp only
  rw [Reported.bind_value, hv]
  exact ⟨_, rfl, hk, hp.amend .., hopen, rfl, rfl⟩

/-- A view that is bound without an error is there. -/
theorem bindView_shows {known : List View} {declared : Declared.View}
    (hl : declared.Located spots) (hc : (bindView registry known declared).Clean) :
    ∃ view, (bindView registry known declared).value = some view ∧
      Shows registry view declared := by
  obtain ⟨details, sort⟩ := declared
  have hd : details.Located spots := hl.details
  cases sort with
  | systemLandscape =>
    obtain ⟨view, hv, hk, hs, hp⟩ := bindDetails_presents hd hc
    exact ⟨view, hv, hk, hp, hs⟩
  | systemContext system =>
    obtain ⟨view, hv, hk, hs, hp⟩ := bindScoped_presents hd hc
    exact ⟨view, hv, hk, hp, hs⟩
  | container system =>
    obtain ⟨view, hv, hk, hs, hp⟩ := bindScoped_presents hd hc
    exact ⟨view, hv, hk, hp, hs⟩
  | component container =>
    obtain ⟨view, hv, hk, hs, hp⟩ := bindScoped_presents hd hc
    exact ⟨view, hv, hk, hp, hs⟩
  | dynamic reference steps => exact bindView_dynamic hd (hl.steps reference steps rfl) hc
  | deployment system environment => exact bindView_deployment hd hc
  | filtered base mode tags =>
    unfold bindView at hc ⊢
    dsimp only at hc ⊢
    obtain ⟨view, hv, hk, hs, hp⟩ := bindDetails_presents hd (Reported.clean_bind.mp hc).1
    rw [Reported.bind_value, hv]
    exact ⟨_, rfl, hk, hp.amend .., hs, rfl, rfl, rfl⟩
  | custom =>
    obtain ⟨view, hv, hk, hs, hp⟩ := bindDetails_presents hd hc
    exact ⟨view, hv, hk, hp, hs⟩
  | image reference content contentType => exact bindView_image hd hc

/-- Views that are bound without an error are there one after the other. -/
theorem bindViews_shows {known : List View} {declared : List Declared.View}
    (hl : ∀ view ∈ declared, view.Located spots)
    (hc : (bindViews registry known declared).Clean) :
    ∃ more, (bindViews registry known declared).value = known ++ more ∧
      List.Forall₂ (Shows registry) more declared := by
  induction declared generalizing known with
  | nil => exact ⟨[], (List.append_nil _).symm, .nil⟩
  | cons first declared ih =>
    rw [bindViews] at hc ⊢
    rw [Reported.bind_value]
    obtain ⟨hfirst, hrest⟩ := Reported.clean_bind.mp hc
    obtain ⟨view, hv, hs⟩ := bindView_shows (hl first List.mem_cons_self) hfirst
    obtain ⟨more, hm, hall⟩ := ih (fun other ho => hl other (List.mem_cons_of_mem _ ho)) hrest
    refine ⟨view :: more, ?_, .cons hs hall⟩
    rw [hm, hv, Option.toList_some, List.append_assoc, List.singleton_append]

/-- The base of a filtered view is a view if no error is reported. -/
theorem mem_of_checkBases {keys : List String} {declared : List Declared.View}
    (hc : (checkBases keys declared).Clean) :
    ∀ view ∈ declared, ∀ base mode tags, view.sort = .filtered base mode tags → base ∈ keys := by
  induction declared with
  | nil =>
    intro view hm
    cases hm
  | cons first declared ih =>
    intro view hm base mode tags hs
    have hthen : (checkBases keys declared).Clean := by
      rw [checkBases] at hc
      dsimp only at hc
      repeat' split at hc
      · exact (Reported.clean_bind.mp hc).2
      · exact hc
      · exact hc
    rcases List.mem_cons.mp hm with rfl | hm
    · by_contra hn
      rw [checkBases, hs] at hc
      dsimp only at hc
      rw [if_pos hn] at hc
      exact Reported.not_clean_report rfl (Reported.clean_bind.mp hc).1
    · exact ih hthen view hm base mode tags hs

end Blueprint.Build
