import Blueprint.Proofs.Completeness

/-!
# Everything that is built points at its place

What is reported while a workspace is built has the place of a declaration, with one exception: a
link of a decision to a decision that does not exist. Every alias that the builder registers stands
for a registered element, so no reference comes back to itself.
-/

namespace Blueprint

variable {spots : Position → Prop} {α β : Type}

/-- Whether a reference comes back to itself. -/
def ReferenceIssue.isCircular : ReferenceIssue → Bool
  | .circular _ => true
  | _ => false

/-- Whether a problem is that a reference comes back to itself. -/
def Issue.isCircular : Issue → Bool
  | .reference issue => issue.isCircular
  | _ => false

/-- A diagnostic has one of some places, and it is not about a reference that comes back to
itself. -/
structure Diagnostic.Points (spots : Position → Prop) (diagnostic : Diagnostic) : Prop where
  /-- It has a place. -/
  marked : Marked spots diagnostic.position
  /-- It is about something else. -/
  straight : diagnostic.issue.isCircular = false

namespace Reported

/-- Everything that is reported has one of some places, and no reference comes back to itself. -/
def Points (spots : Position → Prop) (reported : Reported α) : Prop :=
  ∀ diagnostic ∈ reported.diagnostics, diagnostic.Points spots

/-- A value alone reports nothing. -/
theorem Points.pure (value : α) : (pure value : Reported α).Points spots :=
  fun _ hm => absurd hm List.not_mem_nil

/-- What two computations report, one after the other. -/
theorem Points.bind {first : Reported α} {next : α → Reported β} (hf : first.Points spots)
    (hn : (next first.value).Points spots) : (first >>= next).Points spots := by
  intro diagnostic hm
  rcases List.mem_append.mp hm with hm | hm
  · exact hf diagnostic hm
  · exact hn diagnostic hm

/-- The report of a problem at a place. -/
theorem points_report {issue : Issue} {position : Option Position} (h : Marked spots position)
    (hs : issue.isCircular = false) :
    (Reported.report issue position).Points spots := by
  intro diagnostic hm
  rw [List.mem_singleton.mp hm]
  exact ⟨h, hs⟩

/-- What is reported when items are gone through is what is reported for each. -/
theorem points_collect {f : α → Reported (Option β)} (hf : ∀ item, (f item).Points spots)
    (items : List α) : (collect f items).Points spots := by
  induction items with
  | nil => exact .pure _
  | cons item items ih =>
    rw [collect]
    exact (hf item).bind (ih.bind (.pure _))

end Reported

/-! ## References -/

namespace Registry

/-- Every alias stands for a registered element. -/
def Grounded (registry : Registry) : Prop :=
  ∀ name target, registry.aliases.get? name = some target → (registry.get? target).isSome = true

/-- Where there are no aliases, every alias stands for a registered element. -/
theorem grounded_empty : Registry.empty.Grounded :=
  fun _ _ he => nomatch he

/-- The context changes no alias. -/
theorem Grounded.withContext {registry : Registry} (h : registry.Grounded)
    (context : Option String) : (registry.withContext context).Grounded := h

/-- What is registered stays registered when another element is. -/
theorem Grounded.register {registry : Registry} (h : registry.Grounded) (entry : Entry) :
    (registry.register entry).Grounded := by
  intro name target ha
  rw [aliases_register] at ha
  rw [get?_register]
  split
  · rfl
  · exact h name target ha

/-- An alias of a registered element joins the aliases. -/
theorem Grounded.registerAlias {registry : Registry} (h : registry.Grounded) {id : String}
    (hi : (registry.get? id).isSome = true) (name : String) :
    (registry.registerAlias name id).Grounded := by
  intro other target ha
  have hn : (registry.registerAlias name id).aliases.get? other =
      if name = other then some id else registry.aliases.get? other :=
    OrderedMap.get?_insert _ _ _ _
  rw [hn] at ha
  split at ha
  · cases ha
    exact hi
  · exact h other target ha

/-- Everything that is reported has the place of a reference, which has one, and no reference comes
back to itself. -/
def PointsAt (position : Option Position) (reported : Reported α) : Prop :=
  ∀ diagnostic ∈ reported.diagnostics, diagnostic.position = position ∧ position.isSome = true ∧
    diagnostic.issue.isCircular = false

/-- What has the place of a reference has one of the places that the reference may have. -/
theorem PointsAt.points {position : Option Position} {reported : Reported α}
    (h : PointsAt position reported) (hp : Marked spots position) : reported.Points spots := by
  intro diagnostic hm
  obtain ⟨he, _, hs⟩ := h diagnostic hm
  exact ⟨he ▸ hp, hs⟩

/-- A reference without a place reports nothing. -/
theorem PointsAt.nothing {reported : Reported α} (h : PointsAt none reported) :
    reported.diagnostics = [] :=
  List.eq_nil_iff_forall_not_mem.mpr fun diagnostic hm => nomatch (h diagnostic hm).2.1

variable {registry : Registry} {position : Option Position}

/-- An element without problems reports nothing. -/
theorem pointsAt_found (entry : Entry) : PointsAt position (Resolution.found entry) :=
  fun _ hm => absurd hm List.not_mem_nil

/-- A missing element is reported at the place of its reference. -/
theorem pointsAt_missing {issue : ReferenceIssue} (h : issue.isCircular = false) :
    PointsAt position (Resolution.missing issue position) := by
  intro diagnostic hm
  cases position with
  | none => exact absurd hm List.not_mem_nil
  | some place =>
    rw [List.mem_singleton.mp hm]
    exact ⟨rfl, rfl, h⟩

/-- What is reported by two computations at one place. -/
theorem PointsAt.bind {first : Reported α} {next : α → Reported β} (hf : PointsAt position first)
    (hn : PointsAt position (next first.value)) : PointsAt position (first >>= next) := by
  intro diagnostic hm
  rcases List.mem_append.mp hm with hm | hm
  · exact hf diagnostic hm
  · exact hn diagnostic hm

/-- A relative reference is reported at its place. -/
theorem pointsAt_resolveRelative (word : String) :
    PointsAt position (registry.resolveRelative word position) := by
  unfold resolveRelative
  split
  · exact pointsAt_missing rfl
  · split
    · exact pointsAt_found _
    · split
      · exact pointsAt_found _
      · exact pointsAt_missing rfl

/-- A path is reported at its place. -/
theorem pointsAt_followPath (path : String) (start : Entry) (parts : List String) :
    PointsAt position (registry.followPath path position start parts) := by
  induction parts generalizing start with
  | nil => exact pointsAt_found start
  | cons part parts ih =>
    rw [followPath]
    split
    · exact ih _
    · exact pointsAt_missing rfl

/-- A reference that is new to the chain of references is reported at its place: aliases end at
once, and the first part of a path is no path. -/
theorem pointsAt_resolveAfter (hg : registry.Grounded) {chain : List String} {reference : String}
    {byName : Bool} (hn : reference ∉ chain) (hc : isPath reference = true → chain = []) :
    PointsAt position (registry.resolveAfter chain reference position byName) := by
  fun_induction resolveAfter registry chain reference position byName with
  | case1 _ _ _ _ hm => exact absurd hm hn
  | case2 => exact pointsAt_resolveRelative _
  | case3 _ _ _ _ _ _ entry => exact pointsAt_found entry
  | case4 _ _ _ _ _ _ _ _ _ entry => exact pointsAt_found entry
  | case5 chain reference position byName _ _ _ target ha ht =>
    have hs := hg _ _ ha
    rw [ht] at hs
    cases hs
  | case6 chain reference position byName _ _ _ ha hpath ih =>
    cases hc hpath
    have hfirst : PointsAt none
        (registry.resolveAfter ([] ++ [reference]) (firstPart reference) none true) := by
      refine ih ?_ ?_
      · intro hm
        have he := List.mem_singleton.mp hm
        rw [← he, isPath_firstPart] at hpath
        cases hpath
      · intro hp
        rw [isPath_firstPart] at hp
        cases hp
    refine PointsAt.bind ?_ ?_
    · intro diagnostic hm
      rw [hfirst.nothing] at hm
      cases hm
    · split
      · exact pointsAt_followPath _ _ _
      · exact pointsAt_missing rfl
  | case7 _ _ _ _ _ _ _ _ _ entry => exact pointsAt_found entry
  | case8 => exact pointsAt_missing rfl

/-- Whatever is wrong with a reference is reported at its place. -/
theorem points_resolve (hg : registry.Grounded) (hp : Marked spots position) (reference : String)
    (byName : Bool) (wanted : ElementClass) :
    (registry.resolve reference position byName wanted).Points spots := by
  unfold resolve
  refine .bind ((pointsAt_resolveAfter hg List.not_mem_nil fun _ => rfl).points hp) ?_
  split
  · split
    · exact .pure _
    · exact PointsAt.points (pointsAt_missing rfl) hp
  · exact .pure _

end Registry

namespace Build

open Declared (Traced)

/-! ## Elements -/

/-- What waits has one of some places, and aliases stand for registered elements. -/
structure Draft.Anchored (spots : Position → Prop) (draft : Draft) : Prop where
  /-- The places of waiting relationships. -/
  relationships : ∀ waiting ∈ draft.relationships, Marked spots waiting.declared.position
  /-- The places of waiting instances. -/
  instances : ∀ waiting ∈ draft.instances, Marked spots waiting.declared.position
  /-- The places of the relationships of waiting instances. -/
  hosted : ∀ waiting ∈ draft.instances, Traced spots waiting.relationships
  /-- Aliases stand for registered elements. -/
  grounded : draft.registry.Grounded

namespace Draft

variable {draft : Draft}

/-- Nothing waits in the draft of nothing. -/
theorem anchored_empty : Draft.Anchored spots {} :=
  ⟨List.forall_mem_nil _, List.forall_mem_nil _, List.forall_mem_nil _, Registry.grounded_empty⟩

/-- One more element changes nothing that waits. -/
theorem Anchored.add (h : draft.Anchored spots) (element : Resolved.Element) :
    (draft.add element).Anchored spots :=
  ⟨h.relationships, h.instances, h.hosted, h.grounded.register element.entry⟩

/-- More relationships with their places wait. -/
theorem Anchored.await (h : draft.Anchored spots) {relationships : List Declared.Relationship}
    (ht : Traced spots relationships) (context : Option String) :
    (draft.await relationships context).Anchored spots := by
  refine ⟨List.forall_mem_append.mpr ⟨h.relationships, ?_⟩, h.instances, h.hosted, h.grounded⟩
  exact List.forall_mem_map.mpr ht

/-- A plain element joins with its relationships, and perhaps with an alias of its own. -/
theorem Anchored.addPlain (h : draft.Anchored spots) (place : Place) (sort : Declared.PlainSort)
    (details : Declared.Details) {relationships : List Declared.Relationship}
    (ht : Traced spots relationships) :
    (draft.addPlain place sort details relationships).Anchored spots := by
  have ha := h.add (place.element sort details
    (place.fullId (localId details.identifier details.name)))
  unfold Draft.addPlain
  dsimp only
  refine Anchored.await ?_ ht _
  split
  · split
    · refine ⟨ha.relationships, ha.instances, ha.hosted, ha.grounded.registerAlias ?_ _⟩
      have hi : (place.element sort details
          (place.fullId (localId details.identifier details.name))).entry.id =
          place.fullId (localId details.identifier details.name) := rfl
      unfold Draft.add
      rw [Registry.get?_register, if_pos hi]
      rfl
    · exact ha
  · exact ha

end Draft

mutual

/-- Registering an element reports at places of declarations only. -/
theorem registerElement_points (place : Place) {draft : Draft} (h : draft.Anchored spots) :
    ∀ {element : Declared.Element} {hosted : Bool}, element.Located spots hosted →
      (registerElement place draft element).Points spots ∧
        (registerElement place draft element).value.Anchored spots
  | .plain sort details relationships members, _, ⟨hp, ht, hm⟩ => by
    rw [registerElement]
    split
    · exact ⟨.bind (Reported.points_report hp rfl) (.pure _), h⟩
    · exact registerMembers_points _ (h.addPlain place sort details ht) hm
  | .environment heading relationships members, _, ⟨hp, ht, hm⟩ => by
    rw [registerElement]
    dsimp only
    split
    · exact ⟨.bind (Reported.points_report hp rfl) (.pure _), h⟩
    · obtain ⟨hi, ha⟩ := registerMembers_points
        (place.insideEnvironment (localId heading.identifier heading.name) heading.name)
        (h.add { id := localId heading.identifier heading.name, name := heading.name,
                 parent := place.parent, sort := .deploymentEnvironment }) hm
      exact ⟨.bind hi (.pure _), ha.await ht _⟩
  | .deployed deployment relationships, _, ⟨_, hp, ht⟩ => by
    rw [registerElement]
    split
    · refine ⟨.pure _, h.relationships, ?_, ?_, h.grounded⟩
      · exact List.forall_mem_append.mpr ⟨h.instances, List.forall_mem_singleton.mpr hp⟩
      · exact List.forall_mem_append.mpr ⟨h.hosted, List.forall_mem_singleton.mpr ht⟩
    · exact ⟨.pure _, h⟩

/-- Registering elements one after the other reports at places of declarations only. -/
theorem registerMembers_points (place : Place) {draft : Draft} (h : draft.Anchored spots) :
    ∀ {members : List Declared.Element} {hosted : Bool},
      Declared.Element.AllLocated spots hosted members →
      (registerMembers place draft members).Points spots ∧
        (registerMembers place draft members).value.Anchored spots
  | [], _, _ => by
    rw [registerMembers]
    exact ⟨.pure _, h⟩
  | member :: members, _, ⟨hm, hms⟩ => by
    rw [registerMembers]
    obtain ⟨hp, ha⟩ := registerElement_points place h hm
    obtain ⟨hps, has⟩ := registerMembers_points place ha hms
    exact ⟨hp.bind hps, has⟩

end

/-- Registering the elements of an enterprise reports at places of declarations only. -/
theorem registerEnterprise_points (place : Place) {draft : Draft} (h : draft.Anchored spots)
    {enterprise : Option Declared.Enterprise}
    (he : ∀ declared, enterprise = some declared → declared.Located spots) :
    (registerEnterprise place draft enterprise).Points spots ∧
      (registerEnterprise place draft enterprise).value.Anchored spots := by
  unfold registerEnterprise
  split
  · rename_i declared
    have hl := he declared rfl
    obtain ⟨hp, ha⟩ := registerMembers_points place h hl.members
    exact ⟨hp.bind (.pure _), ha.await hl.relationships _⟩
  · exact ⟨.pure _, h⟩

/-- Some of the members of a model have their places. -/
theorem allLocated_filter {members : List Declared.Element} {hosted : Bool}
    (h : Declared.Element.AllLocated spots hosted members) (wanted : Declared.Element → Bool) :
    Declared.Element.AllLocated spots hosted (members.filter wanted) := by
  rw [Declared.Element.allLocated_iff] at h ⊢
  exact fun member hm => h member (List.mem_filter.mp hm).1

/-- Registering the elements of a model reports at places of declarations only. -/
theorem registerModel_points (hierarchical : Bool) {draft : Draft} (h : draft.Anchored spots)
    {model : Declared.Model} (hl : model.Located spots) :
    (registerModel hierarchical draft model).Points spots ∧
      (registerModel hierarchical draft model).value.Anchored spots := by
  unfold registerModel
  dsimp only
  obtain ⟨hm, h₁⟩ := registerMembers_points { hierarchical } h
    (allLocated_filter hl.members fun member => decide (member.rankInModel ≠ 4))
  obtain ⟨he, h₂⟩ := registerEnterprise_points { hierarchical } h₁ hl.enterprise
  obtain ⟨hv, h₃⟩ := registerMembers_points { hierarchical } h₂
    (allLocated_filter hl.members fun member => decide (member.rankInModel = 4))
  exact ⟨hm.bind (he.bind (hv.bind (.pure _))), h₃.await hl.relationships _⟩

/-! ## Instances and relationships -/

/-- Registering an instance reports at its place only. -/
theorem registerInstance_points {draft : Draft} (h : draft.Anchored spots)
    {waiting : WaitingInstance} (hp : Marked spots waiting.declared.position)
    (ht : Traced spots waiting.relationships) :
    (registerInstance draft waiting).Points spots ∧
      (registerInstance draft waiting).value.Anchored spots := by
  have hr := Registry.points_resolve h.grounded hp waiting.declared.reference true
    (instanceTarget waiting.declared.instanceOf)
  unfold registerInstance
  dsimp only
  rw [Reported.bind_value]
  split
  · rename_i hv
    refine ⟨hr.bind ?_, h⟩
    rw [hv]
    exact .pure _
  · rename_i target hv
    have ho : Draft.Anchored spots { draft with targets := draft.targets ++ [target.id] } :=
      ⟨h.relationships, h.instances, h.hosted, h.grounded⟩
    split
    · rename_i hk
      refine ⟨hr.bind ?_, ho⟩
      rw [hv]
      dsimp only
      rw [if_pos hk]
      exact .bind (Reported.points_report hp rfl) (.pure _)
    · rename_i hk
      refine ⟨hr.bind ?_, (ho.add _).await ht _⟩
      rw [hv]
      dsimp only
      rw [if_neg hk]
      exact .pure _

/-- Registering instances one after the other reports at their places only. -/
theorem registerInstances_points {draft : Draft} (h : draft.Anchored spots)
    {queue : List WaitingInstance}
    (hp : ∀ waiting ∈ queue, Marked spots waiting.declared.position)
    (ht : ∀ waiting ∈ queue, Traced spots waiting.relationships) :
    (registerInstances draft queue).Points spots ∧
      (registerInstances draft queue).value.Anchored spots := by
  induction queue generalizing draft with
  | nil =>
    rw [registerInstances]
    exact ⟨.pure _, h⟩
  | cons waiting queue ih =>
    rw [registerInstances]
    rw [List.forall_mem_cons] at hp ht
    obtain ⟨hw, ha⟩ := registerInstance_points h hp.1 ht.1
    obtain ⟨hq, hb⟩ := ih ha hp.2 ht.2
    exact ⟨hw.bind hq, hb⟩

/-- Registering what is declared before the instances reports at places of declarations only. -/
theorem registerDeclared_points (hierarchical : Bool) {declared : Declared.Workspace}
    (h : declared.Located spots) :
    (registerDeclared hierarchical declared.model).Points spots ∧
      (registerDeclared hierarchical declared.model).value.Anchored spots := by
  unfold registerDeclared
  split
  · rename_i model hm
    exact registerModel_points _ Draft.anchored_empty (h.model model hm)
  · exact ⟨.pure _, Draft.anchored_empty⟩

/-- Registering all elements of a workspace reports at places of declarations only. -/
theorem registerAll_points {declared : Declared.Workspace} (h : declared.Located spots) :
    (registerAll declared).Points spots ∧ (registerAll declared).value.Anchored spots := by
  have hd := registerDeclared_points (isHierarchical declared) h
  unfold registerAll
  obtain ⟨hi, ha⟩ := registerInstances_points hd.2 hd.2.instances hd.2.hosted
  exact ⟨hd.1.bind hi, ha⟩

/-- Resolving a relationship reports at its place only. -/
theorem resolveRelationship_points {registry : Registry} (hg : registry.Grounded)
    (known : List Resolved.Relationship) {waiting : WaitingRelationship}
    (hp : Marked spots waiting.declared.position) :
    (resolveRelationship registry known waiting).Points spots := by
  unfold resolveRelationship
  dsimp only
  have hc := hg.withContext waiting.context
  refine .bind (Registry.points_resolve hc hp _ _ _)
    (.bind (Registry.points_resolve hc hp _ _ _) ?_)
  split
  · split
    · split
      · exact .bind (Reported.points_report hp rfl) (.pure _)
      · exact .pure _
    · exact .pure _
  · exact .pure _

/-- Resolving relationships one after the other reports at their places only. -/
theorem resolveRelationships_points {registry : Registry} (hg : registry.Grounded)
    (known : List Resolved.Relationship) {queue : List WaitingRelationship}
    (hp : ∀ waiting ∈ queue, Marked spots waiting.declared.position) :
    (resolveRelationships registry known queue).Points spots := by
  induction queue generalizing known with
  | nil => exact .pure _
  | cons waiting queue ih =>
    rw [resolveRelationships]
    rw [List.forall_mem_cons] at hp
    exact (resolveRelationship_points hg known hp.1).bind (ih _ hp.2)

/-- Building the model reports at places of declarations only. -/
theorem buildModel_points (declared : Declared.Workspace) {draft : Draft}
    (h : draft.Anchored spots) (implied : Bool) :
    (buildModel declared draft implied).Points spots := by
  unfold buildModel
  exact (resolveRelationships_points h.grounded [] h.relationships).bind (.pure _)

/-! ## Views -/

variable {registry : Registry}

/-- Checking the ends of an expression reports at its place only. -/
theorem checkEnds_points (hg : registry.Grounded) {position : Option Position}
    (hp : Marked spots position) (names : List String) :
    (checkEnds registry position names).Points spots := by
  induction names with
  | nil => exact .pure _
  | cons name names ih =>
    rw [checkEnds]
    exact (Registry.points_resolve hg hp name _ _).bind ih

/-- Resolving an identifier reports at the place of its reference only. -/
theorem resolveId_points (hg : registry.Grounded) {position : Option Position}
    (hp : Marked spots position) (reference : String) :
    (resolveId registry position reference).Points spots := by
  unfold resolveId
  exact (Registry.points_resolve hg hp reference _ _).bind (.pure _)

/-- Binding a selection reports at its place only. -/
theorem bindSelection_points (hg : registry.Grounded) {selection : Declared.Selection}
    (hp : Marked spots selection.position) : (bindSelection registry selection).Points spots := by
  unfold bindSelection
  split
  · exact (checkEnds_points hg hp _).bind (.pure _)
  · exact (resolveId_points hg hp _).bind (.pure _)

/-- Binding what a view includes reports at places of selections only. -/
theorem bindIncludes_points (hg : registry.Grounded) (view : Resolved.View)
    {selections : List Declared.Selection}
    (hp : ∀ selection ∈ selections, Marked spots selection.position) :
    (bindIncludes registry view selections).Points spots := by
  induction selections generalizing view with
  | nil => exact .pure _
  | cons selection selections ih =>
    rw [List.forall_mem_cons] at hp
    rw [bindIncludes]
    split
    · exact ih _ hp.2
    · refine (bindSelection_points hg hp.1).bind ?_
      split <;> exact ih _ hp.2

/-- Binding what a view excludes reports at places of selections only. -/
theorem bindExcludes_points (hg : registry.Grounded) (view : Resolved.View)
    {selections : List Declared.Selection}
    (hp : ∀ selection ∈ selections, Marked spots selection.position) :
    (bindExcludes registry view selections).Points spots := by
  induction selections generalizing view with
  | nil => exact .pure _
  | cons selection selections ih =>
    rw [List.forall_mem_cons] at hp
    rw [bindExcludes]
    refine (bindSelection_points hg hp.1).bind ?_
    split <;> exact ih _ hp.2

/-- Binding the steps of an animation reports at its place only. -/
theorem bindSteps_points (hg : registry.Grounded) {position : Option Position}
    (hp : Marked spots position) (steps : List (List String)) :
    (bindSteps registry position steps).Points spots := by
  induction steps with
  | nil => exact .pure _
  | cons step steps ih =>
    rw [bindSteps]
    exact (Reported.points_collect (resolveId_points hg hp) step).bind (ih.bind (.pure _))

/-- Binding animations reports at their places only. -/
theorem bindAnimations_points (hg : registry.Grounded) {animations : List Declared.Animation}
    (hp : ∀ animation ∈ animations, Marked spots animation.position) :
    (bindAnimations registry animations).Points spots := by
  induction animations with
  | nil => exact .pure _
  | cons animation animations ih =>
    rw [List.forall_mem_cons] at hp
    rw [bindAnimations]
    exact (bindSteps_points hg hp.1 _).bind ((ih hp.2).bind (.pure _))

/-- Binding interactions reports at their places only. -/
theorem bindInteractions_points (hg : registry.Grounded) (known : List Resolved.Interaction)
    {steps : List Declared.Relationship} (ht : Traced spots steps) :
    (bindInteractions registry known steps).Points spots := by
  induction steps generalizing known with
  | nil => exact .pure _
  | cons step steps ih =>
    obtain ⟨hp, ht⟩ := List.forall_mem_cons.mp ht
    rw [bindInteractions]
    refine (Registry.points_resolve hg hp _ _ _).bind
      ((Registry.points_resolve hg hp _ _ _).bind ?_)
    split <;> exact ih _ ht

/-- Binding what all views have reports at places of the view only. -/
theorem bindDetails_points (hg : registry.Grounded) (known : List Resolved.View)
    {details : Declared.ViewDetails} (hd : details.Located spots) (kind : Resolved.ViewKind)
    (scope : Option String) : (bindDetails registry known details kind scope).Points spots := by
  unfold bindDetails
  dsimp only
  split
  · exact .bind (Reported.points_report hd.position rfl) (.pure _)
  · exact (bindIncludes_points hg _ hd.includes).bind ((bindExcludes_points hg _ hd.excludes).bind
      ((bindAnimations_points hg hd.animations).bind (.pure _)))

/-- Binding a view about an element reports at places of the view only. -/
theorem bindScoped_points (hg : registry.Grounded) (known : List Resolved.View)
    {details : Declared.ViewDetails} (hd : details.Located spots) (kind : Resolved.ViewKind)
    (reference : String) (wanted : ElementClass) :
    (bindScoped registry known details kind reference wanted).Points spots := by
  unfold bindScoped
  refine (Registry.points_resolve hg hd.position _ _ _).bind ?_
  split
  · exact bindDetails_points hg known hd kind _
  · exact .pure _

/-- Resolving the scope of a dynamic view reports at the place of the view only. -/
theorem dynamicScope_points (hg : registry.Grounded) {details : Declared.ViewDetails}
    (hd : details.Located spots) (reference : String) :
    (dynamicScope registry details reference).Points spots := by
  unfold dynamicScope
  refine (Registry.points_resolve hg hd.position _ _ _).bind ?_
  split
  · split
    · exact .pure _
    · exact .bind (Reported.points_report hd.position rfl) (.pure _)
  · exact .pure _

/-- Resolving a scope that may be everything reports what resolving a reference does. -/
theorem openScope_points {resolve : String → Reported (Option Entry)}
    (hr : ∀ reference, (resolve reference).Points spots) (reference : String) :
    (openScope resolve reference).Points spots := by
  unfold openScope
  split
  · exact .pure _
  · refine (hr reference).bind ?_
    split <;> exact .pure _

/-- Resolving the scope of a deployment view reports at the place of the view only. -/
theorem deploymentScope_points (hg : registry.Grounded) {details : Declared.ViewDetails}
    (hd : details.Located spots) (system : Option String) :
    (deploymentScope registry details system).Points spots := by
  unfold deploymentScope
  split
  · exact (Registry.points_resolve hg hd.position _ _ _).bind (.pure _)
  · exact .pure _

/-- Binding a view reports at places of the view only. -/
theorem bindView_points (hg : registry.Grounded) (known : List Resolved.View)
    {declared : Declared.View} (hl : declared.Located spots) :
    (bindView registry known declared).Points spots := by
  have hd := hl.details
  unfold bindView
  dsimp only
  split
  · exact bindDetails_points hg known hd _ _
  · exact bindScoped_points hg known hd _ _ _
  · exact bindScoped_points hg known hd _ _ _
  · exact bindScoped_points hg known hd _ _ _
  · rename_i scope steps hs
    refine (openScope_points (dynamicScope_points hg hd) scope).bind ?_
    split
    · refine (bindDetails_points hg known hd _ _).bind ?_
      split
      · exact (bindInteractions_points hg [] (hl.steps scope steps hs)).bind (.pure _)
      · exact .pure _
    · exact .pure _
  · refine (deploymentScope_points hg hd _).bind ?_
    split
    · refine (Registry.points_resolve hg hd.position _ _ _).bind ?_
      split
      · exact (bindDetails_points hg known hd _ _).bind (.pure _)
      · exact .pure _
    · exact .pure _
  · exact (bindDetails_points hg known hd _ _).bind (.pure _)
  · exact bindDetails_points hg known hd _ _
  · refine (openScope_points (fun reference =>
      Registry.points_resolve hg hd.position reference _ _) _).bind ?_
    split
    · exact (bindDetails_points hg known hd _ _).bind (.pure _)
    · exact .pure _

/-- Binding views one after the other reports at their places only. -/
theorem bindViews_points (hg : registry.Grounded) (known : List Resolved.View)
    {views : List Declared.View} (hl : ∀ view ∈ views, view.Located spots) :
    (bindViews registry known views).Points spots := by
  induction views generalizing known with
  | nil => exact .pure _
  | cons view views ih =>
    rw [List.forall_mem_cons] at hl
    rw [bindViews]
    exact (bindView_points hg known hl.1).bind (ih _ hl.2)

/-- Checking the bases of filtered views reports at their places only. -/
theorem checkBases_points (keys : List String) {views : List Declared.View}
    (hl : ∀ view ∈ views, view.Located spots) : (checkBases keys views).Points spots := by
  induction views with
  | nil => exact .pure _
  | cons view views ih =>
    rw [List.forall_mem_cons] at hl
    rw [checkBases]
    split
    · split
      · exact .bind (Reported.points_report hl.1.details.position rfl) (ih hl.2)
      · exact ih hl.2
    · exact ih hl.2

/-- Binding the views of a workspace reports at their places only. -/
theorem bindDeclared_points (hg : registry.Grounded) {block : Option Declared.Views}
    (hl : ∀ views, block = some views → ∀ view ∈ views.views, view.Located spots) :
    (bindDeclared registry block).Points spots := by
  unfold bindDeclared bindBlock
  split
  · rename_i views
    have hv := hl views rfl
    exact (bindViews_points hg [] hv).bind ((checkBases_points _ hv).bind (.pure _))
  · exact .pure _

/-! ## Workspaces -/

/-- Checking directives reports at their places only. -/
theorem checkDirectives_points {directives : List Declared.Directive}
    (hp : ∀ directive ∈ directives, Marked spots directive.position) :
    (checkDirectives directives).Points spots := by
  induction directives with
  | nil => exact .pure _
  | cons directive directives ih =>
    rw [List.forall_mem_cons] at hp
    rw [checkDirectives]
    split
    · exact .bind (Reported.points_report hp.1 rfl) (ih hp.2)
    · exact ih hp.2

/-- Adding decisions reports at their places only. -/
theorem addDecisions_points (known : List Resolved.Decision)
    {decisions : List Declared.Decision}
    (hp : ∀ decision ∈ decisions, Marked spots decision.position) :
    (addDecisions known decisions).Points spots := by
  induction decisions generalizing known with
  | nil => exact .pure _
  | cons decision decisions ih =>
    rw [List.forall_mem_cons] at hp
    rw [addDecisions]
    split
    · exact .bind (Reported.points_report hp.1 rfl) (ih _ hp.2)
    · exact ih _ hp.2

/-- What is reported while a workspace is built has the place of a declaration, or it is about a
link of a decision. -/
theorem build_points {declared : Declared.Workspace} (h : declared.Located spots)
    (implied : Bool) : ∀ diagnostic ∈ (build declared implied).diagnostics,
      diagnostic.Points spots ∨ ∃ id target, diagnostic =
        .of (.build (.unknownDecision id target)) none := by
  obtain ⟨hr, ha⟩ := registerAll_points h
  intro diagnostic hm
  unfold build buildWith at hm
  simp only [Reported.bind_diagnostics, Reported.bind_value, Reported.pure_diagnostics,
    List.append_nil, List.mem_append] at hm
  rcases hm with hm | hm | hm | hm | hm | hm
  · exact .inl (checkDirectives_points h.directives diagnostic hm)
  · exact .inl (hr diagnostic hm)
  · exact .inl (buildModel_points declared ha implied diagnostic hm)
  · exact .inl (bindDeclared_points ha.grounded h.views diagnostic hm)
  · exact .inl (addDecisions_points [] h.decisions diagnostic hm)
  · obtain ⟨decision, _, hu⟩ := List.mem_flatMap.mp hm
    obtain ⟨target, _, rfl⟩ := List.mem_map.mp hu
    exact .inr ⟨decision.id, target, rfl⟩

end Build

end Blueprint
