import Blueprint.Build.View
import Blueprint.Proofs.Build.Registered

/-!
# Bound views

A view that is bound over the elements of a sound draft refers to elements that are there, is about
an element of a class that fits its kind, and numbers its interactions from one on. Views that are
bound together have distinct keys.
-/

namespace Blueprint.Resolved

/-- Whether views of a kind can be about elements of a class. -/
def ViewKind.CanShow (kind : ViewKind) (shown : ElementClass) : Prop :=
  match kind with
  | .systemContext | .container | .deployment => shown = .softwareSystem
  | .component => shown = .container
  | .dynamic => shown = .softwareSystem ∨ shown = .container
  | _ => True

/-- Everything that a view refers to is there. -/
structure View.Coherent (elements : List Element) (view : View) : Prop where
  /-- A scope is an element of a class that fits the kind of the view. -/
  scope : ∀ id, view.scope = some id →
    ∃ shown, Names elements id shown ∧ view.kind.CanShow shown
  /-- Included elements are there. -/
  included : ∀ id ∈ view.elements, id ∈ elements.map Element.id
  /-- Excluded elements are there. -/
  excluded : ∀ id ∈ view.excluded, id ∈ elements.map Element.id
  /-- The elements that animations reveal are there. -/
  revealed : ∀ step ∈ view.animations, ∀ id ∈ step, id ∈ elements.map Element.id
  /-- Both ends of an interaction are there. -/
  ends : ∀ interaction ∈ view.interactions,
    interaction.source ∈ elements.map Element.id ∧
      interaction.destination ∈ elements.map Element.id
  /-- Interactions are numbered from one on. -/
  orders : view.interactions.map Interaction.order =
    (List.range view.interactions.length).map fun (place : Nat) => (place : Int) + 1
  /-- A deployment environment is there under its name. -/
  environment : ∀ name, view.environment = some name →
    ∃ element ∈ elements, element.name = name ∧ element.kind = .deploymentEnvironment

end Blueprint.Resolved

namespace Blueprint.Build

open Resolved (View ViewKind Interaction Names)

variable {draft : Draft}

/-! ## References -/

/-- An element with a class has its identifier among the identifiers. -/
theorem mem_ids_of_names {id : String} {kind : ElementClass}
    (h : Names draft.elements id kind) : id ∈ draft.ids := by
  obtain ⟨element, hm, rfl, _⟩ := h
  exact List.mem_map_of_mem hm

/-- A resolved reference is the identifier of an element. -/
theorem resolveId_mem (h : draft.Sound) {position : Option Position} {reference id : String}
    (hr : (resolveId draft.registry position reference).value = some id) : id ∈ draft.ids := by
  unfold resolveId at hr
  rw [Reported.bind_value, Reported.pure_value] at hr
  obtain ⟨entry, he, rfl⟩ := Option.map_eq_some_iff.mp hr
  exact mem_ids_of_names (h.names_of_resolve he).1

/-- A selection that is no expression is bound to an element. -/
theorem bindSelection_mem (h : draft.Sound) {selection : Declared.Selection} {id : String}
    (hb : (bindSelection draft.registry selection).value = some (.inr id)) :
    id ∈ draft.ids := by
  unfold bindSelection at hb
  split at hb
  · cases hb
  · rw [Reported.bind_value, Reported.pure_value] at hb
    obtain ⟨found, hf, he⟩ := Option.map_eq_some_iff.mp hb
    cases he
    exact resolveId_mem h hf

/-- What is collected has what each result has. -/
theorem forall_mem_collect {α β : Type} {f : α → Reported (Option β)} {P : β → Prop}
    (hf : ∀ item result, (f item).value = some result → P result) (items : List α) :
    ∀ result ∈ (Reported.collect f items).value, P result := by
  induction items with
  | nil =>
    intro result hm
    cases hm
  | cons item items ih =>
    intro result hm
    rw [Reported.collect] at hm
    rcases List.mem_append.mp hm with hm | hm
    · exact hf item result (Option.mem_toList.mp hm)
    · exact ih result hm

/-! ## Selections, animations and interactions -/

/-- Including something keeps a view coherent. -/
theorem bindIncludes_coherent (h : draft.Sound) {view : View}
    (hv : view.Coherent draft.elements) (selections : List Declared.Selection) :
    (bindIncludes draft.registry view selections).value.Coherent draft.elements := by
  induction selections generalizing view with
  | nil => exact hv
  | cons selection selections ih =>
    rw [bindIncludes]
    split
    · exact ih ⟨hv.1, hv.2, hv.3, hv.4, hv.5, hv.6, hv.7⟩
    · rw [Reported.bind_value]
      split
      · exact ih ⟨hv.1, hv.2, hv.3, hv.4, hv.5, hv.6, hv.7⟩
      · rename_i id hb
        refine ih ⟨hv.1, ?_, hv.3, hv.4, hv.5, hv.6, hv.7⟩
        intro other hm
        rcases List.mem_append.mp hm with hm | hm
        · exact hv.included other hm
        · rw [List.mem_singleton.mp hm]
          exact bindSelection_mem h hb
      · exact ih hv

/-- Excluding something keeps a view coherent. -/
theorem bindExcludes_coherent (h : draft.Sound) {view : View}
    (hv : view.Coherent draft.elements) (selections : List Declared.Selection) :
    (bindExcludes draft.registry view selections).value.Coherent draft.elements := by
  induction selections generalizing view with
  | nil => exact hv
  | cons selection selections ih =>
    rw [bindExcludes, Reported.bind_value]
    split
    · exact ih ⟨hv.1, hv.2, hv.3, hv.4, hv.5, hv.6, hv.7⟩
    · rename_i id hb
      refine ih ⟨hv.1, hv.2, ?_, hv.4, hv.5, hv.6, hv.7⟩
      intro other hm
      rcases List.mem_append.mp hm with hm | hm
      · exact hv.excluded other hm
      · rw [List.mem_singleton.mp hm]
        exact bindSelection_mem h hb
    · exact ih hv

/-- Including something leaves the key as it is. -/
theorem key_bindIncludes (registry : Registry) (view : View)
    (selections : List Declared.Selection) :
    (bindIncludes registry view selections).value.key = view.key := by
  induction selections generalizing view with
  | nil => rfl
  | cons selection selections ih =>
    rw [bindIncludes]
    split
    · exact ih _
    · rw [Reported.bind_value]
      split <;> exact ih _

/-- Excluding something leaves the key as it is. -/
theorem key_bindExcludes (registry : Registry) (view : View)
    (selections : List Declared.Selection) :
    (bindExcludes registry view selections).value.key = view.key := by
  induction selections generalizing view with
  | nil => rfl
  | cons selection selections ih =>
    rw [bindExcludes, Reported.bind_value]
    split <;> exact ih _

/-- The steps of an animation reveal elements that are there. -/
theorem bindSteps_mem (h : draft.Sound) (position : Option Position)
    (steps : List (List String)) :
    ∀ step ∈ (bindSteps draft.registry position steps).value, ∀ id ∈ step, id ∈ draft.ids := by
  induction steps with
  | nil =>
    intro step hm
    cases hm
  | cons first steps ih =>
    intro step hm
    rw [bindSteps] at hm
    rcases List.mem_cons.mp hm with rfl | hm
    · exact forall_mem_collect (fun _ _ hr => resolveId_mem h hr) first
    · exact ih step hm

/-- Animations reveal elements that are there. -/
theorem bindAnimations_mem (h : draft.Sound) (animations : List Declared.Animation) :
    ∀ step ∈ (bindAnimations draft.registry animations).value, ∀ id ∈ step, id ∈ draft.ids := by
  induction animations with
  | nil =>
    intro step hm
    cases hm
  | cons animation animations ih =>
    intro step hm
    rw [bindAnimations] at hm
    rcases List.mem_append.mp hm with hm | hm
    · exact bindSteps_mem h animation.position animation.steps step hm
    · exact ih step hm

/-- Interactions that are numbered from one on, between elements that are there. -/
def Staged (draft : Draft) (interactions : List Interaction) : Prop :=
  (∀ interaction ∈ interactions,
    interaction.source ∈ draft.ids ∧ interaction.destination ∈ draft.ids) ∧
  interactions.map Interaction.order =
    (List.range interactions.length).map fun (place : Nat) => (place : Int) + 1

/-- The next interaction gets the next number. -/
theorem Staged.concat {known : List Interaction} (h : Staged draft known)
    {interaction : Interaction} (hs : interaction.source ∈ draft.ids)
    (hd : interaction.destination ∈ draft.ids) (ho : interaction.order = known.length + 1) :
    Staged draft (known ++ [interaction]) := by
  constructor
  · intro other hm
    rcases List.mem_append.mp hm with hm | hm
    · exact h.1 other hm
    · rw [List.mem_singleton.mp hm]
      exact ⟨hs, hd⟩
  · rw [List.map_append, List.length_append, List.length_singleton, List.range_succ,
      List.map_append, h.2, List.map_singleton, List.map_singleton, ho]

/-- Interactions are bound one after the other. -/
theorem bindInteractions_staged (h : draft.Sound) {known : List Interaction}
    (hk : Staged draft known) (steps : List Declared.Relationship) :
    Staged draft (bindInteractions draft.registry known steps).value := by
  induction steps generalizing known with
  | nil => exact hk
  | cons declared steps ih =>
    rw [bindInteractions, Reported.bind_value, Reported.bind_value]
    split
    · rename_i source destination hs hd
      exact ih (hk.concat (mem_ids_of_names (h.names_of_resolve hs).1)
        (mem_ids_of_names (h.names_of_resolve hd).1) rfl)
    · exact ih hk

/-! ## Views -/

/-- A view that is bound refers to elements that are there, and its key is not taken. -/
def Joins (draft : Draft) (known : List View) (view : View) : Prop :=
  view.Coherent draft.elements ∧ view.key ∉ known.map View.key

/-- A scope that fits the kind of a view. -/
def FitsScope (draft : Draft) (kind : ViewKind) (scope : Option String) : Prop :=
  ∀ id, scope = some id → ∃ shown, Names draft.elements id shown ∧ kind.CanShow shown

/-- A view without a scope fits. -/
theorem fitsScope_none (kind : ViewKind) : FitsScope draft kind none := by
  intro id h
  cases h

/-- What all views have is bound to elements that are there, under a new key. -/
theorem bindDetails_joins (h : draft.Sound) {known : List View}
    {details : Declared.ViewDetails} {kind : ViewKind} {scope : Option String}
    (hs : FitsScope draft kind scope) {view : View}
    (hb : (bindDetails draft.registry known details kind scope).value = some view) :
    Joins draft known view := by
  unfold bindDetails at hb
  dsimp only at hb
  split at hb
  · cases hb
  · rename_i hn
    simp only [Reported.bind_value, Reported.pure_value, Option.some.injEq] at hb
    subst hb
    constructor
    · have he : View.Coherent draft.elements
          { kind, key := (given? details.key).getD (defaultKey kind known),
            title := details.title, description := details.description, scope
            properties := details.properties
            autoLayout := details.autoLayout.map fun layout =>
              ⟨layout.rankDirection, layout.rankSeparation, layout.nodeSeparation⟩ } :=
        ⟨hs, by simp, by simp, by simp, by simp, rfl, by simp⟩
      have hi := bindIncludes_coherent h he details.includes
      have hc := bindExcludes_coherent h hi details.excludes
      exact ⟨hc.1, hc.2, hc.3, bindAnimations_mem h details.animations, hc.5, hc.6, hc.7⟩
    · rwa [key_bindExcludes, key_bindIncludes]

/-- A view about an element of a class refers to elements that are there. -/
theorem bindScoped_joins (h : draft.Sound) {known : List View} {details : Declared.ViewDetails}
    {kind : ViewKind} {reference : String} {wanted : ElementClass}
    (hw : ∀ shown : ElementClass, shown.isA wanted = true → kind.CanShow shown) {view : View}
    (hb : (bindScoped draft.registry known details kind reference wanted).value = some view) :
    Joins draft known view := by
  unfold bindScoped at hb
  rw [Reported.bind_value] at hb
  split at hb
  · rename_i entry hr
    refine bindDetails_joins h ?_ hb
    rintro _ ⟨⟩
    have hn := h.names_of_resolve hr
    exact ⟨entry.kind, hn.1, hw _ hn.2⟩
  · cases hb

/-- The scope of a dynamic view is a software system or a container. -/
theorem dynamicScope_names (h : draft.Sound) {details : Declared.ViewDetails}
    {reference : String} {entry : Entry}
    (hr : (dynamicScope draft.registry details reference).value = some entry) :
    Names draft.elements entry.id entry.kind ∧ ViewKind.CanShow .dynamic entry.kind := by
  unfold dynamicScope at hr
  rw [Reported.bind_value] at hr
  split at hr
  · rename_i found hf
    split at hr
    · rename_i hk
      cases hr
      exact ⟨(h.names_of_resolve hf).1, by simpa [ViewKind.CanShow] using hk⟩
    · cases hr
  · cases hr

/-- A scope that may be everything is an element, or none. -/
theorem openScope_fits {resolve : String → Reported (Option Entry)} {kind : ViewKind}
    {reference : String} {scope : Option String}
    (hr : ∀ entry, (resolve reference).value = some entry →
      Names draft.elements entry.id entry.kind ∧ kind.CanShow entry.kind)
    (ho : (openScope resolve reference).value = some scope) : FitsScope draft kind scope := by
  unfold openScope at ho
  split at ho
  · cases ho
    exact fitsScope_none kind
  · rw [Reported.bind_value] at ho
    split at ho
    · rename_i entry he
      cases ho
      rintro _ ⟨⟩
      exact ⟨entry.kind, hr entry he⟩
    · cases ho

/-- Only software systems are of their class. -/
theorem eq_softwareSystem_of_isA {shown : ElementClass}
    (h : shown.isA .softwareSystem = true) : shown = .softwareSystem := by
  simpa [ElementClass.isA] using h

/-- The scope of a deployment view is a software system, or none. -/
theorem deploymentScope_fits (h : draft.Sound) {details : Declared.ViewDetails}
    {system scope : Option String}
    (hs : (deploymentScope draft.registry details system).value = some scope) :
    FitsScope draft .deployment scope := by
  unfold deploymentScope at hs
  split at hs
  · rw [Reported.bind_value, Reported.pure_value] at hs
    obtain ⟨found, hr, rfl⟩ := Option.map_eq_some_iff.mp hs
    rintro _ ⟨⟩
    have hn := h.names_of_resolve hr
    exact ⟨found.kind, hn.1, eq_softwareSystem_of_isA hn.2⟩
  · cases hs
    exact fitsScope_none _

/-- Only containers are of their class. -/
theorem eq_container_of_isA {shown : ElementClass} (h : shown.isA .container = true) :
    shown = .container := by
  simpa [ElementClass.isA] using h

/-- Only deployment environments are of their class. -/
theorem eq_deploymentEnvironment_of_isA {shown : ElementClass}
    (h : shown.isA .deploymentEnvironment = true) : shown = .deploymentEnvironment := by
  simpa [ElementClass.isA] using h

/-- Every view that is bound refers to elements that are there, under a new key. -/
theorem bindView_joins (h : draft.Sound) {known : List View} {declared : Declared.View}
    {view : View} (hb : (bindView draft.registry known declared).value = some view) :
    Joins draft known view := by
  unfold bindView at hb
  dsimp only at hb
  split at hb
  · exact bindDetails_joins h (fitsScope_none _) hb
  · exact bindScoped_joins h (fun _ => eq_softwareSystem_of_isA) hb
  · exact bindScoped_joins h (fun _ => eq_softwareSystem_of_isA) hb
  · exact bindScoped_joins h (fun _ => eq_container_of_isA) hb
  · rename_i reference steps _
    rw [Reported.bind_value] at hb
    split at hb
    · rename_i scope ho
      rw [Reported.bind_value] at hb
      split at hb
      · rename_i bound hd
        cases hb
        obtain ⟨hc, hk⟩ := bindDetails_joins h
          (openScope_fits (fun _ => dynamicScope_names h) ho) hd
        have hn : Staged draft [] := ⟨by simp, rfl⟩
        have hi := bindInteractions_staged h hn steps
        exact ⟨⟨hc.1, hc.2, hc.3, hc.4, hi.1, hi.2, hc.7⟩, hk⟩
      · cases hb
    · cases hb
  · rename_i system environment _
    rw [Reported.bind_value] at hb
    split at hb
    · rename_i scope hs
      rw [Reported.bind_value] at hb
      split at hb
      · rename_i entry he
        rw [Reported.bind_value, Reported.pure_value] at hb
        obtain ⟨bound, hd, rfl⟩ := Option.map_eq_some_iff.mp hb
        obtain ⟨hc, hk⟩ := bindDetails_joins h (deploymentScope_fits h hs) hd
        refine ⟨⟨hc.1, hc.2, hc.3, hc.4, hc.5, hc.6, ?_⟩, hk⟩
        rintro _ ⟨⟩
        obtain ⟨hm, hi⟩ := Registry.resolve_mem he
        rw [h.all] at hm
        obtain ⟨element, hl, rfl⟩ := List.mem_map.mp hm
        exact ⟨element, hl, rfl, eq_deploymentEnvironment_of_isA hi⟩
      · cases hb
    · cases hb
  · rw [Reported.bind_value, Reported.pure_value] at hb
    obtain ⟨bound, hd, rfl⟩ := Option.map_eq_some_iff.mp hb
    obtain ⟨hc, hk⟩ := bindDetails_joins h (fitsScope_none _) hd
    exact ⟨⟨hc.1, hc.2, hc.3, hc.4, hc.5, hc.6, hc.7⟩, hk⟩
  · exact bindDetails_joins h (fitsScope_none _) hb
  · rw [Reported.bind_value] at hb
    split at hb
    · rename_i scope ho
      rw [Reported.bind_value, Reported.pure_value] at hb
      obtain ⟨bound, hd, rfl⟩ := Option.map_eq_some_iff.mp hb
      have hf : FitsScope draft .image scope :=
        openScope_fits (fun _ hr => ⟨(h.names_of_resolve hr).1, trivial⟩) ho
      obtain ⟨hc, hk⟩ := bindDetails_joins h hf hd
      exact ⟨⟨hc.1, hc.2, hc.3, hc.4, hc.5, hc.6, hc.7⟩, hk⟩
    · cases hb

/-- Views that are bound together refer to elements that are there, and have distinct keys. -/
theorem bindViews_coherent (h : draft.Sound) {known : List View}
    (hc : ∀ view ∈ known, view.Coherent draft.elements) (hn : (known.map View.key).Nodup)
    (declared : List Declared.View) :
    (∀ view ∈ (bindViews draft.registry known declared).value, view.Coherent draft.elements) ∧
      ((bindViews draft.registry known declared).value.map View.key).Nodup := by
  induction declared generalizing known with
  | nil => exact ⟨hc, hn⟩
  | cons first declared ih =>
    rw [bindViews, Reported.bind_value]
    cases hb : (bindView draft.registry known first).value with
    | none =>
      rw [Option.toList_none, List.append_nil]
      exact ih hc hn
    | some view =>
      obtain ⟨hv, hk⟩ := bindView_joins h hb
      refine ih ?_ ?_
      · intro other hm
        rcases List.mem_append.mp hm with hm | hm
        · exact hc other hm
        · rw [List.mem_singleton.mp hm]
          exact hv
      · rw [List.map_append]
        refine List.nodup_append.mpr ⟨hn, List.pairwise_singleton _ _, ?_⟩
        intro key hm other ho he
        rw [Option.toList_some, List.map_singleton, List.mem_singleton] at ho
        exact hk (ho ▸ he ▸ hm)

end Blueprint.Build
