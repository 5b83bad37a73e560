import Blueprint.Proofs.Build.Identified
import Blueprint.Proofs.Build.Judged

/-!
# Which elements are registered under hierarchical identifiers

Under hierarchical identifiers, registering a model judges its sites in order. The elements of the
registered sites join the draft, and each rejected site is reported. A rejected site adds nothing,
and neither does anything in it: the workspace is built as if they were not there.
-/

namespace Blueprint

namespace Reported

variable {α β γ : Type}

/-- A value alone may come after. -/
theorem bind_pure (first : Reported α) : (first >>= pure) = first := by
  show Reported.mk first.value (first.diagnostics ++ []) = first
  rw [List.append_nil]

/-- Three computations come one after the other. -/
theorem bind_assoc (first : Reported α) (next : α → Reported β) (last : β → Reported γ) :
    (first >>= next >>= last) = first >>= fun value => next value >>= last := by
  show Reported.mk _ (first.diagnostics ++ _ ++ _) = Reported.mk _ (first.diagnostics ++ (_ ++ _))
  rw [List.append_assoc]
  rfl

end Reported

namespace Resolved

/-- An element is the one that the declaration at a site makes. -/
structure Element.MadeAt (element : Element) (site : Declared.Site) : Prop where
  /-- The identifier is that of the site. -/
  id : element.id = site.id
  /-- The parent has the identifiers above the site, if there is a declaration around it. -/
  parent : element.parent =
    site.surroundings.outer.map fun _ => ".".intercalate site.surroundings.above
  /-- The element is what the declaration says. -/
  stands : element.Stands site.node

end Resolved

namespace Build

open Declared (Site Surroundings)
open Resolved (Element.MadeAt)

variable {judged more : Judgement} {site : Site} {fate : Fate} {surroundings : Surroundings}

/-! ## Registering sites -/

/-- The problem that is reported where a site is rejected. -/
def rejection (site : Site) : Diagnostic :=
  .of (.build (.duplicateElement site.id)) site.node.position

/-- The elements of a draft are those of the sites that are registered so far. -/
structure Accounts (draft : Draft) (judged : Judgement) : Prop where
  /-- The sites have the fates that follow. -/
  verdicts : Judged judged
  /-- The elements are made at the registered sites. -/
  elements : List.Forall₂ Element.MadeAt draft.elements (sitesOf .registered judged)
  /-- The registry has the identifiers of the elements. -/
  keys : draft.registry.elements.keys = draft.ids

/-- A place is what surroundings make it under hierarchical identifiers. -/
structure Place.Amid (place : Place) (surroundings : Surroundings) (judged : Judgement) :
    Prop where
  /-- Identifiers are hierarchical. -/
  hierarchical : place.hierarchical = true
  /-- All declarations around are registered. -/
  around : ∀ outer ∈ surroundings.around, IsRegistered judged outer
  /-- The nearest one that is no group has the identifiers above. -/
  under : IsUnder judged surroundings
  /-- Its identifier is that of the element around. -/
  parent : place.parent = surroundings.outer.map fun _ => ".".intercalate surroundings.above

variable {draft : Draft} {place : Place}

/-- The identifiers of a draft are those of the registered sites. -/
theorem Accounts.ids_eq (h : Accounts draft judged) : draft.ids = takenIds judged := by
  unfold Draft.ids takenIds
  have he := h.elements
  have hm : List.Forall₂ (· = ·) (draft.elements.map Resolved.Element.id)
      ((sitesOf .registered judged).map Site.id) :=
    List.forall₂_map_left_iff.mpr (List.forall₂_map_right_iff.mpr (he.imp fun _ _ hs => hs.id))
  rwa [List.forall₂_eq_eq_eq] at hm

/-- An identifier is taken if it is that of a registered site. -/
theorem Accounts.isTaken_iff (h : Accounts draft judged) (id : String) :
    draft.isTaken id = true ↔ id ∈ takenIds judged := by
  rw [← h.ids_eq, ← h.keys, ← not_iff_not]
  unfold Draft.isTaken Registry.get?
  rw [Bool.not_eq_true, Option.isSome_eq_false_iff, Option.isNone_iff_eq_none,
    OrderedMap.get?_eq_none_iff]

/-- An element joins the draft with its site. -/
theorem Accounts.add (h : Accounts draft judged) {later : Draft} {element : Resolved.Element}
    (he : later.elements = draft.elements ++ [element])
    (hr : later.registry.elements = (draft.add element).registry.elements)
    (hm : element.MadeAt site) (hv : Verdict judged site .registered) :
    Accounts later (judged ++ [(site, .registered)]) where
  verdicts := h.verdicts.concat hv
  elements := by
    rw [he, sitesOf_append, sitesOf_singleton]
    exact List.rel_append h.elements (.cons hm .nil)
  keys := by
    have hn : draft.registry.get? element.entry.id = none := by
      refine Draft.get?_of_not_isTaken fun ht => ?_
      cases hv with
      | registered _ _ hn => exact hn (hm.id ▸ (h.isTaken_iff _).mp ht)
    have hentries : later.registry.elements.entries =
        draft.registry.elements.entries ++ [(element.id, element.entry)] := by
      rw [hr]
      exact Registry.entries_register hn
    have hkeys := h.keys
    unfold OrderedMap.keys Draft.ids at hkeys ⊢
    rw [hentries, he, List.map_append, List.map_append, hkeys]
    rfl

/-- A site that is rejected adds nothing. -/
theorem Accounts.pass (h : Accounts draft judged) (hj : Judged (judged ++ more))
    (hn : sitesOf .registered more = []) : Accounts draft (judged ++ more) where
  verdicts := hj
  elements := by
    rw [sitesOf_append, hn, List.append_nil]
    exact h.elements
  keys := h.keys

/-- Accounts look at the registered elements only. -/
theorem Accounts.of_eq {other : Draft} (h : Accounts draft judged)
    (hr : other.registry.elements = draft.registry.elements)
    (he : other.elements = draft.elements) : Accounts other judged where
  verdicts := h.verdicts
  elements := he ▸ h.elements
  keys := by
    rw [hr, Draft.ids, he]
    exact h.keys

namespace Place.Amid

/-- Outside of all declarations. -/
theorem outside (judged : Judgement) : Amid { hierarchical := true } {} judged :=
  ⟨rfl, nofun, rfl, rfl⟩

/-- A place stays as it is when more sites are judged. -/
theorem append (h : place.Amid surroundings judged) (more : Judgement) :
    place.Amid surroundings (judged ++ more) :=
  ⟨h.hierarchical, fun outer hm => (h.around outer hm).append more, h.under.append more, h.parent⟩

/-- The identifier that an element gets at a place is that of the site. -/
theorem fullId_eq (h : place.Amid surroundings judged) (node : Declared.Element) :
    place.fullId node.ownId = Site.id ⟨node, surroundings⟩ := by
  have hu := h.under
  have hp := h.parent
  unfold IsUnder at hu
  unfold Place.fullId Site.id Site.path
  rw [hp, h.hierarchical]
  cases ho : surroundings.outer with
  | none =>
    rw [ho] at hu
    dsimp only at hu ⊢
    rw [hu]
    exact String.intercalate_singleton.symm
  | some outer =>
    rw [ho] at hu
    obtain ⟨site, -, hs⟩ := hu
    have hne : surroundings.above ≠ [] := by
      rw [← hs]
      exact List.append_ne_nil_of_right_ne_nil _ (List.cons_ne_nil _ _)
    dsimp only [Option.map_some]
    rw [String.intercalate_append_of_ne_nil hne (List.cons_ne_nil _ _),
      String.intercalate_singleton]
    rfl

/-- Inside a declaration that is registered. -/
theorem within {inner : Place} (h : place.Amid surroundings judged) (node : Declared.Element)
    (hh : inner.hierarchical = place.hierarchical)
    (hp : inner.parent =
      if node.isGroup then place.parent else some (Site.id ⟨node, surroundings⟩)) :
    inner.Amid (surroundings.within judged.length node)
      (judged ++ [(⟨node, surroundings⟩, .registered)]) := by
  have hnew : (judged ++ [((⟨node, surroundings⟩ : Site), Fate.registered)])[judged.length]? =
      some (⟨node, surroundings⟩, .registered) := List.getElem?_concat_length
  have hold := h.append [(⟨node, surroundings⟩, .registered)]
  refine ⟨hh.trans h.hierarchical, fun outer hm => ?_, ?_, ?_⟩
  · rw [Surroundings.around_within] at hm
    rcases List.mem_append.mp hm with hm | hm
    · exact hold.around outer hm
    · rw [List.mem_singleton.mp hm]
      exact ⟨_, hnew⟩
  · unfold Surroundings.within
    dsimp only
    split
    · exact hold.under
    · exact ⟨_, hnew, rfl⟩
  · rw [hp]
    unfold Surroundings.within
    dsimp only
    split
    · exact h.parent
    · rfl

end Place.Amid

/-! ## Registering elements one after the other -/

/-- Elements that come after others are registered after them. -/
theorem registerMembers_append (place : Place) (draft : Draft)
    (first second : List Declared.Element) :
    registerMembers place draft (first ++ second) =
      registerMembers place draft first >>= fun next => registerMembers place next second := by
  induction first generalizing draft with
  | nil =>
    rw [List.nil_append, registerMembers]
    rfl
  | cons member members ih =>
    rw [List.cons_append, registerMembers, registerMembers, Reported.bind_assoc]
    congr 1
    funext next
    exact ih next

/-- Registering one element alone. -/
theorem registerMembers_singleton (place : Place) (draft : Draft) (element : Declared.Element) :
    registerMembers place draft [element] = registerElement place draft element := by
  rw [registerMembers]
  have hnil : (fun next => registerMembers place next []) = pure := by
    funext next
    rw [registerMembers]
  rw [hnil, Reported.bind_pure]

/-- A choice of places is that of the registered sites. -/
def Chooses (kept : Nat → Bool) (judged : Judgement) : Prop :=
  ∀ place site fate, judged[place]? = some (site, fate) → kept place = decide (fate = .registered)

/-- The registered sites are chosen by their fate. -/
theorem chooses_registeredAt (judged : Judgement) : Chooses (registeredAt judged) judged := by
  intro place site fate hs
  unfold registeredAt
  rw [hs]
  rfl

/-- A choice among sites is one among those that come first. -/
theorem Chooses.before {kept : Nat → Bool} (h : Chooses kept (judged ++ more)) :
    Chooses kept judged :=
  fun place site fate hs => h place site fate (getElem?_append_of_some hs more)

/-- Registering sites after others gives each its fate and reports those that are rejected. The
draft is the one without the sites that are not registered, for which nothing is reported. -/
def Settles (judged : Judgement) (sites : List Site) (result : Reported Draft)
    (cut : (Nat → Bool) → Reported Draft) : Prop :=
  ∃ more : Judgement, more.map Prod.fst = sites ∧ Accounts result.value (judged ++ more) ∧
    result.diagnostics = (sitesOf .rejected more).map rejection ∧
    ∀ kept, Chooses kept (judged ++ more) → cut kept = pure result.value

/-- No sites. -/
theorem settles_nil (h : Accounts draft judged) :
    Settles judged [] (pure draft) fun _ => pure draft :=
  ⟨[], rfl, by rwa [List.append_nil], rfl, fun _ _ => rfl⟩

/-- Sites one after the other. -/
theorem Settles.bind {sites others : List Site} {first : Reported Draft}
    {next : Draft → Reported Draft} {cut : (Nat → Bool) → Reported Draft}
    {rest : (Nat → Bool) → Draft → Reported Draft} (h : Settles judged sites first cut)
    (hn : ∀ more : Judgement, more.length = sites.length → Accounts first.value (judged ++ more) →
      Settles (judged ++ more) others (next first.value) fun kept => rest kept first.value) :
    Settles judged (sites ++ others) (first >>= next) fun kept => cut kept >>= rest kept := by
  obtain ⟨more, hm, ha, hd, hc⟩ := h
  obtain ⟨last, hl, hb, he, hr⟩ := hn more (by rw [← hm, List.length_map]) ha
  refine ⟨more ++ last, ?_, ?_, ?_, fun kept hk => ?_⟩
  · rw [List.map_append, hm, hl]
  · rw [← List.append_assoc]
    exact hb
  · rw [Reported.bind_diagnostics, hd, he, sitesOf_append, List.map_append]
  · rw [← List.append_assoc] at hk
    dsimp only
    rw [hc kept hk.before]
    exact hr kept hk

/-- What leaves the registered elements as they are may come after. -/
theorem Settles.andThen {sites : List Site} {first : Reported Draft} {next : Draft → Draft}
    {cut : (Nat → Bool) → Reported Draft} (h : Settles judged sites first cut)
    (hn : ∀ judged, Accounts first.value judged → Accounts (next first.value) judged) :
    Settles judged sites (first >>= fun draft => pure (next draft))
      fun kept => cut kept >>= fun draft => pure (next draft) := by
  have hall : Settles judged (sites ++ []) (first >>= fun draft => pure (next draft))
      fun kept => cut kept >>= fun draft => pure (next draft) :=
    h.bind fun _ _ ha => settles_nil (hn _ ha)
  rwa [List.append_nil] at hall

/-- A site whose identifier is taken is rejected with everything in it. -/
theorem settles_rejected (ha : Accounts draft judged) (hp : place.Amid surroundings judged)
    {node : Declared.Element} (ht : draft.isTaken (Site.id ⟨node, surroundings⟩) = true)
    (members : List Declared.Element) {cut : (Nat → Bool) → Reported Draft}
    (hc : ∀ kept : Nat → Bool, kept judged.length = false → cut kept = pure draft) :
    Settles judged
      (⟨node, surroundings⟩ :: Declared.Element.sitesAll
        (surroundings.within judged.length node) (judged.length + 1) members)
      ⟨draft, [rejection ⟨node, surroundings⟩]⟩ cut := by
  -- Everything in the site has it around, so nothing there is looked at.
  generalize hi : Declared.Element.sitesAll (surroundings.within judged.length node)
    (judged.length + 1) members = inner
  have hinner : ∀ other ∈ inner, judged.length ∈ other.surroundings.around := by
    intro other hm
    have hin := Declared.Element.around_sitesAll _ _ members other (hi ▸ hm)
    rw [Surroundings.around_within] at hin
    exact hin (List.mem_append_right _ List.mem_cons_self)
  have hnew : (judged ++ [((⟨node, surroundings⟩ : Site), Fate.rejected)])[judged.length]? =
      some (⟨node, surroundings⟩, .rejected) := List.getElem?_concat_length
  have hone : Judged (judged ++ [(⟨node, surroundings⟩, .rejected)]) :=
    ha.verdicts.concat (.rejected hp.around hp.under ((ha.isTaken_iff _).mp ht))
  have hall := hone.append_unvisited hnew (by decide) hinner
  rw [List.append_assoc] at hall
  refine ⟨[(⟨node, surroundings⟩, .rejected)] ++ inner.map (·, .unvisited), ?_,
    ha.pass hall ?_, ?_, ?_⟩
  · rw [List.map_append, List.map_map]
    exact congrArg _ (List.map_id inner)
  · rw [sitesOf_append, sitesOf_map_of_ne _ (by decide)]
    rfl
  · rw [sitesOf_append, sitesOf_map_of_ne _ (by decide)]
    rfl
  · intro kept hk
    rw [← List.append_assoc] at hk
    exact hc kept (hk.before _ _ _ hnew)

/-- A site that is registered comes before what is in it. -/
theorem settles_registered {inner : List Site} {result : Reported Draft}
    {cut rest : (Nat → Bool) → Reported Draft}
    (h : Settles (judged ++ [(site, .registered)]) inner result rest)
    (hc : ∀ kept : Nat → Bool, kept judged.length = true → cut kept = rest kept) :
    Settles judged (site :: inner) result cut := by
  obtain ⟨more, hm, ha, hd, hr⟩ := h
  have hnew : (judged ++ [(site, Fate.registered)])[judged.length]? = some (site, .registered) :=
    List.getElem?_concat_length
  refine ⟨(site, .registered) :: more, ?_, ?_, ?_, fun kept hk => ?_⟩
  · rw [List.map_cons, hm]
  · rwa [List.append_assoc] at ha
  · rw [hd, ← List.singleton_append, sitesOf_append]
    rfl
  · rw [← List.singleton_append, ← List.append_assoc] at hk
    rw [hc kept (hk.before _ _ _ hnew)]
    exact hr kept hk

/-- Sites at which environments stand outside of all declarations that are no groups. -/
def EnvironmentsOutside (sites : List Site) : Prop :=
  ∀ site ∈ sites, site.node.isEnvironment = true → site.surroundings.outer = none

/-- A plain element whose identifier is new joins the draft at its site. -/
theorem Accounts.addPlain (h : Accounts draft judged) (hp : place.Amid surroundings judged)
    {sort : Declared.PlainSort} {details : Declared.Details}
    {relationships : List Declared.Relationship} {members : List Declared.Element}
    (hn : Site.id ⟨.plain sort details relationships members, surroundings⟩ ∉ takenIds judged) :
    Accounts (draft.addPlain place sort details relationships)
      (judged ++ [(⟨.plain sort details relationships members, surroundings⟩, .registered)]) := by
  have hid := hp.fullId_eq (.plain sort details relationships members)
  refine h.add (Draft.elements_addPlain ..) (Draft.registry_addPlain ..) ⟨?_, ?_, ?_⟩
    (.registered hp.around hp.under hn)
  · exact hid
  · exact hp.parent
  · exact place.renders_element sort details _

/-- A deployment environment whose identifier is new joins the draft at its site. -/
theorem Accounts.addEnvironment (h : Accounts draft judged) (hp : place.Amid surroundings judged)
    {heading : Declared.Environment} {relationships : List Declared.Relationship}
    {members : List Declared.Element}
    (hid : localId heading.identifier heading.name =
      Site.id ⟨.environment heading relationships members, surroundings⟩)
    (hn : Site.id ⟨.environment heading relationships members, surroundings⟩ ∉ takenIds judged) :
    Accounts (draft.add (environmentElement place heading))
      (judged ++ [(⟨.environment heading relationships members, surroundings⟩, .registered)]) :=
  h.add rfl rfl ⟨hid, hp.parent, rfl, rfl⟩ (.registered hp.around hp.under hn)

/-- Where an environment stands outside of all declarations, its own identifier is its site's. -/
theorem Place.Amid.environmentId_eq (h : place.Amid surroundings judged)
    (ho : surroundings.outer = none) (node : Declared.Element) :
    node.ownId = Site.id ⟨node, surroundings⟩ := by
  have hp := h.parent
  rw [ho, Option.map_none] at hp
  rw [← h.fullId_eq node]
  unfold Place.fullId
  rw [hp]

-- The recursion is that of the declarations. It keeps that the draft has the registered sites and
-- that the place is what the surroundings make it; a place only ever gains sites that are judged.
mutual

/-- Registering an element settles its site and those of all elements in it. -/
theorem settles_registerElement {judged : Judgement} {draft : Draft} {place : Place}
    {surroundings : Surroundings} (ha : Accounts draft judged)
    (hp : place.Amid surroundings judged) : ∀ element : Declared.Element,
    EnvironmentsOutside (element.sites surroundings judged.length) →
      Settles judged (element.sites surroundings judged.length)
        (registerElement place draft element)
        fun kept => registerMembers place draft (element.cut kept judged.length)
  | .plain sort details relationships members, ho => by
    have hid : place.fullId (localId details.identifier details.name) =
        Site.id ⟨.plain sort details relationships members, surroundings⟩ :=
      hp.fullId_eq (.plain sort details relationships members)
    rw [Declared.Element.sites] at ho ⊢
    rw [registerElement]
    split
    · rename_i ht
      rw [hid] at ht ⊢
      refine settles_rejected ha hp ht members fun kept hk => ?_
      rw [Declared.Element.cut, if_neg (by rw [hk]; decide), registerMembers]
    · rename_i ht
      have hn : Site.id ⟨.plain sort details relationships members, surroundings⟩ ∉
          takenIds judged := fun hm => ht ((ha.isTaken_iff _).mpr (hid ▸ hm))
      have hadd := ha.addPlain hp hn
      have hwithin : (place.inside sort
          (place.fullId (localId details.identifier details.name))).Amid _ _ :=
        hp.within (.plain sort details relationships members) (by cases sort <;> rfl)
          (by rw [hid]; cases sort <;> rfl)
      have hin := settles_registerMembers hadd hwithin members
      rw [List.length_append, List.length_singleton] at hin
      refine settles_registered (hin fun site hm => ho site (List.mem_cons_of_mem _ hm))
        fun kept hk => ?_
      rw [Declared.Element.cut, if_pos hk, registerMembers_singleton, registerElement, if_neg ht]
  | .environment heading relationships members, ho => by
    rw [Declared.Element.sites] at ho ⊢
    have hid : localId heading.identifier heading.name =
        Site.id ⟨.environment heading relationships members, surroundings⟩ :=
      hp.environmentId_eq (ho _ List.mem_cons_self rfl)
        (.environment heading relationships members)
    rw [registerElement]
    dsimp only
    split
    · rename_i ht
      rw [hid] at ht ⊢
      refine settles_rejected ha hp ht members fun kept hk => ?_
      rw [Declared.Element.cut, if_neg (by rw [hk]; decide), registerMembers]
    · rename_i ht
      have hn : Site.id ⟨.environment heading relationships members, surroundings⟩ ∉
          takenIds judged := fun hm => ht ((ha.isTaken_iff _).mpr (hid ▸ hm))
      have hadd := ha.addEnvironment hp hid hn
      have hwithin : (place.insideEnvironment
          (localId heading.identifier heading.name) heading.name).Amid _ _ :=
        hp.within (.environment heading relationships members) rfl (by rw [hid]; rfl)
      have hin := settles_registerMembers hadd hwithin members
      rw [List.length_append, List.length_singleton] at hin
      have hall := hin fun site hm => ho site (List.mem_cons_of_mem _ hm)
      refine settles_registered (hall.andThen fun _ ha => ha.of_eq rfl rfl) fun kept hk => ?_
      rw [Declared.Element.cut, if_pos hk, registerMembers_singleton, registerElement]
      dsimp only
      rw [if_neg ht]
      rfl
  | .deployed deployment relationships, _ => by
    rw [Declared.Element.sites]
    have hcut : (fun kept => registerMembers place draft
        ((Declared.Element.deployed deployment relationships).cut kept judged.length)) =
        fun _ => registerElement place draft (.deployed deployment relationships) := by
      funext kept
      rw [Declared.Element.cut, registerMembers_singleton]
    rw [hcut, registerElement]
    split
    · exact settles_nil (ha.of_eq rfl rfl)
    · exact settles_nil ha

/-- Registering elements settles their sites and those of all elements in them. -/
theorem settles_registerMembers {judged : Judgement} {draft : Draft} {place : Place}
    {surroundings : Surroundings} (ha : Accounts draft judged)
    (hp : place.Amid surroundings judged) : ∀ members : List Declared.Element,
    EnvironmentsOutside (Declared.Element.sitesAll surroundings judged.length members) →
      Settles judged (Declared.Element.sitesAll surroundings judged.length members)
        (registerMembers place draft members)
        fun kept => registerMembers place draft
          (Declared.Element.cutAll kept judged.length members)
  | [], _ => by
    rw [Declared.Element.sitesAll, registerMembers]
    have hcut : (fun kept => registerMembers place draft
        (Declared.Element.cutAll kept judged.length [])) = fun _ => pure draft := by
      funext kept
      rw [Declared.Element.cutAll, registerMembers]
    rw [hcut]
    exact settles_nil ha
  | member :: members, ho => by
    rw [Declared.Element.sitesAll] at ho ⊢
    rw [registerMembers]
    have hcut : (fun kept => registerMembers place draft
        (Declared.Element.cutAll kept judged.length (member :: members))) =
        fun kept => registerMembers place draft (member.cut kept judged.length) >>= fun next =>
          registerMembers place next
            (Declared.Element.cutAll kept (judged.length + member.size) members) := by
      funext kept
      rw [Declared.Element.cutAll, registerMembers_append]
    rw [hcut]
    have hfirst := settles_registerElement ha hp member fun site hm =>
      ho site (List.mem_append_left _ hm)
    refine hfirst.bind fun more hm hmore => ?_
    have hrest := settles_registerMembers hmore (hp.append more) members
    rw [List.length_append, hm, Declared.Element.length_sites] at hrest
    exact hrest fun site hm => ho site (List.mem_append_right _ hm)

end

/-! ## Models and workspaces -/

/-- Nothing is accounted for by nothing. -/
theorem accounts_empty : Accounts {} [] where
  verdicts := by
    intro before site fate after he
    cases before <;> cases he
  elements := .nil
  keys := rfl

/-- Registering an enterprise settles the sites of its members. -/
theorem settles_registerEnterprise (ha : Accounts draft judged) (model : Declared.Model)
    (ho : EnvironmentsOutside (Declared.Element.sitesAll {} judged.length model.insiders)) :
    Settles judged (Declared.Element.sitesAll {} judged.length model.insiders)
      (registerEnterprise { hierarchical := true } draft model.enterprise)
      fun kept => registerEnterprise { hierarchical := true } draft
        (model.enterprise.map fun enterprise =>
          { enterprise with
            members := Declared.Element.cutAll kept judged.length enterprise.members }) := by
  unfold Declared.Model.insiders at ho ⊢
  cases he : model.enterprise with
  | none =>
    show Settles judged (Declared.Element.sitesAll {} judged.length []) (pure draft)
      fun _ => pure draft
    rw [Declared.Element.sitesAll]
    exact settles_nil ha
  | some enterprise =>
    rw [he] at ho
    have hin := settles_registerMembers ha (.outside judged) enterprise.members ho
    exact hin.andThen fun _ ha => ha.of_eq rfl rfl

/-- Registering a model settles all its sites. -/
theorem settles_registerModel (model : Declared.Model) (ho : EnvironmentsOutside model.sites) :
    Settles [] model.sites (registerModel true {} model)
      fun kept => registerModel true {} (model.cut kept) := by
  have hcut : (fun kept => registerModel true {} (model.cut kept)) = fun kept =>
      registerMembers { hierarchical := true } {}
        (Declared.Element.cutAll kept 0 model.elements) >>= fun draft =>
      registerEnterprise { hierarchical := true } draft (model.cut kept).enterprise >>= fun draft =>
      registerMembers { hierarchical := true } draft (Declared.Element.cutAll kept
        (Declared.Element.sizeAll model.elements + Declared.Element.sizeAll model.insiders)
        model.environments) >>= fun draft => pure (draft.await model.relationships none) := by
    -- Members are sorted by rank again, which a cut leaves as it is.
    funext kept
    unfold registerModel
    rw [model.elements_cut, model.environments_cut]
    rfl
  rw [hcut]
  unfold Declared.Model.sites at ho ⊢
  rw [List.append_assoc] at ho ⊢
  have helements := settles_registerMembers accounts_empty (.outside []) model.elements
    fun site hm => ho site (List.mem_append_left _ hm)
  refine helements.bind fun more hm ha => ?_
  rw [Declared.Element.length_sitesAll] at hm
  rw [List.nil_append] at ha ⊢
  have henterprise := settles_registerEnterprise ha model
  rw [hm] at henterprise
  refine (henterprise fun site hs =>
    ho site (List.mem_append_right _ (List.mem_append_left _ hs))).bind fun others hn hb => ?_
  rw [Declared.Element.length_sitesAll] at hn
  have henvironments := settles_registerMembers hb (.outside _) model.environments
  rw [List.length_append, hm, hn] at henvironments
  exact (henvironments fun site hs =>
    ho site (List.mem_append_right _ (List.mem_append_right _ hs))).andThen
      fun _ ha => ha.of_eq rfl rfl

/-- Registering the model of a workspace settles its sites. -/
theorem settles_registerDeclared (declared : Declared.Workspace)
    (ho : EnvironmentsOutside declared.sites) :
    Settles [] declared.sites (registerDeclared true declared.model)
      fun kept => registerDeclared true (declared.cut kept).model := by
  unfold Declared.Workspace.sites at ho ⊢
  unfold Declared.Workspace.cut
  cases hm : declared.model with
  | none => exact settles_nil accounts_empty
  | some model =>
    rw [hm] at ho
    exact settles_registerModel model ho

/-- What is built of a workspace when its elements are registered. -/
def buildFrom (declared : Declared.Workspace) (implied : Bool) (draft : Draft) :
    Reported Resolved.Workspace := do
  let draft ← registerInstances draft draft.instances
  let model ← buildModel declared draft implied
  let views ← bindDeclared draft.registry declared.views
  let decisions ← addDecisions [] declared.decisions
  checkLinks decisions
  return {
    name := declared.name
    description := declared.description
    model
    views
    documentation := declared.documentation.map makeDocumentation
    decisions
    properties := declared.properties
    configuration := declared.configuration }

/-- A workspace is built from its directives, its elements, and all else. -/
theorem build_eq (declared : Declared.Workspace) (implied : Bool) :
    build declared implied = checkDirectives declared.directives >>= fun _ =>
      registerDeclared (isHierarchical declared) declared.model >>= buildFrom declared implied := by
  unfold build buildWith registerAll buildFrom
  simp only [Reported.bind_assoc]
  rfl

/-- All else does not depend on the sites that are kept. -/
theorem buildFrom_cut (declared : Declared.Workspace) (implied : Bool) (kept : Nat → Bool) :
    buildFrom (declared.cut kept) implied = buildFrom declared implied := by
  have hname : ((declared.cut kept).model.bind fun model =>
        model.enterprise.map Declared.Enterprise.name) =
      declared.model.bind fun model => model.enterprise.map Declared.Enterprise.name := by
    unfold Declared.Workspace.cut Declared.Model.cut
    cases declared.model with
    | none => rfl
    | some model =>
      show (model.enterprise.map _).map Declared.Enterprise.name = _
      rw [Option.map_map]
      rfl
  unfold buildFrom buildModel
  rw [hname]
  rfl

/-- An instance joins a draft as the last element, if at all. -/
theorem registerInstance_adds (draft : Draft) (waiting : WaitingInstance) :
    ∃ more, (registerInstance draft waiting).value.elements = draft.elements ++ more ∧
      ∀ element ∈ more, element.sort.target?.isSome = true := by
  unfold registerInstance
  rw [Reported.bind_value]
  split
  · exact ⟨[], (List.append_nil _).symm, nofun⟩
  · dsimp only
    split
    · exact ⟨[], (List.append_nil _).symm, nofun⟩
    · refine ⟨_, rfl, fun element hm => ?_⟩
      rw [List.mem_singleton.mp hm]
      unfold instanceElement
      dsimp only
      split <;> rfl

/-- Instances join a draft after all other elements. -/
theorem registerInstances_adds (draft : Draft) (queue : List WaitingInstance) :
    ∃ more, (registerInstances draft queue).value.elements = draft.elements ++ more ∧
      ∀ element ∈ more, element.sort.target?.isSome = true := by
  induction queue generalizing draft with
  | nil => exact ⟨[], (List.append_nil _).symm, nofun⟩
  | cons waiting queue ih =>
    rw [registerInstances, Reported.bind_value]
    obtain ⟨first, hf, hft⟩ := registerInstance_adds draft waiting
    obtain ⟨others, ho, hot⟩ := ih (registerInstance draft waiting).value
    refine ⟨first ++ others, by rw [ho, hf, List.append_assoc], fun element hm => ?_⟩
    rcases List.mem_append.mp hm with hm | hm
    · exact hft element hm
    · exact hot element hm

/-- Under hierarchical identifiers, let own identifiers have no points, and environments stand
outside of all other declarations. Then an element is looked at exactly if all declarations around
it are registered. It is rejected exactly if something that was looked at before has the nearest
declaration and the own identifier in common with it, and else it is registered under the path of
own identifiers. The elements that are built are those of the registered sites in order, and then
the instances. Cutting away all that is not registered changes nothing but that the rejections are
no longer reported. -/
theorem build_settles (declared : Declared.Workspace) (implied : Bool)
    (h : isHierarchical declared = true)
    (hd : ∀ site ∈ declared.sites, '.' ∉ site.node.ownId.toList)
    (ho : EnvironmentsOutside declared.sites) :
    ∃ judged : Judgement, judged.map Prod.fst = declared.sites ∧ Settled judged ∧
      ∃ elements instances problems,
        (build declared implied).value.model.elements = elements ++ instances ∧
        List.Forall₂ Element.MadeAt elements (sitesOf .registered judged) ∧
        (∀ element ∈ instances, element.sort.target?.isSome = true) ∧
        (build declared implied).diagnostics = (checkDirectives declared.directives).diagnostics ++
          (sitesOf .rejected judged).map rejection ++ problems ∧
        build (declared.cut (registeredAt judged)) implied =
          ⟨(build declared implied).value,
            (checkDirectives declared.directives).diagnostics ++ problems⟩ := by
  obtain ⟨judged, hs, ha, hr, hc⟩ := settles_registerDeclared declared ho
  rw [List.nil_append] at ha hc
  have hdotless : Dotless judged := fun ruling hm => hd _ (hs ▸ List.mem_map_of_mem hm)
  obtain ⟨instances, hi, ht⟩ := registerInstances_adds (registerDeclared true declared.model).value
    (registerDeclared true declared.model).value.instances
  refine ⟨judged, hs, ha.verdicts.settled hdotless,
    (registerDeclared true declared.model).value.elements, instances,
    (buildFrom declared implied (registerDeclared true declared.model).value).diagnostics,
    ?_, ha.elements, ht, ?_, ?_⟩
  · rw [elements_build, registerAll, Reported.bind_value, h, hi]
  · rw [build_eq, h, Reported.bind_diagnostics, Reported.bind_diagnostics, hr, List.append_assoc]
  · have hcut : isHierarchical (declared.cut (registeredAt judged)) = true := h
    have hmodel : registerDeclared true (declared.cut (registeredAt judged)).model =
        pure (registerDeclared true declared.model).value := hc _ (chooses_registeredAt judged)
    rw [build_eq, hcut, buildFrom_cut, hmodel, build_eq declared, h]
    rfl

/-- A software system holds two containers of one identifier, of which the second has a component,
and a group with a container of its own name. -/
def twoWebs : Declared.Workspace where
  directives := [{ name := "identifiers", value := "hierarchical" }]
  model := some
    { members := [.plain (.softwareSystem none) { name := "Bank" } []
        [.plain (.container none) { name := "Web" } []
            [.plain (.component none) { name := "Log" } [] []],
          .plain (.container none) { identifier := some "Web", name := "Portal" } []
            [.plain (.component none) { name := "Menu" } [] []],
          .plain .group { name := "Core" } []
            [.plain (.container none) { name := "Core" } [] []]]] }

/-- The second container is rejected with its component, and so is the container in the group, which
has taken the identifier. -/
theorem build_settles_twoWebs :
    ∃ judged : Judgement, judged.map Prod.fst = twoWebs.sites ∧ Settled judged ∧
      (build twoWebs true).value.model.elements.map Resolved.Element.id =
        ["Bank", "Bank.Web", "Bank.Web.Log", "Bank.Core"] ∧
      (build twoWebs true).diagnostics.map Diagnostic.message =
        ["Duplicate element identifier: Bank.Web", "Duplicate element identifier: Bank.Core"] := by
  have ho : EnvironmentsOutside twoWebs.sites := by
    unfold EnvironmentsOutside
    decide
  obtain ⟨judged, hs, hsettled, -⟩ := build_settles twoWebs true (by decide) (by decide) ho
  refine ⟨judged, hs, hsettled, ?_, ?_⟩
  · decide +kernel
  · decide +kernel

end Build

end Blueprint
