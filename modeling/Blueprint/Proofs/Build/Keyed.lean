import Blueprint.Proofs.Build.Related
import Blueprint.Proofs.Build.Shown
import Blueprint.Proofs.Build.Viewed
import Blueprint.Proofs.Registry.Failure

/-!
# Keys of views

Views are bound one after the other. A view that is given no key gets one from its kind and from the
number of views before it, whether another view has this key or not. Generated keys differ from each
other, so where the keys that are given differ, a key is taken exactly if one view is given what is
generated for another.
-/

namespace Blueprint

/-! ## Keys that are taken -/

/-- The key that a problem says is taken. -/
def Issue.takenKey? : Issue → Option String
  | .build (.duplicateView key) => some key
  | _ => none

namespace Reported

variable {α β : Type}

/-- The keys that are reported as taken, in the order in which they are met. -/
def takenKeys (reported : Reported α) : List String :=
  reported.diagnostics.filterMap fun diagnostic => diagnostic.issue.takenKey?

/-- A value alone reports no key. -/
@[simp] theorem takenKeys_pure (value : α) : (pure value : Reported α).takenKeys = [] := rfl

/-- The keys of the earlier computation come first. -/
@[simp] theorem takenKeys_bind (first : Reported α) (next : α → Reported β) :
    (first >>= next).takenKeys = first.takenKeys ++ (next first.value).takenKeys :=
  List.filterMap_append

/-- Two computations that report no key report none together. -/
theorem takenKeys_bind_eq_nil {first : Reported α} {next : α → Reported β}
    (hf : first.takenKeys = []) (hn : ∀ value, (next value).takenKeys = []) :
    (first >>= next).takenKeys = [] := by
  rw [takenKeys_bind, hf, hn, List.append_nil]

/-- What is collected reports no key if no part of it does. -/
theorem takenKeys_collect {f : α → Reported (Option β)} (hf : ∀ item, (f item).takenKeys = [])
    (items : List α) : (collect f items).takenKeys = [] := by
  induction items with
  | nil => rfl
  | cons item items ih =>
    exact takenKeys_bind_eq_nil (hf item) fun _ => takenKeys_bind_eq_nil ih fun _ => rfl

end Reported

/-- A missing element says nothing about keys. -/
theorem Resolution.takenKeys_missing (issue : ReferenceIssue) (position : Option Position) :
    (Resolution.missing issue position).takenKeys = [] := by
  cases position <;> rfl

/-- Resolving a reference says nothing about keys. -/
theorem Registry.takenKeys_resolve (registry : Registry) (reference : String)
    (position : Option Position) (byName : Bool) (wanted : ElementClass) :
    (registry.resolve reference position byName wanted).takenKeys = [] := by
  have h := registry.accounts_resolve reference position byName wanted
  unfold Registry.Accounts at h
  unfold Reported.takenKeys
  split at h
  · rw [h.1]
    rfl
  · generalize (registry.resolve reference position byName wanted).diagnostics = reported at h
    cases h with
    | missing issue => exact Resolution.takenKeys_missing issue position
    | circular trace => rfl
    | start trace issue =>
      rw [List.filterMap_append]
      exact Resolution.takenKeys_missing issue position

namespace Build

open Resolved (View ViewKind Interaction)
open Declared (Selection ViewDetails)

variable {registry : Registry}

section Contents

variable (registry)

/-- The ends of an expression say nothing about keys. -/
theorem takenKeys_checkEnds (position : Option Position) (names : List String) :
    (checkEnds registry position names).takenKeys = [] := by
  induction names with
  | nil => rfl
  | cons name names ih =>
    exact Reported.takenKeys_bind_eq_nil (registry.takenKeys_resolve ..) fun _ => ih

/-- A reference says nothing about keys. -/
theorem takenKeys_resolveId (position : Option Position) (reference : String) :
    (resolveId registry position reference).takenKeys = [] :=
  Reported.takenKeys_bind_eq_nil (registry.takenKeys_resolve ..) fun _ => rfl

/-- A selection says nothing about keys. -/
theorem takenKeys_bindSelection (selection : Selection) :
    (bindSelection registry selection).takenKeys = [] := by
  unfold bindSelection
  split
  · exact Reported.takenKeys_bind_eq_nil (takenKeys_checkEnds ..) fun _ => rfl
  · exact Reported.takenKeys_bind_eq_nil (takenKeys_resolveId ..) fun _ => rfl

/-- What a view includes says nothing about keys. -/
theorem takenKeys_bindIncludes (view : View) (selections : List Selection) :
    (bindIncludes registry view selections).takenKeys = [] := by
  induction selections generalizing view with
  | nil => rfl
  | cons selection selections ih =>
    rw [bindIncludes]
    split
    · exact ih _
    · refine Reported.takenKeys_bind_eq_nil (takenKeys_bindSelection ..) fun _ => ?_
      split <;> exact ih _

/-- What a view excludes says nothing about keys. -/
theorem takenKeys_bindExcludes (view : View) (selections : List Selection) :
    (bindExcludes registry view selections).takenKeys = [] := by
  induction selections generalizing view with
  | nil => rfl
  | cons selection selections ih =>
    refine Reported.takenKeys_bind_eq_nil (takenKeys_bindSelection ..) fun _ => ?_
    split <;> exact ih _

/-- The steps of an animation say nothing about keys. -/
theorem takenKeys_bindSteps (position : Option Position) (steps : List (List String)) :
    (bindSteps registry position steps).takenKeys = [] := by
  induction steps with
  | nil => rfl
  | cons step steps ih =>
    exact Reported.takenKeys_bind_eq_nil
      (Reported.takenKeys_collect (takenKeys_resolveId registry position) step) fun _ =>
        Reported.takenKeys_bind_eq_nil ih fun _ => rfl

/-- Animations say nothing about keys. -/
theorem takenKeys_bindAnimations (animations : List Declared.Animation) :
    (bindAnimations registry animations).takenKeys = [] := by
  induction animations with
  | nil => rfl
  | cons animation animations ih =>
    exact Reported.takenKeys_bind_eq_nil (takenKeys_bindSteps ..) fun _ =>
      Reported.takenKeys_bind_eq_nil ih fun _ => rfl

/-- Interactions say nothing about keys. -/
theorem takenKeys_bindInteractions (known : List Interaction)
    (steps : List Declared.Relationship) :
    (bindInteractions registry known steps).takenKeys = [] := by
  induction steps generalizing known with
  | nil => rfl
  | cons step steps ih =>
    refine Reported.takenKeys_bind_eq_nil (registry.takenKeys_resolve ..) fun _ =>
      Reported.takenKeys_bind_eq_nil (registry.takenKeys_resolve ..) fun _ => ?_
    split <;> exact ih _

/-- The scope of a dynamic view says nothing about keys. -/
theorem takenKeys_dynamicScope (details : ViewDetails) (reference : String) :
    (dynamicScope registry details reference).takenKeys = [] := by
  refine Reported.takenKeys_bind_eq_nil (registry.takenKeys_resolve ..) fun _ => ?_
  split
  · split <;> rfl
  · rfl

/-- A scope that may be everything says about keys what its reference does. -/
theorem takenKeys_openScope {resolve : String → Reported (Option Entry)}
    (hr : ∀ reference, (resolve reference).takenKeys = []) (reference : String) :
    (openScope resolve reference).takenKeys = [] := by
  unfold openScope
  split
  · rfl
  · refine Reported.takenKeys_bind_eq_nil (hr reference) fun _ => ?_
    split <;> rfl

/-- The scope of a deployment view says nothing about keys. -/
theorem takenKeys_deploymentScope (details : ViewDetails) (system : Option String) :
    (deploymentScope registry details system).takenKeys = [] := by
  unfold deploymentScope
  split
  · exact Reported.takenKeys_bind_eq_nil (registry.takenKeys_resolve ..) fun _ => rfl
  · rfl

/-- The bases of filtered views say nothing about taken keys. -/
theorem takenKeys_checkBases (keys : List String) (views : List Declared.View) :
    (checkBases keys views).takenKeys = [] := by
  induction views with
  | nil => rfl
  | cons view views ih =>
    rw [checkBases]
    split
    · split
      · exact Reported.takenKeys_bind_eq_nil rfl fun _ => ih
      · exact ih
    · exact ih

end Contents

/-! ## One view -/

/-- The key that is generated for a view after a count of others. -/
def generatedKey (declared : Declared.View) (count : Nat) : String :=
  (kindOf declared.sort).label ++ "-" ++ toString (count + 1)

/-- The key that a view is given. -/
def givenKey? (declared : Declared.View) : Option String := given? declared.details.key

/-- The key of a view after a count of others: the one that it is given, or a generated one. -/
def keyAfter (declared : Declared.View) (count : Nat) : String :=
  (givenKey? declared).getD (generatedKey declared count)

/-- What a view has from its declaration, if it comes after a count of others. -/
structure MadeAfter (view : View) (declared : Declared.View) (count : Nat) : Prop where
  /-- The key is the one that is given or generated. -/
  key : view.key = keyAfter declared count
  /-- The kind follows from the sort. -/
  kind : view.kind = kindOf declared.sort
  /-- The title is the declared one. -/
  title : view.title = declared.details.title

/-- Whether everything that a view is about is found. -/
def findsScope (registry : Registry) (declared : Declared.View) : Bool :=
  let details := declared.details
  match declared.sort with
  | .systemLandscape | .filtered _ _ _ | .custom => true
  | .systemContext system | .container system =>
    (registry.resolve system details.position true .softwareSystem).value.isSome
  | .component container =>
    (registry.resolve container details.position true .container).value.isSome
  | .dynamic scope _ => (openScope (dynamicScope registry details) scope).value.isSome
  | .deployment system environment =>
    (deploymentScope registry details system).value.isSome &&
      (registry.resolve environment details.position true .deploymentEnvironment).value.isSome
  | .image scope _ _ =>
    (openScope (fun reference => registry.resolve reference details.position) scope).value.isSome

/-- A view is bound under its key, or its key is reported as taken and there is no view. -/
inductive Keyed (known : List View) (declared : Declared.View) : Reported (Option View) → Prop
  /-- The key is new. -/
  | bound {reported : Reported (Option View)} {view : View} (hv : reported.value = some view)
    (hm : MadeAfter view declared known.length) (hn : view.key ∉ known.map View.key)
    (ht : reported.takenKeys = []) : Keyed known declared reported
  /-- The key is taken. -/
  | taken {reported : Reported (Option View)} (hv : reported.value = none)
    (hn : keyAfter declared known.length ∈ known.map View.key)
    (ht : reported.takenKeys = [keyAfter declared known.length]) : Keyed known declared reported

variable {known : List View} {declared : Declared.View}

/-- What says nothing about keys may come before. -/
theorem Keyed.after {α : Type} {first : Reported α} {next : α → Reported (Option View)}
    (hf : first.takenKeys = []) (h : Keyed known declared (next first.value)) :
    Keyed known declared (first >>= next) := by
  cases h with
  | bound hv hm hn ht => exact .bound hv hm hn (by rw [Reported.takenKeys_bind, hf, ht]; rfl)
  | taken hv hn ht => exact .taken hv hn (by rw [Reported.takenKeys_bind, hf, ht]; rfl)

/-- What only some views have may be added. -/
theorem Keyed.amend {reported : Reported (Option View)} (h : Keyed known declared reported)
    {next : Option View → Reported (Option View)} (hn : next none = pure none)
    (hs : ∀ view, (next (some view)).takenKeys = [] ∧
      ∃ amended, (next (some view)).value = some amended ∧ amended.key = view.key ∧
        amended.kind = view.kind ∧ amended.title = view.title) :
    Keyed known declared (reported >>= next) := by
  cases h with
  | bound hv hm hk ht =>
    obtain ⟨hnone, amended, ha, hkey, hkind, htitle⟩ := hs _
    have hmade : MadeAfter amended declared known.length :=
      ⟨hkey.trans hm.key, hkind.trans hm.kind, htitle.trans hm.title⟩
    refine .bound ?_ hmade (by rwa [hkey]) ?_
    · rw [Reported.bind_value, hv, ha]
    · rw [Reported.takenKeys_bind, ht, hv, hnone]
      rfl
  | taken hv hk ht =>
    refine .taken ?_ hk ?_
    · rw [Reported.bind_value, hv, hn]
      rfl
    · rw [Reported.takenKeys_bind, ht, hv, hn]
      rfl

/-- Including something leaves the kind and the title as they are. -/
theorem head_bindIncludes (registry : Registry) (view : View) (selections : List Selection) :
    (bindIncludes registry view selections).value.kind = view.kind ∧
      (bindIncludes registry view selections).value.title = view.title := by
  induction selections generalizing view with
  | nil => exact ⟨rfl, rfl⟩
  | cons selection selections ih =>
    rw [bindIncludes]
    split
    · exact ih _
    · rw [Reported.bind_value]
      split <;> exact ih _

/-- Excluding something leaves the kind and the title as they are. -/
theorem head_bindExcludes (registry : Registry) (view : View) (selections : List Selection) :
    (bindExcludes registry view selections).value.kind = view.kind ∧
      (bindExcludes registry view selections).value.title = view.title := by
  induction selections generalizing view with
  | nil => exact ⟨rfl, rfl⟩
  | cons selection selections ih =>
    rw [bindExcludes, Reported.bind_value]
    split <;> exact ih _

/-- What all views have is bound under its key, or the key is taken. -/
theorem keyed_bindDetails (registry : Registry) (known : List View) (details : ViewDetails)
    (sort : Declared.ViewSort) (scope : Option String) :
    Keyed known ⟨details, sort⟩ (bindDetails registry known details (kindOf sort) scope) := by
  unfold bindDetails
  dsimp only
  split
  · rename_i hm
    exact .taken rfl hm rfl
  · rename_i hn
    refine .bound rfl ⟨?_, ?_, ?_⟩ ?_ ?_
    · dsimp only [Reported.bind_value, Reported.pure_value]
      rw [key_bindExcludes, key_bindIncludes]
      rfl
    · exact (head_bindExcludes ..).1.trans (head_bindIncludes ..).1
    · exact (head_bindExcludes ..).2.trans (head_bindIncludes ..).2
    · dsimp only [Reported.bind_value, Reported.pure_value]
      rwa [key_bindExcludes, key_bindIncludes]
    · exact Reported.takenKeys_bind_eq_nil (takenKeys_bindIncludes ..) fun _ =>
        Reported.takenKeys_bind_eq_nil (takenKeys_bindExcludes ..) fun _ =>
          Reported.takenKeys_bind_eq_nil (takenKeys_bindAnimations ..) fun _ => rfl

/-- A view about an element that is found is bound under its key, or the key is taken. -/
theorem keyed_bindScoped (sort : Declared.ViewSort) {details : ViewDetails} {reference : String}
    {wanted : ElementClass}
    (hf : (registry.resolve reference details.position true wanted).value.isSome = true) :
    Keyed known ⟨details, sort⟩
      (bindScoped registry known details (kindOf sort) reference wanted) := by
  refine .after (registry.takenKeys_resolve ..) ?_
  obtain ⟨entry, he⟩ := Option.isSome_iff_exists.mp hf
  rw [he]
  exact keyed_bindDetails ..

/-- A view about something that is found is bound under its key, or the key is taken. -/
theorem keyed_bindView (known : List View) (hf : findsScope registry declared = true) :
    Keyed known declared (bindView registry known declared) := by
  obtain ⟨details, sort⟩ := declared
  unfold findsScope at hf
  unfold bindView
  cases sort with
  | systemLandscape => exact keyed_bindDetails registry known details .systemLandscape none
  | systemContext system => exact keyed_bindScoped (.systemContext system) hf
  | container system => exact keyed_bindScoped (.container system) hf
  | component container => exact keyed_bindScoped (.component container) hf
  | dynamic scope steps =>
    refine .after (takenKeys_openScope (takenKeys_dynamicScope registry details) scope) ?_
    obtain ⟨found, he⟩ := Option.isSome_iff_exists.mp hf
    rw [he]
    exact (keyed_bindDetails registry known details (.dynamic scope steps) found).amend rfl
      fun _ => ⟨Reported.takenKeys_bind_eq_nil (takenKeys_bindInteractions ..) fun _ => rfl,
        _, rfl, rfl, rfl, rfl⟩
  | deployment system environment =>
    obtain ⟨hs, he⟩ := Bool.and_eq_true_iff.mp hf
    obtain ⟨found, hs⟩ := Option.isSome_iff_exists.mp hs
    obtain ⟨entry, he⟩ := Option.isSome_iff_exists.mp he
    refine .after (takenKeys_deploymentScope ..) ?_
    rw [hs]
    refine .after (registry.takenKeys_resolve ..) ?_
    rw [he]
    exact (keyed_bindDetails registry known details (.deployment system environment) found).amend
      rfl fun _ => ⟨rfl, _, rfl, rfl, rfl, rfl⟩
  | filtered base mode tags =>
    exact (keyed_bindDetails registry known details (.filtered base mode tags) none).amend
      rfl fun _ => ⟨rfl, _, rfl, rfl, rfl, rfl⟩
  | custom => exact keyed_bindDetails registry known details .custom none
  | image scope content contentType =>
    refine .after (takenKeys_openScope (fun _ => registry.takenKeys_resolve ..) scope) ?_
    obtain ⟨found, he⟩ := Option.isSome_iff_exists.mp hf
    rw [he]
    exact (keyed_bindDetails registry known details (.image scope content contentType)
      found).amend rfl fun _ => ⟨rfl, _, rfl, rfl, rfl, rfl⟩

/-- There is no view, and nothing is said about keys. -/
def LeftOut (reported : Reported (Option View)) : Prop :=
  reported.value = none ∧ reported.takenKeys = []

/-- What says nothing about keys may come before. -/
theorem LeftOut.after {α : Type} {first : Reported α} {next : α → Reported (Option View)}
    (hf : first.takenKeys = []) (h : LeftOut (next first.value)) : LeftOut (first >>= next) :=
  ⟨h.1, by rw [Reported.takenKeys_bind, hf, h.2, List.append_nil]⟩

/-- If something is not found that a view is about, the view is left out. -/
theorem leftOut_bind {α : Type} {first : Reported (Option α)}
    {next : Option α → Reported (Option View)} (hf : first.takenKeys = [])
    (hv : first.value.isSome = false) (hn : next none = pure none) : LeftOut (first >>= next) := by
  refine .after hf ?_
  rw [Option.not_isSome_iff_eq_none.mp (ne_true_of_eq_false hv), hn]
  exact ⟨rfl, rfl⟩

/-- A view about something that is not found is left out. -/
theorem leftOut_bindView (known : List View) (hf : findsScope registry declared = false) :
    LeftOut (bindView registry known declared) := by
  obtain ⟨details, sort⟩ := declared
  unfold findsScope at hf
  unfold bindView
  cases sort with
  | systemLandscape | filtered | custom => cases hf
  | systemContext | container | component =>
    exact leftOut_bind (registry.takenKeys_resolve ..) hf rfl
  | dynamic scope steps =>
    exact leftOut_bind (takenKeys_openScope (takenKeys_dynamicScope registry details) scope) hf rfl
  | deployment system environment =>
    dsimp only at hf ⊢
    cases hs : (deploymentScope registry details system).value with
    | none => exact leftOut_bind (takenKeys_deploymentScope ..) (by rw [hs]; rfl) rfl
    | some scope =>
      refine .after (takenKeys_deploymentScope ..) ?_
      rw [hs] at hf ⊢
      exact leftOut_bind (registry.takenKeys_resolve ..) hf rfl
  | image scope content contentType =>
    exact leftOut_bind (takenKeys_openScope (fun _ => registry.takenKeys_resolve ..) scope) hf rfl

/-! ## All views -/

/-- The keys of views that come one after the other, the first of them after a count of others. -/
def keysAfter (count : Nat) (views : List Declared.View) : List String :=
  (views.zipIdx count).map fun (declared, place) => keyAfter declared place

/-- No key is reported as taken exactly if the keys of all views that are about something that is
found are new and distinct. -/
theorem takenKeys_bindViews_iff (registry : Registry) {known : List View}
    (hk : (known.map View.key).Nodup) (views : List Declared.View) :
    (bindViews registry known views).takenKeys = [] ↔
      (known.map View.key ++
        keysAfter known.length (views.filter (findsScope registry))).Nodup := by
  induction views generalizing known with
  | nil => simpa [bindViews, keysAfter] using hk
  | cons declared views ih =>
    rw [bindViews, Reported.takenKeys_bind, List.append_eq_nil_iff]
    cases hf : findsScope registry declared with
    | false =>
      obtain ⟨hv, ht⟩ := leftOut_bindView known hf
      rw [List.filter_cons_of_neg (by rw [hf]; decide), hv, ht, Option.toList_none,
        List.append_nil, ih hk]
      exact and_iff_right rfl
    | true =>
      rw [List.filter_cons_of_pos hf, keysAfter, List.zipIdx_cons, List.map_cons]
      cases keyed_bindView known hf with
      | taken hv hn ht =>
        rw [ht]
        refine ⟨fun h => (List.cons_ne_nil _ _ h.1).elim, fun h => ?_⟩
        exact ((List.nodup_append.mp h).2.2 _ hn _ List.mem_cons_self rfl).elim
      | @bound view hv hm hn ht =>
        have hkeys : (known ++ [view]).map View.key =
            known.map View.key ++ [keyAfter declared known.length] := by
          rw [List.map_append, List.map_singleton, hm.key]
        have hnew : ((known ++ [view]).map View.key).Nodup := by
          rw [List.map_append, List.map_singleton, ← List.concat_eq_append]
          exact hk.concat hn
        rw [hv, ht, Option.toList_some, ih hnew, hkeys, List.append_assoc, List.singleton_append,
          List.length_append, List.length_singleton]
        exact and_iff_right rfl

/-- If no key is reported as taken, every view that is about something that is found is bound, one
after the other. -/
theorem forall₂_bindViews (registry : Registry) {known : List View} {views : List Declared.View}
    (ht : (bindViews registry known views).takenKeys = []) :
    ∃ more, (bindViews registry known views).value = known ++ more ∧
      List.Forall₂ (fun view (declared, place) => MadeAfter view declared place) more
        ((views.filter (findsScope registry)).zipIdx known.length) := by
  induction views generalizing known with
  | nil => exact ⟨[], (List.append_nil _).symm, .nil⟩
  | cons declared views ih =>
    rw [bindViews, Reported.takenKeys_bind, List.append_eq_nil_iff] at ht
    rw [bindViews, Reported.bind_value]
    obtain ⟨more, hm, hall⟩ := ih ht.2
    cases hf : findsScope registry declared with
    | false =>
      obtain ⟨hv, -⟩ := leftOut_bindView known hf
      rw [hv, Option.toList_none, List.append_nil] at hm hall
      rw [List.filter_cons_of_neg (by rw [hf]; decide), hv, Option.toList_none, List.append_nil]
      exact ⟨more, hm, hall⟩
    | true =>
      rw [List.filter_cons_of_pos hf, List.zipIdx_cons]
      cases keyed_bindView known hf with
      | taken hv hn hkeys => exact (List.cons_ne_nil _ _ (hkeys.symm.trans ht.1)).elim
      | @bound view hv hmade hn _ =>
        rw [hv, Option.toList_some] at hm hall
        rw [List.length_append, List.length_singleton] at hall
        refine ⟨view :: more, ?_, .cons hmade hall⟩
        rw [hv, Option.toList_some, hm, List.append_assoc, List.singleton_append]

/-! ## Generated keys -/

/-- The name of a kind has no dash: what follows the first dash of a key is a number. -/
theorem dropWhile_label (kind : ViewKind) (rest : List Char) :
    (kind.label.toList ++ '-' :: rest).dropWhile (· ≠ '-') = '-' :: rest := by
  cases kind <;> rfl

/-- The number in a generated key can be read back. -/
theorem eq_of_generatedKey_eq {first second : Declared.View} {i j : Nat}
    (h : generatedKey first i = generatedKey second j) : i = j := by
  have hchars : ∀ (declared : Declared.View) count, (generatedKey declared count).toList =
      (kindOf declared.sort).label.toList ++ '-' :: (toString (count + 1)).toList := by
    intro declared count
    rw [generatedKey, String.toList_append, String.toList_append, List.append_assoc]
    rfl
  have hrest := congrArg (fun key : String => key.toList.dropWhile (· ≠ '-')) h
  simp only [hchars, dropWhile_label] at hrest
  have := eq_of_toString_eq (String.toList_injective (List.cons.inj hrest).2)
  omega

/-- One view is given the key that is generated for another: the views are those that come one after
the other if no key is taken. -/
def Crossed (views : List Declared.View) : Prop :=
  ∃ (i j : Fin views.length), givenKey? views[i] = none ∧
    givenKey? views[j] = some (generatedKey views[i] i)

/-- A view that is given a key has it. -/
theorem keyAfter_of_given {declared : Declared.View} {key : String}
    (h : givenKey? declared = some key) (count : Nat) : keyAfter declared count = key := by
  rw [keyAfter, h, Option.getD_some]

/-- A view that is given no key has a generated one. -/
theorem keyAfter_of_none {declared : Declared.View} (h : givenKey? declared = none)
    (count : Nat) : keyAfter declared count = generatedKey declared count := by
  rw [keyAfter, h, Option.getD_none]

/-- Where the keys that are given differ, all keys do exactly if no view is given the key that is
generated for another. -/
theorem keysAfter_nodup_iff {views : List Declared.View} (hk : (views.filterMap givenKey?).Nodup) :
    (keysAfter 0 views).Nodup ↔ ¬ Crossed views := by
  have hl : (keysAfter 0 views).length = views.length := by simp [keysAfter]
  have hget : ∀ i (_ : i < views.length) (_ : i < (keysAfter 0 views).length),
      (keysAfter 0 views)[i] = keyAfter views[i] i := by
    intro i _ _
    simp [keysAfter]
  rw [List.Nodup, List.pairwise_filterMap, List.pairwise_iff_getElem] at hk
  constructor
  · rintro hn ⟨⟨i, hi⟩, ⟨j, hj⟩, hnone, hgiven⟩
    have hik : i < (keysAfter 0 views).length := hl.symm ▸ hi
    have hjk : j < (keysAfter 0 views).length := hl.symm ▸ hj
    have he : (keysAfter 0 views)[i] = (keysAfter 0 views)[j] := by
      rw [hget i hi hik, hget j hj hjk]
      exact (keyAfter_of_none hnone i).trans (keyAfter_of_given hgiven j).symm
    obtain rfl := hn.getElem_inj_iff.mp he
    cases hnone.symm.trans hgiven
  · intro hn
    refine List.pairwise_iff_getElem.mpr fun i j hik hjk hij he => hn ?_
    have hi : i < views.length := hl ▸ hik
    have hj : j < views.length := hl ▸ hjk
    rw [hget i hi hik, hget j hj hjk] at he
    cases hfirst : givenKey? views[i] with
    | some first =>
      rw [keyAfter_of_given hfirst] at he
      cases hsecond : givenKey? views[j] with
      | some second =>
        rw [keyAfter_of_given hsecond] at he
        exact (hk i j hi hj hij first hfirst second hsecond he).elim
      | none =>
        rw [keyAfter_of_none hsecond] at he
        exact ⟨⟨j, hj⟩, ⟨i, hi⟩, hsecond, hfirst.trans (congrArg some he)⟩
    | none =>
      rw [keyAfter_of_none hfirst] at he
      cases hsecond : givenKey? views[j] with
      | some second =>
        rw [keyAfter_of_given hsecond] at he
        exact ⟨⟨i, hi⟩, ⟨j, hj⟩, hfirst, hsecond.trans (congrArg some he.symm)⟩
      | none =>
        rw [keyAfter_of_none hsecond] at he
        exact (Nat.ne_of_lt hij (eq_of_generatedKey_eq he)).elim

/-- Where the keys that are given to the views of a block differ, no key is reported as taken
exactly if no view is given the key that is generated for another; and then every view that is about
something that is found is bound, with a key that differs from all others. -/
theorem takenKeys_bindBlock_iff (registry : Registry) (block : Declared.Views)
    (hk : (block.views.filterMap givenKey?).Nodup) :
    ((bindBlock registry block).takenKeys = [] ↔
        ¬ Crossed (block.views.filter (findsScope registry))) ∧
      ((bindBlock registry block).takenKeys = [] →
        List.Forall₂ (fun view (declared, place) => MadeAfter view declared place)
            (bindBlock registry block).value
            (block.views.filter (findsScope registry)).zipIdx ∧
          ((bindBlock registry block).value.map View.key).Nodup) := by
  have ht : (bindBlock registry block).takenKeys =
      (bindViews registry [] block.views).takenKeys := by
    unfold bindBlock
    rw [Reported.takenKeys_bind, Reported.takenKeys_bind, takenKeys_checkBases]
    exact List.append_nil _
  have hv : (bindBlock registry block).value = (bindViews registry [] block.views).value := rfl
  have hready : ((block.views.filter (findsScope registry)).filterMap givenKey?).Nodup :=
    hk.sublist (List.filter_sublist.filterMap _)
  have hnil : (([] : List View).map View.key).Nodup := List.nodup_nil
  have hiff : (bindViews registry [] block.views).takenKeys = [] ↔
      (keysAfter 0 (block.views.filter (findsScope registry))).Nodup :=
    takenKeys_bindViews_iff registry hnil block.views
  rw [ht, hv]
  refine ⟨hiff.trans (keysAfter_nodup_iff hready), fun hn => ?_⟩
  obtain ⟨more, hm, hall⟩ := forall₂_bindViews registry hn
  rw [hm, List.nil_append]
  refine ⟨hall, ?_⟩
  have hkeys : List.Forall₂ (· = ·) (more.map View.key)
      (keysAfter 0 (block.views.filter (findsScope registry))) :=
    List.forall₂_map_left_iff.mpr (List.forall₂_map_right_iff.mpr (hall.imp fun _ _ h => h.key))
  rw [List.forall₂_eq_eq_eq] at hkeys
  rw [hkeys]
  exact hiff.mp hn

/-- A landscape without a key and a view of another kind without one are bound under the keys that
are generated for them. -/
theorem takenKeys_landscape_custom :
    (bindBlock .empty { views := [⟨{}, .systemLandscape⟩, ⟨{}, .custom⟩] }).takenKeys = [] ∧
      ((bindBlock .empty { views := [⟨{}, .systemLandscape⟩, ⟨{}, .custom⟩] }).value.map
        View.key).Nodup := by
  have h := takenKeys_bindBlock_iff .empty { views := [⟨{}, .systemLandscape⟩, ⟨{}, .custom⟩] }
    List.nodup_nil
  have hnone : ∀ declared ∈ [(⟨{}, .systemLandscape⟩ : Declared.View), ⟨{}, .custom⟩].filter
      (findsScope .empty), givenKey? declared = none := by decide
  have hn := h.1.mpr fun ⟨_, j, _, hj⟩ => by
    cases (hnone _ (List.getElem_mem j.isLt)).symm.trans hj
  exact ⟨hn, (h.2 hn).2⟩

/-- Of two landscapes, the first is given the key that is generated for the second: it is reported
as taken, and the second is left out, though its author gave it no key. -/
theorem bindBlock_crossed :
    ∃ block : Declared.Views, (block.views.filterMap givenKey?).Nodup ∧
      (∀ declared ∈ block.views, findsScope .empty declared = true) ∧
      (bindBlock .empty block).takenKeys = ["systemLandscape-2"] ∧
      (bindBlock .empty block).value.length < block.views.length := by
  refine ⟨{ views := [⟨{ key := some "systemLandscape-2" }, .systemLandscape⟩,
    ⟨{}, .systemLandscape⟩] }, ?_, ?_, ?_, ?_⟩
  · decide
  · decide
  · decide
  · decide

end Build

end Blueprint
