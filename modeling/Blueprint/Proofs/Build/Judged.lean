import Blueprint.Proofs.Declared.Site

/-!
# Judging the sites of elements

The sites of a model are judged one after the other. A site is looked at if all declarations around
it are registered. It is rejected if the path of own identifiers that leads to it is that of a
registered site, else it is registered. Where own identifiers have no points, a path can be read
back from the identifier that it makes: so a site is rejected exactly if one that was looked at
before has the nearest declaration that is no group in common with it, and the own identifier.
-/

namespace Blueprint.Build

open Declared (Site Surroundings)

/-! ## Verdicts -/

/-- What becomes of a site. -/
inductive Fate where
  /-- Its element is registered. -/
  | registered
  /-- Its identifier is taken, which is reported. -/
  | rejected
  /-- It is not looked at, since something around it is not registered. -/
  | unvisited
  deriving DecidableEq, Repr

/-- Sites with what becomes of them, in order. -/
abbrev Judgement := List (Site × Fate)

/-- The sites that have a fate. -/
def sitesOf (fate : Fate) (judged : Judgement) : List Site :=
  (judged.filter fun ruling => ruling.2 = fate).map Prod.fst

/-- The identifiers that are taken by sites. -/
def takenIds (judged : Judgement) : List String := (sitesOf .registered judged).map Site.id

/-- Whether the site at a place is registered. -/
def registeredAt (judged : Judgement) (place : Nat) : Bool :=
  judged[place]?.any fun ruling => ruling.2 = .registered

/-- The site at a place is registered. -/
def IsRegistered (judged : Judgement) (place : Nat) : Prop :=
  ∃ site, judged[place]? = some (site, .registered)

/-- The nearest declaration around is registered and has the identifiers above, or there is none. -/
def IsUnder (judged : Judgement) (surroundings : Surroundings) : Prop :=
  match surroundings.outer with
  | some place => ∃ site, judged[place]? = some (site, .registered) ∧
      site.path = surroundings.above
  | none => surroundings.above = []

/-- What becomes of a site after others. -/
inductive Verdict (before : Judgement) (site : Site) : Fate → Prop
  /-- All around is registered, and the identifier is new. -/
  | registered (hv : ∀ place ∈ site.surroundings.around, IsRegistered before place)
    (hu : IsUnder before site.surroundings) (hn : site.id ∉ takenIds before) :
    Verdict before site .registered
  /-- All around is registered, and the identifier is taken. -/
  | rejected (hv : ∀ place ∈ site.surroundings.around, IsRegistered before place)
    (hu : IsUnder before site.surroundings) (ht : site.id ∈ takenIds before) :
    Verdict before site .rejected
  /-- Something around is not registered. -/
  | unvisited {place : Nat} (hp : place ∈ site.surroundings.around) {other : Site} {fate : Fate}
    (ho : before[place]? = some (other, fate)) (hf : fate ≠ .registered) :
    Verdict before site .unvisited

/-- Every site has the fate that follows from the sites before it. -/
def Judged (judged : Judgement) : Prop :=
  ∀ before site fate after, judged = before ++ (site, fate) :: after → Verdict before site fate

variable {judged more : Judgement} {site : Site} {fate : Fate} {surroundings : Surroundings}

/-- The sites of two parts that have a fate come one after the other. -/
theorem sitesOf_append (fate : Fate) (judged more : Judgement) :
    sitesOf fate (judged ++ more) = sitesOf fate judged ++ sitesOf fate more := by
  unfold sitesOf
  rw [List.filter_append, List.map_append]

/-- A site has its fate. -/
theorem sitesOf_singleton (site : Site) (fate : Fate) : sitesOf fate [(site, fate)] = [site] := by
  simp [sitesOf]

/-- Sites that all have one fate have no other. -/
theorem sitesOf_map_of_ne {wanted : Fate} (sites : List Site) (h : fate ≠ wanted) :
    sitesOf wanted (sites.map (·, fate)) = [] := by
  unfold sitesOf
  rw [List.filter_eq_nil_iff.mpr, List.map_nil]
  intro ruling hm
  obtain ⟨site, -, rfl⟩ := List.mem_map.mp hm
  exact fun hd => h (of_decide_eq_true hd)

/-- What has become of a site stays when more are judged. -/
theorem getElem?_append_of_some {place : Nat} {ruling : Site × Fate}
    (h : judged[place]? = some ruling) (more : Judgement) :
    (judged ++ more)[place]? = some ruling := by
  have hl := (List.getElem?_eq_some_iff.mp h).1
  rwa [List.getElem?_append_left hl]

/-- A registered site stays so when more are judged. -/
theorem IsRegistered.append {place : Nat} (h : IsRegistered judged place) (more : Judgement) :
    IsRegistered (judged ++ more) place := by
  obtain ⟨site, hs⟩ := h
  exact ⟨site, getElem?_append_of_some hs more⟩

/-- What is under a registered declaration stays so when more are judged. -/
theorem IsUnder.append (h : IsUnder judged surroundings) (more : Judgement) :
    IsUnder (judged ++ more) surroundings := by
  unfold IsUnder at h ⊢
  split at h
  · obtain ⟨site, hs, hp⟩ := h
    exact ⟨site, getElem?_append_of_some hs more, hp⟩
  · exact h

/-- One more site is judged after the others. -/
theorem Judged.concat (h : Judged judged) (hv : Verdict judged site fate) :
    Judged (judged ++ [(site, fate)]) := by
  intro before middle last after he
  rcases List.eq_nil_or_concat after with rfl | ⟨front, final, rfl⟩
  · obtain ⟨hb, hc⟩ := List.append_inj' he rfl
    cases hc
    rwa [← hb]
  · rw [List.concat_eq_append, ← List.cons_append, ← List.append_assoc] at he
    obtain ⟨hb, -⟩ := List.append_inj' he rfl
    exact h before middle last front hb

/-- What is in something that is not registered is not looked at. -/
theorem Judged.append_unvisited (h : Judged judged) {place : Nat} {other : Site}
    (ho : judged[place]? = some (other, fate)) (hf : fate ≠ .registered) {sites : List Site}
    (hs : ∀ site ∈ sites, place ∈ site.surroundings.around) :
    Judged (judged ++ sites.map (·, .unvisited)) := by
  induction sites generalizing judged with
  | nil => rwa [List.map_nil, List.append_nil]
  | cons site sites ih =>
    rw [List.map_cons, ← List.singleton_append, ← List.append_assoc]
    refine ih (h.concat (.unvisited (hs site List.mem_cons_self) ho hf)) ?_ ?_
    · exact getElem?_append_of_some ho _
    · exact fun other hm => hs other (List.mem_cons_of_mem _ hm)

/-! ## Which sites are rejected -/

/-- What has become of a site follows from the sites before it. -/
theorem Judged.verdict (h : Judged judged) {index : Nat}
    (hs : judged[index]? = some (site, fate)) : Verdict (judged.take index) site fate := by
  obtain ⟨hl, he⟩ := List.getElem?_eq_some_iff.mp hs
  refine h (judged.take index) site fate (judged.drop (index + 1)) ?_
  rw [← he, ← List.drop_eq_getElem_cons hl, List.take_append_drop]

/-- What has become of a site before others. -/
theorem getElem?_of_take {index earlier : Nat} {ruling : Site × Fate}
    (h : (judged.take index)[earlier]? = some ruling) :
    earlier < index ∧ judged[earlier]? = some ruling := by
  rw [List.getElem?_take] at h
  split at h
  · exact ⟨‹earlier < index›, h⟩
  · cases h

/-- An identifier is taken by a registered site. -/
theorem mem_takenIds_iff {id : String} :
    id ∈ takenIds judged ↔
      ∃ (index : Nat) (site : Site), judged[index]? = some (site, .registered) ∧ site.id = id := by
  unfold takenIds sitesOf
  constructor
  · intro h
    obtain ⟨site, hs, he⟩ := List.mem_map.mp h
    obtain ⟨⟨other, fate⟩, hr, rfl⟩ := List.mem_map.mp hs
    obtain ⟨hm, hf⟩ := List.mem_filter.mp hr
    obtain rfl : fate = .registered := of_decide_eq_true hf
    obtain ⟨index, hi⟩ := List.getElem?_of_mem hm
    exact ⟨index, other, hi, he⟩
  · rintro ⟨index, site, hs, rfl⟩
    have hr : (site, Fate.registered) ∈
        judged.filter fun ruling => ruling.2 = Fate.registered :=
      List.mem_filter.mpr ⟨List.mem_of_getElem? hs, decide_eq_true rfl⟩
    exact List.mem_map_of_mem (List.mem_map_of_mem hr)

/-- Different registered sites have different identifiers. -/
theorem Judged.eq_of_id_eq (h : Judged judged) {i j : Nat} {first second : Site}
    (hi : judged[i]? = some (first, .registered)) (hj : judged[j]? = some (second, .registered))
    (he : first.id = second.id) : i = j := by
  have hlt : ∀ {i j : Nat} {first second : Site}, judged[i]? = some (first, .registered) →
      judged[j]? = some (second, .registered) → first.id = second.id → ¬i < j := by
    intro i j first second hi hj he hij
    -- The later of the two would have been rejected.
    cases h.verdict hj with
    | registered _ _ hn =>
      refine hn (mem_takenIds_iff.mpr ⟨i, first, ?_, he⟩)
      rw [List.getElem?_take_of_lt hij, hi]
  exact Nat.le_antisymm (Nat.not_lt.mp (hlt hj hi he.symm)) (Nat.not_lt.mp (hlt hi hj he))

/-- What is looked at is under declarations that are registered. -/
theorem Judged.under (h : Judged judged) {index : Nat} (hs : judged[index]? = some (site, fate))
    (hf : fate ≠ .unvisited) : IsUnder (judged.take index) site.surroundings := by
  cases h.verdict hs with
  | registered _ hu => exact hu
  | rejected _ hu => exact hu
  | unvisited => exact absurd rfl hf

/-- What is looked at is under declarations that are registered, whatever comes after it. -/
theorem Judged.isUnder (h : Judged judged) {index : Nat}
    (hs : judged[index]? = some (site, fate)) (hf : fate ≠ .unvisited) :
    IsUnder judged site.surroundings := by
  have hu := (h.under hs hf).append (judged.drop index)
  rwa [List.take_append_drop] at hu

/-- Own identifiers have no points. -/
def Dotless (judged : Judgement) : Prop :=
  ∀ ruling ∈ judged, '.' ∉ ruling.1.node.ownId.toList

/-- Where own identifiers have no points, the parts of a path have none. -/
theorem Judged.dotless_path (h : Judged judged) (hd : Dotless judged) {index : Nat}
    (hs : judged[index]? = some (site, fate)) (hf : fate ≠ .unvisited) :
    ∀ part ∈ site.path, '.' ∉ part.toList := by
  induction index using Nat.strongRecOn generalizing site fate with
  | ind index ih =>
    intro part hm
    rcases List.mem_append.mp hm with hm | hm
    · have hu := h.under hs hf
      unfold IsUnder at hu
      split at hu
      · -- The path above is that of the nearest declaration, which stands before the site.
        obtain ⟨outer, ho, hp⟩ := hu
        obtain ⟨hlt, ho⟩ := getElem?_of_take ho
        exact ih _ hlt ho (by decide) part (hp ▸ hm)
      · rw [hu] at hm
        cases hm
    · rw [List.mem_singleton.mp hm]
      exact hd _ (List.mem_of_getElem? hs)

/-- Parts without points can be read back from what is between the points. -/
theorem eq_of_intercalate_eq {first second : List String} (hf : first ≠ []) (hs : second ≠ [])
    (hfd : ∀ part ∈ first, '.' ∉ part.toList) (hsd : ∀ part ∈ second, '.' ∉ part.toList)
    (h : ".".intercalate first = ".".intercalate second) : first = second := by
  have hread : ∀ parts : List String, parts ≠ [] → (∀ part ∈ parts, '.' ∉ part.toList) →
      (".".intercalate parts).toList.splitOn '.' = parts.map String.toList := by
    intro parts hne hp
    rw [String.toList_intercalate]
    refine List.splitOn_intercalate '.' (fun piece hm => ?_) (by simpa using hne)
    obtain ⟨part, hpart, rfl⟩ := List.mem_map.mp hm
    exact hp part hpart
  refine (List.map_inj_right fun _ _ => String.toList_inj.mp).mp ?_
  rw [← hread first hf hfd, ← hread second hs hsd, h]

/-- A path has at least the own identifier of its site. -/
theorem path_ne_nil (site : Site) : site.path ≠ [] :=
  List.append_ne_nil_of_right_ne_nil _ (List.cons_ne_nil _ _)

/-- The nearest declaration decides on the identifiers above, and they on it. -/
theorem Judged.outer_eq_iff (h : Judged judged) {first second : Surroundings}
    (hf : IsUnder judged first) (hs : IsUnder judged second) :
    first.outer = second.outer ↔ first.above = second.above := by
  unfold IsUnder at hf hs
  cases hfo : first.outer with
  | none =>
    rw [hfo] at hf
    have hf : first.above = [] := hf
    cases hso : second.outer with
    | none =>
      rw [hso] at hs
      exact ⟨fun _ => hf.trans hs.symm, fun _ => rfl⟩
    | some outer =>
      rw [hso] at hs
      obtain ⟨site, -, hp⟩ := hs
      exact ⟨nofun, fun he => absurd (hp.trans (he.symm.trans hf)) (path_ne_nil site)⟩
  | some place =>
    rw [hfo] at hf
    obtain ⟨site, hi, hp⟩ := hf
    cases hso : second.outer with
    | none =>
      rw [hso] at hs
      exact ⟨nofun, fun he => absurd (hp.trans (he.trans hs)) (path_ne_nil site)⟩
    | some outer =>
      rw [hso] at hs
      obtain ⟨other, hj, hq⟩ := hs
      constructor
      · intro he
        obtain rfl := Option.some.inj he
        obtain ⟨rfl, -⟩ := Prod.mk.inj (Option.some.inj (hi.symm.trans hj))
        exact hp.symm.trans hq
      · intro he
        -- Both declarations are registered, and no two of those have one identifier.
        have hpath : site.path = other.path := hp.trans (he.trans hq.symm)
        rw [h.eq_of_id_eq hi hj (congrArg (".".intercalate ·) hpath)]

/-- What is looked at has its identifier in common exactly if it has the nearest declaration and the
own identifier in common. -/
theorem Judged.id_eq_iff (h : Judged judged) (hd : Dotless judged) {i j : Nat}
    {first second : Site} {verdict : Fate} (hi : judged[i]? = some (first, fate))
    (hf : fate ≠ .unvisited) (hj : judged[j]? = some (second, verdict))
    (hv : verdict ≠ .unvisited) :
    first.id = second.id ↔ first.surroundings.outer = second.surroundings.outer ∧
      first.node.ownId = second.node.ownId := by
  rw [h.outer_eq_iff (h.isUnder hi hf) (h.isUnder hj hv)]
  constructor
  · intro he
    -- Without points in its parts a path is determined by the identifier, and so is where it ends.
    have hpath : first.path = second.path :=
      eq_of_intercalate_eq (path_ne_nil first) (path_ne_nil second)
        (h.dotless_path hd hi hf) (h.dotless_path hd hj hv) he
    obtain ⟨habove, hown⟩ := List.append_inj' hpath rfl
    exact ⟨habove, (List.cons.inj hown).1⟩
  · rintro ⟨habove, hown⟩
    unfold Site.id Site.path
    rw [habove, hown]

/-- The identifier of what was looked at before is taken: if not by itself, then by what it clashes
with. -/
theorem Judged.mem_takenIds (h : Judged judged) {index later : Nat}
    (hs : judged[index]? = some (site, fate)) (hf : fate ≠ .unvisited) (hl : index < later) :
    site.id ∈ takenIds (judged.take later) := by
  rw [mem_takenIds_iff]
  cases h.verdict hs with
  | registered => exact ⟨index, site, by rw [List.getElem?_take_of_lt hl, hs], rfl⟩
  | rejected _ _ ht =>
    obtain ⟨place, other, ho, he⟩ := mem_takenIds_iff.mp ht
    obtain ⟨hlt, ho⟩ := getElem?_of_take ho
    exact ⟨place, other, by rw [List.getElem?_take_of_lt (Nat.lt_trans hlt hl), ho], he⟩
  | unvisited => exact absurd rfl hf

/-- What is looked at is what has only registered declarations around it, and it is rejected exactly
if something that was looked at before has the nearest declaration and the own identifier in common
with it. -/
structure Settled (judged : Judgement) : Prop where
  /-- What is looked at has only registered declarations around it. -/
  visited_iff : ∀ (index : Nat) site fate, judged[index]? = some (site, fate) →
    (fate ≠ .unvisited ↔ ∀ place ∈ site.surroundings.around, IsRegistered judged place)
  /-- What is rejected clashes with something before it. -/
  rejected_iff : ∀ (index : Nat) site fate, judged[index]? = some (site, fate) →
    fate ≠ .unvisited → (fate = .rejected ↔
      ∃ (earlier : Nat) (other : Site) (verdict : Fate), earlier < index ∧
        judged[earlier]? = some (other, verdict) ∧ verdict ≠ .unvisited ∧
        other.surroundings.outer = site.surroundings.outer ∧ other.node.ownId = site.node.ownId)

/-- Where own identifiers have no points, sites are judged by clashes. -/
theorem Judged.settled (h : Judged judged) (hd : Dotless judged) : Settled judged where
  visited_iff index site fate hs := by
    have hall : (∀ place ∈ site.surroundings.around, IsRegistered (judged.take index) place) →
        ∀ place ∈ site.surroundings.around, IsRegistered judged place := by
      intro hv place hm
      have hr := (hv place hm).append (judged.drop index)
      rwa [List.take_append_drop] at hr
    cases h.verdict hs with
    | registered hv => exact iff_of_true (by decide) (hall hv)
    | rejected hv => exact iff_of_true (by decide) (hall hv)
    | unvisited hp ho hf =>
      refine iff_of_false (fun hn => hn rfl) fun hv => ?_
      obtain ⟨other, hr⟩ := hv _ hp
      have he := Option.some.inj (hr.symm.trans (getElem?_of_take ho).2)
      exact hf (congrArg Prod.snd he).symm
  rejected_iff index site fate hs hf := by
    cases h.verdict hs with
    | registered _ _ hn =>
      refine iff_of_false (by decide) ?_
      rintro ⟨earlier, other, verdict, hlt, ho, hv, hsame⟩
      have he := (h.id_eq_iff hd ho hv hs hf).mpr hsame
      exact hn (he ▸ h.mem_takenIds ho hv hlt)
    | rejected _ _ ht =>
      refine iff_of_true rfl ?_
      obtain ⟨earlier, other, ho, he⟩ := mem_takenIds_iff.mp ht
      obtain ⟨hlt, ho⟩ := getElem?_of_take ho
      exact ⟨earlier, other, .registered, hlt, ho, by decide,
        (h.id_eq_iff hd ho (by decide) hs hf).mp he⟩
    | unvisited => exact absurd rfl hf

end Blueprint.Build
