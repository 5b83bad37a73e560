import Blueprint.Settings.Reader

/-!
# What is read as settings

A text gives settings exactly if it is YAML, holds nothing or a map, all keys of the map name
settings, and all values are of the right kind and not too small. Where loading YAML never breaks
off, every other text is refused with a message, but for one exception: a key that would be shown in
the message is a number with too many digits. A message is written on one line, as long as what the
text is called, the reason why it is no YAML and the keys that are shown are.
-/

namespace Blueprint

/-! ## Messages -/

namespace SettingsIssue

/-- What the message of a problem tells of the text: the keys that it shows, or the reason that it
gives. -/
def told : SettingsIssue → List String
  | .malformed reason => [reason]
  | .notMap => []
  | .unknownKeys keys => keys
  | .notInteger key | .tooSmall key _ | .notBool key => [key]

/-- No line feed stands in a number. -/
theorem not_mem_repr (number : Int) : '\n' ∉ number.repr.toList := by
  have hdigits : ∀ n : Nat, '\n' ∉ n.repr.toList := by
    intro n h
    rw [Nat.toList_repr] at h
    exact absurd (Nat.isDigit_of_mem_toDigits (by decide) (by decide) h) (by decide)
  rw [Int.repr_eq_if]
  split
  · exact hdigits _
  · rw [String.toList_append, List.mem_append]
    rintro (h | h)
    · exact absurd h (by decide)
    · exact hdigits _ h

/-- A character of a text that joins others is one of theirs, or one of those between them. -/
theorem mem_intercalate {separator : String} {parts : List String} {c : Char}
    (h : c ∈ (separator.intercalate parts).toList) :
    c ∈ separator.toList ∨ ∃ part ∈ parts, c ∈ part.toList := by
  induction parts with
  | nil => simp at h
  | cons part rest ih =>
    cases rest with
    | nil =>
      rw [String.intercalate_singleton] at h
      exact .inr ⟨part, List.mem_singleton_self part, h⟩
    | cons next more =>
      rw [String.intercalate_cons_cons, String.toList_append, String.toList_append,
        List.mem_append, List.mem_append] at h
      obtain (h | h) | h := h
      · exact .inr ⟨part, List.mem_cons_self, h⟩
      · exact .inl h
      · obtain h | ⟨found, hf, h⟩ := ih h
        · exact .inl h
        · exact .inr ⟨found, List.mem_cons_of_mem part hf, h⟩

/-- A message is written on one line, as long as what the text is called and what is told of it
are. -/
theorem mem_message {label : String} {issue : SettingsIssue}
    (h : '\n' ∈ (issue.message label).toList) :
    '\n' ∈ label.toList ∨ ∃ part ∈ issue.told, '\n' ∈ part.toList := by
  unfold message at h
  cases issue with
  | malformed reason => simpa [told] using h
  | notMap => exact .inl (by simpa using h)
  | unknownKeys keys =>
    have h : '\n' ∈ label.toList ∨ '\n' ∈ (String.intercalate ", " keys).toList := by
      simpa using h
    exact h.imp_right fun h => (mem_intercalate h).resolve_left (by decide)
  | notInteger key => simpa [told] using h
  | tooSmall key least => simpa [told, not_mem_repr] using h
  | notBool key => simpa [told] using h

end SettingsIssue

namespace Settings

variable {entries : Entries} {settings : Settings} {load : Loader} {text : String}

/-! ## Steps of reading -/

section Steps

variable {α β ε : Type} {first : Except ε α} {next : α → Except ε β}

/-- Two steps yield a value exactly if both do. -/
theorem bind_eq_ok_iff {value : β} :
    (first >>= next) = .ok value ↔ ∃ found, first = .ok found ∧ next found = .ok value := by
  cases first <;> simp [bind, Except.bind]

/-- Two steps fail exactly if the first one does, or the second one after it. -/
theorem bind_eq_error_iff {fault : ε} : (first >>= next) = .error fault ↔
    first = .error fault ∨ ∃ found, first = .ok found ∧ next found = .error fault := by
  cases first <;> simp [bind, Except.bind]

end Steps

/-! ## Values of settings -/

/-- The value under a name, or the usual one where there is none. -/
def valueOr (entries : Entries) (name : String) (usual : Value) :
    Value :=
  (valueOf? entries name).getD usual

/-- A whole number is read exactly if it is the value under the name and not too small. -/
theorem integerOr_eq_ok_iff {name : String} {least usual value : Int} (h : least ≤ usual) :
    integerOr entries name least usual = .ok value ↔
      valueOr entries name (.integer usual) = .integer value ∧ least ≤ value := by
  unfold integerOr valueOr refuse
  split <;> rename_i hv <;> rw [hv]
  · simp only [Option.getD_none, Except.ok.injEq, Value.integer.injEq]
    exact ⟨fun he => ⟨he, he ▸ h⟩, And.left⟩
  · rename_i found
    split
    · simp only [reduceCtorEq, Option.getD_some, Value.integer.injEq, false_iff]
      omega
    · simp only [Except.ok.injEq, Option.getD_some, Value.integer.injEq]
      omega
  · rename_i found hi
    simp only [reduceCtorEq, Option.getD_some, false_iff]
    rintro ⟨rfl, -⟩
    exact hi value rfl

/-- A truth value is read exactly if it is the value under the name. -/
theorem boolOr_eq_ok_iff {name : String} {usual value : Bool} :
    boolOr entries name usual = .ok value ↔
      valueOr entries name (.bool usual) = .bool value := by
  unfold boolOr valueOr refuse
  split <;> rename_i hv <;> rw [hv]
  · simp only [Option.getD_none, Except.ok.injEq, Value.bool.injEq]
  · simp only [Except.ok.injEq, Option.getD_some, Value.bool.injEq]
  · rename_i found hi
    simp only [reduceCtorEq, Option.getD_some, false_iff]
    rintro rfl
    exact hi value rfl

/-- Where no whole number is read, the text is refused with the name of the setting. -/
theorem integerOr_refuses {name : String} {least usual : Int} {fault : SettingsFault}
    (h : integerOr entries name least usual = .error fault) :
    ∃ issue, fault = .refused issue ∧ issue.told = [name] := by
  unfold integerOr refuse at h
  repeat' split at h
  all_goals cases h
  all_goals exact ⟨_, rfl, rfl⟩

/-- Where no truth value is read, the text is refused with the name of the setting. -/
theorem boolOr_refuses {name : String} {usual : Bool} {fault : SettingsFault}
    (h : boolOr entries name usual = .error fault) :
    ∃ issue, fault = .refused issue ∧ issue.told = [name] := by
  unfold boolOr refuse at h
  repeat' split at h
  all_goals cases h
  all_goals exact ⟨_, rfl, rfl⟩

/-! ## Keys -/

/-- A key is a number with more digits than are written. -/
def Key.IsUnwritable (key : Key) : Prop :=
  ∃ number : Int, key = .integer number ∧ Number.digitLimit < (toString number.natAbs).length

/-- A key cannot be shown exactly if it is a number with too many digits. -/
theorem Key.shown_eq_error_iff {key : Key} : (∃ fault, key.shown = .error fault) ↔
    key.IsUnwritable := by
  cases key with
  | integer number =>
    simp only [shown, Number.write, IsUnwritable, integer.injEq, exists_eq_left']
    split <;> simp_all
  | text name => exact ⟨nofun, nofun⟩
  | other shown => exact ⟨nofun, nofun⟩

/-- There are texts for all keys unless there is none for one of them. -/
theorem mapM_shown_eq_error_iff {keys : List Key} :
    (∃ fault, keys.mapM Key.shown = .error fault) ↔ ∃ key ∈ keys, key.IsUnwritable := by
  induction keys with
  | nil => simp [pure, Except.pure]
  | cons key rest ih =>
    simp only [List.mapM_cons, List.mem_cons, exists_eq_or_imp]
    rw [← ih, ← Key.shown_eq_error_iff]
    cases key.shown with
    | error fault => simp [bind, Except.bind]
    | ok shown => cases rest.mapM Key.shown <;> simp [bind, Except.bind, pure, Except.pure]

/-- The names of settings are written on one line. -/
theorem not_mem_knownKeys : ∀ name ∈ knownKeys, '\n' ∉ name.toList := by decide

/-- A key that is known is the name of a setting. -/
theorem isKnown_iff {key : Key} :
    isKnown key = true ↔ ∃ name ∈ knownKeys, key = .text name := by
  cases key <;> simp [isKnown]

/-- A key that cannot be shown is no name of a setting. -/
theorem Key.IsUnwritable.isKnown_eq_false {key : Key} (h : key.IsUnwritable) :
    isKnown key = false := by
  obtain ⟨number, rfl, _⟩ := h
  rfl

/-- A text that is read for one of the keys is that of some key. -/
theorem exists_of_mem_mapM_shown {keys : List Key} {texts : List String} {text : String}
    (h : keys.mapM Key.shown = .ok texts) (ht : text ∈ texts) :
    ∃ key ∈ keys, key.shown = .ok text := by
  induction keys generalizing texts with
  | nil =>
    cases h
    exact absurd ht List.not_mem_nil
  | cons key rest ih =>
    rw [List.mapM_cons] at h
    obtain ⟨first, hf, h⟩ := bind_eq_ok_iff.mp h
    obtain ⟨more, hm, h⟩ := bind_eq_ok_iff.mp h
    cases h
    obtain rfl | ht := List.mem_cons.mp ht
    · exact ⟨key, List.mem_cons_self, hf⟩
    · obtain ⟨found, hm, hk⟩ := ih hm ht
      exact ⟨found, List.mem_cons_of_mem key hm, hk⟩

/-! ## Maps -/

/-- Settings are the values that the entries of a map give, each of its kind and not too small. -/
structure Fits (entries : Entries) (settings : Settings) : Prop where
  /-- The count of lines around a diagnostic is a number, usually two. -/
  contextLines : valueOr entries contextLinesKey (.integer 2) = .integer settings.contextLines
  /-- It is not negative. -/
  contextLines_ge : 0 ≤ settings.contextLines
  /-- The limit of errors is a number, usually a hundred. -/
  maxErrors : valueOr entries maxErrorsKey (.integer 100) = .integer settings.maxErrors
  /-- It is positive. -/
  maxErrors_ge : 1 ≤ settings.maxErrors
  /-- Whether warnings make a compilation fail is a truth value, usually they do not. -/
  warningsAsErrors :
    valueOr entries warningsAsErrorsKey (.bool false) = .bool settings.warningsAsErrors
  /-- Whether relationships imply others is a truth value, usually they do. -/
  impliedRelationships :
    valueOr entries impliedRelationshipsKey (.bool true) = .bool settings.impliedRelationships

/-- Settings are those that the entries of a map give: all keys are names of settings, and the
values fit. -/
structure Given (entries : Entries) (settings : Settings) : Prop
    extends Fits entries settings where
  /-- All keys name settings. -/
  known : ∀ entry ∈ entries, ∃ name ∈ knownKeys, entry.1 = .text name

/-- The settings that the values of a map give, whatever its keys are. -/
def valuesOf (entries : Entries) : Except SettingsFault Settings := do
  let contextLines ← integerOr entries contextLinesKey 0 2
  let maxErrors ← integerOr entries maxErrorsKey 1 100
  let warningsAsErrors ← boolOr entries warningsAsErrorsKey false
  let impliedRelationships ← boolOr entries impliedRelationshipsKey true
  return { contextLines, maxErrors, warningsAsErrors, impliedRelationships }

/-- The values of a map give settings exactly if they fit. -/
theorem valuesOf_eq_ok_iff : valuesOf entries = .ok settings ↔ Fits entries settings := by
  have hc : (0 : Int) ≤ 2 := by decide
  have hm : (1 : Int) ≤ 100 := by decide
  simp only [valuesOf, bind_eq_ok_iff, integerOr_eq_ok_iff hc, integerOr_eq_ok_iff hm,
    boolOr_eq_ok_iff]
  constructor
  · rintro ⟨contextLines, hc, maxErrors, hm, _, hw, _, hi, he⟩
    cases he
    exact ⟨hc.1, hc.2, hm.1, hm.2, hw, hi⟩
  · intro h
    exact ⟨_, ⟨h.contextLines, h.contextLines_ge⟩, _, ⟨h.maxErrors, h.maxErrors_ge⟩,
      _, h.warningsAsErrors, _, h.impliedRelationships, rfl⟩

/-- Values that do not fit are refused with the name of a setting. -/
theorem valuesOf_refuses {fault : SettingsFault} (h : valuesOf entries = .error fault) :
    ∃ issue, fault = .refused issue ∧ ∃ name ∈ knownKeys, issue.told = [name] := by
  have named : ∀ name ∈ knownKeys, (∃ issue, fault = .refused issue ∧ issue.told = [name]) →
      ∃ issue, fault = .refused issue ∧ ∃ name ∈ knownKeys, issue.told = [name] :=
    fun name hn ⟨issue, he, hs⟩ => ⟨issue, he, name, hn, hs⟩
  simp only [valuesOf, bind_eq_error_iff] at h
  obtain hc | ⟨_, _, hm | ⟨_, _, hw | ⟨_, _, hi | ⟨_, _, hp⟩⟩⟩⟩ := h
  · exact named contextLinesKey (by decide) (integerOr_refuses hc)
  · exact named maxErrorsKey (by decide) (integerOr_refuses hm)
  · exact named warningsAsErrorsKey (by decide) (boolOr_refuses hw)
  · exact named impliedRelationshipsKey (by decide) (boolOr_refuses hi)
  · cases hp

/-- There are no strangers exactly if all keys name settings. -/
theorem strangers_eq_nil_iff : strangers entries = [] ↔
    ∀ entry ∈ entries, ∃ name ∈ knownKeys, entry.1 = .text name := by
  simp only [strangers, List.filter_eq_nil_iff, List.forall_mem_map, Bool.not_eq_true',
    Bool.not_eq_false, isKnown_iff]

/-- A stranger is a key of an entry. -/
theorem exists_of_mem_strangers {key : Key} (h : key ∈ strangers entries) :
    ∃ entry ∈ entries, entry.1 = key :=
  List.mem_map.mp (List.mem_filter.mp h).1

/-- The keys that cannot be shown are strangers. -/
theorem exists_strangers_iff : (∃ key ∈ strangers entries, key.IsUnwritable) ↔
    ∃ entry ∈ entries, entry.1.IsUnwritable := by
  constructor
  · rintro ⟨key, hm, hk⟩
    obtain ⟨entry, he, rfl⟩ := exists_of_mem_strangers hm
    exact ⟨entry, he, hk⟩
  · rintro ⟨entry, he, hk⟩
    exact ⟨entry.1, List.mem_filter.mpr ⟨List.mem_map_of_mem he, by rw [hk.isKnown_eq_false]; rfl⟩,
      hk⟩

/-- Without strangers the values of a map decide. -/
theorem ofEntries_of_known (h : strangers entries = []) : ofEntries entries = valuesOf entries := by
  unfold ofEntries
  rw [h]
  rfl

/-- With strangers a map is refused, and the message shows them, unless one cannot be shown. -/
theorem ofEntries_of_strangers (h : strangers entries ≠ []) :
    (∃ fault, (strangers entries).mapM Key.shown = .error fault ∧
      ofEntries entries = .error (.number fault)) ∨
    ∃ keys, (strangers entries).mapM Key.shown = .ok keys ∧
      ofEntries entries = .error (.refused (.unknownKeys
        (keys.mergeSort fun first second => decide (first ≤ second)))) := by
  unfold ofEntries
  cases hk : (strangers entries).mapM Key.shown with
  | error fault => exact .inl ⟨fault, rfl, rfl⟩
  | ok keys =>
    -- The list of texts is as long as the list of keys, so it is not empty.
    have hne : keys.isEmpty = false := by
      obtain ⟨key, rest, hs⟩ := List.exists_cons_of_ne_nil h
      rw [hs, List.mapM_cons, bind_eq_ok_iff] at hk
      obtain ⟨shown, -, hk⟩ := hk
      obtain ⟨more, -, hk⟩ := bind_eq_ok_iff.mp hk
      cases hk
      rfl
    refine .inr ⟨keys, rfl, ?_⟩
    change (if (!keys.isEmpty) = true then _ else _) = _
    rw [hne]
    rfl

/-- A map gives settings exactly if all its keys name settings and its values fit. -/
theorem ofEntries_eq_ok_iff : ofEntries entries = .ok settings ↔ Given entries settings := by
  by_cases hs : strangers entries = []
  · rw [ofEntries_of_known hs, valuesOf_eq_ok_iff]
    exact ⟨fun h => ⟨h, strangers_eq_nil_iff.mp hs⟩, Given.toFits⟩
  · constructor
    · intro h
      obtain ⟨_, -, he⟩ | ⟨_, -, he⟩ := ofEntries_of_strangers hs <;> rw [he] at h <;> cases h
    · intro h
      exact absurd (strangers_eq_nil_iff.mpr h.known) hs

/-- The entries of a map never break off loading. -/
theorem ofEntries_ne_broken {reason : String} : ofEntries entries ≠ .error (.broken reason) := by
  intro h
  by_cases hs : strangers entries = []
  · rw [ofEntries_of_known hs] at h
    obtain ⟨_, hi, _⟩ := valuesOf_refuses h
    cases hi
  · obtain ⟨_, -, he⟩ | ⟨_, -, he⟩ := ofEntries_of_strangers hs <;> rw [he] at h <;> cases h

/-- A map is not read at all exactly if a key cannot be shown. -/
theorem ofEntries_crashes_iff : (∃ fault, ofEntries entries = .error (.number fault)) ↔
    ∃ entry ∈ entries, entry.1.IsUnwritable := by
  rw [← exists_strangers_iff, ← mapM_shown_eq_error_iff]
  by_cases hs : strangers entries = []
  · rw [ofEntries_of_known hs, hs]
    constructor
    · rintro ⟨fault, h⟩
      obtain ⟨_, hi, _⟩ := valuesOf_refuses h
      cases hi
    · rintro ⟨fault, h⟩
      cases h
  · obtain ⟨fault, hk, he⟩ | ⟨keys, hk, he⟩ := ofEntries_of_strangers hs <;> rw [he, hk]
    · exact ⟨fun _ => ⟨fault, rfl⟩, fun _ => ⟨_, rfl⟩⟩
    · exact ⟨nofun, nofun⟩

/-! ## Texts -/

/-- A text means some settings: it holds nothing and they are the usual ones, or it holds a map that
gives them. -/
inductive Means (load : Loader) (text : String) : Settings → Prop
  | usual (empty : load text = .ok .nothing) : Means load text {}
  | entries {entries : Entries} {settings : Settings}
    (holds : load text = .ok (.mapping entries)) (given : Given entries settings) :
    Means load text settings

/-- A text breaks the reading of settings: it holds a map with a key that cannot be shown. -/
def Breaks (load : Loader) (text : String) : Prop :=
  ∃ entries, load text = .ok (.mapping entries) ∧ ∃ entry ∈ entries, entry.1.IsUnwritable

/-- The numbers of settings that a text means are not too small. -/
theorem Means.bounds (h : Means load text settings) :
    0 ≤ settings.contextLines ∧ 1 ≤ settings.maxErrors := by
  cases h with
  | usual _ => decide
  | entries _ given => exact ⟨given.contextLines_ge, given.maxErrors_ge⟩

/-- A text gives exactly the settings that it means. -/
theorem ofText_eq_ok_iff : ofText load text = .ok settings ↔ Means load text settings := by
  unfold ofText refuse
  constructor
  · intro h
    split at h
    case h_3 hc =>
      cases h
      exact .usual hc
    case h_4 entries hc => exact .entries hc (ofEntries_eq_ok_iff.mp h)
    all_goals cases h
  · rintro (hc | ⟨hc, hg⟩)
    · rw [hc]
    · rw [hc]
      exact ofEntries_eq_ok_iff.mpr hg

/-- A number is not written exactly if the text breaks the reading. -/
theorem ofText_eq_number_iff :
    (∃ fault, ofText load text = .error (.number fault)) ↔ Breaks load text := by
  unfold ofText refuse Breaks
  split <;> rename_i hc <;> simp only [hc]
  case h_4 entries => simpa using ofEntries_crashes_iff
  all_goals simp

/-- Reading breaks off only where loading does. -/
theorem ofText_ne_broken (h : load.Steady) {reason : String} :
    ofText load text ≠ .error (.broken reason) := by
  unfold ofText refuse
  split
  case h_2 hc => exact absurd hc (h text _)
  case h_4 => exact ofEntries_ne_broken
  all_goals nofun

/-- A text tells something on several lines: the reason why it is no YAML, or a key of the map that
it holds. -/
inductive TellsLines (load : Loader) (text : String) : Prop
  | reason {reason : String} (malformed : load text = .error (.malformed reason))
    (mem : '\n' ∈ reason.toList) : TellsLines load text
  | key {entries : Entries} {entry : Key × Value} {shown : String}
    (holds : load text = .ok (.mapping entries)) (entry_mem : entry ∈ entries)
    (shows : entry.1.shown = .ok shown) (mem : '\n' ∈ shown.toList) : TellsLines load text

/-- What a text is refused with is written on one line, as long as what the text is called and what
it tells are. -/
theorem mem_message_of_ofText {label : String} {issue : SettingsIssue}
    (h : ofText load text = .error (.refused issue)) (hm : '\n' ∈ (issue.message label).toList) :
    '\n' ∈ label.toList ∨ TellsLines load text := by
  refine (SettingsIssue.mem_message hm).imp_right fun ⟨part, hp, hl⟩ => ?_
  unfold ofText refuse at h
  split at h
  case h_1 reason hc =>
    cases h
    obtain rfl := List.mem_singleton.mp hp
    exact .reason hc hl
  case h_4 entries hc =>
    by_cases hs : strangers entries = []
    · rw [ofEntries_of_known hs] at h
      obtain ⟨_, he, name, hn, hone⟩ := valuesOf_refuses h
      cases he
      rw [hone, List.mem_singleton] at hp
      exact absurd (hp ▸ hl) (not_mem_knownKeys name hn)
    · obtain ⟨_, -, he⟩ | ⟨keys, hkeys, he⟩ := ofEntries_of_strangers hs <;>
        rw [he] at h <;> cases h
      obtain ⟨key, hk, hshown⟩ := exists_of_mem_mapM_shown hkeys (List.mem_mergeSort.mp hp)
      obtain ⟨entry, hentry, rfl⟩ := exists_of_mem_strangers hk
      exact .key hc hentry hshown hl
  all_goals cases h
  exact absurd hp List.not_mem_nil

end Settings

end Blueprint
