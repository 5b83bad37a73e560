import Mathlib.Data.List.Infix
import Blueprint.Command.Run
import Blueprint.Proofs.Settings.Reader
import Blueprint.Proofs.Text.Decoded

/-!
# Runs and their settings

Before a source is compiled its settings are read, from the file that is named or from the nearest
file with the usual name. Settings are read, or a problem with them is printed and the run fails.
But a run breaks off if the file with settings is no UTF-8, if a key with too many digits is to be
shown, if the path that is named holds the character U+0000, or if the path to look at first is too
long. How YAML is loaded is left open, as long as loading never breaks off.
-/

namespace Blueprint.Command

open Settings (Loader Means Breaks TellsLines)

variable {load : Loader} {view : FileView} {config : Option String} {directory place : List String}
  {bytes : ByteArray} {label text : String} {settings : Settings}

/-! ## The file with settings -/

/-- A file with settings stands in a directory. -/
def HasSettings (view : FileView) (directory : List String) (bytes : ByteArray) : Prop :=
  view.at? (directory ++ [settingsName]) = some (.file bytes)

/-- A directory has a file with settings, and none has one on the way from there to another. -/
structure IsNearest (view : FileView) (directory above : List String) (bytes : ByteArray) :
    Prop where
  /-- The directory is the other one, or above it. -/
  above_prefix : above <+: directory
  /-- It has a file with settings. -/
  has : HasSettings view above bytes
  /-- No directory nearer to the other one has a file with settings. -/
  nearest : ∀ further, further <+: directory → above.length < further.length →
    ∀ other, ¬HasSettings view further other

/-- The nearest file to a directory stands in it, or it is the nearest one to the directory above
and there is none in the directory itself. -/
theorem isNearest_concat_iff {name : String} {above : List String} :
    IsNearest view (directory ++ [name]) above bytes ↔
      above = directory ++ [name] ∧ HasSettings view above bytes ∨
        (∀ other, ¬HasSettings view (directory ++ [name]) other) ∧
          IsNearest view directory above bytes := by
  constructor
  · intro h
    obtain he | hp := List.prefix_concat_iff.mp h.above_prefix
    · exact .inl ⟨he, h.has⟩
    · have hl : above.length < (directory ++ [name]).length := by
        have := hp.length_le
        rw [List.length_append, List.length_singleton]
        omega
      exact .inr ⟨h.nearest _ (List.prefix_refl _) hl,
        hp, h.has, fun further hf => h.nearest further (hf.trans (List.prefix_append _ _))⟩
  · rintro (⟨rfl, hh⟩ | ⟨hn, h⟩)
    · exact ⟨List.prefix_refl _, hh, fun further hf hl => absurd hf.length_le (by omega)⟩
    · refine ⟨h.above_prefix.trans (List.prefix_append _ _), h.has, fun further hf hl => ?_⟩
      obtain rfl | hf := List.prefix_concat_iff.mp hf
      · exact hn
      · exact h.nearest further hf hl

/-- The nearest file to the root is the one there. -/
theorem isNearest_nil_iff {above : List String} :
    IsNearest view [] above bytes ↔ above = [] ∧ HasSettings view above bytes := by
  constructor
  · exact fun h => ⟨List.prefix_nil.mp h.above_prefix, h.has⟩
  · rintro ⟨rfl, hh⟩
    exact ⟨List.prefix_refl _, hh, fun further hf hl => absurd hf.length_le (by omega)⟩

/-- The octets at a place are those of the file there. -/
theorem fileAt?_eq_some_iff {found : List String × ByteArray} :
    fileAt? view place = some found ↔ found.1 = place ∧ view.at? place = some (.file found.2) := by
  unfold fileAt?
  split
  · rename_i bytes hb
    rw [hb]
    constructor
    · rintro ⟨⟩
      exact ⟨rfl, rfl⟩
    · obtain ⟨first, second⟩ := found
      rintro ⟨rfl, ⟨⟩⟩
      rfl
  · rename_i hb
    exact ⟨nofun, fun ⟨_, hf⟩ => absurd hf (hb _)⟩

/-- At the root there is one place. -/
theorem settingsPlaces_nil : settingsPlaces [] = [[settingsName]] := rfl

/-- The first place is in the directory itself, and the others are those for the one above it. -/
theorem settingsPlaces_concat (name : String) : settingsPlaces (directory ++ [name]) =
    (directory ++ [name] ++ [settingsName]) :: settingsPlaces directory := by
  unfold settingsPlaces
  rw [List.length_append, List.length_singleton, List.range_succ_eq_map, List.map_cons,
    List.map_map, Nat.sub_zero, List.take_of_length_le (by simp)]
  refine congrArg _ (List.map_congr_left fun up _ => ?_)
  have hu : directory.length + 1 - (up + 1) = directory.length - up := by omega
  rw [Function.comp, hu, List.take_append_of_le_length (by omega)]

/-- There is no file at a place exactly if there are no octets of one. -/
theorem fileAt?_eq_none_iff :
    fileAt? view place = none ↔ ∀ bytes, view.at? place ≠ some (.file bytes) := by
  rw [Option.eq_none_iff_forall_ne_some]
  constructor
  · exact fun h bytes hb => h (place, bytes) (fileAt?_eq_some_iff.mpr ⟨rfl, hb⟩)
  · exact fun h found hf => h found.2 (fileAt?_eq_some_iff.mp hf).2

/-- The file that is found is the nearest one. -/
theorem findSome?_eq_some_iff {found : List String × ByteArray} :
    (settingsPlaces directory).findSome? (fileAt? view) = some found ↔
      ∃ above, IsNearest view directory above found.2 ∧ found.1 = above ++ [settingsName] := by
  induction directory using List.reverseRecOn with
  | nil =>
    rw [settingsPlaces_nil, List.findSome?_singleton, fileAt?_eq_some_iff]
    simp only [isNearest_nil_iff]
    constructor
    · exact fun ⟨he, hf⟩ => ⟨[], ⟨rfl, hf⟩, he⟩
    · rintro ⟨_, ⟨rfl, hf⟩, he⟩
      exact ⟨he, hf⟩
  | append_singleton directory name ih =>
    -- A name at the end of the directory is a place more at the front of the list.
    rw [settingsPlaces_concat, List.findSome?_cons]
    simp only [isNearest_concat_iff]
    cases hf : fileAt? view (directory ++ [name] ++ [settingsName]) with
    | none =>
      have hn : ∀ other, ¬HasSettings view (directory ++ [name]) other := fileAt?_eq_none_iff.mp hf
      constructor
      · intro h
        obtain ⟨above, ha, he⟩ := ih.mp h
        exact ⟨above, .inr ⟨hn, ha⟩, he⟩
      · rintro ⟨above, ⟨rfl, hh⟩ | ⟨-, ha⟩, he⟩
        · exact absurd hh (hn _)
        · exact ih.mpr ⟨above, ha, he⟩
    | some first =>
      obtain ⟨hp, hb⟩ := fileAt?_eq_some_iff.mp hf
      constructor
      · rintro ⟨⟩
        exact ⟨directory ++ [name], .inl ⟨rfl, hb⟩, hp⟩
      · rintro ⟨above, ⟨rfl, hh⟩ | ⟨hn, -⟩, he⟩
        · exact hf.symm.trans (fileAt?_eq_some_iff.mpr ⟨he, hh⟩)
        · exact absurd hb (hn first.2)

/-- The places are those in the directory and the directories above it. -/
theorem mem_settingsPlaces_iff : place ∈ settingsPlaces directory ↔
    ∃ above, above <+: directory ∧ place = above ++ [settingsName] := by
  unfold settingsPlaces
  rw [List.mem_map]
  constructor
  · rintro ⟨up, -, rfl⟩
    exact ⟨_, List.take_prefix _ _, rfl⟩
  · rintro ⟨above, hp, rfl⟩
    refine ⟨directory.length - above.length, List.mem_range.mpr (by omega), ?_⟩
    rw [Nat.sub_sub_self hp.length_le, ← List.prefix_iff_eq_take.mp hp]

/-- No file is found exactly if there is none in the directory and those above it. -/
theorem findSome?_eq_none_iff :
    (settingsPlaces directory).findSome? (fileAt? view) = none ↔
      ∀ above, above <+: directory → ∀ bytes, ¬HasSettings view above bytes := by
  rw [List.findSome?_eq_none_iff]
  constructor
  · intro h above hp
    exact fileAt?_eq_none_iff.mp (h _ (mem_settingsPlaces_iff.mpr ⟨above, hp, rfl⟩))
  · intro h found hm
    obtain ⟨above, hp, rfl⟩ := mem_settingsPlaces_iff.mp hm
    exact fileAt?_eq_none_iff.mpr (h above hp)

/-! ## What a file gives -/

/-- The octets of a file break the reading of settings: they are no UTF-8, or their text breaks
it. -/
inductive Spoils (load : Loader) (bytes : ByteArray) : Prop
  | encoding (invalid : ¬bytes.IsValidUTF8) : Spoils load bytes
  | text {text : String} (decoded : fileText bytes = .ok text) (breaks : Breaks load text) :
    Spoils load bytes

/-- The octets of a file are no text exactly if they are no UTF-8. -/
theorem fileText_eq_error_iff : (∃ fault, fileText bytes = .error fault) ↔ ¬bytes.IsValidUTF8 := by
  rw [← Text.Utf8.decode_eq_error_iff]
  unfold fileText
  cases Text.Utf8.decode bytes with
  | error fault => exact ⟨fun _ => ⟨fault, rfl⟩, fun _ => ⟨fault, rfl⟩⟩
  | ok characters => exact ⟨nofun, nofun⟩

/-- The octets of a text are read as that text, with the line ends of one system. -/
theorem fileText_toUTF8 (written : String) : fileText written.toUTF8 =
    .ok (String.ofList (Text.Utf8.unifyLineEnds written.toList)) := by
  have hd : Text.Utf8.decode written.toUTF8 = .ok written.toList :=
    Text.Utf8.decode_eq_ok_iff.mpr String.utf8Encode_toList.symm
  unfold fileText
  rw [hd]
  rfl

/-- A file gives exactly the settings that its text means. -/
theorem settingsOf_eq_ok_iff : settingsOf load label bytes = .ok settings ↔
    ∃ text, fileText bytes = .ok text ∧ Means load text settings := by
  simp only [← Settings.ofText_eq_ok_iff]
  unfold settingsOf
  cases ht : fileText bytes with
  | error fault => exact ⟨nofun, nofun⟩
  | ok text =>
    simp only [Except.ok.injEq, exists_eq_left']
    split <;> rename_i hs <;> rw [hs]
    · exact ⟨fun h => by cases h; rfl, fun h => by cases h; rfl⟩
    all_goals exact ⟨nofun, nofun⟩

/-- A problem with a file is one with its text. -/
theorem settingsOf_eq_problem_iff {message : String} :
    settingsOf load label bytes = .error (.problem message) ↔
      ∃ text issue, fileText bytes = .ok text ∧
        Settings.ofText load text = .error (.refused issue) ∧ message = issue.message label := by
  unfold settingsOf
  cases ht : fileText bytes with
  | error fault => exact ⟨nofun, nofun⟩
  | ok text =>
    simp only [Except.ok.injEq, exists_and_left, exists_eq_left']
    split <;> rename_i hs <;> simp only [hs]
    case h_2 =>
      simp only [Except.error.injEq, SettingsFault.refused.injEq, exists_eq_left', eq_comm,
        Failure.problem.injEq]
    all_goals exact ⟨nofun, fun ⟨_, he, _⟩ => nomatch he⟩

/-- A file is not read at all exactly if its octets break the reading. -/
theorem settingsOf_crashes_iff (steady : load.Steady) :
    (∃ crash, settingsOf load label bytes = .error (.crash crash)) ↔ Spoils load bytes := by
  constructor
  · rintro ⟨crash, h⟩
    unfold settingsOf at h
    split at h
    · rename_i fault hf
      exact .encoding (fileText_eq_error_iff.mp ⟨fault, hf⟩)
    · rename_i text ht
      split at h
      case h_3 fault hs => exact .text ht (Settings.ofText_eq_number_iff.mp ⟨fault, hs⟩)
      case h_4 reason hs => exact absurd hs (Settings.ofText_ne_broken steady)
      all_goals cases h
  · rintro (hi | ⟨ht, hb⟩)
    · obtain ⟨fault, hf⟩ := fileText_eq_error_iff.mpr hi
      exact ⟨.encoding fault, by simp only [settingsOf, hf]⟩
    · obtain ⟨fault, hs⟩ := Settings.ofText_eq_number_iff.mpr hb
      exact ⟨.number fault, by simp only [settingsOf, ht, hs]⟩

/-! ## What a choice of a file gives -/

/-- The path of a file with settings in a directory is not too long to be looked at. -/
def InReach (directory : List String) : Prop :=
  (placeText (directory ++ [settingsName])).utf8ByteSize ≤ Path.lengthLimit

instance : Decidable (InReach directory) := Nat.decLe _ _

/-- A choice of settings selects the octets of a file, which is called by a label: the file that is
named, or the nearest one. -/
inductive Selects (view : FileView) (directory : List String) :
    Option String → String → ByteArray → Prop
  | named {name : String} {place : List String} {bytes : ByteArray}
    (found : view.locate (.ofString name) = .file place bytes) :
    Selects view directory (some name) (Path.ofString name).text bytes
  | nearest {above : List String} {bytes : ByteArray}
    (reached : InReach directory) (found : IsNearest view directory above bytes) :
    Selects view directory none (placeText (above ++ [settingsName])) bytes

/-- No directory from one up to the root has a file with settings. -/
def Unsettled (view : FileView) (directory : List String) : Prop :=
  ∀ above, above <+: directory → ∀ bytes, ¬HasSettings view above bytes

/-- A path leads to no file, and a message says so. -/
inductive Astray (view : FileView) (path : Path) : String → Prop
  | missing (found : view.locate path = .missing) :
    Astray view path ("Config file not found: " ++ path.text)
  | notDirectory (found : view.locate path = .notDirectory) :
    Astray view path ("Cannot read config file: " ++ pathProblem "[Errno 20] Not a directory" path)
  | directory {place : List String} (found : view.locate path = .directory place) :
    Astray view path ("Cannot read config file: " ++ pathProblem "[Errno 21] Is a directory" path)
  | tooLong (found : view.locate path = .tooLong) :
    Astray view path ("Cannot read config file: " ++ pathProblem longPathReason path)

/-- Settings are chosen for a source in a directory: they are read from the file that is selected,
or they are the usual ones because there is no file. -/
inductive Chosen (load : Loader) (view : FileView) (directory : List String) :
    Option String → Settings → Prop
  | read {config : Option String} {label text : String} {bytes : ByteArray} {settings : Settings}
    (selects : Selects view directory config label bytes) (decoded : fileText bytes = .ok text)
    (means : Means load text settings) : Chosen load view directory config settings
  | usual (reached : InReach directory) (unsettled : Unsettled view directory) :
    Chosen load view directory none {}

/-- Settings are refused with a message: the path leads to no file, or the text of the file that is
selected is refused. -/
inductive Refused (load : Loader) (view : FileView) (directory : List String) :
    Option String → String → Prop
  | astray {name message : String} (astray : Astray view (.ofString name) message) :
    Refused load view directory (some name) message
  | text {config : Option String} {label text : String} {bytes : ByteArray} {issue : SettingsIssue}
    (selects : Selects view directory config label bytes) (decoded : fileText bytes = .ok text)
    (refused : Settings.ofText load text = .error (.refused issue)) :
    Refused load view directory config (issue.message label)

/-- Settings are lost: the path is none, or the one to look at first is too long, or the octets of
the file that is selected break the reading. -/
inductive Lost (load : Loader) (view : FileView) (directory : List String) : Option String → Prop
  | path {name : String} (nul : (Path.ofString name).holdsNul = true) :
    Lost load view directory (some name)
  | far (unreached : ¬InReach directory) : Lost load view directory none
  | file {config : Option String} {label : String} {bytes : ByteArray}
    (selects : Selects view directory config label bytes) (spoils : Spoils load bytes) :
    Lost load view directory config

/-- Following names never comes to a path that is none. -/
theorem follow_ne_noPath (names : List String) : view.follow place names ≠ .noPath := by
  induction names generalizing place with
  | nil =>
    unfold FileView.follow
    split <;> nofun
  | cons name names ih =>
    unfold FileView.follow
    split
    · split
      · nofun
      · exact ih
    · nofun
    · nofun

/-- A path is none exactly if it holds U+0000. -/
theorem locate_eq_noPath_iff {path : Path} :
    view.locate path = .noPath ↔ path.holdsNul = true := by
  unfold FileView.locate
  split
  · rename_i h
    exact ⟨fun _ => h, fun _ => rfl⟩
  · rename_i h
    refine ⟨fun he => ?_, fun he => absurd he h⟩
    split at he
    · cases he
    · exact absurd he (follow_ne_noPath _)

/-- What a choice of settings comes to: what the file that is selected gives, the usual settings, a
problem with the path, or a crash. -/
inductive Choice (load : Loader) (view : FileView) (directory : List String) :
    Option String → Except Failure Settings → Prop
  | file {config : Option String} {label : String} {bytes : ByteArray}
    {result : Except Failure Settings} (selects : Selects view directory config label bytes)
    (gives : settingsOf load label bytes = result) : Choice load view directory config result
  | usual (reached : InReach directory) (unsettled : Unsettled view directory) :
    Choice load view directory none (.ok {})
  | far (unreached : ¬InReach directory) : Choice load view directory none
    (.error (.crash (.longPath ⟨"/", directory ++ [settingsName]⟩)))
  | astray {name message : String} (astray : Astray view (.ofString name) message) :
    Choice load view directory (some name) (.error (.problem message))
  | path {name : String} (nul : (Path.ofString name).holdsNul = true) :
    Choice load view directory (some name) (.error (.crash .noPath))

/-- The settings for a source are what the choice of settings comes to. -/
theorem choice_settingsFor (view : FileView) (directory : List String) (config : Option String) :
    Choice load view directory config (settingsFor load view config directory) := by
  cases config with
  | none =>
    simp only [settingsFor, nearestSettings]
    split
    case isTrue hlong => exact .far (Nat.not_le_of_lt hlong)
    case isFalse hlong =>
      have hr : InReach directory := Nat.le_of_not_lt hlong
      cases hf : (settingsPlaces directory).findSome? (fileAt? view) with
      | none => exact .usual hr (findSome?_eq_none_iff.mp hf)
      | some found =>
        obtain ⟨above, ha, he⟩ := findSome?_eq_some_iff.mp hf
        simp only [he]
        exact .file (.nearest hr ha) rfl
  | some name =>
    cases hl : view.locate (.ofString name) <;> simp only [settingsFor, namedSettings, hl]
    case missing => exact .astray (.missing hl)
    case notDirectory => exact .astray (.notDirectory hl)
    case directory => exact .astray (.directory hl)
    case tooLong => exact .astray (.tooLong hl)
    case noPath => exact .path (locate_eq_noPath_iff.mp hl)
    case file => exact .file (.named hl) rfl

/-- The settings for a source are a result exactly if the choice of settings comes to it. -/
theorem settingsFor_eq_iff {result : Except Failure Settings} :
    settingsFor load view config directory = result ↔ Choice load view directory config result := by
  refine ⟨fun h => h ▸ choice_settingsFor view directory config, fun h => ?_⟩
  cases h with
  | file hs hg =>
    cases hs with
    | named found => simp only [settingsFor, namedSettings, found, hg]
    | nearest reached found =>
      have hf := findSome?_eq_some_iff.mpr ⟨_, found, (rfl : (_, _).1 = _)⟩
      simp only [settingsFor, nearestSettings, if_neg (Nat.not_lt_of_le reached), hf, hg]
  | usual hr hu =>
    simp only [settingsFor, nearestSettings, if_neg (Nat.not_lt_of_le hr),
      findSome?_eq_none_iff.mpr hu]
  | far hr => simp only [settingsFor, nearestSettings, if_pos (Nat.lt_of_not_le hr)]
  | astray ha => cases ha <;> simp only [settingsFor, namedSettings, *]
  | path hn => simp only [settingsFor, namedSettings, locate_eq_noPath_iff.mpr hn]

/-- Settings are read exactly if they are chosen. -/
theorem settingsFor_eq_ok_iff :
    settingsFor load view config directory = .ok settings ↔
      Chosen load view directory config settings := by
  rw [settingsFor_eq_iff]
  constructor
  · intro h
    cases h with
    | file hs hg =>
      obtain ⟨text, ht, hm⟩ := settingsOf_eq_ok_iff.mp hg
      exact .read hs ht hm
    | usual hr hu => exact .usual hr hu
  · rintro (⟨hs, ht, hm⟩ | ⟨hr, hu⟩)
    · exact .file hs (settingsOf_eq_ok_iff.mpr ⟨_, ht, hm⟩)
    · exact .usual hr hu

/-- A problem with settings is printed exactly if they are refused. -/
theorem settingsFor_eq_problem_iff {message : String} :
    settingsFor load view config directory = .error (.problem message) ↔
      Refused load view directory config message := by
  rw [settingsFor_eq_iff]
  constructor
  · intro h
    cases h with
    | file hs hg =>
      obtain ⟨text, issue, ht, hr, rfl⟩ := settingsOf_eq_problem_iff.mp hg
      exact .text hs ht hr
    | astray ha => exact .astray ha
  · rintro (ha | ⟨hs, ht, hr⟩)
    · exact .astray ha
    · exact .file hs (settingsOf_eq_problem_iff.mpr ⟨_, _, ht, hr, rfl⟩)

/-- Settings are not read at all exactly if they are lost. -/
theorem settingsFor_crashes_iff (steady : load.Steady) :
    (∃ crash, settingsFor load view config directory = .error (.crash crash)) ↔
      Lost load view directory config := by
  simp only [settingsFor_eq_iff]
  constructor
  · rintro ⟨crash, h⟩
    cases h with
    | file hs hg => exact .file hs ((settingsOf_crashes_iff steady).mp ⟨crash, hg⟩)
    | far hr => exact .far hr
    | path hn => exact .path hn
  · rintro (hn | hr | ⟨hs, hp⟩)
    · exact ⟨.noPath, .path hn⟩
    · exact ⟨_, .far hr⟩
    · obtain ⟨crash, hg⟩ := (settingsOf_crashes_iff steady).mpr hp
      exact ⟨crash, .file hs hg⟩

/-- The numbers of settings that are chosen are not too small. -/
theorem Chosen.bounds (h : Chosen load view directory config settings) :
    0 ≤ settings.contextLines ∧ 1 ≤ settings.maxErrors := by
  cases h with
  | read _ _ means => exact means.bounds
  | usual _ _ => decide

/-! ## Messages on one line -/

/-- What settings are refused with may take several lines: the path does, or the reason why the text
is no YAML, or a key. -/
inductive Folds (load : Loader) (view : FileView) (directory : List String) : Option String → Prop
  | path {name : String} (mem : '\n' ∈ (Path.ofString name).text.toList) :
    Folds load view directory (some name)
  | label {config : Option String} {label : String} {bytes : ByteArray}
    (selects : Selects view directory config label bytes) (mem : '\n' ∈ label.toList) :
    Folds load view directory config
  | text {config : Option String} {label text : String} {bytes : ByteArray}
    (selects : Selects view directory config label bytes) (decoded : fileText bytes = .ok text)
    (tells : TellsLines load text) : Folds load view directory config

/-- What is said of a path that cannot be followed is on one line. -/
theorem not_mem_pathProblem {reason : String} {path : Path} (h : '\n' ∉ reason.toList) :
    '\n' ∉ (pathProblem reason path).toList := by
  have hq := Text.Quoted.not_mem_ofPoints (Text.ofString path.text)
  simp [pathProblem, Text.Quoted.ofString, h, hq]

/-- What settings are refused with is on one line, unless the path, the text or a key is the reason
for several. -/
theorem Refused.folds {message : String} (h : Refused load view directory config message)
    (hm : '\n' ∈ message.toList) : Folds load view directory config := by
  cases h with
  | astray ha =>
    have hquoted : ∀ {reason : String} {path : Path}, '\n' ∉ reason.toList →
        '\n' ∉ ("Cannot read config file: " ++ pathProblem reason path).toList := by
      intro reason path hr
      simp [not_mem_pathProblem hr]
    cases ha with
    | missing => exact .path (by simpa using hm)
    | notDirectory => exact absurd hm (hquoted (by decide))
    | directory => exact absurd hm (hquoted (by decide))
    | tooLong => exact absurd hm (hquoted (by decide))
  | text hs ht hr =>
    obtain hl | hk := Settings.mem_message_of_ofText hr hm
    · exact .label hs hl
    · exact .text hs ht hk

/-! ## Runs -/

/-- What a command prints for a compilation. -/
def printed (verb : Verb) (path : Path) (source : String) (settings : Settings)
    (compilation : Compilation) : Output :=
  match verb with
  | .dump => printWorkspace source settings compilation
  | _ => printProblems path source settings compilation

/-- The exit code is zero or one. -/
theorem printed_exit (verb : Verb) (path : Path) (source : String) (settings : Settings)
    (compilation : Compilation) :
    (printed verb path source settings compilation).exit = 0 ∨
      (printed verb path source settings compilation).exit = 1 := by
  unfold printed printWorkspace printProblems
  repeat' split
  all_goals simp

/-- A problem is printed on the line of an error. -/
theorem ofFailure_problem (message : String) : ofFailure (.problem message) =
    .ok { exit := 1, stderr := "Error: " ++ message ++ "\n" } := by
  simp [ofFailure, lines, String.join]

/-- A source is compiled with the settings that are read first. -/
theorem compileFile_eq_error_iff {path : Path} {failure : Failure} :
    compileFile load view path config place bytes = .error failure ↔
      settingsFor load view config place.dropLast = .error failure ∨
        ∃ settings, settingsFor load view config place.dropLast = .ok settings ∧
          compileBytes path bytes settings = .error failure := by
  unfold compileFile
  rw [Settings.bind_eq_error_iff]
  refine or_congr_right (exists_congr fun settings => and_congr_right fun _ => ?_)
  rw [Settings.bind_eq_error_iff]
  exact ⟨fun h => h.resolve_right (fun ⟨_, _, hn⟩ => nomatch hn), .inl⟩

section Run

variable {verb : Verb} {file : String} {arguments : List String}

/-- A run does what its arguments ask for. -/
theorem run_of_request (h : Request.ofArguments arguments = .run verb file config) :
    run load view arguments = runVerb load view verb file config := by
  unfold run
  rw [h]
  rfl

/-- A command for a file compiles it and prints the outcome. -/
theorem runVerb_of_file (hv : verb ≠ .tokens)
    (h : view.locate (.ofString file) = .file place bytes) :
    runVerb load view verb file config =
      match compileFile load view (.ofString file) config place bytes with
      | .error failure => ofFailure failure
      | .ok (settings, source, compilation) =>
        .ok (printed verb (.ofString file) source settings compilation) := by
  unfold runVerb
  cases verb with
  | tokens => exact absurd rfl hv
  | check => simp only [h]; rfl
  | dump => simp only [h]; rfl

/-- A command that ends has the exit code zero or one. -/
theorem runVerb_exit (hv : verb ≠ .tokens) {output : Output}
    (h : runVerb load view verb file config = .ok output) : output.exit = 0 ∨ output.exit = 1 := by
  cases hl : view.locate (.ofString file) with
  | file place bytes =>
    rw [runVerb_of_file hv hl] at h
    split at h
    · rename_i failure _
      cases failure with
      | problem message =>
        rw [ofFailure_problem] at h
        cases h
        exact .inr rfl
      | crash crash => cases h
    · cases h
      exact printed_exit ..
  | tooLong =>
    simp only [runVerb, hl] at h
    cases h
  | _ =>
    simp only [runVerb, hl, ofFailure_problem] at h
    cases h
    exact .inr rfl

/-- A command crashes for the path of its source, or when the source is compiled. -/
theorem runVerb_eq_error_iff (hv : verb ≠ .tokens) {crash : Crash} :
    runVerb load view verb file config = .error crash ↔
      view.locate (.ofString file) = .tooLong ∧ crash = .longPath (.ofString file) ∨
        ∃ place bytes, view.locate (.ofString file) = .file place bytes ∧
          compileFile load view (.ofString file) config place bytes = .error (.crash crash) := by
  cases hl : view.locate (.ofString file) with
  | file place bytes =>
    rw [runVerb_of_file hv hl]
    simp only [reduceCtorEq, false_and, false_or, Located.file.injEq, and_assoc, exists_eq_left',
      exists_and_left]
    split
    · rename_i failure hc
      cases failure with
      | problem message => simp [ofFailure_problem, hc]
      | crash crash => simp [ofFailure, hc]
    · rename_i hc
      simp [hc]
  | tooLong => simp [runVerb, hl, eq_comm]
  | _ => simp [runVerb, hl, ofFailure_problem]

/-- What holds of a run that compiles a file with settings. -/
structure SettledRun (load : Loader) (view : FileView) (arguments : List String) (file : String)
    (config : Option String) : Prop where
  /-- A run that ends has the exit code zero or one. -/
  exits : ∀ output, run load view arguments = .ok output → output.exit = 0 ∨ output.exit = 1
  /-- Where the source is a file, reading the settings makes the run break off exactly if they are
  lost. -/
  loses_iff : ∀ place bytes, view.locate (.ofString file) = .file place bytes →
    ((∃ crash, settingsFor load view config place.dropLast = .error (.crash crash) ∧
      run load view arguments = .error crash) ↔ Lost load view place.dropLast config)
  /-- A run that breaks off otherwise does so at its source: the path is too long, or the source is
  a file, and its settings are chosen. -/
  breaks : ∀ crash, run load view arguments = .error crash →
    view.locate (.ofString file) = .tooLong ∨
      ∃ place bytes, view.locate (.ofString file) = .file place bytes ∧
        (Lost load view place.dropLast config ∨
          ∃ settings, Chosen load view place.dropLast config settings)
  /-- Settings that are not lost are chosen, and their numbers are not too small, or they are
  refused. -/
  settles : ∀ directory, ¬Lost load view directory config →
    (∃ settings, Chosen load view directory config settings ∧
      0 ≤ settings.contextLines ∧ 1 ≤ settings.maxErrors) ∨
    ∃ message, Refused load view directory config message
  /-- What settings are refused with is printed as an error, and the run fails. -/
  prints : ∀ place bytes message, view.locate (.ofString file) = .file place bytes →
    Refused load view place.dropLast config message →
    run load view arguments = .ok { exit := 1, stderr := "Error: " ++ message ++ "\n" }
  /-- The error is on one line, unless there is a reason for several. -/
  folds : ∀ directory message, Refused load view directory config message → '\n' ∈ message.toList →
    Folds load view directory config

/-- Settings that are not lost are chosen or refused. -/
theorem chosen_or_refused (steady : load.Steady) (h : ¬Lost load view directory config) :
    (∃ settings, Chosen load view directory config settings) ∨
      ∃ message, Refused load view directory config message := by
  cases hs : settingsFor load view config directory with
  | ok settings => exact .inl ⟨settings, settingsFor_eq_ok_iff.mp hs⟩
  | error failure =>
    cases failure with
    | problem message => exact .inr ⟨message, settingsFor_eq_problem_iff.mp hs⟩
    | crash crash => exact absurd ((settingsFor_crashes_iff steady).mp ⟨crash, hs⟩) h

/-- Where loading YAML never breaks off, a run that compiles a file ends with the exit code zero or
one, whatever its settings are, but breaks off if they are lost: else they are chosen, or refused
and the run says so in an error. -/
theorem run_settles (steady : load.Steady)
    (h : Request.ofArguments arguments = .run verb file config)
    (hv : verb ≠ .tokens) : SettledRun load view arguments file config := by
  have hrun : run load view arguments = runVerb load view verb file config := run_of_request h
  refine ⟨fun output ho => runVerb_exit hv (hrun ▸ ho), ?loses, ?breaks, ?settles, ?prints,
    fun _ _ => Refused.folds⟩
  case loses =>
    intro place bytes hl
    rw [← settingsFor_crashes_iff steady]
    refine exists_congr fun crash => and_iff_left_of_imp fun hs => ?_
    rw [hrun, runVerb_eq_error_iff hv]
    exact .inr ⟨place, bytes, hl, compileFile_eq_error_iff.mpr (.inl hs)⟩
  case breaks =>
    intro crash hc
    rw [hrun, runVerb_eq_error_iff hv] at hc
    rcases hc with ⟨hl, -⟩ | ⟨place, bytes, hl, hc⟩
    · exact .inl hl
    · refine .inr ⟨place, bytes, hl, ?_⟩
      rcases compileFile_eq_error_iff.mp hc with hs | ⟨settings, hs, -⟩
      · exact .inl ((settingsFor_crashes_iff steady).mp ⟨crash, hs⟩)
      · exact .inr ⟨settings, settingsFor_eq_ok_iff.mp hs⟩
  case settles =>
    intro directory hlost
    exact (chosen_or_refused steady hlost).imp_left fun ⟨settings, hc⟩ => ⟨settings, hc, hc.bounds⟩
  case prints =>
    intro place bytes message hl hr
    rw [hrun, runVerb_of_file hv hl,
      compileFile_eq_error_iff.mpr (.inl (settingsFor_eq_problem_iff.mpr hr))]
    exact ofFailure_problem message

end Run

/-- A source in the directory `/work`, which is the working one, and a file with settings in a
directory. -/
def withSettings (directory : List String) (bytes : ByteArray) : FileView where
  workingDirectory := ["work"]
  entry? := fun place =>
    if place = ["work"] then some .directory
    else if place = ["work", "a.dsl"] then some (.file "workspace \x7b\n\x7d\n".toUTF8)
    else if place = directory ++ [settingsName] then some (.file bytes)
    else none

/-- Loads a line that gives a whole number to a name; any other text is no YAML to it. -/
def loadLine : Loader := fun text =>
  match Number.read ((text.toList.dropWhile (· ≠ ':')).drop 2).dropLast with
  | .ok value =>
    .ok (.mapping [(.text (String.ofList (text.toList.takeWhile (· ≠ ':'))), .integer value)])
  | .error _ => .error (.malformed "this is no line with a name and a number")

/-- Loading a line never breaks off. -/
theorem loadLine_steady : loadLine.Steady := by
  intro text reason h
  unfold loadLine at h
  split at h <;> cases h

/-- The source is found. -/
theorem locate_withSettings (directory : List String) (bytes : ByteArray) :
    (withSettings directory bytes).locate (.ofString "a.dsl") =
      .file ["work", "a.dsl"] "workspace \x7b\n\x7d\n".toUTF8 := by
  rfl

/-- Settings in the directory above the source are refused for a number that is too small. -/
theorem run_settles_above :
    loadLine.Steady ∧ Request.ofArguments ["check", "a.dsl"] = .run .check "a.dsl" none ∧
      Verb.check ≠ .tokens ∧
      run loadLine (withSettings [] "max-errors: 0\n".toUTF8) ["check", "a.dsl"] =
        .ok
          { exit := 1
            stderr := "Error: /.archdsl.yaml: 'max-errors' must be at least 1\n" } := by
  have hn : IsNearest (withSettings [] "max-errors: 0\n".toUTF8) ["work"] []
      "max-errors: 0\n".toUTF8 := by
    refine ⟨List.nil_prefix, rfl, fun further hf hl other h => ?_⟩
    obtain rfl := hf.eq_of_length (Nat.le_antisymm hf.length_le hl)
    cases h
  have hr : Refused loadLine (withSettings [] "max-errors: 0\n".toUTF8) ["work"] none
      (SettingsIssue.message "/.archdsl.yaml" (.tooSmall "max-errors" 1)) :=
    .text (.nearest (by decide) hn) (fileText_toUTF8 _) (by decide +kernel)
  refine ⟨loadLine_steady, rfl, by decide, ?_⟩
  exact (run_settles loadLine_steady rfl (by decide)).prints _ _ _ (locate_withSettings _ _) hr

/-- Settings that are no UTF-8 make a run break off. -/
theorem run_undecodable :
    Request.ofArguments ["check", "a.dsl"] = .run .check "a.dsl" none ∧
      run loadLine (withSettings ["work"] ⟨#[0xFF]⟩) ["check", "a.dsl"] =
        .error (.encoding ⟨0, 0xFF, 1, .invalidStart⟩) := by
  have hd : Text.Utf8.decode ⟨#[0xFF]⟩ = .error ⟨0, 0xFF, 1, .invalidStart⟩ := by
    unfold Text.Utf8.decode
    rw [Text.Utf8.toList_eq]
    rfl
  have hn : IsNearest (withSettings ["work"] ⟨#[0xFF]⟩) ["work"] ["work"] ⟨#[0xFF]⟩ :=
    ⟨List.prefix_refl _, rfl, fun further hf hl => absurd hf.length_le (by omega)⟩
  have hg : settingsOf loadLine "/work/.archdsl.yaml" ⟨#[0xFF]⟩ =
      .error (.crash (.encoding ⟨0, 0xFF, 1, .invalidStart⟩)) := by
    unfold settingsOf fileText
    rw [hd]
    rfl
  have hs : settingsFor loadLine (withSettings ["work"] ⟨#[0xFF]⟩) none ["work"] =
      .error (.crash (.encoding ⟨0, 0xFF, 1, .invalidStart⟩)) :=
    settingsFor_eq_iff.mpr (.file (.nearest (by decide) hn) hg)
  have hq : Request.ofArguments ["check", "a.dsl"] = .run .check "a.dsl" none := rfl
  rw [run_of_request hq, runVerb_eq_error_iff (by decide)]
  exact ⟨hq, .inr ⟨_, _, locate_withSettings _ _, compileFile_eq_error_iff.mpr (.inl hs)⟩⟩

end Blueprint.Command
