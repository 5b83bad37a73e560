import Blueprint.Number.Numeral

/-!
# Settings and their reading

Settings are a YAML map from names to whole numbers and truth values. A text without a document, or
with nothing in it, yields the usual settings. Unknown names are refused before any value is looked
at.

YAML itself is not read here: a loader is given, which says what a text holds, as far as it can be
settings.
-/

namespace Blueprint

/-- What can be chosen about a compilation and its report. -/
structure Settings where
  /-- The count of lines that are shown before and after the place of a diagnostic. -/
  contextLines : Int := 2
  /-- The count of errors at which reading stops. -/
  maxErrors : Int := 100
  /-- Whether warnings make a compilation fail. -/
  warningsAsErrors : Bool := false
  /-- Whether relationships imply others. -/
  impliedRelationships : Bool := true
  deriving DecidableEq, Repr

/-! ## Loading YAML -/

namespace Settings

/-- A key of a map. -/
inductive Key where
  /-- A text. -/
  | text (name : String)
  /-- A whole number. -/
  | integer (value : Int)
  /-- A key of another kind, with the text it is shown as. -/
  | other (shown : String)
  deriving DecidableEq, Repr

/-- A value of a map. -/
inductive Value where
  /-- A whole number. -/
  | integer (value : Int)
  /-- A truth value. -/
  | bool (holds : Bool)
  /-- A value of another kind. -/
  | other
  deriving DecidableEq, Repr

/-- The entries of a map, in order. -/
abbrev Entries := List (Key × Value)

/-- What a text holds. -/
inductive Contents where
  /-- Nothing, or no document at all. -/
  | nothing
  /-- A map with its entries. -/
  | mapping (entries : Entries)
  /-- What is neither. -/
  | other
  deriving DecidableEq, Repr

/-- Why a text is not loaded. -/
inductive LoadFault where
  /-- The text is no YAML; a reason is given in words. -/
  | malformed (reason : String)
  /-- Loading breaks off otherwise. -/
  | broken (reason : String)
  deriving DecidableEq, Repr

/-- A way to load texts. -/
abbrev Loader := String → Except LoadFault Contents

/-- A loader says what a text holds, or that the text is no YAML: it never breaks off. -/
def Loader.Steady (load : Loader) : Prop := ∀ text reason, load text ≠ .error (.broken reason)

/-- A key as it is shown in a message. -/
def Key.shown : Key → Except Number.Fault String
  | .text name => .ok name
  | .integer value => Number.write value
  | .other shown => .ok shown

end Settings

/-! ## Problems -/

/-- What can be wrong with the text of settings. -/
inductive SettingsIssue where
  /-- The text is no YAML, for a reason. -/
  | malformed (reason : String)
  /-- The text is YAML but no map. -/
  | notMap
  /-- Some keys are no settings; they are listed in order. -/
  | unknownKeys (keys : List String)
  /-- The value of a setting is no whole number. -/
  | notInteger (key : String)
  /-- The value of a setting is too small. -/
  | tooSmall (key : String) (least : Int)
  /-- The value of a setting is no truth value. -/
  | notBool (key : String)
  deriving DecidableEq, Repr

/-- The wording of a problem, given what the text is called. -/
def SettingsIssue.message (label : String) : SettingsIssue → String
  | .malformed reason => "Invalid YAML in " ++ label ++ ": " ++ reason
  | .notMap => label ++ ": configuration must be a YAML mapping"
  | .unknownKeys keys =>
    label ++ ": unknown configuration key(s): " ++ String.intercalate ", " keys
  | .notInteger key => label ++ ": '" ++ key ++ "' must be an integer"
  | .tooSmall key least => label ++ ": '" ++ key ++ "' must be at least " ++ toString least
  | .notBool key => label ++ ": '" ++ key ++ "' must be true or false"

/-- Why a text yields no settings. -/
inductive SettingsFault where
  /-- The text is not what settings look like. -/
  | refused (issue : SettingsIssue)
  /-- A key that is to be shown is a number that is not written. -/
  | number (fault : Number.Fault)
  /-- Loading the text breaks off. -/
  | broken (reason : String)
  deriving DecidableEq, Repr

/-! ## Reading -/

namespace Settings

/-- The name of the count of lines around a diagnostic. -/
def contextLinesKey : String := "context-lines"

/-- The name of the limit of errors. -/
def maxErrorsKey : String := "max-errors"

/-- The name of the switch for warnings. -/
def warningsAsErrorsKey : String := "warnings-as-errors"

/-- The name of the switch for implied relationships. -/
def impliedRelationshipsKey : String := "implied-relationships"

/-- The names of all settings. -/
def knownKeys : List String :=
  [contextLinesKey, maxErrorsKey, warningsAsErrorsKey, impliedRelationshipsKey]

/-- Whether a key is the name of a setting. -/
def isKnown : Key → Bool
  | .text name => knownKeys.contains name
  | _ => false

/-- The value under a name. -/
def valueOf? (entries : Entries) (name : String) : Option Value :=
  entries.lookup (.text name)

/-- Refuses a text. -/
def refuse {α : Type} (issue : SettingsIssue) : Except SettingsFault α := .error (.refused issue)

/-- A whole number that is not too small, if there is a value under a name. -/
def integerOr (entries : Entries) (name : String) (least usual : Int) :
    Except SettingsFault Int :=
  match valueOf? entries name with
  | none => .ok usual
  | some (.integer value) => if value < least then refuse (.tooSmall name least) else .ok value
  | some _ => refuse (.notInteger name)

/-- A truth value, if there is a value under a name. -/
def boolOr (entries : Entries) (name : String) (usual : Bool) : Except SettingsFault Bool :=
  match valueOf? entries name with
  | none => .ok usual
  | some (.bool holds) => .ok holds
  | some _ => refuse (.notBool name)

/-- The keys that are no settings. -/
def strangers (entries : Entries) : List Key :=
  (entries.map Prod.fst).filter fun key => !isKnown key

/-- The settings that the entries of a map give. -/
def ofEntries (entries : Entries) : Except SettingsFault Settings := do
  let unknown ← ((strangers entries).mapM Key.shown).mapError SettingsFault.number
  if !unknown.isEmpty then
    refuse (.unknownKeys (unknown.mergeSort fun first second => decide (first ≤ second)))
  else
    let usual : Settings := {}
    let contextLines ← integerOr entries contextLinesKey 0 usual.contextLines
    let maxErrors ← integerOr entries maxErrorsKey 1 usual.maxErrors
    let warningsAsErrors ← boolOr entries warningsAsErrorsKey usual.warningsAsErrors
    let impliedRelationships ← boolOr entries impliedRelationshipsKey usual.impliedRelationships
    return { contextLines, maxErrors, warningsAsErrors, impliedRelationships }

/-- The settings that a text gives. -/
def ofText (load : Loader) (text : String) : Except SettingsFault Settings :=
  match load text with
  | .error (.malformed reason) => refuse (.malformed reason)
  | .error (.broken reason) => .error (.broken reason)
  | .ok .nothing => .ok {}
  | .ok (.mapping entries) => ofEntries entries
  | .ok .other => refuse .notMap

end Settings

end Blueprint
