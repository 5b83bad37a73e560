import Blueprint.Yaml.Cursor

/-!
# Tokens of a YAML text

Collections that are written by indentation have a token at their start and at their end, which
stand for no characters.
-/

namespace Blueprint.Yaml

/-- How a scalar is written. -/
inductive ScalarForm where
  /-- Without quotes. -/
  | plain
  /-- Between quotes, or as a block of lines. -/
  | quoted
  deriving DecidableEq, Repr

/-- What a node is said to be. -/
structure Tag where
  /-- The handle, unless the tag is written out in full. -/
  handle : Option String
  /-- What follows the handle. -/
  suffix : String
  deriving DecidableEq, Repr

/-- A token. -/
inductive Token where
  /-- The version of the language, by its two numbers. -/
  | version (major minor : Nat)
  /-- What a handle of tags stands for. -/
  | tagHandle (handle meaning : String)
  /-- A directive that is not known. -/
  | otherDirective
  /-- The mark `---`. -/
  | documentStart
  /-- The mark `...`. -/
  | documentEnd
  /-- A list by indentation begins. -/
  | blockSequence
  /-- A map by indentation begins. -/
  | blockMapping
  /-- A collection by indentation ends. -/
  | blockEnd
  /-- The bracket `[`. -/
  | openSequence
  /-- The bracket `]`. -/
  | closeSequence
  /-- The opening brace. -/
  | openMapping
  /-- The closing brace. -/
  | closeMapping
  /-- The dash before an item. -/
  | blockEntry
  /-- The comma between items. -/
  | flowEntry
  /-- A key follows. -/
  | key
  /-- The colon before a value. -/
  | value
  /-- A reference to a named node. -/
  | alias (name : String)
  /-- The name of the next node. -/
  | anchor (name : String)
  /-- The tag of the next node. -/
  | tag (tag : Tag)
  /-- A scalar with its text. -/
  | scalar (text : String) (form : ScalarForm)
  deriving DecidableEq, Repr

end Blueprint.Yaml
