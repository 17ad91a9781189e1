import KnowledgeGraph.Text.Quoted
/-!
# Faults of settings

What keeps settings from being sought, before any of them is held against
a rule: an environment that cannot hold a variable, a command line that
says what it should not, and arguments that no settings can come from.
-/

namespace KnowledgeGraph

/-- Why an environment cannot hold a variable. -/
inductive VariableDefect where
  | nameless
  /-- the sign that ends a name stands inside it -/
  | equalsSign
  /-- the character that ends a text stands inside one -/
  | zeroByte
deriving DecidableEq

def VariableDefect.message : VariableDefect → String
  | nameless => "[Errno 22] Invalid argument"
  | equalsSign => "illegal environment variable name"
  | zeroByte => "embedded null byte"

/-- What is wrong with a command line. -/
inductive LineDefect where
  /-- words that no option asks for -/
  | unknownWords (words : List String)
  /-- an option stands without its value -/
  | missingValue (option : String)
  /-- a value is joined to an option that takes none -/
  | extraValue (option value : String)
deriving DecidableEq

def LineDefect.message : LineDefect → String
  | unknownWords words => "unrecognized arguments: " ++ " ".intercalate words
  | missingValue option => s!"argument {option}: expected one argument"
  | extraValue option value =>
    s!"argument {option}: ignored explicit argument {Text.quoted value}"

/-- Why settings cannot be sought. -/
inductive SettingsDefect where
  /-- no variable can hold this setting -/
  | noVariable (setting : String)
  /-- values of this kind are no command line -/
  | noCommandLine (kind : String)
  /-- this cannot stand before the names of options -/
  | badOptionMark (mark : String)
  | badLine (defect : LineDefect)
  /-- where files should be there is something of another kind -/
  | noDirectory (kind : String)
deriving DecidableEq

def SettingsDefect.message : SettingsDefect → String
  | noVariable setting =>
    s!"error getting value for field \"{setting}\" from source \"EnvSettingsSource\""
  | noCommandLine kind =>
    s!"cli_parse_args must be a list or tuple of strings, received <class '{kind}'>"
  | badOptionMark mark => s!"CLI settings source prefix is invalid: {mark}"
  | badLine defect => s!"error parsing CLI: {defect.message}"
  | noDirectory kind => s!"secrets_dir must reference a directory, not a {kind}"

end KnowledgeGraph
