import KnowledgeGraph.Keyed
import KnowledgeGraph.Settings.Basic
import KnowledgeGraph.Settings.Files
/-!
# Settings in the environment

A setting that a program does not give can stand in the environment: in
the variable that has the setting's name behind a mark, `KGQUERY_` unless
another is given or the mark is not for variables. Names count in either
case unless it is said that the case of a variable's name matters.
-/

namespace KnowledgeGraph

namespace Settings

/-! ## Environments -/

/-- A variable and its text, as an environment can hold them. -/
def variableOf (name : String) : Value → Except Fault (String × String)
  | .text text =>
    if name.toList.contains '\x00' || text.toList.contains '\x00' then
      .error (.badVariable .zeroByte)
    else if name.toList.contains '=' then .error (.badVariable .equalsSign)
    else if name.isEmpty then .error (.badVariable .nameless)
    else .ok (name, text)
  | _ => .error .wrongArguments

/-- An environment, whose variables hold texts. -/
def environmentOf (given : Fields) : Except Fault (List (String × String)) :=
  given.mapM fun (name, value) => variableOf name value

/-! ## How it is read -/

/-- How the environment is read. -/
structure EnvironmentRules where
  /-- what the name of every variable that holds a setting begins with,
  unless no name can begin with what was given -/
  mark : Option String
  /-- whether the case of names counts -/
  caseCounts : Bool
  /-- whether a variable without a text is no variable -/
  dropsEmpty : Bool
  /-- the text that stands for null, if there is one -/
  nullText : Option String
deriving DecidableEq

namespace EnvironmentRules

def default : EnvironmentRules := ⟨some "KGQUERY_", false, false, none⟩

/-- The mark that is given. What is no text but has a length marks
nothing, which shows when a name is sought. -/
def markOf (given : Record) : Except Fault (Option String) :=
  match argument? given "_env_prefix" with
  | none => .ok default.mark
  | some (.value (.text s)) => .ok (some s)
  | some raw => if raw.parts?.isSome then .ok none else .error .wrongArguments

/-- Whether the mark stands before the names of variables. It does unless
it is kept for other names. -/
def marksVariables (given : Record) : Bool :=
  match argument? given "_env_prefix_target" with
  | none => true
  | some (.value (.text target)) => target = "variable" || target = "all"
  | some _ => false

/-- The rules, of which some may be given beside the settings. -/
def ofGiven (machine : Machine) (given : Record) : Except Fault EnvironmentRules := do
  let mark ← markOf given
  checkCount given "_env_nested_max_split"
  checkFiles machine given
  return ⟨if marksVariables given then mark else some "",
    flag given "_case_sensitive" default.caseCounts,
    flag given "_env_ignore_empty" default.dropsEmpty,
    textArgument? given "_env_parse_none_str"⟩

/-- A name as it is compared. -/
def compared (rules : EnvironmentRules) (name : String) : List Char :=
  if rules.caseCounts then name.toList else Text.lower name.toList

/-- The setting that a variable holds, if it holds one. -/
def settingName? (rules : EnvironmentRules) (mark variableName : String) : Option String :=
  names.find? fun name => rules.compared (mark ++ name) = rules.compared variableName

/-- What the text of a variable stands for. -/
def valueOf (rules : EnvironmentRules) (text : String) : Value :=
  if rules.nullText = some text then .null else .text text

/-- The settings among the variables of the environment. Of several
spellings of one variable the last counts. Without a usable mark the
first setting is not to be found. -/
def record (rules : EnvironmentRules) (environment : List (String × String)) :
    Except Fault Record :=
  match rules.mark with
  | none => .error (.settings (.noVariable (names.head (by decide))))
  | some mark =>
    let counted := environment.filter fun entry => !(rules.dropsEmpty && entry.2.isEmpty)
    .ok <| Keyed.ofList Prod.fst <| counted.filterMap fun (name, text) =>
      (rules.settingName? mark name).map fun setting => (setting, .value (rules.valueOf text))

end EnvironmentRules

end Settings

end KnowledgeGraph
