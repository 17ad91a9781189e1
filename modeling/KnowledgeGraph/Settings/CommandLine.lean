import KnowledgeGraph.Keyed
import KnowledgeGraph.Settings.LineOption
import KnowledgeGraph.Text.LetterCase
/-!
# Settings on a command line

A command line sets settings by its options: a value stands behind an
option as a word of its own or is joined to it. What is set twice has the
later value. Words that belong to no option are left over, among them all
behind two dashes. The line is faulty if any are, unless it is said that
they do not count; a faulty line ends the program, or is told like other
faults of settings.
-/

namespace KnowledgeGraph

namespace Settings

namespace CommandLine

/-! ## Rules -/

/-- How a line is read. -/
structure Rules where
  grammar : LineGrammar
  /-- whether the case of names counts -/
  caseCounts : Bool
  /-- the text that stands for null, if there is one -/
  nullText : Option String
  /-- whether a faulty line ends the program -/
  endsProgram : Bool
  /-- whether words may be left over -/
  allowsMore : Bool

/-- The text for null that an argument says, if it says anything. -/
def nullArgument? (given : Record) (name : String) : Option (Option String) :=
  match (argument? given name).filter (!·.isVoid) with
  | none => none
  | some (.value (.text text)) => some (some text)
  | some _ => some none

/-- The text for null: that of the environment, else the line's own, else
one of two customary ones. -/
def nullTextOf (given : Record) : Option String :=
  let customary :=
    match argument? given "_cli_avoid_json" with
    | some (.value (.bool true)) => "None"
    | _ => "null"
  ((nullArgument? given "_env_parse_none_str").orElse fun _ =>
    nullArgument? given "_cli_parse_none_str").getD (some customary)

/-- The rules that are said beside the settings. -/
def rulesOf (given : Record) : Except Fault Rules := do
  let grammar ← LineGrammar.ofStyle (← LineStyle.ofGiven given)
  return ⟨grammar, flag given "_case_sensitive" false, nullTextOf given,
    flag given "_cli_exit_on_error" true, flag given "_cli_ignore_unknown_args" false⟩

/-! ## Words -/

/-- A word with what may be an option's name in lower case: what stands
before white space or an equals sign, if the word begins with a lead. -/
def lowerName (lead word : List Char) : List Char :=
  if lead.isPrefixOf word then
    let (name, rest) := word.span fun c => !Text.isBlank c && c ≠ '='
    Text.lower name ++ rest
  else word

/-- The words of a line in which case does not count. What says nothing
is an empty word. -/
def plainWords (lead : List Char) (items : List Raw) : Except Fault (List Raw) :=
  items.mapM fun
    | .value (.text word) =>
      .ok (.value (.text (String.ofList (lowerName lead word.toList))))
    | raw => if raw.isVoid then .ok (.value (.text "")) else .error .wrongArguments

/-- The two dashes behind which no word is an option. -/
def divider : String := "--"

def isDivider : Raw → Bool
  | .value (.text word) => word = divider
  | _ => false

/-- What is no text has to say nothing to be a word. A map is asked for
what stands under zero. -/
def checkWord : Raw → Except Fault Unit
  | .value (.text _) => .ok ()
  | .value (.map (_ :: _)) => .error (.missingKey (.int 0))
  | raw => if raw.isVoid then .ok () else .error .wrongArguments

/-- The words up to the divider are looked at. -/
def checkWords (words : List Raw) : Except Fault Unit :=
  (words.takeWhile (!isDivider ·)).forM checkWord

/-- What a word is; what is no text is plain. -/
def wordOf (g : LineGrammar) : Raw → LineWord
  | .value (.text word) => g.word word.toList
  | _ => .plain

/-- Whether a word can be the value of an option before it. -/
def isValue (g : LineGrammar) (raw : Raw) : Bool :=
  !isDivider raw && wordOf g raw = .plain

/-! ## Reading -/

/-- What a line says. -/
structure Said where
  /-- what it sets, in order -/
  set : List (String × Raw)
  /-- the words left over -/
  more : List Raw

/-- Why the reading of a line stops. -/
inductive Stop where
  /-- help is asked for -/
  | help
  | faulty (defect : LineDefect)
deriving DecidableEq

/-- The value that is joined to an option. The divider there is an empty
list. -/
def joinedValue (text : List Char) : Raw :=
  .value (.text (if text = divider.toList then "[]" else String.ofList text))

/-- Help is asked for with more letters behind it: each is an option of
its own, until one takes the rest for its value. -/
def stopBehindHelp (g : LineGrammar) (o : LineOption) (spelling : List Char) (next : List Raw) :
    List Char → Stop
  | [] => .faulty (.extraValue o.name "")
  | c :: rest =>
    let extra := Stop.faulty (.extraValue o.name (String.ofList (c :: rest)))
    match spelling with
    | [sign, letter] =>
      if g.lead.contains letter then extra
      else
        match g.find? [sign, c], rest with
        | none, _ => extra
        | some ⟨_, none⟩, [] => .help
        | some other@⟨_, none⟩, _ => stopBehindHelp g other [sign, c] next rest
        | some other@⟨_, some _⟩, [] =>
          if next.head?.any (isValue g) then .help else .faulty (.missingValue other.name)
        | some ⟨_, some _⟩, _ => .help
    | _ => extra

/-- What a line says, up to where its reading stops. -/
def read (g : LineGrammar) : List Raw → Except Stop Said
  | [] => .ok ⟨[], []⟩
  | raw :: rest =>
    let more (said : Said) : Said := { said with more := raw :: said.more }
    if isDivider raw then .ok ⟨[], raw :: rest⟩
    else
      match wordOf g raw with
      | .plain | .unknown => (read g rest).map more
      | .option ⟨_, none⟩ _ none => .error .help
      | .option o@⟨_, none⟩ spelling (some joined) =>
        .error (stopBehindHelp g o spelling rest joined)
      | .option ⟨_, some setting⟩ _ (some joined) =>
        (read g rest).map fun said => { said with set := (setting, joinedValue joined) :: said.set }
      | .option o@⟨_, some setting⟩ _ none =>
        match rest with
        | [] => .error (.faulty (.missingValue o.name))
        | value :: rest =>
          if isValue g value then
            (read g rest).map fun said => { said with set := (setting, value) :: said.set }
          else .error (.faulty (.missingValue o.name))

/-- The fault of a faulty line. -/
def faultOf (rules : Rules) (defect : LineDefect) : Fault :=
  if rules.endsProgram then .ended 2 else .settings (.badLine defect)

/-- The words left over, as a message shows them. -/
def shownWords (words : List Raw) : Except Fault (List String) :=
  words.mapM fun
    | .value (.text word) => .ok word
    | _ => .error .wrongArguments

/-- What is set to a value, unless to nothing. -/
def settingOf? (rules : Rules) (entry : String × Raw) : Option (String × Raw) :=
  match entry with
  | (_, .value .null) => none
  | (setting, .value (.list [])) => some (setting, textValue "[]")
  | (setting, .value (.text text)) => some (setting, textValue text)
  | _ => some entry
where
  /-- what a text stands for -/
  textValue (text : String) : Raw :=
    .value (if rules.nullText = some text then .null else .text text)

/-- What a line sets. -/
def record (rules : Rules) (items : List Raw) : Except Fault Record := do
  let words ← if rules.caseCounts then .ok items else plainWords rules.grammar.lead items
  checkWords words
  match read rules.grammar words with
  | .error .help => .error (.ended 0)
  | .error (.faulty defect) => .error (faultOf rules defect)
  | .ok said =>
    if !rules.allowsMore && !said.more.isEmpty then
      .error (faultOf rules (.unknownWords (← shownWords said.more)))
    else return (Keyed.ofList Prod.fst said.set).filterMap (settingOf? rules)

/-- What the command line sets, if it is read. It is read if it is given,
or if it is said that the program's own, which has no words, is to be
read; its rules have to be right even if it is said that it is not. -/
def ofGiven (given : Record) : Except Fault Record :=
  match argument? given "_cli_parse_args" with
  | none => .ok []
  | some raw => do
    let rules ← rulesOf given
    match raw.items?, raw with
    | some items, _ => record rules items
    | none, .value (.bool true) => record rules []
    | none, .value v =>
      if v.sameNumber (.bool false) then return [] else .error (.settings (.noCommandLine v.kindName))
    | none, _ => .error .wrongArguments

end CommandLine

end Settings

end KnowledgeGraph
