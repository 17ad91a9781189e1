import KnowledgeGraph.Settings.Basic
import KnowledgeGraph.Settings.Given
import KnowledgeGraph.Text.DecimalDigit
import KnowledgeGraph.Text.Identifier
import KnowledgeGraph.Value.Matching
/-!
# Options of a command line

Every setting has an option of its name, and one more asks for help. How
options are spelled can be said beside the settings: by what sign they
begin with, by a mark before all names, by dashes inside names, and by
shorter names. A spelling belongs to the first option that has it.

A word of a line is an option if it is one of these spellings, also with a
value joined to it; what only looks like an option is none, and all other
words are plain (`LineGrammar.word`).
-/

namespace KnowledgeGraph

namespace Settings

/-- An option: its spellings, and the setting that it sets. One that sets
none asks for help. -/
structure LineOption where
  spellings : List (List Char)
  setting : Option String
deriving DecidableEq

/-- How an option is named in messages. -/
def LineOption.name (o : LineOption) : String := "/".intercalate (o.spellings.map String.ofList)

/-! ## Style -/

/-- How the options of a line are written. -/
structure LineStyle where
  /-- what an option begins with, twice if its name is long enough -/
  lead : List Char
  /-- what stands before every name -/
  mark : String
  /-- whether names have dashes in place of underscores -/
  dashed : Bool
  /-- further names of options, or lists of them, by their names -/
  shortcuts : Fields
deriving DecidableEq

namespace LineStyle

/-- A mark is a name, or several with points between them. -/
def isMark (text : List Char) : Bool :=
  text.head? ≠ some '.' && text.getLast? ≠ some '.' && Text.isIdentifier (text.filter (· ≠ '.'))

def markOf (given : Record) : Except Fault String :=
  match (argument? given "_cli_prefix").filter (!·.isVoid) with
  | none => .ok ""
  | some (.value (.text mark)) =>
    if isMark mark.toList then .ok (mark ++ ".") else .error (.settings (.badOptionMark mark))
  | some (.value v) => .error (.lacking v "startswith")
  | some _ => .error .wrongArguments

def leadOf (given : Record) : Except Fault (List Char) :=
  match argument? given "_cli_flag_prefix_char" with
  | none => .ok ['-']
  | some (.value (.text lead)) => if lead.isEmpty then .error .noCharacter else .ok lead.toList
  | some _ => .error .wrongArguments

/-- The words that say how far dashes go. -/
def dashWords : List String := ["all", "no_enums"]

/-- What is said about dashes: a truth value, or how far they go. -/
def dashes : Reader Unit := fun raw =>
  match raw, (Reader.truth raw).outcome with
  | _, .ok _ => .accept ()
  | .value (.text word), .error issues => if dashWords.contains word then .accept () else refused issues
  | _, .error issues => refused issues
where
  /-- neither is said -/
  refused (issues : List Issue) : Checked Unit :=
    .refuse (issues.map (.inside (.reading .truth)) ++
      [⟨[.field "literal['all','no_enums']"], .notOneOf dashWords⟩])

/-- An argument that is said of every option, under the name that it has
there. -/
def checkArgument (given : Record) (argument name : String) (reader : Reader Unit) : Checked Unit :=
  ((argument? given argument).elim (.accept ()) reader).inside (.field name)

/-- What is said of every option is held against its rules. -/
def check (given : Record) : Checked Unit :=
  let truth : Reader Unit := fun raw => (Reader.truth raw).map fun _ => ()
  (fun _ _ _ => ())
    <$> checkArgument given "_case_sensitive" "case_sensitive" truth
    <*> checkArgument given "_cli_hide_none_type" "hide_none_type" truth
    <*> checkArgument given "_cli_kebab_case" "kebab_case" dashes

/-- Names have dashes if anything but no is said about them. -/
def isDashed (given : Record) : Bool :=
  match argument? given "_cli_kebab_case" with
  | none => false
  | some (.value v) => !v.sameNumber (.bool false)
  | some _ => true

def shortcutsOf (given : Record) : Except Fault Fields :=
  match (argument? given "_cli_shortcuts").filter (!·.isVoid) with
  | none => .ok []
  | some (.value (.map shortcuts)) => .ok shortcuts
  | some (.value v) => .error (.lacking v "items")
  | some _ => .error .wrongArguments

/-- The style that is said beside the settings. -/
def ofGiven (given : Record) : Except Fault LineStyle := do
  let mark ← markOf given
  let lead ← leadOf given
  (check given).orFault .lineOption
  return ⟨lead, mark, isDashed given, ← shortcutsOf given⟩

/-! ## Names and spellings -/

/-- The name of a setting's option. -/
def nameOf (style : LineStyle) (setting : String) : String :=
  let name := style.mark ++ setting
  if style.dashed then String.ofList (name.toList.map fun c => if c = '_' then '-' else c) else name

/-- The further names that a shortcut gives. -/
def namesGiven : Value → Except Fault (List Value)
  | .list names => .ok names
  | .map fields => .ok (fields.map fun f => .text f.1)
  | .text name => .ok [.text name]
  | _ => .error .wrongArguments

/-- Names with those that shortcuts add, unless they are taken. -/
def withShortcuts (taken names : List Value) : Fields → Except Fault (List Value)
  | [] => .ok names
  | (name, further) :: rest =>
    if names.contains (.text name) then do
      let given ← namesGiven further
      withShortcuts taken (names ++ given.filter (!taken.contains ·)) rest
    else withShortcuts taken names rest

/-- All names of a setting's option. It has none if its own is taken. -/
def namesOf (style : LineStyle) (taken : List Value) (setting : String) :
    Except Fault (List Value) := do
  let own := Value.text (style.nameOf setting)
  let names ← withShortcuts taken (if taken.contains own then [] else [own]) style.shortcuts
  return if taken.contains (.text (style.mark ++ setting)) then [] else names

/-- A name behind as much of the doubled lead as it has characters. -/
def spelling (style : LineStyle) (name : Value) : Except Fault (List Char) :=
  match (Raw.value name).parts? with
  | none => .error .wrongArguments
  | some [] => .error .noCharacter
  | some parts => .ok ((style.lead ++ style.lead).take parts.length ++ name.words.toList)

/-- The option that asks for help. -/
def help (style : LineStyle) : LineOption :=
  let sign := if style.lead.contains '-' then '-' else style.lead.headD '-'
  ⟨[[sign, 'h'], [sign, sign, 'h', 'e', 'l', 'p']], none⟩

end LineStyle

/-! ## Options and words -/

/-- All options of a line, and what they begin with. -/
structure LineGrammar where
  lead : List Char
  options : List LineOption
deriving DecidableEq

/-- What a word of a line is. -/
inductive LineWord where
  | plain
  | option (option : LineOption) (spelling : List Char) (joined : Option (List Char))
  /-- it looks like an option -/
  | unknown
deriving DecidableEq

/-- Whether a word is a negative number in digits, or one with the end of
its line. -/
def isNegativeNumber (word : List Char) : Bool :=
  let isDigit (c : Char) : Bool := (Text.decimalValue? c).isSome
  let ended := if word.getLast? = some '\n' then word.dropLast else word
  match ended with
  | '-' :: number =>
    match number.dropWhile isDigit with
    | [] => !number.isEmpty
    | '.' :: fraction => !fraction.isEmpty && fraction.all isDigit
    | _ => false
  | _ => false

namespace LineGrammar

/-- The option that is spelled like this. -/
def find? (g : LineGrammar) (spelling : List Char) : Option LineOption :=
  g.options.find? (·.spellings.contains spelling)

/-- An option besides others, none of whose spellings it may have. -/
def add (g : LineGrammar) (o : LineOption) : Except Fault LineGrammar :=
  match o.spellings.filter fun spelling => (g.find? spelling).isSome with
  | [] => .ok { g with options := g.options ++ [o] }
  | taken => .error (.takenSpellings o.name (taken.map String.ofList))

/-- The options of settings, in order, besides that for help. -/
def addSettings (style : LineStyle) (g : LineGrammar) (taken : List Value) :
    List String → Except Fault LineGrammar
  | [] => .ok g
  | setting :: rest => do
    match ← style.namesOf taken setting with
    | [] => addSettings style g taken rest
    | names =>
      let spellings ← names.mapM style.spelling
      addSettings style (← g.add ⟨spellings, some setting⟩) (taken ++ names) rest

/-- The options of all settings in a style. -/
def ofStyle (style : LineStyle) : Except Fault LineGrammar :=
  addSettings style ⟨style.lead, [style.help]⟩ [] names

/-- Whether some option looks like a negative number. -/
def hasNumber (g : LineGrammar) : Bool := g.options.any (·.spellings.any isNegativeNumber)

/-- An option of one letter with a value directly behind it. -/
def short? (g : LineGrammar) : List Char → Option LineWord
  | c :: d :: joined =>
    if g.lead.contains d then none
    else (g.find? [c, d]).map fun o => .option o [c, d] (some joined)
  | _ => none

/-- An option with a value behind the first equals sign. -/
def assigned? (g : LineGrammar) (word : List Char) : Option LineWord :=
  let (spelling, rest) := word.span (· ≠ '=')
  if rest.isEmpty then none
  else (g.find? spelling).map fun o => .option o spelling (some rest.tail)

/-- What a word is. Behind a lead it is an option if it can be one, and
else plain if it is the lead alone, a negative number, unless some option
looks like one, or if it holds a space. -/
def word (g : LineGrammar) (text : List Char) : LineWord :=
  match text with
  | [] => .plain
  | c :: rest =>
    if !g.lead.contains c then .plain
    else
      match g.find? text with
      | some o => .option o text none
      | none =>
        if rest.isEmpty then .plain
        else
          let looksPlain := (isNegativeNumber text && !g.hasNumber) || text.contains ' '
          ((g.assigned? text).orElse fun _ => g.short? text).getD
            (if looksPlain then .plain else .unknown)

/-- A word that does not begin with a lead is plain. -/
theorem word_eq_plain {g : LineGrammar} {c : Char} (h : g.lead.contains c = false)
    (rest : List Char) : g.word (c :: rest) = .plain := by
  simp only [word, h]
  rfl

end LineGrammar

end Settings

end KnowledgeGraph
