import KnowledgeGraph.Settings.Given
import KnowledgeGraph.Value.Matching
/-!
# Files that settings are sought in

Settings may also stand in files. None are read here; what shows of them
is where they cannot be: behind the home of someone unknown, in what is no
directory, or above too many directories or half a one. What is known of
homes and paths is a `Machine`'s.
-/

namespace KnowledgeGraph

namespace Settings

/-- What settings are read on: the environment of the program, and what is
known there of accounts and of paths. -/
structure Machine where
  environment : List (String × String)
  /-- the home of the account that the program runs under -/
  ownHome : String
  /-- the home of an account, if there is one of that name -/
  home? : String → Option String
  /-- what there is at the path of these parts, if it is no directory -/
  kind? : List String → Option String

/-! ## Paths -/

/-- A path as its parts, without those that lead nowhere. -/
structure FilePath where
  isAbsolute : Bool
  parts : List String
deriving DecidableEq

namespace FilePath

def ofText (text : String) : FilePath :=
  ⟨text.toList.head? = some '/', (text.splitOn "/").filter fun part => part ≠ "" && part ≠ "."⟩

/-- The home of an account. The account without a name is the program's
own, whose home the environment may say. -/
def homeOf (machine : Machine) (name : String) : Except Fault String :=
  if name.toList.contains '\x00' then .error (.badVariable .zeroByte)
  else if name.isEmpty then .ok ((machine.environment.lookup "HOME").getD machine.ownHome)
  else (machine.home? name).elim (.error .homeless) .ok

/-- A path whose first part, if it is the mark of a home with the name of
an account, is that home. -/
def expand (machine : Machine) (path : FilePath) : Except Fault FilePath :=
  match path.isAbsolute, path.parts.map String.toList with
  | false, ('~' :: name) :: _ => do
    let home ← homeOf machine (String.ofList name)
    if home.toList.head? = some '~' then .error .homeless
    else
      let start := ofText home
      return ⟨start.isAbsolute || home.isEmpty, start.parts ++ path.parts.tail⟩
  | _, _ => .ok path

/-- The parts of a path after all steps up are taken. -/
def resolved (path : FilePath) : List String :=
  path.parts.foldl (fun before part => if part = ".." then before.dropLast else before ++ [part]) []

/-- What there is at a path, if it is known and no directory. Steps up
are taken before it is said. -/
def kind? (machine : Machine) (path : FilePath) : Option String :=
  if path.isAbsolute then machine.kind? path.resolved else none

end FilePath

/-! ## Files and directories -/

/-- The paths that an argument names: one if it is a text, and else those
that it falls into. -/
def paths (machine : Machine) (raw : Raw) : Except Fault (List FilePath) :=
  let path : Raw → Except Fault FilePath
    | .value (.text text) => (FilePath.ofText text).expand machine
    | _ => .error .wrongArguments
  match raw, raw.parts? with
  | .value (.text _), _ => (path raw).map ([·])
  | _, some parts => parts.mapM path
  | _, none => .error .wrongArguments

/-- The number of directories above to look into has to be a number, and
one to count with if it is above zero. -/
def checkDepth (given : Record) : Except Fault Unit :=
  match argument? given "_env_file_depth" with
  | none => .ok ()
  | some (.value v) =>
    match v.number? with
    | some (.int n) => if n < wordLimit then .ok () else .error .badDepth
    | some (.num x) => if x ≤ Binary64.zero then .ok () else .error .badDepth
    | none => .error .wrongArguments
  | some _ => .error .wrongArguments

/-- The files that hold variables. One is looked for unless it is said
that none is. -/
def checkFiles (machine : Machine) (given : Record) : Except Fault Unit :=
  match given.lookup "_env_file" with
  | none => checkDepth given
  | some (.value .null) => .ok ()
  | some raw => do
    let found ← paths machine raw
    if found.isEmpty then return () else checkDepth given

/-- The directories that hold settings, a file for each. -/
def checkDirectories (machine : Machine) (given : Record) : Except Fault Unit :=
  match argument? given "_secrets_dir" with
  | none => .ok ()
  | some raw => do
    match (← paths machine raw).findSome? (FilePath.kind? machine) with
    | some kind => .error (.settings (.noDirectory kind))
    | none => return ()

end Settings

end KnowledgeGraph
