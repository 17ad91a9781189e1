import KnowledgeGraph.Value.Basic
/-!
# Where a database is

An address is passed on as it is given. What of it is no text only the
database itself would refuse.
-/

namespace KnowledgeGraph

/-- A database and the account it is used under. -/
structure Address where
  uri : Value
  username : Value
  password : Value
  database : Value
deriving DecidableEq

/-- A database on this machine with the account it comes with. -/
def Address.local : Address :=
  ⟨.text "bolt://localhost:7687", .text "neo4j", .text "password", .text "neo4j"⟩

namespace Address

/-- The names of an address's parts. -/
def partNames : List String := ["uri", "username", "password", "database"]

/-- An address from its parts by name, with those of the local one where
a part is not given. There is none if anything else is given. -/
def ofParts? (parts : Fields) : Option Address :=
  if parts.all fun part => partNames.contains part.1 then
    let part (name : String) (default : Value) := (parts.lookup name).getD default
    some ⟨part "uri" Address.local.uri, part "username" Address.local.username,
      part "password" Address.local.password, part "database" Address.local.database⟩
  else none

end Address

end KnowledgeGraph
