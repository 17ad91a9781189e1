import KnowledgeGraph.Query.Basic
/-!
# Filters as a clause of a statement

The clause of a query names its type and its filters by parameters only:
no text that a user gave is part of it. A wildcard pattern becomes a
regular expression that matches whole texts, with every other character
standing for itself.
-/

namespace KnowledgeGraph

/-- Part of a statement, with the values of its parameters. -/
structure Clause where
  text : String
  parameters : Fields
deriving DecidableEq

namespace Clause

/-- The characters that mean something in a regular expression, and
those that one may leave out of it. -/
def specialChars : List Char := "()[]\x7b\x7d?*+-|^$\\.&~# \t\n\r\x0b\x0c".toList

/-- A text that stands for itself in a regular expression. -/
def escape (text : List Char) : List Char :=
  text.flatMap fun c => if specialChars.contains c then ['\\', c] else [c]

/-- The pieces of a pattern between its stars. -/
def pieces : List Char → List (List Char)
  | [] => [[]]
  | c :: rest =>
    if c = '*' then [] :: pieces rest
    else
      match pieces rest with
      | piece :: others => (c :: piece) :: others
      | [] => [[c]]

/-- The regular expression of a wildcard pattern. -/
def regularExpression (pattern : List Char) : List Char :=
  '^' :: ".*".toList.intercalate ((pieces pattern).map escape) ++ ['$']

/-- The parameter of a role in the filter at an index. -/
def parameter (role : String) (index : Nat) : String := s!"{role}{index}"

/-- The condition of the filter at an index. -/
def conditionText (index : Nat) (value : Value) : String :=
  let relation := if value.pattern?.isSome then "=~" else "="
  let key := parameter "key" index
  let bound := parameter "value" index
  s!"n[${key}] {relation} ${bound}"

/-- What a filter's value is given to the database as. -/
def boundValue (value : Value) : Value :=
  match value.pattern? with
  | some pattern => .text (String.ofList (regularExpression pattern))
  | none => value

/-- The condition of a filter. -/
def ofFilter (index : Nat) (filter : String × Value) : Clause :=
  ⟨conditionText index filter.2,
    [(parameter "key" index, .text filter.1), (parameter "value" index, boundValue filter.2)]⟩

/-- The condition that an entity has a type. -/
def ofType (type : String) : Clause :=
  ⟨"$entity_type IN labels(n)", [("entity_type", .text type)]⟩

/-- The conditions of a query: its type, and its filters in the order of
their keys. -/
def conditions (q : Query) : List Clause :=
  q.scannedType?.toList.map ofType ++
    (Canonical.sortByKey q.filters).zipIdx.map fun entry => ofFilter entry.2 entry.1

/-- All conditions of a query. Without any there is no clause. -/
def ofQuery (q : Query) : Clause :=
  let all := conditions q
  let text :=
    if all.isEmpty then "" else "WHERE " ++ " AND ".intercalate (all.map Clause.text)
  ⟨text, all.flatMap Clause.parameters⟩

end Clause

end KnowledgeGraph
