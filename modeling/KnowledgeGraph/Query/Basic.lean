import KnowledgeGraph.Digest.Sha256
import KnowledgeGraph.Input.Property
import KnowledgeGraph.Value.Canonical
import KnowledgeGraph.Value.Matching
/-!
# Queries

A query asks for the entities of a type whose properties meet all
filters, a page at a time. How long it may take and who may cancel it do
not change what it asks for: its signature leaves both out.

The texts of a query are sequences of Unicode scalar values. So no two of
them are written alike in a signature, as a character and the pair of its
surrogates would be.
-/

namespace KnowledgeGraph

/-- A query. Its texts, those in its filters included, are sequences of
Unicode scalar values. -/
structure Query where
  /-- the type asked for; none asks for all -/
  entityType : Option String
  filters : Fields
  /-- how many entities a page holds; zero for all -/
  pageSize : Nat
  skip : Nat
  /-- in seconds -/
  timeout : { x : Binary64 // Binary64.zero < x }
  cancelToken : Option Token
deriving DecidableEq

namespace Query

/-- The timeout of a query that says none: 30 seconds. -/
def defaultTimeout : { x : Binary64 // Binary64.zero < x } :=
  ⟨.ofRatio false 30 1, Binary64.zero_lt_ofRatio (by decide)⟩

/-- A query read from a record. -/
def ofRecord (r : Record) : Checked Query :=
  (fun entityType filters pageSize skip timeout cancelToken =>
      ⟨entityType, filters, pageSize, skip, timeout, cancelToken⟩)
    <$> r.withDefault "entity_type" none (Reader.orNull Reader.text)
    <*> r.withDefault "property_filters" [] Reader.properties
    <*> r.withDefault "page_size" 100 Reader.natural
    <*> r.withDefault "skip" 0 Reader.natural
    <*> r.withDefault "timeout" defaultTimeout Reader.positive
    <*> r.withDefault "cancel_token" none (Reader.orNull Reader.token)

/-- The type that restricts the query. The empty text restricts none. -/
def scannedType? (q : Query) : Option String := q.entityType.filter (!·.isEmpty)

/-- Whether two queries ask for the same under the same conditions, with
numbers compared by worth. A token belongs to one query, so queries that
have one differ. -/
def numericEq (a b : Query) : Bool :=
  a.entityType == b.entityType && (Value.map a.filters).numericEq (.map b.filters) &&
    a.pageSize == b.pageSize && a.skip == b.skip && a.timeout.1.numEq b.timeout.1 &&
    a.cancelToken.isNone && b.cancelToken.isNone

/-- What a query asks for, as one value. -/
def constraints (q : Query) : Value :=
  .map [("entity_type", (q.entityType.map Value.text).getD .null), ("filters", .map q.filters),
    ("page_size", .int q.pageSize), ("skip", .int q.skip)]

/-- The text that tells queries apart by what they ask for. A query with
an integer that is too long to be written has none. -/
def signature (q : Query) : Except Fault String := q.constraints.canonical.map String.ofList

/-- A short form of the signature. -/
def digest (q : Query) : Except Fault String := q.signature.map Sha256.hexDigest

end Query

/-- The token that an operation obeys: the one handed to the call, or
else the query's own. -/
inductive Governing where
  | none
  | call (token : Token)
  | query (token : Token)
deriving DecidableEq

namespace Governing

/-- The token that governs a query under a call's own token. -/
def select (call : Option Token) (q : Query) : Governing :=
  match call, q.cancelToken with
  | some t, _ => .call t
  | Option.none, some t => .query t
  | Option.none, Option.none => .none

def token? : Governing → Option Token
  | none => Option.none
  | call t | query t => some t

end Governing

end KnowledgeGraph
