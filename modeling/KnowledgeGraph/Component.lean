/-!
# What components offer

A component can serve as a repository if it offers the three operations
that searches and queries call. A bare connection to a database offers
none of them.
-/

namespace KnowledgeGraph

/-- Something that a component can be asked to do. -/
inductive Operation where
  | entity
  | relationships
  | query
  | addEntity
  | addRelationship
  | statistics
  | connect
  | close
  | runStatement
deriving DecidableEq

/-- The operations of a repository. -/
def repositoryOperations : List Operation := [.entity, .relationships, .query]

inductive Component where
  /-- a graph held in memory -/
  | store
  /-- a graph held in a database -/
  | databaseRepository
  /-- a connection to a database -/
  | connection
deriving DecidableEq

namespace Component

def operations : Component → List Operation
  | store => [.entity, .relationships, .query, .addEntity, .addRelationship, .statistics]
  | databaseRepository => [.entity, .relationships, .query]
  | connection => [.connect, .close, .runStatement]

/-- Whether a component can serve as a repository. -/
def isRepository (c : Component) : Bool := repositoryOperations.all c.operations.contains

end Component

end KnowledgeGraph
