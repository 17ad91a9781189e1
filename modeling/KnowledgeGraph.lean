import KnowledgeGraph.Component
import KnowledgeGraph.Database.Connection
import KnowledgeGraph.Database.Repository
import KnowledgeGraph.Fault.Arguments
import KnowledgeGraph.Graph.Attributes
import KnowledgeGraph.Graph.Element
import KnowledgeGraph.Graph.Listing
import KnowledgeGraph.Graph.Store
import KnowledgeGraph.Input.Access
import KnowledgeGraph.Input.Argument
import KnowledgeGraph.Proofs.Database.Drivers
import KnowledgeGraph.Proofs.Database.Encoding
import KnowledgeGraph.Proofs.Database.Layout
import KnowledgeGraph.Proofs.Graph.Found
import KnowledgeGraph.Proofs.Graph.Labels
import KnowledgeGraph.Proofs.Graph.Statistics
import KnowledgeGraph.Proofs.Input.Reading
import KnowledgeGraph.Proofs.Number.Integer
import KnowledgeGraph.Proofs.Plan.Arrangement
import KnowledgeGraph.Proofs.Plan.Estimates
import KnowledgeGraph.Proofs.Plan.Execution
import KnowledgeGraph.Proofs.Plan.Feasibility
import KnowledgeGraph.Proofs.Plan.Interchange
import KnowledgeGraph.Proofs.Plan.Record
import KnowledgeGraph.Proofs.Search.Cancellation
import KnowledgeGraph.Proofs.Search.Connecting
import KnowledgeGraph.Proofs.Search.Dangling
import KnowledgeGraph.Proofs.Search.Effort
import KnowledgeGraph.Proofs.Search.Enumeration
import KnowledgeGraph.Proofs.Search.Lightest
import KnowledgeGraph.Proofs.Search.Predecessors
import KnowledgeGraph.Proofs.Search.Uniform
import KnowledgeGraph.Proofs.Service.Failure
import KnowledgeGraph.Proofs.Text.KeyWords
import KnowledgeGraph.Service
import KnowledgeGraph.Settings.Source
