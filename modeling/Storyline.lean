import Storyline.Creation.Create
import Storyline.Http
import Storyline.Json.Row
import Storyline.Json.Text
import Storyline.Json.Value
import Storyline.Plan
import Storyline.Prog
import Storyline.Proofs.Admission
import Storyline.Proofs.Attempts
import Storyline.Proofs.Callers
import Storyline.Proofs.Capacity
import Storyline.Proofs.Conflicts
import Storyline.Proofs.Creations
import Storyline.Proofs.Dangling
import Storyline.Proofs.Denials
import Storyline.Proofs.Documents
import Storyline.Proofs.Environments
import Storyline.Proofs.Expressions
import Storyline.Proofs.Failures
import Storyline.Proofs.Families
import Storyline.Proofs.Fields
import Storyline.Proofs.FirstFault
import Storyline.Proofs.Growth
import Storyline.Proofs.History
import Storyline.Proofs.Ladder
import Storyline.Proofs.Lawful
import Storyline.Proofs.Listings
import Storyline.Proofs.Lookups
import Storyline.Proofs.Mirror
import Storyline.Proofs.Outcomes
import Storyline.Proofs.Patterns
import Storyline.Proofs.Permits
import Storyline.Proofs.Pinned
import Storyline.Proofs.Pool
import Storyline.Proofs.Privacy
import Storyline.Proofs.Protocol
import Storyline.Proofs.Race
import Storyline.Proofs.Ranking
import Storyline.Proofs.References
import Storyline.Proofs.Rendering
import Storyline.Proofs.Replies
import Storyline.Proofs.RoundTrip
import Storyline.Proofs.Rules
import Storyline.Proofs.Scopes
import Storyline.Proofs.Session
import Storyline.Proofs.Settling
import Storyline.Proofs.Stamps
import Storyline.Proofs.Standstill
import Storyline.Proofs.Storable
import Storyline.Proofs.Throughout
import Storyline.Proofs.Titles
import Storyline.Proofs.Traffic
import Storyline.Proofs.Variant
import Storyline.Registry
import Storyline.Service.Handlers
import Storyline.Service.Input
import Storyline.Service.Serve
import Storyline.Settings
import Storyline.Slug
import Storyline.Store.Database
import Storyline.Store.Query
import Storyline.Store.Row
import Storyline.Store.Tables
import Storyline.Text
