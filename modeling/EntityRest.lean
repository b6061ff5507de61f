import EntityRest.Http.Answer
import EntityRest.Migration.Rebuild
import EntityRest.Schema.Files
import EntityRest.Settings.Dsn
import EntityRest.Shape.Record
import EntityRest.Sql.Wire
import EntityRest.Proofs.Except
import EntityRest.Proofs.Query.Plan
import EntityRest.Proofs.Query.ValueIndependence
import EntityRest.Proofs.Schema.Registry
import EntityRest.Proofs.Query.Join
import EntityRest.Proofs.Query.Params
import EntityRest.Proofs.Query.Rendering
import EntityRest.Proofs.Query.Resolve
import EntityRest.Proofs.Query.Scope
import EntityRest.Proofs.Query.Count
import EntityRest.Proofs.Query.Where
import EntityRest.Proofs.Migration.Rebuild
import EntityRest.Proofs.Service.Cache
import EntityRest.Proofs.Shape.Flat
import EntityRest.Proofs.Cache.Fingerprint
import EntityRest.Proofs.Query.Groups
import EntityRest.Proofs.Sql.Literal
import EntityRest.Proofs.Sql.Names
import EntityRest.Proofs.Query.JsonPath
import EntityRest.Proofs.Query.Hidden
import EntityRest.Proofs.Json.Sorted
import EntityRest.Proofs.Shape.Insertion
import EntityRest.Proofs.Shape.Structured
import EntityRest.Proofs.Schema.BuildOrder
import EntityRest.Proofs.Schema.WellFormed
import EntityRest.Proofs.Query.Nesting
import EntityRest.Proofs.Query.FilterOrder
import EntityRest.Proofs.Query.Printer
import EntityRest.Proofs.Shape.Rows
import EntityRest.Proofs.Service.Trace
import EntityRest.Proofs.Service.Writes
import EntityRest.Proofs.Service.Sweeps
import EntityRest.Proofs.Service.Interleaving
import EntityRest.Proofs.Shape.Payload
import EntityRest.Proofs.Scalar.RoundTrip
import EntityRest.Proofs.Service.Children
import EntityRest.Proofs.Service.Address
import EntityRest.Proofs.Query.Mentions
import EntityRest.Proofs.Query.Refusal
import EntityRest.Proofs.Query.JoinOrder
import EntityRest.Proofs.Shape.Record
import EntityRest.Proofs.Query.Dialects
import EntityRest.Proofs.Query.Substitution
import EntityRest.Proofs.Query.Includes
import EntityRest.Proofs.Service.Expansion
import EntityRest.Proofs.Service.Depth
import EntityRest.Proofs.Query.JoinClosure
import EntityRest.Proofs.Query.Pages
import EntityRest.Proofs.Query.OutputKeys
import EntityRest.Proofs.Cache.Local
import EntityRest.Proofs.Service.Failures
import EntityRest.Proofs.Service.Columns
import EntityRest.Proofs.Shape.FixedPoints
import EntityRest.Proofs.Service.Validation
import EntityRest.Proofs.Service.Integers
import EntityRest.Proofs.Calendar.Forms
import EntityRest.Proofs.Settings.Duration
import EntityRest.Proofs.Locale.Interpolation
import EntityRest.Proofs.Query.Target
import EntityRest.Proofs.Sql.Quoting
import EntityRest.Proofs.Schema.Aliases
import EntityRest.Proofs.Schema.FieldTag
