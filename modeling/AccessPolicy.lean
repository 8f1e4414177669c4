import AccessPolicy.Audit.Json
import AccessPolicy.Proofs.Engine.Stack
import AccessPolicy.Proofs.Resolution.Acyclic
import AccessPolicy.Proofs.Resolution.Memoization
import AccessPolicy.Proofs.Resolution.Order
import AccessPolicy.Session.Run
import AccessPolicy.Settings.Load
import AccessPolicy.Telemetry.Filter
import AccessPolicy.Telemetry.Json
import AccessPolicy.Proofs.Engine.History
import AccessPolicy.Proofs.Engine.Representation
import AccessPolicy.Proofs.Engine.Frame
import AccessPolicy.Proofs.Engine.Production
import AccessPolicy.Proofs.Engine.Relays
import AccessPolicy.Proofs.Engine.Cycles
import AccessPolicy.Proofs.Enforcement.Metering
import AccessPolicy.Proofs.Enforcement.Reuse
import AccessPolicy.Proofs.Policy.Combining
import AccessPolicy.Proofs.Enforcement.Failing
import AccessPolicy.Proofs.Enforcement.Agreement
import AccessPolicy.Proofs.Policy.Printing
import AccessPolicy.Proofs.Policy.Sources
import AccessPolicy.Proofs.Report.Lines
import AccessPolicy.Proofs.Engine.Writing
import AccessPolicy.Proofs.Policy.Sections
import AccessPolicy.Proofs.Engine.Blindness
import AccessPolicy.Proofs.Policy.Grouping
import AccessPolicy.Proofs.Engine.Merging
import AccessPolicy.Proofs.Engine.Counting
import AccessPolicy.Proofs.Engine.Reading
import AccessPolicy.Proofs.Enforcement.Installing
import AccessPolicy.Proofs.Telemetry.HitRate
import AccessPolicy.Proofs.Settings.Literals
import AccessPolicy.Proofs.Audit.Records
import AccessPolicy.Proofs.Enforcement.Building
import AccessPolicy.Proofs.Policy.Spellings
import AccessPolicy.Proofs.Attribute.TypeNames
import AccessPolicy.Proofs.Engine.MissLines
