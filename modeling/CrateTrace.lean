import CrateTrace.Elf.Listing
import CrateTrace.Ingest.Reference
import CrateTrace.Project.Config
import CrateTrace.Project.Layout
import CrateTrace.Store.Connection
import CrateTrace.Store.DatabaseFile
import CrateTrace.Workspace.Project
import CrateTrace.Workspace.Tree
import CrateTrace.Yaml.Printer
import CrateTrace.Main
import CrateTrace.Proofs.Store.Readings
import CrateTrace.Proofs.Matching.Verdicts
import CrateTrace.Proofs.Matching.Reading
import CrateTrace.Proofs.Matching.Pass
import CrateTrace.Proofs.Correlation
import CrateTrace.Proofs.Matching.Committed
import CrateTrace.Proofs.Matching.Repeat
import CrateTrace.Proofs.Matching.Rollback
import CrateTrace.Proofs.Matching.Independence
import CrateTrace.Proofs.Store.Consistency
import CrateTrace.Proofs.History
import CrateTrace.Proofs.Name.Grammar
import CrateTrace.Proofs.Name.Soundness
import CrateTrace.Proofs.Name.Completeness
import CrateTrace.Proofs.Name.Lexing
import CrateTrace.Proofs.Name.WellFormed
import CrateTrace.Proofs.Name.Printing
import CrateTrace.Proofs.Name.Spacing
import CrateTrace.Proofs.Name.RoundTrip
import CrateTrace.Proofs.Name.Skeleton
import CrateTrace.Proofs.Correlation.Decision
import CrateTrace.Proofs.Correlation.Order
import CrateTrace.Proofs.Correlation.Repetition
import CrateTrace.Proofs.Matching.CandidateUnits
import CrateTrace.Proofs.Signature.Relinking
import CrateTrace.Proofs.Ingest.Outcomes
import CrateTrace.Proofs.Ingest.Attachment
import CrateTrace.Proofs.Signature.Layout
import CrateTrace.Proofs.History.Effects
import CrateTrace.Proofs.History.Ownership
import CrateTrace.Proofs.History.Replacement
import CrateTrace.Proofs.History.Records
import CrateTrace.Proofs.History.Links
import CrateTrace.Proofs.History.Reference
import CrateTrace.Proofs.Ingest.Records
import CrateTrace.Proofs.Keyed
import CrateTrace.Proofs.Program.Body
import CrateTrace.Proofs.Ingest.Extraction
import CrateTrace.Proofs.Elf.OwnCode
import CrateTrace.Proofs.Matching.TiePolicy
import CrateTrace.Proofs.Project.WantedCrates
import CrateTrace.Proofs.Store.Migration
import CrateTrace.Proofs.History.Addresses
import CrateTrace.Proofs.Correlation.Rejection
import CrateTrace.Proofs.Program.Blocks
import CrateTrace.Proofs.Signature.Rebasing
import CrateTrace.Proofs.Name.CratePrefix
import CrateTrace.Proofs.Ingest.Counterparts
import CrateTrace.Proofs.Name.Tiling
import CrateTrace.Proofs.Name.Brackets
import CrateTrace.Proofs.Name.ClauseForms
import CrateTrace.Proofs.Name.Separators
import CrateTrace.Name.Bytewise
import CrateTrace.Proofs.Name.Boundaries
import CrateTrace.Proofs.Name.Bytewise
import CrateTrace.Proofs.Name.Places
import CrateTrace.Proofs.Name.Errors
import CrateTrace.Proofs.Name.Blanks
import CrateTrace.Proofs.Name.Closures
import CrateTrace.Proofs.Store.Listings
import CrateTrace.Proofs.Store.Marks
import CrateTrace.Proofs.Elf.HostileHeaders
import CrateTrace.Proofs.Signature.Agreement
import CrateTrace.Proofs.Name.Coverage
import CrateTrace.Proofs.Mangling.Legacy
import CrateTrace.Proofs.Ingest.LegacyLabels
import CrateTrace.Signature.Bytewise
import CrateTrace.Proofs.Signature.Reading
import CrateTrace.Proofs.Signature.Bytewise
