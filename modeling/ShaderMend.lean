import ShaderMend.Bundle
import ShaderMend.Bundle.Payload
import ShaderMend.Bundle.Writer
import ShaderMend.Bytecode.Container
import ShaderMend.Bytecode.Image
import ShaderMend.Bytecode.Inspection
import ShaderMend.Bytecode.Layout
import ShaderMend.Bytes
import ShaderMend.Catalogue
import ShaderMend.CommandLine
import ShaderMend.Config
import ShaderMend.Decimal
import ShaderMend.Decimal.Shortest
import ShaderMend.Diagnostics
import ShaderMend.Engine
import ShaderMend.Engine.Memory
import ShaderMend.FileTree
import ShaderMend.Json.Mismatch
import ShaderMend.Json.Number
import ShaderMend.Json.Place
import ShaderMend.Json.Printer
import ShaderMend.Json.Reader
import ShaderMend.Json.Value
import ShaderMend.Main
import ShaderMend.Manifest
import ShaderMend.Manifest.Data
import ShaderMend.Matching
import ShaderMend.Memory.View
import ShaderMend.Notice
import ShaderMend.Path
import ShaderMend.Proofs.Bundle.Contents
import ShaderMend.Proofs.Bundle.Listing
import ShaderMend.Proofs.Bundle.Reading
import ShaderMend.Proofs.Bundle.Written
import ShaderMend.Proofs.Bytecode.Arenas
import ShaderMend.Proofs.Bytecode.Evidence
import ShaderMend.Proofs.Bytecode.Inspecting
import ShaderMend.Proofs.Bytecode.Parts
import ShaderMend.Proofs.Bytecode.Reading
import ShaderMend.Proofs.Bytecode.Signatures
import ShaderMend.Proofs.Bytecode.Spoiling
import ShaderMend.Proofs.Bytecode.Structures
import ShaderMend.Proofs.Bytecode.Walking
import ShaderMend.Proofs.Bytecode.Writing
import ShaderMend.Proofs.Config.Keeping
import ShaderMend.Proofs.Diagnostics.Records
import ShaderMend.Proofs.Files.Writing
import ShaderMend.Proofs.Json.Compact
import ShaderMend.Proofs.Json.Numerals
import ShaderMend.Proofs.Json.Pretty
import ShaderMend.Proofs.Json.Spelling
import ShaderMend.Proofs.Json.Tokens
import ShaderMend.Proofs.Manifest.Descriptors
import ShaderMend.Proofs.Manifest.Shapes
import ShaderMend.Proofs.Manifest.Spellings
import ShaderMend.Proofs.Matching.Names
import ShaderMend.Proofs.Matching.Orders
import ShaderMend.Proofs.Matching.Pairing
import ShaderMend.Proofs.Matching.Points
import ShaderMend.Proofs.Memory.Accesses
import ShaderMend.Proofs.Memory.Slices
import ShaderMend.Proofs.Memory.Strings
import ShaderMend.Proofs.Notice.Exchanges
import ShaderMend.Proofs.Repair.Fix
import ShaderMend.Proofs.Repair.Loads
import ShaderMend.Proofs.Repair.Missing
import ShaderMend.Proofs.Repair.Pieces
import ShaderMend.Proofs.Repair.Placeholder
import ShaderMend.Proofs.Repair.Repetition
import ShaderMend.Proofs.Repair.Rounds
import ShaderMend.Proofs.Repair.Writes
import ShaderMend.Proofs.Repository.Directories
import ShaderMend.Proofs.Repository.Entries
import ShaderMend.Proofs.Repository.Finding
import ShaderMend.Proofs.Repository.Furnished
import ShaderMend.Proofs.Repository.Markers
import ShaderMend.Proofs.Repository.Searches
import ShaderMend.Proofs.Repository.Selection
import ShaderMend.Proofs.Repository.Shelves
import ShaderMend.Proofs.Repository.Undisturbed
import ShaderMend.Proofs.Results
import ShaderMend.Proofs.Scene.FirstUses
import ShaderMend.Proofs.Scene.Walks
import ShaderMend.Proofs.Session.Acts
import ShaderMend.Proofs.Session.Agreement
import ShaderMend.Proofs.Session.Alone
import ShaderMend.Proofs.Session.Archives
import ShaderMend.Proofs.Session.AtRest
import ShaderMend.Proofs.Session.Attendance
import ShaderMend.Proofs.Session.Completion
import ShaderMend.Proofs.Session.Deliveries
import ShaderMend.Proofs.Session.Downloads
import ShaderMend.Proofs.Session.FirstMarkers
import ShaderMend.Proofs.Session.Handles
import ShaderMend.Proofs.Session.History
import ShaderMend.Proofs.Session.Holdings
import ShaderMend.Proofs.Session.Identities
import ShaderMend.Proofs.Session.Mending
import ShaderMend.Proofs.Session.OneByOne
import ShaderMend.Proofs.Session.Outcomes
import ShaderMend.Proofs.Session.Overwriting
import ShaderMend.Proofs.Session.Pauses
import ShaderMend.Proofs.Session.Phases
import ShaderMend.Proofs.Session.Pieces
import ShaderMend.Proofs.Session.Regularity
import ShaderMend.Proofs.Session.Scenes
import ShaderMend.Proofs.Session.Schedules
import ShaderMend.Proofs.Session.Sharing
import ShaderMend.Proofs.Session.Stages
import ShaderMend.Proofs.Session.Tasks
import ShaderMend.Proofs.Session.Timeouts
import ShaderMend.Proofs.Session.Turns
import ShaderMend.Proofs.Session.WebPhase
import ShaderMend.Proofs.Text.Octets
import ShaderMend.Proofs.Text.Splitting
import ShaderMend.Proofs.Toml.Pairs
import ShaderMend.Proofs.Toml.Strings
import ShaderMend.Repair
import ShaderMend.Repair.Outcome
import ShaderMend.Repair.Run
import ShaderMend.Repository
import ShaderMend.Repository.LocalLoad
import ShaderMend.Repository.Materialization
import ShaderMend.Repository.Search
import ShaderMend.Repository.WebLoad
import ShaderMend.Repository.WebWait
import ShaderMend.Request
import ShaderMend.Scene
import ShaderMend.Session
import ShaderMend.Shader.Cell
import ShaderMend.Shader.Object
import ShaderMend.Shader.Property
import ShaderMend.Shader.PropertyData
import ShaderMend.Suspension
import ShaderMend.Text.Ascii
import ShaderMend.Text.Lines
import ShaderMend.Text.Printable
import ShaderMend.Text.Quoted
import ShaderMend.Toml.Document
import ShaderMend.Toml.Printer
import ShaderMend.Toml.Reader
import ShaderMend.Toml.Scalar
import ShaderMend.Toml.Text
import ShaderMend.World
import ShaderMend.Zip.Archive
import ShaderMend.Zip.Checksum
import ShaderMend.Zip.Inflate
import ShaderMend.Zip.Writer
