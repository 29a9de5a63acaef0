import Templating.Main
import Templating.Program
import Templating.Proofs.Grammar
import Templating.Proofs.Scanning
import Templating.Proofs.Splicing
import Templating.Proofs.Writing
import Templating.Proofs.Places
import Templating.Proofs.Tracing
import Templating.Proofs.Coordinates
import Templating.Proofs.Executing
import Templating.Proofs.Stages
import Templating.Proofs.Silence
import Templating.Proofs.Programs
import Templating.Proofs.Indentation
import Templating.Proofs.Sessions
import Templating.Proofs.Targets
import Templating.Proofs.Recycling
import Templating.Proofs.Watching
import Templating.Proofs.Nesting
import Templating.Proofs.Serving
import Templating.Proofs.Forgetting
import Templating.Proofs.Ways
import Templating.Proofs.Delivering
import Templating.Proofs.Lookups
import Templating.Proofs.Rerunning
import Templating.Proofs.Buffering
import Templating.Proofs.Variants
import Templating.Proofs.Embedding
import Templating.Proofs.Attributes
import Templating.Proofs.Cutting
import Templating.Proofs.Faults
import Templating.Proofs.Indexing
import Templating.Proofs.Halting
import Templating.Proofs.LineEndings
import Templating.Proofs.Twins
import Templating.Proofs.IndentStack
import Templating.Proofs.Quoting
import Templating.Proofs.Literals
import Templating.Proofs.Messages
import Templating.Proofs.Decoding
import Templating.Proofs.Compiling
import Templating.Proofs.Relocating
import Templating.Proofs.ResponseFiles
import Templating.Proofs.Linking
import Templating.Proofs.Aborting
import Templating.Proofs.Requirements
import Templating.Proofs.Scopes
import Templating.Proofs.Overwriting
import Templating.Proofs.Origins
import Templating.Proofs.Canonical
import Templating.Proofs.IncludeOrder
import Templating.Proofs.Wrapping
import Templating.Proofs.Imports
import Templating.Proofs.DefaultNames
