import Montage.Main
import Montage.Command.Call
import Montage.Command.Shell
import Montage.Store.Memory
import Montage.Proofs.Except
import Montage.Proofs.Check
import Montage.Proofs.Graph.Reading
import Montage.Proofs.Overlay
import Montage.Proofs.Overlay.Session
import Montage.Proofs.Engine.Account
import Montage.Proofs.PlainDecimal
import Montage.Proofs.Graph.Chain
import Montage.Proofs.Graph.Values
import Montage.Proofs.Graph.Lettering
import Montage.Proofs.Graph.Integrity
import Montage.Proofs.Graph.Options
import Montage.Proofs.Graph.Content
import Montage.Proofs.Graph.Extension
import Montage.Proofs.Graph.Rearrangement
import Montage.Proofs.Edit
import Montage.Proofs.FileTree
import Montage.Proofs.FileTree.Directories
import Montage.Proofs.FileTree.Children
import Montage.Proofs.Render.Staging
import Montage.Proofs.Render.Attempt
import Montage.Proofs.Command
import Montage.Proofs.Job.Images
import Montage.Proofs.Path
import Montage.Proofs.Path.Sibling
import Montage.Proofs.Naming
import Montage.Proofs.Command.Words
import Montage.Proofs.Command.Shape
import Montage.Proofs.Command.Identity
import Montage.Proofs.Render.Isolation
import Montage.Proofs.Render.Restoration
import Montage.Proofs.Render.Outcome
import Montage.Proofs.Render.Counting
import Montage.Proofs.Job.Config
import Montage.Proofs.Job.Journal
import Montage.Proofs.Job.Recurrence
import Montage.Proofs.Store.Saving
import Montage.Proofs.Store.Mirror
import Montage.Proofs.Store.Steps
import Montage.Proofs.Store.Interleaving
import Montage.Proofs.Program.Rendering
import Montage.Proofs.Edit.Layout
import Montage.Proofs.Edit.RoundTrip
import Montage.Proofs.Edit.Offender
import Montage.Proofs.Command.Refusal
import Montage.Proofs.Command.Building
import Montage.Proofs.Naming.Kept
import Montage.Proofs.Naming.Derived
import Montage.Proofs.Graph.Refusal
import Montage.Proofs.Graph.Color
import Montage.Proofs.Edit.Clamping
import Montage.Proofs.Timestamp.Minus
import Montage.Proofs.Timestamp.Seconds
import Montage.Proofs.Timestamp.Elapsed
import Montage.Proofs.Thumbnail.Generation
import Montage.Proofs.Store.Confinement
