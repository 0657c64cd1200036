import LayerScript.Session
import LayerScript.Main
import LayerScript.Proofs.Graph.Emission
import LayerScript.Proofs.Graph.Declared
import LayerScript.Proofs.Graph.Faults
import LayerScript.Proofs.Graph.Marks
import LayerScript.Proofs.Graph.Order
import LayerScript.Proofs.Graph.Reordering
import LayerScript.Proofs.Graph.Sequence
import LayerScript.Proofs.Graph.Tally
import LayerScript.Proofs.Binding
import LayerScript.Proofs.Network
import LayerScript.Proofs.Scripts
import LayerScript.Proofs.Graph.Embedding
import LayerScript.Proofs.Resolution
import LayerScript.Proofs.Pruning
import LayerScript.Proofs.Literal
import LayerScript.Proofs.Grammar
import LayerScript.Proofs.Numeral
import LayerScript.Proofs.Constants
import LayerScript.Proofs.Disk.Access
import LayerScript.Proofs.Layers
import LayerScript.Proofs.Artifacts
import LayerScript.Proofs.Commands
import LayerScript.Proofs.Records
import LayerScript.Proofs.Catalog
import LayerScript.Proofs.Printing
import LayerScript.Proofs.Failures
import LayerScript.Proofs.Capture
import LayerScript.Proofs.Categories
import LayerScript.Proofs.Retargeting
import LayerScript.Proofs.Envelopes
import LayerScript.Proofs.Disk.Changes
import LayerScript.Proofs.Disk.Directories
import LayerScript.Proofs.Isolation
import LayerScript.Proofs.Storage
import LayerScript.Proofs.History
import LayerScript.Proofs.Pattern
import LayerScript.Proofs.Spelling
import LayerScript.Proofs.Json.Literals
import LayerScript.Proofs.Training
import LayerScript.Proofs.Encoding
import LayerScript.Proofs.Keywords
import LayerScript.Proofs.Launch
