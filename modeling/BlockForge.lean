import BlockForge.CommandLine
import BlockForge.Double.ReadBack
import BlockForge.Main
import BlockForge.Proofs.BlockType
import BlockForge.Proofs.Built
import BlockForge.Proofs.Container
import BlockForge.Proofs.Counts
import BlockForge.Proofs.Delivery
import BlockForge.Proofs.Detection
import BlockForge.Proofs.Disabled
import BlockForge.Proofs.Edits
import BlockForge.Proofs.Failures
import BlockForge.Proofs.Flaws
import BlockForge.Proofs.Forest
import BlockForge.Proofs.History
import BlockForge.Proofs.Interpolation
import BlockForge.Proofs.LeadingInteger
import BlockForge.Proofs.References
import BlockForge.Proofs.Refusal
import BlockForge.Proofs.Renaming
import BlockForge.Proofs.Rewriting
import BlockForge.Proofs.Scopes
import BlockForge.Proofs.StubBalance
import BlockForge.Workspace.Script
