import DeployTarget.Definition.Writer
import DeployTarget.Main
import DeployTarget.Proofs.Cancellation
import DeployTarget.Proofs.Verdict
import DeployTarget.Proofs.Calls
import DeployTarget.Proofs.KeySegments
import DeployTarget.Proofs.Provisioning
import DeployTarget.Proofs.Locality
import DeployTarget.Proofs.Relaxation
import DeployTarget.Proofs.Annotation
import DeployTarget.Proofs.Enrichment
import DeployTarget.Proofs.StaticResolution
import DeployTarget.Proofs.Interruption
import DeployTarget.Proofs.Origins
import DeployTarget.Proofs.Parsing
import DeployTarget.Proofs.RequiredTexts
import DeployTarget.Proofs.RuntimeInput
import DeployTarget.Proofs.Agreement
import DeployTarget.Proofs.Preimage
import DeployTarget.Proofs.WrittenTags
import DeployTarget.Proofs.DocumentText
import DeployTarget.Proofs.ByteOffset
import DeployTarget.Proofs.Interpolation
import DeployTarget.Proofs.References
import DeployTarget.Proofs.StaticPool
import DeployTarget.Proofs.CommonBlock
import DeployTarget.Proofs.UnclosedReference
import DeployTarget.Proofs.PathSteps
import DeployTarget.Proofs.Addressing
import DeployTarget.Proofs.Logging
import DeployTarget.Proofs.HostObjects
import DeployTarget.Proofs.PathSpelling
import DeployTarget.Proofs.Respelling
import DeployTarget.Proofs.ScanOrder
import DeployTarget.Proofs.HostNormalForm
import DeployTarget.Proofs.TextGrammar
import DeployTarget.Proofs.ConnectorHistory
import DeployTarget.Proofs.Modes
import DeployTarget.Proofs.Overlay
import DeployTarget.Proofs.PathGrammar
import DeployTarget.Proofs.WrittenFields
import DeployTarget.Proofs.Presence
