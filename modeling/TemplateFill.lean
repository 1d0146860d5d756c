import TemplateFill.Document.Location
import TemplateFill.Main
import TemplateFill.Proofs.Document.Tree
import TemplateFill.Proofs.Document.WellFormed
import TemplateFill.Proofs.Document.Layout
import TemplateFill.Proofs.Document.Edits
import TemplateFill.Proofs.Document.Operations
import TemplateFill.Proofs.Path.Selection
import TemplateFill.Proofs.Document.Selection
import TemplateFill.Proofs.Mapping.Qualifiers
import TemplateFill.Proofs.Document.Reshape
import TemplateFill.Proofs.Document.Shape
import TemplateFill.Proofs.Mapping.Copies
import TemplateFill.Proofs.Mapping.Round
import TemplateFill.Proofs.Mapping.Scalars
import TemplateFill.Proofs.Mapping.Termination
import TemplateFill.Proofs.Mapping.NestedExpansion
import TemplateFill.Proofs.Path.Acceptance
import TemplateFill.Proofs.Document.Location
import TemplateFill.Proofs.Mapping.RoundRewrite
import TemplateFill.Proofs.Mapping.ListEntries
import TemplateFill.Proofs.Mapping.Origins
import TemplateFill.Proofs.Mapping.Attribution
import TemplateFill.Proofs.Batch.Protocol
import TemplateFill.Proofs.Document.Refinement
import TemplateFill.Proofs.Mapping.UniqueNames
import TemplateFill.Proofs.Path.NormalText
import TemplateFill.Proofs.Batch.Identifiers
import TemplateFill.Proofs.Mapping.Languages
import TemplateFill.Proofs.Mapping.Remapping
import TemplateFill.Proofs.Mapping.Wildcards
import TemplateFill.Proofs.Document.Cycles
import TemplateFill.Proofs.Document.Order
import TemplateFill.Proofs.Document.Preorder
import TemplateFill.Proofs.Mapping.Discovery
import TemplateFill.Proofs.Document.Clones
import TemplateFill.Proofs.Mapping.OuterFirst
import TemplateFill.Proofs.Mapping.ValueFrame
import TemplateFill.Proofs.Path.Spacing
import TemplateFill.Proofs.Path.ErrorPlaces
import TemplateFill.Proofs.Document.Distinct
import TemplateFill.Proofs.Batch.Sources
import TemplateFill.Proofs.Path.Offsets
import TemplateFill.Proofs.Path.Composition
