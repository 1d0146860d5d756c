import TemplateFill.Document.Basic
import TemplateFill.Mapping.Vocabulary
import TemplateFill.Path.Printer
import TemplateFill.Path.Query

/-!
Qualifiers in a document: how they are found, and what they say.

A qualifier is an object among the `qualifiers` of its owner: its parent is the container of its
siblings, and its grandparent is the element that it annotates. Qualifiers are found by paths.
-/

namespace TemplateFill

/-! ### Selectors -/

def QualifierType.filter (kind : QualifierType) : Filter :=
  .compare (.candidate [.child (.name Key.type)]) .equal (.literal (.string kind.tag))

def qualifiersWhere (condition : Filter) : List Segment :=
  [.descendant (.name Key.qualifiers), .child (.filter condition)]

def QualifierType.query (kind : QualifierType) : Query :=
  let segments := qualifiersWhere kind.filter
  ⟨Segment.normalPath segments, segments⟩

def indexedSegments : List Segment :=
  qualifiersWhere
    (.or QualifierType.mappingInfo.filter QualifierType.collectionMappingInfo.filter)

namespace Document

/-! ### Finding qualifiers -/

def qualifiers (document : Document) (scope : NodeId) (kind : QualifierType) : List NodeId :=
  kind.query.select document.view scope

def indexedQualifiers (document : Document) (scope : NodeId) : List NodeId :=
  document.view.select scope indexedSegments [scope]

/-! ### What a qualifier says -/

def qualifierType? (document : Document) (qualifier : NodeId) : Option QualifierType :=
  (document.stringMember? Key.type qualifier).bind QualifierType.ofTag?

def qualifierValue? (document : Document) (qualifier : NodeId) : Option String :=
  document.stringMember? Key.value qualifier

def qualifierContainer? (document : Document) (qualifier : NodeId) : Option NodeId :=
  document.parent? qualifier

def qualifierOwner? (document : Document) (qualifier : NodeId) : Option NodeId :=
  document.ancestor? qualifier 2

/-- The cardinality that the first sibling states which states one at all. -/
def qualifierCardinality (document : Document) (qualifier : NodeId) : Cardinality :=
  let stated := (document.qualifierContainer? qualifier).bind fun container =>
    let siblings :=
      document.view.select container [.child (.filter QualifierType.cardinality.filter)] [container]
    siblings.findSome? document.qualifierValue?
  Cardinality.ofValue stated

def modelType? (document : Document) (element : NodeId) : Option ModelType :=
  (document.stringMember? Key.modelType element).map ModelType.ofName

end Document

end TemplateFill
