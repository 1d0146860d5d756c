/-!
The words of submodel elements: member names, kinds of elements, and kinds of qualifiers.
-/

namespace TemplateFill

/-! ### Member names -/

namespace Key

def idShort : String := "idShort"

def modelType : String := "modelType"

def value : String := "value"

def qualifiers : String := "qualifiers"

def type : String := "type"

def kind : String := "kind"

def id : String := "id"

def text : String := "text"

def language : String := "language"

end Key

def instanceKind : String := "Instance"

/-! ### Kinds of elements -/

inductive ModelType where
  | collection
  | multiLanguage
  | other (name : String)
deriving DecidableEq

namespace ModelType

def ofName (name : String) : ModelType :=
  if name = "SubmodelElementCollection" then collection
  else if name = "MultiLanguageProperty" then multiLanguage
  else other name

def name : ModelType → String
  | collection => "SubmodelElementCollection"
  | multiLanguage => "MultiLanguageProperty"
  | other name => name

end ModelType

/-! ### Kinds of qualifiers -/

inductive QualifierType where
  /-- The element takes its value from the data -/
  | mappingInfo
  /-- The element is repeated for each entry of a list -/
  | collectionMappingInfo
  /-- Tells whether the mappings beside it are mandatory -/
  | cardinality
  /-- A collection mapping that has been expanded -/
  | processedCollectionMappingInfo
deriving DecidableEq

namespace QualifierType

def tag : QualifierType → String
  | mappingInfo => "SMT/MappingInfo"
  | collectionMappingInfo => "SMT/CollectionMappingInfo"
  | cardinality => "SMT/Cardinality"
  | processedCollectionMappingInfo => "_SMT/CollectionMappingInfo"

def all : List QualifierType :=
  [mappingInfo, collectionMappingInfo, cardinality, processedCollectionMappingInfo]

def ofTag? (tag : String) : Option QualifierType := all.find? fun kind => kind.tag == tag

end QualifierType

/-- Whether a mapping has to find something in the data. -/
inductive Cardinality where
  | optional
  | mandatory
deriving DecidableEq

/-- A mapping is mandatory if its cardinality starts with `One`. -/
def Cardinality.ofValue : Option String → Cardinality
  | some value => if ['O', 'n', 'e'].isPrefixOf value.toList then mandatory else optional
  | none => optional

def Cardinality.isMandatory (cardinality : Cardinality) : Bool := cardinality == mandatory

end TemplateFill
