import TemplateFill.Mapping.Context
import TemplateFill.Mapping.Qualifier

/-!
Writing values of the data into the elements that ask for them.

The qualifiers are listed once and then processed in that order. A qualifier that an earlier write
has cut off is passed over. A path that selects nothing leaves the element as it is, unless the
mapping is mandatory.
-/

namespace TemplateFill

namespace Scalars

def inLanguage (language : String) (value : Json) : Json :=
  .array [.object [(Key.text, value), (Key.language, .text language)]]

def valueFor (modelType : ModelType) (language : String) (value : Json) : Json :=
  match modelType with
  | .multiLanguage => inLanguage language value
  | _ => value

/-- Gives a text in several languages an empty value if it has none. -/
def withValueMember (context : Context) (owner : NodeId) (modelType : ModelType) :
    Except Failure Context :=
  if modelType = .multiLanguage ∧ (context.working.member? Key.value owner).isNone then do
    let (document, _) ← context.edited (context.working.setMember owner Key.value (.text ""))
    return { context with working := document }
  else .ok context

def write (context : Context) (owner : NodeId) (modelType : ModelType) (path : String)
    (value : Json) : Except Failure Context := do
  let (document, _) ← context.edited
    (context.working.setMember owner Key.value (valueFor modelType context.language value))
  return { context with working := document }.log
    ("Successfully mapped data from path '" ++ path ++ "'")

def fill (context : Context) (qualifier : NodeId) : Except Failure Context := do
  let document := context.working
  let missingModelType := Cause.structuralMismatch .missingModelType
  let owner ← context.require missingModelType (document.qualifierOwner? qualifier)
  let modelType ← context.require missingModelType (document.modelType? owner)
  let path? := document.qualifierValue? qualifier
  let mandatory := (document.qualifierCardinality qualifier).isMandatory
  let context ← withValueMember context owner modelType
  let _ ← context.require (.structuralMismatch .missingValueMember)
    (context.working.member? Key.value owner)
  let path ← context.require .missingMappingValue path?
  match ← context.selected (Query.selectOneIn context.data path) with
  | some value => write context owner modelType path value
  | none =>
      if mandatory then throw (context.failure (.mandatoryMappingMissing path))
      else return context

/-- Processes qualifiers in order, except those that are cut off by then. -/
def fillEach : List NodeId → Context → Except Failure Context
  | [], context => .ok context
  | qualifier :: rest, context =>
      if context.working.isAttached qualifier then do
        let after ← fill { context with qualifier? := some qualifier } qualifier
        fillEach rest after
      else fillEach rest context

end Scalars

def Context.mapScalars (context : Context) : Except Failure Context :=
  Scalars.fillEach (context.working.qualifiers Document.root .mappingInfo) context

end TemplateFill
