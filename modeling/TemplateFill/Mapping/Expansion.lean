import TemplateFill.Mapping.Binding
import TemplateFill.Mapping.Context
import TemplateFill.Mapping.Qualifier

/-!
Repeating collections once per entry of their list.

A round takes the collection qualifier whose path has the fewest steps to every entry, the first of
those, and replaces its owner by one copy per entry counted. Outer collections so come before the
collections in them, whose paths are then bound to the entry of their copy. Rounds go on until no
collection qualifier is left. A copy lacks the qualifier that caused it.
-/

namespace TemplateFill

namespace Expansion

/-! ### Copies -/

def leastBy (measure : NodeId → Nat) : List NodeId → Option NodeId
  | [] => none
  | node :: rest =>
      match leastBy measure rest with
      | none => some node
      | some other => if measure other < measure node then some other else some node

def nextQualifier? (document : Document) : Option NodeId :=
  leastBy (fun qualifier => Binding.wildcards (document.qualifierValue? qualifier))
    (document.qualifiers Document.root .collectionMappingInfo)

def dropTriggers (document : Document) (copy : NodeId) (path : String) : Document :=
  let triggers := (document.qualifiers copy .collectionMappingInfo).filter fun qualifier =>
    document.qualifierValue? qualifier == some path
  triggers.foldl Document.removeNode document

def numberShortName (document : Document) (copy : NodeId) (position : Nat) :
    Except EditError Document :=
  match document.stringMember? Key.idShort copy with
  | none => .ok document
  | some name =>
      (document.setMember copy Key.idShort (.text (name ++ "_" ++ toString position))).map Prod.fst

def boundPaths (document : Document) (copy : NodeId) (binding : Binding) (position : Nat) :
    List (NodeId × String) :=
  (document.indexedQualifiers copy).filterMap fun qualifier =>
    match document.qualifierValue? qualifier with
    | none => none
    | some path =>
        if binding.appliesTo path then some (qualifier, binding.bind path position) else none

def writePaths (document : Document) : List (NodeId × String) → Except EditError Document
  | [] => .ok document
  | (qualifier, path) :: rest => do
      let (after, _) ← document.setMember qualifier Key.value (.text path)
      writePaths after rest

def prepareCopy (document : Document) (copy : NodeId) (path : String) (binding : Binding)
    (position : Nat) : Except EditError Document := do
  let numbered ← numberShortName (dropTriggers document copy path) copy position
  writePaths numbered (boundPaths numbered copy binding position)

def addCopy (document : Document) (owner container : NodeId) (path : String) (binding : Binding)
    (position : Nat) : Except EditError Document := do
  let (cloned, copy) := document.deepClone owner
  let prepared ← prepareCopy cloned copy path binding position
  prepared.appendChild container copy

def addCopies (document : Document) (owner container : NodeId) (path : String)
    (binding : Binding) (position : Nat) : Nat → Except EditError Document
  | 0 => .ok document
  | more + 1 => do
      let longer ← addCopy document owner container path binding position
      addCopies longer owner container path binding (position + 1) more

/-! ### Rounds -/

def expandQualifier (context : Context) (qualifier : NodeId) : Except Failure Context := do
  let document := context.working
  let missingModelType := Cause.structuralMismatch .missingModelType
  let owner ← context.require missingModelType (document.qualifierOwner? qualifier)
  let modelType ← context.require missingModelType (document.modelType? owner)
  if modelType != .collection then
    throw (context.failure (.structuralMismatch (.notACollection modelType.name)))
  let container ←
    context.require (.structuralMismatch .missingValueMember) (document.parent? owner)
  let path ← context.require .missingMappingValue (document.qualifierValue? qualifier)
  let binding := Binding.ofPath path
  let mandatory := (document.qualifierCardinality qualifier).isMandatory
  let entries ← context.selected (Query.selectManyIn context.data binding.countPath mandatory)
  let copied ← context.edited
    (addCopies document owner container path binding 0 entries.length)
  let (marked, _) ← context.edited
    (copied.setMember qualifier Key.type (.text QualifierType.processedCollectionMappingInfo.tag))
  let after := { context with working := marked.removeNode owner }
  return after.log ("Successfully duplicated " ++ toString entries.length
    ++ " elements for collection with mapping path '" ++ path ++ "'")

/-- Expands the next collection, or answers `none` if no collection qualifier is left. -/
def round (context : Context) : Except Failure (Option Context) :=
  match nextQualifier? context.working with
  | none => .ok none
  | some qualifier =>
      (expandQualifier { context with qualifier? := some qualifier } qualifier).map some

/-- Expands until no collection qualifier is left. A round can raise the number of qualifiers, so
nothing in the definition shows that the rounds come to an end. -/
def expandAll (context : Context) : Except Failure Context :=
  haveI : Nonempty Context := ⟨context⟩
  repeatM (fun before => do
    match ← round before with
    | none => return .inr before
    | some after => return .inl after) context

/-! ### Marks -/

def restoreTag (document : Document) (qualifier : NodeId) : Document :=
  match document.member? Key.type qualifier with
  | none => document
  | some tag => document.replaceValue tag (.text QualifierType.collectionMappingInfo.tag)

def restoreTags (document : Document) : Document :=
  (document.qualifiers Document.root .processedCollectionMappingInfo).foldl restoreTag document

end Expansion

def Context.expandCollections (context : Context) : Except Failure Context := do
  let expanded ← Expansion.expandAll context
  return { expanded with qualifier? := none, working := Expansion.restoreTags expanded.working }

end TemplateFill
