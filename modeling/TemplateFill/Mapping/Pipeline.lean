import TemplateFill.Mapping.Expansion
import TemplateFill.Mapping.Scalars

/-!
The passes that turn a template into an instance, and running them in order.

The log says when a pass starts and when it has finished. The first failure ends the run.
-/

namespace TemplateFill

/-! ### Passes over the root -/

namespace Context

def cloneTemplate (context : Context) : Except Failure Context :=
  .ok { context with working := Document.ofJson context.template }

def setRootMember (context : Context) (key : String) (value : Json) : Except Failure Context := do
  let (document, _) ← context.edited (context.working.setMember Document.root key value)
  return { context with working := document }

def markAsInstance (context : Context) : Except Failure Context :=
  context.setRootMember Key.kind (.text instanceKind)

def stripQualifiers (context : Context) : Except Failure Context :=
  match context.working.member? Key.qualifiers Document.root with
  | some _ => context.setRootMember Key.qualifiers (.array [])
  | none => .ok context

def replaceIdentifier (context : Context) : Except Failure Context :=
  match context.working.member? Key.id Document.root with
  | some id =>
      .ok { context with working := context.working.replaceValue id (.text context.newId) }
  | none => .error (context.failure .missingIdentifier)

end Context

/-! ### Pipelines -/

inductive Pass where
  | cloneTemplate
  | markAsInstance
  | expandCollections
  | mapScalars
  | stripQualifiers
  | replaceIdentifier
deriving DecidableEq

namespace Pass

def name : Pass → String
  | cloneTemplate => "CloneTemplateStep"
  | markAsInstance => "MarkAsInstanceStep"
  | expandCollections => "ExpandCollectionsStep"
  | mapScalars => "MapScalarFieldsStep"
  | stripQualifiers => "StripQualifiersStep"
  | replaceIdentifier => "ReplaceIdentifierStep"

def run : Pass → Context → Except Failure Context
  | cloneTemplate => Context.cloneTemplate
  | markAsInstance => Context.markAsInstance
  | expandCollections => Context.expandCollections
  | mapScalars => Context.mapScalars
  | stripQualifiers => Context.stripQualifiers
  | replaceIdentifier => Context.replaceIdentifier

def runLogged (pass : Pass) (context : Context) : Except Failure Context := do
  let after ← pass.run (context.log ("Started " ++ pass.name))
  return after.log ("Finished " ++ pass.name)

end Pass

abbrev Pipeline := List Pass

namespace Pipeline

def standard : Pipeline :=
  [.cloneTemplate, .markAsInstance, .expandCollections, .mapScalars, .stripQualifiers,
    .replaceIdentifier]

def run : Pipeline → Context → Except Failure Context
  | [], context => .ok context
  | pass :: rest, context => do
      let after ← pass.runLogged context
      run rest after

end Pipeline

/-- The instance of a template: collections repeated and values taken from the data, texts tagged
with the language, under a new identifier. -/
def mapTemplate (template data : Json) (language newId moment : String) : Except Failure Json := do
  let done ← Pipeline.standard.run (Context.start template data language newId moment)
  return done.working.toJson

end TemplateFill
