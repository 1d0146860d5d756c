import TemplateFill.Json.Outline

/-!
References from a shell to a submodel, as they are posted to the shell's reference list.
-/

namespace TemplateFill

structure ReferenceKey where
  kind : String
  value : String
deriving DecidableEq

structure Reference where
  keys : List ReferenceKey
  kind : String
deriving DecidableEq

namespace ReferenceKey

def toJson (key : ReferenceKey) : Json :=
  .object [("type", .text key.kind), ("value", .text key.value)]

def layout : Json.RecordLayout := [("type", .required), ("value", .required)]

def read? (text : List Char) : Option ReferenceKey := do
  match ← Json.fields? layout text with
  | [some kind, some value] =>
      return { kind := ← Json.textField? kind, value := ← Json.textField? value }
  | _ => none

end ReferenceKey

namespace Reference

def toSubmodel (id : String) : Reference :=
  { keys := [{ kind := "Submodel", value := id }], kind := "ModelReference" }

def toJson (reference : Reference) : Json :=
  .object [("keys", .array (reference.keys.map ReferenceKey.toJson)), ("type", .text reference.kind)]

def layout : Json.RecordLayout := [("keys", .required), ("type", .required)]

def read? (text : List Char) : Option Reference := do
  match ← Json.fields? layout text with
  | [some keys, some kind] =>
      return {
        keys := ← Json.listField? ReferenceKey.read? keys
        kind := ← Json.textField? kind }
  | _ => none

end Reference

end TemplateFill
