import TemplateFill.Document.Basic

/-!
Structural edits of documents.

New values are laid out behind all nodes there are. An edit that fails leaves no document behind, so
a caller keeps the one it had.
-/

namespace TemplateFill

inductive EditError where
  | notAnArray (node : NodeId)
  | notAnObject (node : NodeId)
  | alreadyAttached (node : NodeId)
  | duplicateKey (node : NodeId) (key : String)
deriving DecidableEq

def nodeName (node : NodeId) : String := "#" ++ toString node

def EditError.message : EditError → String
  | notAnArray node => "Node " ++ nodeName node ++ " is not an array"
  | notAnObject node => "Node " ++ nodeName node ++ " is not an object"
  | alreadyAttached node => "Node " ++ nodeName node ++ " is already attached to the document"
  | duplicateKey node key =>
      "Node " ++ nodeName node ++ " already has a member named '" ++ key ++ "'"

namespace Document

/-! ### Links -/

def setContent (document : Document) (node : NodeId) (content : Content) : Document :=
  ⟨document.nodes.modify node fun old => { old with content }⟩

def setParent (document : Document) (node : NodeId) (parent? : Option NodeId) : Document :=
  ⟨document.nodes.modify node fun old => { old with parent? }⟩

def extend (document : Document) (nodes : List Node) : Document :=
  ⟨document.nodes ++ nodes.toArray⟩

/-! ### Edits -/

/-- Lays a value out behind all nodes, below the given parent if any; answers with its node too. The
parent's own content is left as it is. -/
def insert (document : Document) (parent? : Option NodeId) (value : Json) : Document × NodeId :=
  (document.extend (layOut document.size parent? value), document.size)

def deepClone (document : Document) (node : NodeId) : Document × NodeId :=
  document.insert none (document.nodeToJson node)

/-- Replaces the content of a node by a value; the node keeps its number and place. -/
def replaceValue (document : Document) (node : NodeId) (value : Json) : Document :=
  let released := (document.children node).foldl (fun doc child => doc.setParent child none) document
  (released.extend (layOutChildren document.size node value)).setContent node
    (contentOf document.size value)

/-- Sets a member of an object: the content of its node if it is there, else a new last member. -/
def setMember (document : Document) (object : NodeId) (key : String) (value : Json) :
    Except EditError (Document × NodeId) :=
  match document.member? key object with
  | some existing => .ok (document.replaceValue existing value, existing)
  | none =>
      match document.content object with
      | .object members =>
          let (longer, member) := document.insert (some object) value
          .ok (longer.setContent object (.object (members ++ [(key, member)])), member)
      | _ => .error (.notAnObject object)

def dropChild (child : NodeId) : Content → Content
  | .scalar value => .scalar value
  | .array elements => .array (elements.filter fun element => element != child)
  | .object members => .object (members.filter fun member => member.2 != child)

/-- Unlinks a node from its parent; a node without one stays as it is. -/
def removeNode (document : Document) (node : NodeId) : Document :=
  match document.parent? node with
  | none => document
  | some parent =>
      (document.setContent parent (dropChild node (document.content parent))).setParent node none

def removeMember (document : Document) (object : NodeId) (key : String) :
    Document × Option NodeId :=
  match document.member? key object with
  | none => (document, none)
  | some member => (document.removeNode member, some member)

def appendChild (document : Document) (array child : NodeId) : Except EditError Document :=
  if (document.parent? child).isSome || child = root then .error (.alreadyAttached child)
  else
    match document.content array with
    | .array elements =>
        .ok ((document.setContent array (.array (elements ++ [child]))).setParent child
          (some array))
    | _ => .error (.notAnArray array)

def renameMember {α : Type} (before after : String) : List (String × α) → List (String × α)
  | [] => []
  | (key, member) :: rest =>
      if key = before then (after, member) :: rest
      else (key, member) :: renameMember before after rest

def renameKey (document : Document) (object : NodeId) (before after : String) :
    Except EditError (Document × Bool) :=
  match document.content object with
  | .object members =>
      let present := (memberOf? before members).isSome
      if before = after then .ok (document, present)
      else if (memberOf? after members).isSome then .error (.duplicateKey object after)
      else if present then
        .ok (document.setContent object (.object (renameMember before after members)), true)
      else .ok (document, false)
  | _ => .error (.notAnObject object)

end Document

end TemplateFill
