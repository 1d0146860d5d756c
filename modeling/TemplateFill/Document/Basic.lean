import TemplateFill.Path.Selection

/-!
Documents: JSON trees whose nodes have numbers and know their parents.

All nodes live in one table and are never taken out of it; a removed node is only unlinked. Numbers
are given in order, each node before its children and the children in their order, and are not used
again. `toJson` reads the tree below a node back as a value.
-/

namespace TemplateFill

abbrev NodeId := Nat

inductive Content where
  | scalar (value : Scalar)
  | array (elements : List NodeId)
  | object (members : List (String × NodeId))
deriving DecidableEq

def Content.children : Content → List NodeId
  | .scalar _ => []
  | .array elements => elements
  | .object members => members.map Prod.snd

/-- A node. The root and unlinked nodes have no parent. -/
structure Node where
  parent? : Option NodeId
  content : Content
deriving DecidableEq

/-- A table of nodes; a node's number is its place. -/
structure Document where
  nodes : Array Node
deriving DecidableEq

namespace Document

def root : NodeId := 0

/-! ### Laying out values -/

def numberElements (first : NodeId) : List Json → List NodeId
  | [] => []
  | element :: rest => first :: numberElements (first + element.size) rest

def numberMembers (first : NodeId) : List (String × Json) → List (String × NodeId)
  | [] => []
  | (key, value) :: rest => (key, first) :: numberMembers (first + value.size) rest

def contentOf (first : NodeId) : Json → Content
  | .scalar value => .scalar value
  | .array elements => .array (numberElements first elements)
  | .object members => .object (numberMembers first members)

mutual

/-- The nodes of a value that is laid out from the given number on. -/
def layOut (first : NodeId) (parent? : Option NodeId) : Json → List Node
  | .scalar value => [⟨parent?, contentOf (first + 1) (.scalar value)⟩]
  | .array elements =>
      ⟨parent?, contentOf (first + 1) (.array elements)⟩ :: layOutElements (first + 1) first elements
  | .object members =>
      ⟨parent?, contentOf (first + 1) (.object members)⟩ :: layOutMembers (first + 1) first members

def layOutElements (first parent : NodeId) : List Json → List Node
  | [] => []
  | element :: rest =>
      layOut first (some parent) element ++ layOutElements (first + element.size) parent rest

def layOutMembers (first parent : NodeId) : List (String × Json) → List Node
  | [] => []
  | (_, value) :: rest =>
      layOut first (some parent) value ++ layOutMembers (first + value.size) parent rest

end

def layOutChildren (first parent : NodeId) : Json → List Node
  | .scalar _ => []
  | .array elements => layOutElements first parent elements
  | .object members => layOutMembers first parent members

def ofJson (value : Json) : Document := ⟨(layOut root none value).toArray⟩

/-! ### Looking at nodes -/

def size (document : Document) : Nat := document.nodes.size

def content (document : Document) (node : NodeId) : Content :=
  match document.nodes[node]? with
  | some found => found.content
  | none => .scalar .null

def parent? (document : Document) (node : NodeId) : Option NodeId :=
  document.nodes[node]?.bind Node.parent?

def ancestor? (document : Document) (node : NodeId) : Nat → Option NodeId
  | 0 => some node
  | levels + 1 => (document.parent? node).bind fun parent => document.ancestor? parent levels

def topOf? (document : Document) (node : NodeId) : Nat → Option NodeId
  | 0 => none
  | levels + 1 =>
      match document.parent? node with
      | none => some node
      | some parent => document.topOf? parent levels

/-- A node is attached if the root lies above it or is it. -/
def isAttached (document : Document) (node : NodeId) : Bool :=
  document.topOf? node (document.size + 1) == some root

def member? (document : Document) (key : String) (node : NodeId) : Option NodeId :=
  match document.content node with
  | .object members => memberOf? key members
  | _ => none

def elements (document : Document) (node : NodeId) : List NodeId :=
  match document.content node with
  | .array elements => elements
  | _ => []

def children (document : Document) (node : NodeId) : List NodeId :=
  (document.content node).children

def scalar? (document : Document) (node : NodeId) : Option Scalar :=
  match document.content node with
  | .scalar value => some value
  | _ => none

def string? (document : Document) (node : NodeId) : Option String :=
  match document.content node with
  | .scalar (.string value) => some value
  | _ => none

def stringMember? (document : Document) (key : String) (node : NodeId) : Option String :=
  (document.member? key node).bind document.string?

def view (document : Document) : View NodeId :=
  { member? := document.member?
    element? := fun position node => (document.elements node)[position]?
    children := document.children
    scalar? := document.scalar?
    extent := fun _ => document.size }

/-! ### Reading values back -/

/-- The value below a node, cut off at the given depth. -/
def toJsonWithin (document : Document) : Nat → NodeId → Json
  | 0, _ => .null
  | depth + 1, node =>
      match document.content node with
      | .scalar value => .scalar value
      | .array elements => .array (elements.map fun element => document.toJsonWithin depth element)
      | .object members =>
          .object (members.map fun member => (member.1, document.toJsonWithin depth member.2))

/-- The value below a node. No tree is deeper than the table is long. -/
def nodeToJson (document : Document) (node : NodeId) : Json :=
  document.toJsonWithin document.size node

def toJson (document : Document) : Json := document.nodeToJson root

end Document

end TemplateFill
