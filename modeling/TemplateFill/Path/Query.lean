import TemplateFill.Path.Error
import TemplateFill.Path.Parser
import TemplateFill.Path.Selection

/-!
Paths that are ready to use: the text, and the segments that it writes.

A query selects from the root of a view, with the root as the first node. How many nodes it may
select is checked here.
-/

namespace TemplateFill

structure Query where
  text : String
  segments : List Segment

namespace Query

def parse (text : String) : Except PathError Query :=
  match Segment.parse text with
  | .ok segments => .ok ⟨text, segments⟩
  | .error source => .error (.invalid text source)

variable {ν : Type}

def select (query : Query) (view : View ν) (root : ν) : List ν :=
  view.select root query.segments [root]

def selectOne (query : Query) (view : View ν) (root : ν) : Except PathError (Option ν) :=
  match query.select view root with
  | [] => .ok none
  | [node] => .ok (some node)
  | nodes => .error (.multipleMatches query.text nodes.length)

def selectMany (query : Query) (view : View ν) (root : ν) (mandatory : Bool) :
    Except PathError (List ν) :=
  let nodes := query.select view root
  if mandatory && nodes.isEmpty then .error (.notFound query.text) else .ok nodes

def selectOneIn (data : Json) (text : String) : Except PathError (Option Json) := do
  let query ← parse text
  query.selectOne Json.view data

def selectManyIn (data : Json) (text : String) (mandatory : Bool) :
    Except PathError (List Json) := do
  let query ← parse text
  query.selectMany Json.view data mandatory

end Query

end TemplateFill
