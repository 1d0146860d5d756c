import TemplateFill.Time.Moment

/-!
Identifiers drawn locally: a stem, the moment of the drawing and a running number.

The number alone tells two identifiers of one source apart.
-/

namespace TemplateFill

structure IdSource where
  stem : String
  next : UInt64 := 0

namespace IdSource

def identifier (stem : String) (moment : Moment) (number : UInt64) : String :=
  stem ++ moment.basic ++ "-" ++ toString number.toNat

/-- Draws one identifier for each moment at which the clock is read. -/
def draw (source : IdSource) : List Moment → List String × IdSource
  | [] => ([], source)
  | moment :: rest =>
      let (drawn, after) := draw { source with next := source.next + 1 } rest
      (identifier source.stem moment source.next :: drawn, after)

end IdSource

end TemplateFill
