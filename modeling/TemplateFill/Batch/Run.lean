import TemplateFill.Batch.Stage

/-!
Batches: the work on many templates, whose turns may be taken in any order.

The templates do not share anything but the services, so a failure stays with its own template. A
run is given by its turns: a list of positions, each of which lets the template there ask its next
service. The turns of a run in rounds come from the number of rounds that each fetch waits.
-/

namespace TemplateFill

structure Task where
  templateId : String
  stage : Stage := .fetching

def Task.isFinished (task : Task) : Bool := task.stage.report?.isSome

structure Batch where
  tasks : List Task
  errorLines : List String

namespace Batch

/-! ### Turns -/

def start (templateIds : List String) : Batch :=
  { tasks := templateIds.map fun templateId => { templateId }, errorLines := [] }

def lineLeft : Stage → List String
  | .finished _ (some line) => [line]
  | _ => []

def turn {World : Type} (services : Services World) (order : Order) (batch : Batch)
    (position : Nat) : StateM World Batch :=
  match batch.tasks[position]? with
  | none => return batch
  | some task =>
      if task.isFinished then return batch
      else do
        let stage ← task.stage.turn services order task.templateId
        return {
          tasks := batch.tasks.set position { task with stage }
          errorLines := batch.errorLines ++ lineLeft stage }

def run {World : Type} (services : Services World) (order : Order) (turns : List Nat)
    (batch : Batch) : StateM World Batch :=
  turns.foldlM (turn services order) batch

def reports (batch : Batch) : List Report :=
  batch.tasks.filterMap fun task => task.stage.report?

/-! ### Rounds -/

/-- The number of turns after which any task is finished. -/
def turnsToFinish : Nat := 4

/-- The turns of a run in rounds. In each round every unfinished task, in the order of the request,
goes on until it ends or waits. All ask for their templates in round zero; one whose fetch waits for
a number of rounds takes its other turns in the round with that number. -/
def turnsInRounds (waits : List Nat) : List Nat :=
  let placed := waits.zipIdx
  let late := (placed.filter fun task => task.1 != 0).mergeSort fun left right => left.1 ≤ right.1
  (placed.flatMap fun task => List.replicate (if task.1 = 0 then turnsToFinish else 1) task.2)
    ++ late.flatMap fun task => List.replicate (turnsToFinish - 1) task.2

def generate {World : Type} (services : Services World) (wait : String → Nat) (order : Order)
    (templateIds : List String) : StateM World Batch :=
  run services order (turnsInRounds (templateIds.map wait)) (start templateIds)

end Batch

end TemplateFill
