import AutoSwe.Persistence.Repositories

/-!
# Plans become tasks

A persisted plan creates one pending row for each planned task and makes the
tasks without dependencies ready; a repair mutation only creates. Ids that
another run already uses are replaced by name-based ids, in the tasks and in
their dependencies.
-/

namespace AutoSwe

open Transaction Prog

variable (uuid5 : UUID → String → UUID)

/-- The new id of each planned task: `uuid5` of the run for the taken ones. -/
def remapId (runId : UUID) (planned existing : List UUID) (id : UUID) : UUID :=
  if id ∈ planned ∧ id ∈ existing then uuid5 runId id.str else id

def remapTasks (runId : UUID) (existing : List UUID) (specs : List TaskSpec) : List TaskSpec :=
  if existing = [] then specs
  else
    let remap := remapId uuid5 runId (specs.map TaskSpec.id) existing
    specs.map fun spec =>
      { spec with id := remap spec.id, dependencies := spec.dependencies.map remap }

def createPlanned (runId : UUID) (draws : UUID → Draw) (spec : TaskSpec) : Session Unit := do
  let task ← createTask runId spec (draws spec.id)
  if spec.dependencies = [] then do
    let _ ← transitionTask task.projectId task.id task.version .READY (draws spec.id)
    pure ()
  else pure ()

def Database.existingIds (db : Database) (ids : List UUID) : List UUID :=
  (db.tasks.rows.map TaskRow.id).filter (· ∈ ids)

def persistPlan (runId : UUID) (specs : List TaskSpec) (draws : UUID → Draw) : Session Unit := do
  let existing ← query fun db => db.existingIds (specs.map TaskSpec.id)
  each (createPlanned runId draws) (remapTasks uuid5 runId existing specs)

/-- The tasks of an accepted repair mutation. -/
def createMutationTasks (runId : UUID) (specs : List TaskSpec) (draws : UUID → Draw) :
    Session Unit :=
  each (fun spec => do
    let _ ← createTask runId spec (draws spec.id)
    pure ()) specs

end AutoSwe
