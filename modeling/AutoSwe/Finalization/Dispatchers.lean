import AutoSwe.Finalization.RunSteps
import AutoSwe.Lib.Guarantee
import AutoSwe.Planning.SingleOwner
import AutoSwe.Scheduler.Invariants

/-!
# Dispatchers

Any number of dispatchers over one platform. Each advances the run that it has
selected or resolves the cancellations that it finds, activity by activity;
between two activities the scheduler, the workers, the planner and the API go
on. A transaction takes the locks of the rows on which it decides, so that one
transaction is one step.
-/

namespace AutoSwe

open Relational Transaction Coroutine Relation Table List Process Option
  RunFinalizationService Activity Touches Platform

/-! ## The platform -/

namespace Api

def runRequestedPayload (run : RunRow) : Json :=
  .obj [("run_id", .str run.id.str), ("project_id", .str run.projectId.str),
    ("repository_id", .str run.repositoryId.str)]

structure RunCreateRequest where
  runId : UUID
  projectId : UUID
  repositoryId : UUID
  goal : String
  baselineCommit : String

def RunCreateRequest.row (request : RunCreateRequest) (draw : Draw) : RunRow where
  id := request.runId
  projectId := request.projectId
  repositoryId := request.repositoryId
  goal := request.goal
  baselineCommit := request.baselineCommit
  stateEnteredAt := draw.enteredAt
  createdAt := draw.createdAt

/-- `POST /runs`. -/
def createRun (request : RunCreateRequest) (draw : Draw) : Session Unit := do
  let repository ← Prog.query fun db => db.repositories.get? request.repositoryId
  if repository.all fun row => row.projectId ≠ request.projectId then
    Session.raise .httpException "404: repository does not exist in this project"
  else do
    Prog.checked fun db =>
      match db.runs.get? request.runId with
      | none => .ok fun db => { db with runs := db.runs.insert (request.row draw) }
      | some _ => .error ⟨.httpException, "404: project or repository not found"⟩
    publish draw.eventId "run.requested" "run" request.runId request.runId "run-requests"
      (runRequestedPayload (request.row draw))

end Api

/-- What happens to the platform beside the dispatchers' finalization. `record`
stands for the tables that workers and the API fill and that finalization reads. -/
inductive Outside
  | schedule (call : Call) (ofTasks : call.OfTasks)
  | plan (call : PlanningCall)
  | createRun (request : Api.RunCreateRequest) (draw : Draw)
  | decide (approvalId : UUID) (approver : String) (approved : Bool) (callHash : String)
      (now : Time)
  | record (repositories : Table UUID RepositoryRow RepositoryRow.id)
      (modelCalls : List ModelCallRow) (artifacts : Table UUID ArtifactRow ArtifactRow.id)
      (toolExecutions : Table UUID ToolExecutionRow ToolExecutionRow.id)

structure Installation where
  scheduler : SchedulerService
  planner : RunPlanningService
  finalizer : RunFinalizationService

namespace Installation

variable (parts : Installation)

def body (parts : Installation) : Outside → Session Unit
  | .schedule call _ => call.body parts.scheduler
  | .plan call => call.body parts.planner
  | .createRun request draw => Api.createRun request draw
  | .decide approvalId approver approved callHash now =>
    (parts.finalizer.approvals.decide approvalId approver approved callHash now).discard
  | .record repositories modelCalls artifacts toolExecutions =>
    Prog.execute fun db => { db with repositories, modelCalls, artifacts, toolExecutions }

end Installation

/-- What a dispatcher does with runs that are past planning. -/
inductive Job
  /-- `advance_next` that has selected the run in the state. -/
  | advance (runId : UUID) (state : RunStatus)
  | cancelRequestedRuns (limit : Nat)

def Job.body (service : RunFinalizationService) : Job → Dispatching Unit
  | .advance runId state => do
    let _ ← service.advanceRun runId state
    pure ()
  | .cancelRequestedRuns limit => do
    let _ ← Sweep.cancelRequestedRuns limit
    pure ()

def dispatching (parts : Installation) :
    System Job Platform Activity Result Raised Unit Answer Outside where
  body := Job.body parts.finalizer
  act s answer a := a.act parts.finalizer s answer
  aside s _ _ := s
  environment s e := (s.transact (parts.body e)).2

abbrev Dispatchers := Fleet Job Platform Activity Result Raised Unit

/-- `advance_next` takes the oldest run that is past planning. -/
def Selects (s : Dispatchers) : Event Job Answer Outside → Prop
  | .spawn _ (.advance runId state) =>
    ∃ run, s.store.db.finalizable.head? = some run ∧ run.id = runId ∧ run.state = state
  | _ => True

instance (s : Dispatchers) : (e : Event Job Answer Outside) → Decidable (Selects s e)
  | .spawn _ (.advance runId state) => decidable_of_iff
      (s.store.db.finalizable.head?.any fun run => run.id = runId ∧ run.state = state) (by
        simp [Selects, Option.any_eq_true])
  | .spawn _ (.cancelRequestedRuns _) => .isTrue trivial
  | .environment _ => .isTrue trivial
  | .resume _ _ => .isTrue trivial
  | .aside _ _ => .isTrue trivial

/-! ## Every step is a move of every run -/

def Platform.RunMoves (s s' : Platform) : Prop := ∀ r, RunMove (s.db.rowsOf r) (s'.db.rowsOf r)

variable (request : Api.RunCreateRequest)

theorem createRun_commit (draw : Draw) (db : Database) :
    Keeps db ((Api.createRun request draw).commit db).2 ∨
      db.runs.get? request.runId = none ∧
        Keeps { db with runs := db.runs.insert (request.row draw) }
        ((Api.createRun request draw).commit db).2 := by
  refine (Api.createRun request draw).commit_cases db (.inl (.refl db)) fun u db' hrun => ?_
  have hrun := Prog.after hrun rfl
  split at hrun
  · cases hrun
  · obtain ⟨_, _, hinsert, hrun⟩ := Prog.bind_ok.mp hrun
    obtain ⟨w, hw, rfl⟩ := Prog.checked_ok.mp hinsert
    split at hw
    · rename_i hnone
      cases hw
      cases hrun
      exact .inr ⟨hnone, rfl, rfl, rfl⟩
    · cases hw

theorem createRun_runMove {draw : Draw} {db : Database} {r : UUID} :
    RunMove (db.rowsOf r) (((Api.createRun request draw).commit db).2.rowsOf r) := by
  rcases createRun_commit request draw db with hkeeps | ⟨hnone, hinserted⟩
  · exact hkeeps.runMove r
  · generalize ((Api.createRun request draw).commit db).2 = db' at hinserted
    have hrows : db'.rowsOf r = { db.rowsOf r with
        run := (db.runs.insert (request.row draw)).get? r, stages := (db'.rowsOf r).stages } := by
      refine RunRows.ext ?_ rfl ?_ ?_
      · simp [Database.rowsOf, hinserted.runs]
      · simp [Database.rowsOf, hinserted.revisions]
      · simp [Database.rowsOf, hinserted.tasks]
    rw [hrows]
    by_cases hr : r = request.runId
    · subst hr
      rw [get?_insert hnone, if_pos (show request.runId = (request.row draw).id from rfl)]
      exact .request hnone rfl
    · exact .work (get?_insert_ne db.runs hr) rfl (.refl _)

def Outside.tables : Outside → List TableName
  | .schedule .. => .tasks :: graphTables
  | .plan .. => planningTables
  | .createRun .. => [.runs, .auditEvents, .outbox]
  | .decide .. => .stateDurations :: approvalTables
  | .record .. => [.repositories, .modelCalls, .artifacts, .toolExecutions]

theorem Touches.createRun :
    Touches [.runs, .auditEvents, .outbox] (Api.createRun request draw) := by
  refine .bind (query _) fun repository => ?_
  split
  · exact trivial
  · refine .bind (checked .runs (by decide) fun view w hw db => ?_) fun _ =>
      publish (by decide) (by decide)
    split at hw <;> cases hw
    exact ⟨_, rfl⟩

theorem Installation.body_agree (parts : Installation) (e : Outside) (db : Database) :
    Agree e.tables db ((parts.body e).commit db).2 := by
  cases e with
  | schedule call ofTasks =>
    have hwrites := call.rowWrites parts.scheduler
    rw [eq_false ofTasks.2] at hwrites
    refine committed (hwrites.mono fun _ hwrite db => ?_)
    exact hwrite.agree (fun _ => mem_cons_of_mem _) (fun _ _ => mem_cons_self) db
  | plan call => exact committed (Logs.planning parts.planner call).writes
  | createRun request => exact (createRun request).committed
  | decide => exact committed (.discard decide)
  | record repositories modelCalls artifacts toolExecutions =>
    have hone : ∀ {db : Database} (t : TableName) (x : t.Content),
        t ∈ [.repositories, .modelCalls, .artifacts, .toolExecutions] →
        Agree [.repositories, .modelCalls, .artifacts, .toolExecutions] db (db.withTable t x) :=
      fun t x ht => .withTable _ ht x
    exact (hone .repositories repositories (by decide)).trans <|
      (hone .modelCalls modelCalls (by decide)).trans <|
      (hone .artifacts artifacts (by decide)).trans <|
      hone .toolExecutions toolExecutions (by decide)

theorem Installation.runMove (parts : Installation) (e : Outside) (db : Database) (r : UUID) :
    RunMove (db.rowsOf r) (((parts.body e).commit db).2.rowsOf r) := by
  cases e with
  | schedule call ofTasks => exact call.runMove parts.scheduler ofTasks db r
  | plan call => exact call.runMove parts.planner db r
  | createRun request draw => exact createRun_runMove request
  | decide approvalId approver approved callHash now =>
    have hagree : Agree (.stateDurations :: approvalTables) db _ :=
      parts.body_agree (.decide approvalId approver approved callHash now) db
    exact (hagree.keeps (by decide) (by decide) (by decide)).runMove r
  | record => exact .refl _

/-! ## The sweep -/

section
variable (parts : Installation)

/-- Activities find the circumstances that they need. -/
abbrev permitsTimely (s : Platform) (answer : Answer) (a : Activity) : Prop :=
  answer.failure = none → a.Timely s.db

abbrev timely : Setting Platform Activity Result Raised Answer :=
  .under (dispatching parts).act permitsTimely RunMoves

theorem dispatching_runMoves (h : permitsTimely s answer a)
    (hcancel : ∀ runId, a = .cancelRun runId → (s.db.rowsOf runId).Quiet) :
    s.RunMoves ((dispatching parts).act s answer a).2 := by
  intro r
  rcases a.act_step parts.scheduler parts.finalizer s answer with ⟨-, hsame⟩ | ⟨hfailure, hstep⟩
  · simp only [dispatching, hsame]
    exact .refl _
  · exact hstep.runMove (h hfailure) hcancel r

theorem RunMoves.stable {J : RunRows → Prop} (hJ : ∀ {x x'}, RunMove x x' → J x → J x')
    (h : ReflTransGen RunMoves s s') (hs : J (s.db.rowsOf r)) : J (s'.db.rowsOf r) := by
  induction h with
  | refl => exact hs
  | tail _ hstep ih => exact hJ (hstep r) ih

theorem swept_of_openTasks {db : Database} (h : (db.rowsOf r).Requested) :
    (db.rowsOf r).Swept ((db.openTasksOf r).map TaskRow.id) := by
  refine ⟨h, fun id task htask => ?_⟩
  obtain ⟨hget, hrun⟩ := task_of_rowsOf htask
  by_cases hterminal : task.state ∈ terminalTaskStates
  · exact .inl hterminal
  · refine .inr (mem_map.mpr ⟨task, ?_, key_of_get? hget⟩)
    exact mem_filter.mpr ⟨mem_of_get? hget, by simp [hrun, hterminal]⟩

theorem RunRows.Swept.settle {x : RunRows} {i : UUID} (h : x.Swept (i :: ids))
    (hsettled : ∀ task, x.tasks i = some task → task.state ∈ terminalTaskStates) : x.Swept ids := by
  refine ⟨h.requested, fun j task htask => ?_⟩
  rcases h.settled j task htask with hterminal | hmem
  · exact .inl hterminal
  · rcases mem_cons.mp hmem with rfl | hmem
    · exact .inl (hsettled task htask)
    · exact .inr hmem

theorem act_ok (h : ((dispatching parts).act s answer a).1 = .ok b) :
    (dispatching parts).act s answer a = a.carryOut parts.finalizer (a.start s) answer :=
  Activity.act_ok h

theorem Platform.transact_ok {s : Platform} {p : Session α} (h : (s.transact p).1 = .ok a) :
    p.run s.db = .ok (a, (s.transact p).2.db) := by
  unfold transact at h ⊢
  cases hrun : p.run s.db with
  | error e =>
    rw [Prog.commit_of_error hrun] at h
    cases h
  | ok result =>
    rw [Prog.commit_of_ok hrun] at h ⊢
    cases h
    rfl

theorem settled_of_cancelTask {s : Platform} {answer : Answer}
    (h : ((dispatching parts).act s answer (.cancelTask projectId taskId)).1 = .ok ())
    (htask : (((dispatching parts).act s answer (.cancelTask projectId taskId)).2.db.rowsOf r).tasks
      taskId = some task) : task.state ∈ terminalTaskStates := by
  have hget := (task_of_rowsOf htask).1
  have hact := act_ok parts h
  rw [hact] at h hget
  obtain ⟨before, hbefore, hstate⟩ := cancelTask_ok (transact_ok h)
  simp only [carryOut] at hget
  rcases hstate with ⟨hcancelled, hsame⟩ | ⟨-, hset⟩
  · rw [hsame] at hget
    cases hbefore.symm.trans hget
    simp [hcancelled, terminalTaskStates]
  · rw [hset] at hget
    cases (congrArg TaskView.row (moveTask_updates hbefore _ _).1).symm.trans hget
    simp [TaskRow.enter, terminalTaskStates]

theorem cancelTasks_obeys :
    ∀ s : Platform, (s.db.rowsOf r).Swept (tasks.map TaskRow.id) →
      (Sweep.cancelTasks tasks).Obeys (timely parts) RunMoves
        (fun result s => result = .ok () → (s.db.rowsOf r).Swept []) s := by
  induction tasks with
  | nil => exact fun s hs _ => hs
  | cons task rest ih =>
    intro s hs
    refine .bind (.perform fun s' hs' answer hpermits => ?_)
      (R := fun result s => result = .ok () → (s.db.rowsOf r).Swept (rest.map TaskRow.id))
      (fun _ s hs => ih s (hs rfl)) (fun _ _ _ h => by cases h)
    have hmoves := dispatching_runMoves parts hpermits (by rintro _ ⟨⟩)
    have hswept := (hmoves r).swept (RunMoves.stable RunMove.swept hs' hs)
    exact ⟨hmoves, fun hok => hswept.settle fun _ => settled_of_cancelTask parts hok⟩

theorem sweepRun_obeys (hs : (s.db.rowsOf r).Requested) :
    (Sweep.cancelRun r).Obeys (timely parts) RunMoves (fun _ _ => True) s := by
  refine .bind (.perform fun s' hs' answer hpermits => ?_)
    (R := fun result s => ∀ tasks, result = .ok tasks →
      (s.db.rowsOf r).Swept (tasks.map TaskRow.id)) (fun tasks s hs => ?_) (fun _ _ _ => trivial)
  · refine ⟨dispatching_runMoves parts hpermits (by rintro _ ⟨⟩), fun tasks hok => ?_⟩
    have hact := act_ok parts hok
    simp only [timely, Setting.under, hact] at hok ⊢
    cases hok
    exact swept_of_openTasks (RunMoves.stable RunMove.requested hs' hs)
  · refine .bind (cancelTasks_obeys parts s (hs tasks rfl)) (fun _ s hs => ?_)
      (fun _ _ _ => trivial)
    refine .perform fun s' hs' answer hpermits => ⟨dispatching_runMoves parts hpermits ?_, trivial⟩
    rintro _ ⟨⟩ id task htask
    exact ((RunMoves.stable RunMove.swept hs' (hs rfl)).settled id task htask).resolve_right
      not_mem_nil

theorem sweepRuns_obeys :
    ∀ s : Platform, (∀ r ∈ runs, (s.db.rowsOf r).Requested) →
      (Sweep.cancelRuns runs).Obeys (timely parts) RunMoves (fun _ _ => True) s := by
  induction runs with
  | nil => exact fun _ _ => trivial
  | cons r rest ih =>
    intro s hs
    have hstable : ∀ s s' : Platform, s.RunMoves s' → (∀ r ∈ rest, (s.db.rowsOf r).Requested) →
        ∀ r ∈ rest, (s'.db.rowsOf r).Requested :=
      fun s s' hmoves hs r hr => (hmoves r).requested (hs r hr)
    have hfirst := (sweepRun_obeys parts (hs r mem_cons_self)).stable hstable
      fun r hr => hs r (mem_cons_of_mem _ hr)
    refine .bind hfirst (fun _ s hs => ?_) (fun _ _ _ => trivial)
    exact .bind (ih s hs.2) (fun _ _ _ => trivial) (fun _ _ _ => trivial)

theorem sweep_obeys :
    (Sweep.cancelRequestedRuns limit).Obeys (timely parts) RunMoves (fun _ _ => True) s := by
  refine .bind (.perform fun s' hs' answer hpermits => ?_)
    (R := fun result s => ∀ runs, result = .ok runs → ∀ r ∈ runs, (s.db.rowsOf r).Requested)
    (fun runs s hs => sweepRuns_obeys parts s (hs runs rfl)) (fun _ _ _ => trivial)
  refine ⟨dispatching_runMoves parts hpermits (by rintro _ ⟨⟩), fun runs hok r hr => ?_⟩
  have hact := act_ok parts hok
  simp only [timely, Setting.under, hact] at hok ⊢
  cases hok
  obtain ⟨run, hrun, rfl⟩ := mem_map.mp hr
  have hmem := mem_of_mem_take hrun
  rw [mem_insertionSort, mem_filter, Bool.and_eq_true] at hmem
  exact ⟨run, get?_of_mem hmem.1, isSome_iff_ne_none.mp hmem.2.1⟩

end

/-! ## Advancing a run concerns that run -/

/-- The activity changes no other run than `r`, and starts no commit or promotion
of another one. -/
def Activity.Concerns (r : UUID) : Activity → Prop
  | .applyRepair runId .. | .transitionRun runId _ | .commitTaskWorktree runId .. => runId = r
  | .prepareCandidate run .. => run.id = r
  | .setLocalState candidate .. => candidate.sourceRunId = r
  | .cancelTask .. | .cancelRun _ => False
  | _ => True

/-- What is known of a result of an activity that was carried out. -/
def Activity.Answers : (a : Activity) → a.Result → Prop
  | .approvalIdentity runId, identity => ∀ i, identity = some i → i.run.id = runId
  | .prepareCandidate run .., candidate => ∀ c, candidate = some c → c.sourceRunId = run.id
  | .latestCandidate runId, found => (∀ run, found.1 = some run → run.id = runId) ∧
      ∀ row, found.2 = some row → row.candidate.sourceRunId = runId
  | _, _ => True

section
variable (parts : Installation)

theorem run_of_releaseIdentity {db : Database} {run : RunRow} {identity : ReleaseIdentity}
    (h : db.releaseIdentity run = some identity) : identity.run = run := by
  simp only [Database.releaseIdentity, bind_eq_bind, bind_eq_some_iff] at h
  obtain ⟨_, _, _, _, _, _, hidentity⟩ := h
  cases hidentity
  rfl

theorem prepareCandidate_source {service : PromotionService} {db db' : Database}
    (h : (service.prepareCandidate run sink attempt plan commit messages draw).run db =
      .ok (some candidate, db')) : candidate.sourceRunId = run.id := by
  obtain ⟨artifacts, _, _, h⟩ := Prog.bind_ok.mp h
  obtain ⟨_, _, _, h⟩ := Prog.bind_ok.mp h
  obtain ⟨existing, _, _, h⟩ := Prog.bind_ok.mp h
  cases existing with
  | some existing =>
    cases h
    rfl
  | none =>
    obtain ⟨twin, _, _, h⟩ := Prog.bind_ok.mp h
    cases twin with
    | true => cases h
    | false =>
      cases h
      rfl

theorem activity_answers (s : Platform) (answer : Answer) (a : Activity) (b : a.Result)
    (h : ((dispatching parts).act s answer a).1 = .ok b) : a.Answers b := by
  have hact := act_ok parts h
  rw [hact] at h
  cases a with
  | approvalIdentity runId =>
    simp only [carryOut] at h
    split at h
    · cases h
    · rename_i run hrun
      cases h
      intro identity hidentity
      rw [run_of_releaseIdentity hidentity]
      exact key_of_get? hrun
  | prepareCandidate =>
    rintro candidate rfl
    exact prepareCandidate_source (transact_ok h)
  | latestCandidate runId =>
    cases h
    refine ⟨fun run hrun => key_of_get? hrun, fun row hrow => ?_⟩
    have hmem := mem_of_mem_head? hrow
    rw [mem_insertionSort, mem_filter, decide_eq_true_eq] at hmem
    exact hmem.2
  | _ => trivial

end

structure Readings where
  identity : ReleaseIdentity → Prop := fun _ => True
  run : RunRow → Prop := fun _ => True

/-- The activity concerns the run, and what is approved and committed was made from
the rows that were read. -/
def Activity.Advances (service : RunFinalizationService) (known : Readings) (r : UUID)
    (a : Activity) : Prop :=
  a.Concerns r ∧
    match a with
    | .requestApproval call _ => ∃ run sink attempt treeHash, known.run run ∧
        call = service.commitCall run sink attempt treeHash
    | .commitTaskWorktree _ worktree message treeHash => ∃ identity, known.identity identity ∧
        identity.run.id = r ∧ worktree = worktreeName identity.sink.id ∧
        message = service.commitMessage identity.run ∧
        service.argumentText? identity.call "tree_hash" = some treeHash
    | _ => True

def Activity.Reads (known : Readings) (a : Activity) (b : a.Result) : Prop :=
  a.Answers b ∧
    match a, b with
    | .approvalIdentity _, identity => ∀ i, identity = some i → known.identity i
    | .releaseAttempt .., found => ∀ run, found.1 = some run → known.run run
    | _, _ => True

/-- The process awaits only activities that advance the run. -/
abbrev Advancing (service : RunFinalizationService) (known : Readings) (r : UUID) (Q : α → Prop)
    (p : Dispatching α) : Prop :=
  p.Sound (Advances service known r) (Reads known) Q

abbrev Proceeds (service : RunFinalizationService) (known : Readings) (r : UUID)
    (p : Dispatching α) : Prop :=
  Advancing service known r (fun _ => True) p

namespace Proceeds

open Process (Sound)

variable {service : RunFinalizationService} {known : Readings} {r : UUID}

theorem quiet : True ∧ True := ⟨trivial, trivial⟩

theorem activity {f : a.Result → Dispatching α} (h : a.Advances service known r)
    (hf : ∀ b, a.Reads known b → Proceeds service known r (f b)) :
    Proceeds service known r (AutoSwe.activity a >>= f) :=
  Sound.bind (Sound.perform a h) hf

theorem last (h : a.Advances service known r) :
    Proceeds service known r (AutoSwe.activity a) :=
  (Sound.perform a h).mono fun _ _ => trivial

theorem ofExcept : Proceeds service known r (Process.ofExcept result) := by
  cases result <;> exact trivial

theorem check (hf : ∀ a, Proceeds service known r (f a)) :
    Proceeds service known r (Process.ofExcept result >>= f) :=
  Sound.bind ofExcept fun a _ => hf a

theorem finallyDo (h : Proceeds service known r p) (hlast : Proceeds service known r q) :
    Proceeds service known r (p.finally q) := by
  refine Sound.bind (Sound.tryCatch h fun e => Sound.bind hlast fun _ _ => trivial) fun a ha => ?_
  exact Sound.bind hlast fun _ _ => ha

theorem reviewOutput : Proceeds service known r
    (reviewOutput run sink criteria evidenceIds) := by
  exact activity quiet fun review _ => check fun _ => activity quiet fun audit _ =>
    check fun audited => check fun decision => activity quiet fun _ _ => trivial

theorem reviewFresh : Proceeds service known r
    (reviewFresh runId sink criteria evidenceIds) := by
  refine activity quiet fun run _ => ?_
  cases run with
  | none => exact trivial
  | some run =>
    refine activity quiet fun _ _ => Sound.tryCatch reviewOutput fun e => ?_
    exact activity quiet fun _ _ => trivial

theorem reviewRelease : Proceeds service known r
    (service.reviewRelease runId latest evidenceIds) := by
  refine check fun sink => activity quiet fun row _ => ?_
  cases row with
  | none => exact trivial
  | some row =>
    refine check fun _ => ?_
    split
    · exact ofExcept
    · refine activity quiet fun replay _ => ?_
      cases replay with
      | some replay => exact trivial
      | none => exact reviewFresh

theorem transitionRun (target : RunStatus) :
    Proceeds service known r (AutoSwe.activity (.transitionRun r target)) :=
  last ⟨rfl, trivial⟩

theorem settleRepair : Proceeds service known r
    (settleRepair r revision decision) := by
  refine activity quiet fun _ _ => ?_
  split
  · exact Sound.bind (transitionRun _) fun _ _ => trivial
  · split
    · exact trivial
    · exact ofExcept

theorem requestRepair : Proceeds service known r
    (service.requestRepair r failures evidenceIds) := by
  refine activity quiet fun context _ => ?_
  split
  · refine activity quiet fun _ _ => activity quiet fun mutation _ =>
      check fun outcome => activity ⟨rfl, trivial⟩ fun decision _ => ?_
    exact settleRepair
  · exact trivial

theorem promoteReady (limit : Nat) : ∀ rounds, Proceeds service known r
    (promoteReady limit rounds)
  | 0 => trivial
  | rounds + 1 => by
    refine activity quiet fun promoted _ => ?_
    split
    · exact trivial
    · exact promoteReady limit rounds

theorem addRepair : Proceeds service known r (service.addRepair r failures evidenceIds) :=
  Sound.bind requestRepair fun _ _ => Sound.bind (promoteReady _ _) fun _ _ => trivial

theorem failRelease : Proceeds service known r (failRelease r) :=
  Sound.bind (transitionRun _) fun _ _ => trivial

theorem requestCommitApproval : Proceeds service known r
    (service.requestCommitApproval r latest) := by
  refine check fun sink => activity quiet fun found hfound => ?_
  split
  · rename_i run attempt
    refine activity quiet fun treeHash _ => ?_
    refine activity ⟨trivial, run, sink, attempt, treeHash, ?_, rfl⟩ fun _ _ =>
      transitionRun _
    exact hfound.2 run rfl
  · exact trivial

theorem advanceCompleted : Proceeds service known r (service.advanceCompleted r latest) := by
  refine activity quiet fun evidence _ => ?_
  split
  split
  · split
    · exact failRelease
    · exact addRepair
  · refine Sound.bind reviewRelease fun decision _ => ?_
    split
    · exact Sound.bind requestCommitApproval fun _ _ => trivial
    · exact addRepair

theorem advanceExecuting : Proceeds service known r (service.advanceExecuting r) := by
  refine activity quiet fun tasks _ => ?_
  split
  · exact trivial
  · split
    · exact failRelease
    · exact advanceCompleted

theorem waitForUams (h : candidate.sourceRunId = r) : Proceeds service known r
    (waitForUams candidate error revisionId) :=
  activity ⟨h, trivial⟩ fun _ _ => trivial

theorem promote (h : candidate.sourceRunId = r) : Proceeds service known r
    (service.promote candidate review) := by
  unfold RunFinalizationService.promote
  split
  · refine activity ⟨h, trivial⟩ fun _ _ => activity quiet fun receipt _ => ?_
    split
    · exact waitForUams h
    · split
      · split
        · exact activity quiet fun _ _ => trivial
        · exact waitForUams h
      · exact waitForUams h
  · exact activity ⟨h, trivial⟩ fun _ _ => trivial

theorem promoteRunMemory (h : identity.run.id = r) : Proceeds service known r
    (service.promoteRunMemory identity commit) := by
  refine activity quiet fun row _ => ?_
  cases row with
  | none => exact trivial
  | some row =>
    refine activity ⟨h, trivial⟩ fun candidate hcandidate => ?_
    cases candidate with
    | none => exact trivial
    | some candidate =>
      refine activity quiet fun review _ => promote ?_
      rw [hcandidate.1 candidate rfl, h]

theorem completeRun (h : run.id = r) : Proceeds service known r
    (completeRun run) := by
  subst h
  exact Sound.bind (transitionRun _) fun _ _ => activity quiet fun _ _ => trivial

theorem completeApproved : Proceeds service known r
    (completeApproved call) := by
  refine activity quiet fun done _ => ?_
  cases done with
  | true => exact trivial
  | false => exact last quiet

theorem commitApproved (hknown : known.identity identity) (h : identity.run.id = r) :
    Proceeds service known r (service.commitApproved r identity approval) := by
  refine activity quiet fun _ _ => ?_
  split
  · exact trivial
  · rename_i treeHash htreeHash
    refine activity ⟨rfl, identity, hknown, h, rfl, rfl, htreeHash⟩ fun commit _ =>
      Sound.bind completeApproved fun _ _ => Sound.bind (promoteRunMemory h) fun outcome _ => ?_
    split
    · exact completeRun h
    · exact Sound.bind (transitionRun _) fun _ _ => trivial

theorem advanceApproval : Proceeds service known r (service.advanceApproval r fence) := by
  refine activity quiet fun identity hidentity => ?_
  cases identity with
  | none => exact trivial
  | some identity =>
    refine activity quiet fun approval _ => ?_
    cases approval with
    | none => exact trivial
    | some approval =>
      dsimp only
      split
      · exact trivial
      · split
        · exact failRelease
        · refine activity quiet fun held _ => ?_
          cases held with
          | false => exact trivial
          | true => exact commitApproved (hidentity.2 identity rfl) (hidentity.1 identity rfl)

theorem advanceMemory : Proceeds service known r (service.advanceMemory r) := by
  refine activity quiet fun found hfound => ?_
  split
  · rename_i run row
    refine activity quiet fun identity _ => ?_
    refine activity quiet fun review _ =>
      Sound.bind (promote (hfound.1.2 row rfl)) fun outcome _ => ?_
    split
    · exact completeRun (hfound.1.1 run rfl)
    · exact trivial
  · exact trivial

theorem advanceRun (known : Readings) (r : UUID) (state : RunStatus) :
    Proceeds service known r (service.advanceRun r state) := by
  refine activity quiet fun fence _ => ?_
  cases fence with
  | none => exact trivial
  | some fence =>
    refine finallyDo ?_ (last quiet)
    unfold advanceStage
    split
    · exact advanceExecuting
    · exact advanceApproval
    · exact advanceMemory

end Proceeds

/-- The process awaits only activities that concern the run. -/
abbrev Concerned (r : UUID) (Q : α → Prop) (p : Dispatching α) : Prop :=
  p.Sound (Concerns r) Answers Q

theorem Concerned.advanceRun {service : RunFinalizationService} (r : UUID) (state : RunStatus) :
    Concerned r (fun _ => True) (service.advanceRun r state) := by
  refine (Proceeds.advanceRun {} r state).weaken (fun a ha => ha.1) fun a b hb => ?_
  refine ⟨hb, ?_⟩
  split <;> simp

/-- Every step of the dispatchers is a move of every run. -/
theorem dispatching_guaranteed (parts : Installation)
    {permitted : Dispatchers → Event Job Answer Outside → Prop}
    (hpermitted : ∀ s i answer m a next, permitted s (.resume i answer) →
      s.procs i = some (m, .await a next) → permitsTimely s.store answer a) :
    Fleet.Guaranteed (dispatching parts) permitsTimely RunMoves permitted where
  refl s r := .refl _
  body m s := by
    cases m with
    | advance runId state =>
      have hconcerned : Concerned runId (fun _ => True) ((dispatching parts).body
          (.advance runId state)) :=
        Sound.bind (Concerned.advanceRun runId state) fun _ _ => trivial
      refine hconcerned.obeys (fun a ha s answer hpermits => ?_) (activity_answers parts) s
      refine dispatching_runMoves parts hpermits ?_
      rintro _ rfl
      exact ha.elim
    | cancelRequestedRuns limit =>
      exact .bind (sweep_obeys parts) (fun _ _ _ => trivial) (fun _ _ _ => trivial)
  aside _ _ _ := rfl
  environment s e _ r := parts.runMove e s.store.db r
  resume s i answer m a next h hproc := hpermitted s i answer m a next h hproc

def sampleNames (_ : UUID) (name : String) : UUID := OfNat.ofNat name.utf8ByteSize

/-- An object `[b, …]` is a report of a verification that passed if `b` is one. -/
def sampleReport : Bytes → Option Json
  | b :: _ => some (.obj [("output", .obj [("verification_passed", .bool (b = 1))])])
  | [] => none

def sampleArtifacts : ArtifactService where
  sha256 content := String.ofList (content.map fun b => Char.ofNat b.toNat)

def sampleFinalizer : RunFinalizationService where
  artifacts := sampleArtifacts
  approvals :=
    { callHash := fun _ _ _ _ _ => "call", uuid5 := sampleNames, isoformat := fun _ => "" }
  promotion :=
    { gate := { containsSensitiveData := fun _ => false, casefold := id }
      content := fun _ _ _ _ => "note"
      deterministicMemoryId := MemoryCandidate.candidateId
      uuid5 := sampleNames }
  repair :=
    { artifacts := sampleArtifacts, validator := platformValidator .HIGH id toString
      mutationHash := fun _ => "mutation", uuid5 := sampleNames }
  uuid5 := sampleNames
  specHash _ _ := "spec"
  failureSignature _ := "signature"
  progressFingerprint _ _ := "progress"
  split goal := [goal]
  loads := sampleReport
  str _ := ""
  encodeDecision decision := if decision.approved then [1, 1] else [0, 1]
  decodeDecision content :=
    some ⟨content = [1, 1], "summary", [("tests pass", [60])], [], summary_length, noReasons_length⟩

def sampleInstallation : Installation where
  scheduler := sampleService
  planner := samplePlanner
  finalizer := sampleFinalizer

abbrev sampleDispatching : Dispatchers → Event Job Answer Outside → Option Dispatchers :=
  Fleet.step (dispatching sampleInstallation)

def sampleEvidence (passed : Bool) : ArtifactRow where
  id := 60
  projectId := 20
  runId := 40
  taskId := 1
  sha256 := if passed then "\x01" else "\x00"
  state := .VALID
  storageKey := "report"
  sizeBytes := 1
  createdAt := 0
  verifiedAt := some 0

def sampleFiles (passed : Bool) : Objects := fun _ => .ok [if passed then 1 else 0]

/-- A run is requested, planned with one validation task and executed; the task
leaves one report. -/
def sampleExecuted (passed : Bool) : List (Event Job Answer Outside) :=
  [.record (insert ∅ sampleRepository) [] ∅ ∅,
    .createRun ⟨40, 20, 30, "goal", sampleRun.baselineCommit⟩ {},
    .plan (.claimRun 100),
    .plan (.persistPlan sampleTaskPlan 70 100 110 fun _ => {}),
    .schedule (.claimReady "dispatcher" 5 120 fun _ => { token := 9 }) ⟨id, id⟩,
    .schedule (.admitClaim sampleDispatch 130 {}) ⟨id, id⟩,
    .schedule (.graphWrite 1 50 sampleIdentity "thread" .RUNNING none {}) ⟨id, id⟩,
    .schedule (.graphWrite 1 50 sampleIdentity "thread" .COMPLETED none {}) ⟨id, id⟩,
    .schedule (.finishClaim sampleDispatch .COMPLETED 140 {}) ⟨id, id⟩,
    .record (insert ∅ sampleRepository) [] (insert ∅ (sampleEvidence passed)) ∅].map
      .environment

end AutoSwe
