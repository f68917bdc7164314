import AutoSwe.Persistence.Artifacts
import AutoSwe.Persistence.Writes

/-!
# Artifacts and their files

`get_verified` marks the row of a damaged object in the transaction of its caller,
and moves the file at once. A transaction that is rolled back takes the mark with it
and leaves the file where it is; its body is therefore a `Service`, which keeps
what it did before it raised.
-/

namespace AutoSwe

open Relational Transaction Table List

/-- The regular files of the store: the objects by storage key, and those in
quarantine by artifact and digest. -/
structure Disk where
  objects : String → Option Bytes := fun _ => none
  quarantine : UUID → String → Option Bytes := fun _ _ => none

namespace Disk

/-- The objects as they are opened. -/
def view (disk : Disk) : Objects := fun key =>
  match disk.objects key with
  | some content => .ok content
  | none => .error ⟨"FileNotFoundError", "[Errno 2] No such file or directory: " ++ key⟩

/-- `ArtifactStore.quarantine`: whatever is there is moved. -/
def quarantined (disk : Disk) (row : ArtifactRow) : Disk :=
  match disk.objects row.storageKey with
  | none => disk
  | some content =>
    { objects := fun key => if key = row.storageKey then none else disk.objects key
      quarantine := fun artifactId digest =>
        if artifactId = row.id ∧ digest = row.sha256 then some content
        else disk.quarantine artifactId digest }

end Disk

/-- What a body raises: an exception of the artifact service, or one of a statement. -/
inductive Thrown
  | artifact (failure : ArtifactFailure)
  | statement (error : Raised)

/-- The classes that `review` and `_verify_evidence` catch. -/
def Thrown.isCaught : Thrown → Bool
  | .artifact failure =>
    failure.className ∈ ["ArtifactIntegrityError", "ArtifactPathError", "FileNotFoundError",
      "LookupError"]
  | .statement error => error.kind = .lookupError

/-- The database and the files. `found` has the artifacts of which a call of
`get_verified` found in this transaction that they are damaged. -/
structure Storage where
  db : Database := {}
  disk : Disk := {}
  found : List UUID := []

abbrev Body (α : Type) := Service Storage Thrown α

namespace Body

/-- A statement that has nothing to do with the files. -/
def statement (p : Session α) : Body α := fun s =>
  match p.run s.db with
  | .ok (a, db) => (.ok a, { s with db })
  | .error error => (.error (.statement error), s)

/-- `async with database.transaction()`. The connection may be lost before the commit. -/
def transaction (lost : Bool) (body : Body α) (s : Storage) : Except Thrown α × Storage :=
  match body s with
  | (.ok a, s') =>
    if lost then
      (.error (.statement ⟨.runtimeError, "connection is closed"⟩), { s' with db := s.db })
    else (.ok a, s')
  | (.error thrown, s') => (.error thrown, { s' with db := s.db })

def getVerified (service : ArtifactService) (projectId artifactId : UUID) (draw : Draw) :
    Body Bytes := fun s =>
  match s.db.artifactIn projectId artifactId with
  | none => (.error (.artifact ⟨"LookupError",
      "artifact " ++ artifactId.str ++ " does not exist in project " ++ projectId.str⟩), s)
  | some row =>
    if row.state ≠ .VALID then
      (.error (.artifact ⟨"ArtifactIntegrityError",
        "artifact " ++ artifactId.str ++ " is not valid evidence"⟩), s)
    else
      match service.readVerified s.disk.view row with
      | .ok content => (.ok content, s)
      | .error failure =>
        (.error (.artifact failure),
          { db := ((markArtifactCorrupt row draw).commit s.db).2
            disk := s.disk.quarantined row
            found := s.found ++ [artifactId] })

/-- On the database it is the session of that name, with the files as they are opened. -/
theorem getVerified_session (service : ArtifactService) (projectId artifactId : UUID)
    (draw : Draw) (s : Storage) :
    (service.getVerified s.disk.view projectId artifactId draw).run s.db = .ok
      (match (getVerified service projectId artifactId draw s).1 with
        | .ok content => .ok content
        | .error (.artifact failure) => .error failure
        | .error (.statement error) => .error ⟨"", error.message⟩,
      (getVerified service projectId artifactId draw s).2.db) := by
  simp only [ArtifactService.getVerified, getVerified, Prog.run_bind, Prog.run_query]
  cases hrow : s.db.artifactIn projectId artifactId with
  | none => rfl
  | some row =>
    by_cases hvalid : row.state ≠ .VALID
    · simp only [if_pos hvalid]
      rfl
    · simp only [if_neg hvalid]
      cases hread : service.readVerified s.disk.view row with
      | ok content => rfl
      | error failure => rfl

/-! ## What a body has found -/

/-- Every artifact that was found damaged since `s₀` was valid there and is marked now. -/
structure Marked (s₀ s : Storage) : Prop where
  before : ∀ id ∈ s.found, ∃ row, s₀.db.artifacts.get? id = some row ∧ row.state = .VALID
  corrupt : ∀ id ∈ s.found, ∃ row, s.db.artifacts.get? id = some row ∧ row.state = .CORRUPT
  audited : ∀ id ∈ s.found, ∃ event ∈ s.db.auditEvents,
    event.eventType = "artifact.corrupt" ∧ event.aggregateId = id

/-- Nothing else was written since. -/
structure Tracks (s₀ s : Storage) : Prop extends Marked s₀ s where
  valid : ∀ id row, s.db.artifacts.get? id = some row → row.state = .VALID →
    s₀.db.artifacts.get? id = some row
  others : Agree [.artifacts, .auditEvents, .outbox] s₀.db s.db

theorem Marked.of_nothing (h : s.found = []) : Marked s₀ s :=
  ⟨by simp [h], by simp [h], by simp [h]⟩

theorem Tracks.start (h : s.found = []) : Tracks s s :=
  ⟨.of_nothing h, fun _ _ hrow _ => hrow, .refl _⟩

theorem readVerified_caught {service : ArtifactService} {disk : Disk} {failure : ArtifactFailure}
    (h : service.readVerified disk.view row = .error failure) :
    (Thrown.artifact failure).isCaught = true := by
  unfold ArtifactService.readVerified at h
  split at h
  · rename_i missing hmissing
    cases h
    unfold Disk.view at hmissing
    split at hmissing <;> cases hmissing
    rfl
  · split at h <;> cases h
    rfl

/-- A call of `get_verified` changes something only if it raises what its callers catch. -/
theorem getVerified_tracks (h : Tracks s₀ s) :
    (getVerified service projectId artifactId draw).Triple s (fun _ s' => s' = s)
      fun thrown s' => Tracks s₀ s' ∧ thrown.isCaught = true := by
  unfold Service.Triple getVerified
  cases hrow : s.db.artifactIn projectId artifactId with
  | none => exact ⟨h, rfl⟩
  | some row =>
    obtain ⟨hget, -⟩ := Option.filter_eq_some_iff.mp hrow
    obtain rfl : row.id = artifactId := key_of_get? hget
    by_cases hvalid : row.state ≠ .VALID
    · simp only [if_pos hvalid]
      exact ⟨h, rfl⟩
    · simp only [if_neg hvalid]
      cases hread : service.readVerified s.disk.view row with
      | ok content => rfl
      | error failure =>
        refine ⟨?_, readVerified_caught hread⟩
        have hmarked : (s.db.artifacts.set row.corrupt).get? row.id = some row.corrupt :=
          get?_set_self hget
        have hothers : ∀ id ≠ row.id, (s.db.artifacts.set row.corrupt).get? id =
            s.db.artifacts.get? id := fun id hid => get?_set_ne _ hid
        have hmark : Agree [.artifacts, .auditEvents, .outbox] s.db
            ((markArtifactCorrupt row draw).commit s.db).2 := by
          intro t ht
          cases t <;> first | rfl | exact absurd (by decide) ht
        refine ⟨⟨?_, ?_, ?_⟩, ?_, h.others.trans hmark⟩
        · intro id hid
          rcases mem_append.mp hid with hid | hid
          · exact h.before id hid
          · obtain rfl := mem_singleton.mp hid
            exact ⟨row, h.valid row.id row hget (not_not.mp hvalid), not_not.mp hvalid⟩
        · intro id hid
          change ∃ marked, (s.db.artifacts.set row.corrupt).get? id = some marked ∧ _
          by_cases hsame : id = row.id
          · exact ⟨row.corrupt, hsame ▸ hmarked, rfl⟩
          · rw [hothers id hsame]
            exact h.corrupt id ((mem_append.mp hid).resolve_right (by simpa using hsame))
        · intro id hid
          rcases mem_append.mp hid with hid | hid
          · obtain ⟨event, hmem, hevent⟩ := h.audited id hid
            exact ⟨event, mem_append_left _ hmem, hevent⟩
          · obtain rfl := mem_singleton.mp hid
            exact ⟨_, mem_append_right _ mem_cons_self, rfl, rfl⟩
        · intro id found hfound hstate
          change (s.db.artifacts.set row.corrupt).get? id = some found at hfound
          by_cases hsame : id = row.id
          · rw [hsame, hmarked] at hfound
            cases hfound
            cases hstate
          · rw [hothers id hsame] at hfound
            exact h.valid id found hfound hstate

end Body

end AutoSwe
