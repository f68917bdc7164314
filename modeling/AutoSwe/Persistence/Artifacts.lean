import AutoSwe.Persistence.Repositories

/-!
# Artifacts

An artifact is a row with the digest of an object, and the object under its
storage key. A read hashes the object again; an object that does not match the
row makes the row `CORRUPT`. The files are not part of the database: a
transaction finds them as `Objects`.
-/

namespace AutoSwe

open Transaction Prog

abbrev Bytes := List UInt8

/-- An exception of the artifact service: its class and its text. -/
structure ArtifactFailure where
  className : String
  text : String
deriving DecidableEq

/-- What opening the object of a storage key gives. -/
abbrev Objects := String → Except ArtifactFailure Bytes

structure ArtifactService where
  sha256 : Bytes → String

def Database.artifactIn (db : Database) (projectId artifactId : UUID) : Option ArtifactRow :=
  (db.artifacts.get? artifactId).filter fun row => row.projectId = projectId

def ArtifactRow.corrupt (row : ArtifactRow) : ArtifactRow :=
  { row with state := .CORRUPT, verifiedAt := none }

def artifactCorruptPayload (row : ArtifactRow) : Json :=
  .obj [("artifact_id", .str row.id.str), ("project_id", .str row.projectId.str),
    ("sha256", .str row.sha256), ("state", .str "CORRUPT")]

def markArtifactCorrupt (row : ArtifactRow) (draw : Draw) : Session Unit := do
  execute fun db => { db with artifacts := db.artifacts.set row.corrupt }
  publish draw.eventId "artifact.corrupt" "artifact" row.id row.runId "artifact-integrity"
    (artifactCorruptPayload row)

/-- The content address of an object. -/
def storageKey (digest : String) : String :=
  "sha256/" ++ String.ofList (digest.toList.take 2) ++ "/" ++
    String.ofList ((digest.toList.drop 2).take 2) ++ "/" ++ digest

namespace ArtifactService

variable (service : ArtifactService) (objects : Objects)

/-- The objects once the content is stored. One that is there already is kept, if
it is not damaged. -/
def put (content : Bytes) : Except Raised Objects :=
  let mismatch : Raised :=
    ⟨.runtimeError, "existing content-addressed object does not match its SHA-256"⟩
  match objects (storageKey (service.sha256 content)) with
  | .ok stored =>
    if service.sha256 stored ≠ service.sha256 content ∨ stored.length ≠ content.length then
      .error mismatch
    else .ok objects
  | .error failure =>
    if failure.className = "FileNotFoundError" then
      .ok fun key =>
        if key = storageKey (service.sha256 content) then .ok content else objects key
    else .error mismatch

def readVerified (row : ArtifactRow) : Except ArtifactFailure Bytes :=
  match objects row.storageKey with
  | .error failure => .error failure
  | .ok content =>
    if service.sha256 content ≠ row.sha256 ∨ content.length ≠ row.sizeBytes then
      .error ⟨"ArtifactIntegrityError", "artifact SHA-256 or size mismatch: expected " ++
        row.sha256 ++ ", got " ++ service.sha256 content⟩
    else .ok content

/-- The callers of this catch what it raises inside their transaction, so that the
exception is part of the result here. -/
def getVerified (projectId artifactId : UUID) (draw : Draw) :
    Session (Except ArtifactFailure Bytes) := do
  match ← query fun db => db.artifactIn projectId artifactId with
  | none => pure (.error ⟨"LookupError",
      "artifact " ++ artifactId.str ++ " does not exist in project " ++ projectId.str⟩)
  | some row =>
    if row.state ≠ .VALID then
      pure (.error ⟨"ArtifactIntegrityError",
        "artifact " ++ artifactId.str ++ " is not valid evidence"⟩)
    else
      match service.readVerified objects row with
      | .ok content => pure (.ok content)
      | .error failure => do
        markArtifactCorrupt row draw
        pure (.error failure)

/-- The object of the row has the digest and the size of the row. -/
def Rehashes (row : ArtifactRow) : Prop :=
  ∃ content, objects row.storageKey = .ok content ∧ service.sha256 content = row.sha256 ∧
    content.length = row.sizeBytes

/-- What `getVerified` returns, read off the database it starts from. -/
def fetch (db : Database) (projectId artifactId : UUID) : Except ArtifactFailure Bytes :=
  match db.artifactIn projectId artifactId with
  | none => .error ⟨"LookupError",
      "artifact " ++ artifactId.str ++ " does not exist in project " ++ projectId.str⟩
  | some row =>
    if row.state ≠ .VALID then
      .error ⟨"ArtifactIntegrityError", "artifact " ++ artifactId.str ++ " is not valid evidence"⟩
    else service.readVerified objects row

variable {service objects}

theorem readVerified_ok : service.readVerified objects row = .ok content ↔
      objects row.storageKey = .ok content ∧ service.sha256 content = row.sha256 ∧
        content.length = row.sizeBytes := by
  unfold readVerified
  cases hobject : objects row.storageKey with
  | error failure => simp
  | ok stored =>
    simp only [Except.ok.injEq]
    split
    · rename_i hmismatch
      constructor
      · rintro ⟨⟩
      · rintro ⟨rfl, hdigest, hsize⟩
        rcases hmismatch with h | h
        · exact absurd hdigest h
        · exact absurd hsize h
    · rename_i hmatch
      simp only [not_or, not_not] at hmatch
      constructor
      · rintro ⟨⟩
        exact ⟨rfl, hmatch⟩
      · rintro ⟨rfl, -⟩
        rfl

theorem fetch_ok (h : service.fetch objects db projectId artifactId = .ok content) :
    ∃ row, db.artifacts.get? artifactId = some row ∧ row.projectId = projectId ∧
      row.state = .VALID ∧ service.readVerified objects row = .ok content := by
  unfold fetch at h
  split at h
  · cases h
  · rename_i row hrow
    split at h
    · cases h
    · rename_i hvalid
      have hfound := Option.filter_eq_some_iff.mp hrow
      exact ⟨row, hfound.1, of_decide_eq_true hfound.2, not_not.mp hvalid, h⟩

theorem run_getVerified (projectId artifactId : UUID) (draw : Draw) (db : Database) :
    ∃ db', (service.getVerified objects projectId artifactId draw).run db =
        .ok (service.fetch objects db projectId artifactId, db') ∧
      (db' = db ∨ ∃ row, db.artifacts.get? artifactId = some row ∧
        (∃ failure, service.readVerified objects row = .error failure) ∧
        ((markArtifactCorrupt row draw).run db = .ok ((), db'))) := by
  simp only [getVerified, run_bind, run_query, fetch]
  cases hrow : db.artifactIn projectId artifactId with
  | none => exact ⟨db, rfl, .inl rfl⟩
  | some row =>
    by_cases hvalid : row.state ≠ .VALID
    · simp only [if_pos hvalid]
      exact ⟨db, rfl, .inl rfl⟩
    · simp only [if_neg hvalid]
      cases hread : service.readVerified objects row with
      | ok content => exact ⟨db, rfl, .inl rfl⟩
      | error failure =>
        exact ⟨_, rfl, .inr ⟨row, (Option.filter_eq_some_iff.mp hrow).1, ⟨failure, hread⟩, rfl⟩⟩

end ArtifactService

end AutoSwe
