import AutoSwe.Finalization.PromotionRetries

/-!
# The external memory

`remember` asks the memory for the status of a document, writes it if there is
none, and asks again. The receipt is read off the status with a default for each
field that is missing; without a status it is read off the reply to the write.
`promotion_searchable_iff` says for which replies a promotion is one of a document
that the memory has confirmed.
-/

/-! ## Values -/

namespace Json

/-- `bool(value)` -/
def truthy : Json → Bool
  | .null => false
  | .bool value => value
  | .num value => value ≠ 0
  | .float value => value.text ∉ ["0.0", "-0.0"]
  | .str value => value ≠ ""
  | .arr items => !items.isEmpty
  | .obj fields => !fields.isEmpty

/-- `value or other` -/
def orElse (value other : Json) : Json := if value.truthy then value else other

/-- A list or a dictionary is in no set: looking for it is an error. -/
def hashable : Json → Bool
  | .arr _ | .obj _ => false
  | _ => true

/-- `document.get(key)` -/
def field (document : Json) (key : String) : Json := (document.get? key).getD .null

end Json

namespace AutoSwe

open Option Activity

/-- `repr` writes a list or a dictionary, `uuidOf` reads a UUID, and `strip` is what
a contract model makes of a text. -/
structure UAMSMemoryAdapter where
  repr : Json → String
  uuidOf : String → Option UUID
  strip : String → String

/-- What comes of a request: an error of the connection, or a response with its body
if that is JSON. -/
inductive Reply
  | failed (error : String)
  | response (statusCode : Nat) (text : String) (body : Option Json)

/-- The replies to the requests of one `remember`. -/
structure Replies where
  status : Reply
  write : Reply
  assigned : Reply

/-- A receipt that `promote` takes for a searchable revision. -/
def MemoryReceipt.Searchable (receipt : MemoryReceipt) (revisionId : String) : Prop :=
  receipt.searchable = true ∧ receipt.revisionId = some revisionId ∧ revisionId ≠ ""

namespace UAMSMemoryAdapter

variable (adapter : UAMSMemoryAdapter)

def str : Json → String
  | .null => "None"
  | .bool value => if value then "True" else "False"
  | .num value => toString value
  | .float value =>
    if value.text = "NaN" then "nan"
    else if value.text = "Infinity" then "inf"
    else if value.text = "-Infinity" then "-inf"
    else value.text
  | .str value => value
  | value => adapter.repr value

def request (path : String) (allowNotFound : Bool) : Reply → Except Raised (Option Json)
  | .failed error => .error ⟨.memoryUnavailable, "UAMS request failed: " ++ error⟩
  | .response statusCode text body =>
    let returned := "UAMS " ++ path ++ " returned " ++ toString statusCode ++ ": " ++
      String.ofList (text.toList.take 500)
    if allowNotFound ∧ statusCode = 404 then .ok none
    else if 500 ≤ statusCode then .error ⟨.memoryUnavailable, returned⟩
    else if 400 ≤ statusCode then .error ⟨.memoryContractError, returned⟩
    else
      match body with
      | none => .error ⟨.memoryContractError, "UAMS " ++ path ++ " returned invalid JSON"⟩
      | some (.obj fields) => .ok (some (.obj fields))
      | some _ =>
        .error ⟨.memoryContractError, "UAMS " ++ path ++ " returned a non-object response"⟩

def rememberReceipt (revisionId : Option String) (status : String) (searchable : Bool) :
    Except Raised MemoryReceipt :=
  if (adapter.strip status).length < 1 ∨ 100 < (adapter.strip status).length then
    .error ⟨.valueError, "status"⟩
  else .ok ⟨searchable, revisionId.map adapter.strip, adapter.strip status⟩

def receipt (status : Json) : Except Raised MemoryReceipt :=
  let current := status.field "current_revision_id"
  let latest := status.field "latest_revision_id"
  let indexStatus := status.field "index_status"
  if indexStatus.hashable then
    let known := decide (indexStatus = .str "indexed" ∨ indexStatus = .str "pending" ∨
      status.field "document_status" = .str "active")
    adapter.rememberReceipt
      (if (latest.orElse current).truthy then some (adapter.str (latest.orElse current)) else none)
      (adapter.str (indexStatus.orElse (.str "pending")))
      (known && (current.orElse latest).truthy)
  else .error ⟨.typeError, "unhashable type"⟩

def assignedId (memoryId : UUID) (response : Json) : Except Raised UUID :=
  match response.field "memory_id" with
  | .null => .ok memoryId
  | returned =>
    match adapter.uuidOf (adapter.str returned) with
    | some assigned => .ok assigned
    | none => .error ⟨.valueError, "badly formed hexadecimal UUID string"⟩

/-- The receipt when the memory has no status of what it was asked to write. -/
def writeReceipt (assigned : UUID) (response : Json) : Except Raised MemoryReceipt :=
  adapter.rememberReceipt
    (some (adapter.str (((response.field "revision_id").orElse (response.field "path")).orElse
      (.str ("rev-" ++ assigned.str)))))
    (adapter.str ((response.field "index_status").orElse (.str "indexed")))
    ((response.get? "searchable").getD (.bool true)).truthy

def remember (memoryId : UUID) (replies : Replies) : Except Raised MemoryReceipt := do
  match ← request ("/memory/status/" ++ memoryId.str) true replies.status with
  | some status => adapter.receipt status
  | none =>
    match ← request "/remember" false replies.write with
    | none => .error ⟨.memoryContractError, "UAMS /remember unexpectedly returned no body"⟩
    | some response => do
      let assigned ← adapter.assignedId memoryId response
      match ← request ("/memory/status/" ++ assigned.str) true replies.assigned with
      | some status => adapter.receipt status
      | none => adapter.writeReceipt assigned response

end UAMSMemoryAdapter

/-! ## What the replies say -/

namespace Reply

def Reports (reply : Reply) (body : Json) : Prop :=
  ∃ statusCode text fields, reply = .response statusCode text (some body) ∧ statusCode < 400 ∧
    body = .obj fields

def NotFound (reply : Reply) : Prop := ∃ text body, reply = .response 404 text body

theorem Reports.unique {reply : Reply} (h : reply.Reports body) (h' : reply.Reports body') :
    body = body' := by
  obtain ⟨_, _, _, rfl, -, -⟩ := h
  obtain ⟨_, _, _, hreply, -, -⟩ := h'
  cases hreply
  rfl

theorem Reports.found {reply : Reply} (h : reply.Reports body) : ¬ reply.NotFound := by
  rintro ⟨text, other, rfl⟩
  obtain ⟨_, _, _, hreply, hcode, -⟩ := h
  cases hreply
  exact absurd hcode (by decide)

end Reply

namespace UAMSMemoryAdapter

theorem request_some :
    request path allowNotFound reply = .ok (some body) ↔ reply.Reports body := by
  cases reply with
  | failed error => simp [request, Reply.Reports]
  | response =>
    simp only [request]
    split
    · rename_i hmissing
      refine ⟨fun h => (by cases h), ?_⟩
      rintro ⟨_, _, _, hreply, hcode, -⟩
      cases hreply
      omega
    · split
      · refine ⟨fun h => (by cases h), ?_⟩
        rintro ⟨_, _, _, hreply, hcode, -⟩
        cases hreply
        omega
      · split
        · refine ⟨fun h => (by cases h), ?_⟩
          rintro ⟨_, _, _, hreply, hcode, -⟩
          cases hreply
          omega
        · rename_i hcode
          split
          · simp [Reply.Reports]
          · rename_i fields
            constructor
            · intro h
              cases h
              exact ⟨_, _, _, rfl, Nat.lt_of_not_le hcode, rfl⟩
            · rintro ⟨_, _, _, hreply, -, -⟩
              cases hreply
              rfl
          · rename_i other hother
            refine ⟨fun h => (by cases h), ?_⟩
            rintro ⟨_, _, fields, hreply, -, rfl⟩
            cases hreply
            exact absurd rfl (hother fields)

theorem request_none :
    request path allowNotFound reply = .ok none ↔ allowNotFound = true ∧ reply.NotFound := by
  cases reply with
  | failed error => simp [request, Reply.NotFound]
  | response statusCode text body =>
    simp only [request]
    split
    · rename_i hmissing
      obtain ⟨hallowed, rfl⟩ := hmissing
      exact ⟨fun _ => ⟨hallowed, _, _, rfl⟩, fun _ => rfl⟩
    · rename_i hfound
      have hno : ¬ (allowNotFound = true ∧ (Reply.response statusCode text body).NotFound) := by
        rintro ⟨hallowed, _, _, hreply⟩
        cases hreply
        exact hfound ⟨hallowed, rfl⟩
      refine ⟨fun h => ?_, fun h => absurd h hno⟩
      repeat' split at h
      all_goals cases h

variable (adapter : UAMSMemoryAdapter)

/-- The status off which the receipt is read. -/
inductive Decides (memoryId : UUID) (replies : Replies) (body : Json) : Prop
  | known (hstatus : replies.status.Reports body)
  | written (hnew : replies.status.NotFound) (hwrite : replies.write.Reports response)
      (hassigned : adapter.assignedId memoryId response = .ok assigned)
      (hstatus : replies.assigned.Reports body)

/-- The memory took the document, but has no status of it. -/
structure Unlisted (memoryId : UUID) (replies : Replies) (assigned : UUID) (response : Json) :
    Prop where
  new : replies.status.NotFound
  write : replies.write.Reports response
  id : adapter.assignedId memoryId response = .ok assigned
  missing : replies.assigned.NotFound

variable {adapter} {memoryId : UUID} {replies : Replies}

theorem remember_ok : adapter.remember memoryId replies = .ok result ↔
    (∃ body, adapter.Decides memoryId replies body ∧ adapter.receipt body = .ok result) ∨
    ∃ assigned response, adapter.Unlisted memoryId replies assigned response ∧
      adapter.writeReceipt assigned response = .ok result := by
  simp only [remember, bind, Except.bind]
  constructor
  · intro h
    split at h
    · cases h
    · rename_i status hstatus
      cases status with
      | some body => exact .inl ⟨body, .known (request_some.mp hstatus), h⟩
      | none =>
        have hnew := (request_none.mp hstatus).2
        dsimp only at h
        split at h
        · cases h
        · rename_i write hwrite
          cases write with
          | none => cases h
          | some response =>
            have hresponse := request_some.mp hwrite
            dsimp only at h
            split at h
            · cases h
            · rename_i assigned hassigned
              split at h
              · cases h
              · rename_i last hlast
                cases last with
                | some body =>
                  exact .inl ⟨body, .written hnew hresponse hassigned (request_some.mp hlast), h⟩
                | none =>
                  exact .inr ⟨assigned, response,
                    ⟨hnew, hresponse, hassigned, (request_none.mp hlast).2⟩, h⟩
  · rintro (⟨body, hstatus | ⟨hnew, hwrite, hassigned, hstatus⟩, hreceipt⟩ |
      ⟨assigned, response, ⟨hnew, hwrite, hassigned, hmissing⟩, hreceipt⟩)
    · rw [request_some.mpr hstatus]
      exact hreceipt
    · rw [request_none.mpr ⟨rfl, hnew⟩]
      simp only [request_some.mpr hwrite, hassigned, request_some.mpr hstatus, hreceipt]
    · rw [request_none.mpr ⟨rfl, hnew⟩]
      simp only [request_some.mpr hwrite, hassigned, request_none.mpr ⟨rfl, hmissing⟩, hreceipt]

theorem Decides.unique (h : adapter.Decides memoryId replies body)
    (h' : adapter.Decides memoryId replies body') : body = body' := by
  cases h with
  | known hstatus =>
    cases h' with
    | known hstatus' => exact hstatus.unique hstatus'
    | written hnew' => exact absurd hnew' hstatus.found
  | written hnew _ _ hstatus =>
    cases h' with
    | known hstatus' => exact absurd hnew hstatus'.found
    | written _ _ _ hstatus' => exact hstatus.unique hstatus'

theorem Unlisted.undecided (h : adapter.Unlisted memoryId replies assigned response) :
    ¬ adapter.Decides memoryId replies body := by
  rintro (hstatus | ⟨-, -, -, hstatus⟩)
  · exact hstatus.found h.new
  · exact hstatus.found h.missing

/-! ## Searchable receipts -/

variable (adapter) in
/-- The text is one that the receipt can have as its status. -/
def StatusText (value : Json) : Prop :=
  1 ≤ (adapter.strip (adapter.str value)).length ∧ (adapter.strip (adapter.str value)).length ≤ 100

variable (adapter) in
/-- The revision that a status names: the latest, or else the current one. -/
def revisionOf (body : Json) : String :=
  adapter.strip (adapter.str
    ((body.field "latest_revision_id").orElse (body.field "current_revision_id")))

variable (adapter) in
/-- The status passes: it calls the document indexed, pending or active and names a
revision. -/
structure Passes (body : Json) : Prop where
  known : body.field "index_status" = .str "indexed" ∨ body.field "index_status" = .str "pending" ∨
    body.field "document_status" = .str "active"
  hashable : (body.field "index_status").hashable = true
  revision : (body.field "latest_revision_id").truthy = true ∨
    (body.field "current_revision_id").truthy = true
  named : adapter.revisionOf body ≠ ""
  status : adapter.StatusText ((body.field "index_status").orElse (.str "pending"))

variable (adapter) in
/-- The reply to the write passes without a status: it does not deny that the document
is searchable. -/
structure WritePasses (assigned : UUID) (response : Json) : Prop where
  searchable : ((response.get? "searchable").getD (.bool true)).truthy = true
  named : adapter.strip (adapter.str (((response.field "revision_id").orElse
    (response.field "path")).orElse (.str ("rev-" ++ assigned.str)))) ≠ ""
  status : adapter.StatusText ((response.field "index_status").orElse (.str "indexed"))

theorem truthy_orElse (a b : Json) :
    (a.orElse b).truthy = true ↔ a.truthy = true ∨ b.truthy = true := by
  unfold Json.orElse
  split <;> simp_all

theorem rememberReceipt_searchable :
    (∃ receipt, adapter.rememberReceipt revision (adapter.str status) searchable = .ok receipt ∧
      receipt.Searchable revisionId) ↔
    adapter.StatusText status ∧ searchable = true ∧ revision.map adapter.strip = some revisionId ∧
      revisionId ≠ "" := by
  unfold rememberReceipt StatusText
  split
  · rename_i hlength
    constructor
    · rintro ⟨_, hreceipt, -⟩
      cases hreceipt
    · rintro ⟨⟨hone, hmost⟩, -⟩
      omega
  · rename_i hlength
    constructor
    · rintro ⟨_, hreceipt, hsearchable⟩
      cases hreceipt
      exact ⟨by omega, hsearchable⟩
    · rintro ⟨-, hsearchable⟩
      exact ⟨_, rfl, hsearchable⟩

theorem receipt_searchable :
    (∃ receipt, adapter.receipt body = .ok receipt ∧ receipt.Searchable revisionId) ↔
      adapter.Passes body ∧ adapter.revisionOf body = revisionId := by
  by_cases hhashable : (body.field "index_status").hashable = true
  · simp only [receipt, hhashable, if_true, rememberReceipt_searchable]
    constructor
    · rintro ⟨hstatus, hsearchable, hrevision, hnamed⟩
      rw [Bool.and_eq_true, decide_eq_true_eq, truthy_orElse] at hsearchable
      rw [if_pos ((truthy_orElse _ _).mpr hsearchable.2.symm), map_some] at hrevision
      cases hrevision
      exact ⟨⟨hsearchable.1, hhashable, hsearchable.2.symm, hnamed, hstatus⟩, rfl⟩
    · rintro ⟨hpasses, rfl⟩
      refine ⟨hpasses.status, ?_, ?_, hpasses.named⟩
      · rw [Bool.and_eq_true, decide_eq_true_eq, truthy_orElse]
        exact ⟨hpasses.known, hpasses.revision.symm⟩
      · rw [if_pos ((truthy_orElse _ _).mpr hpasses.revision)]
        rfl
  · simp only [receipt, hhashable]
    constructor
    · rintro ⟨_, hreceipt, -⟩
      cases hreceipt
    · rintro ⟨hpasses, -⟩
      exact absurd hpasses.hashable hhashable

theorem writeReceipt_searchable :
    (∃ revisionId receipt, adapter.writeReceipt assigned response = .ok receipt ∧
      receipt.Searchable revisionId) ↔ adapter.WritePasses assigned response := by
  simp only [writeReceipt, rememberReceipt_searchable, map_some, some.injEq]
  constructor
  · rintro ⟨_, hstatus, hsearchable, rfl, hnamed⟩
    exact ⟨hsearchable, hnamed, hstatus⟩
  · rintro ⟨hsearchable, hnamed, hstatus⟩
    exact ⟨_, hstatus, hsearchable, rfl, hnamed⟩

/-! ## Promotions -/

variable (adapter) in
/-- What `promote` is answered when the memory replies so. -/
def Answers (memoryId : UUID) (replies : Replies) (answer : Answer) : Prop :=
  match adapter.remember memoryId replies with
  | .ok receipt => answer.failure = none ∧ answer.receipt = .ok receipt
  | .error raised =>
    if raised.kind = .memoryUnavailable then
      answer.failure = none ∧ answer.receipt = .error raised.message
    else answer.failure = some raised

theorem Answers.receipt (h : adapter.Answers memoryId replies answer)
    (hworks : answer.failure = none) (hreceipt : answer.receipt = .ok result) :
    adapter.remember memoryId replies = .ok result := by
  unfold Answers at h
  split at h
  · rename_i found hfound
    rw [hreceipt] at h
    cases h.2
    exact hfound
  · split at h
    · rw [hreceipt] at h
      cases h.2
    · rw [hworks] at h
      cases h

/-- The memory calls the document indexed and active, and its current revision the
latest. -/
structure Confirmed (body : Json) : Prop where
  indexed : body.field "index_status" = .str "indexed"
  active : body.field "document_status" = .str "active"
  latest : body.field "current_revision_id" = body.field "latest_revision_id"

variable (adapter) in
/-- Whoever promotes a candidate with these replies records a revision of which the
memory has confirmed that it is the latest and is searchable. -/
def PromotedMeansSearchable (memoryId : UUID) (replies : Replies) : Prop :=
  ∀ (service : RunFinalizationService) (candidate : MemoryCandidate) (review : PromotionReview)
    (answers : Activity → Answer) (s s' : Platform),
    service.promotion.deterministicMemoryId candidate = memoryId →
    adapter.Answers memoryId replies (answers (.remember candidate)) →
    (service.promote candidate review).runAlone (act service) answers s =
      (.ok .PROMOTED, s') →
    ∃ row revisionId, s'.db.memoryCandidates.get? candidate.candidateId = some row ∧
      row.revisionId = some revisionId ∧ ∃ body, adapter.Decides memoryId replies body ∧
        Confirmed body ∧ adapter.strip (adapter.str (body.field "latest_revision_id")) = revisionId

variable (adapter) in
/-- A status that passes is one that confirms, and nothing passes without a status. -/
structure OnlyConfirmed (memoryId : UUID) (replies : Replies) : Prop where
  status : ∀ body, adapter.Decides memoryId replies body → adapter.Passes body → Confirmed body
  write : ∀ assigned response, adapter.Unlisted memoryId replies assigned response →
    ¬ adapter.WritePasses assigned response

open RunFinalizationService (sampleCandidate sampleProposal sampleUnpromoted sample_accepted
  promote_marks settle_complete promote_records)

/-- A service that gives the candidate the id. -/
def promoterOf (memoryId : UUID) : RunFinalizationService :=
  { sampleFinalizer with
    promotion := { sampleFinalizer.promotion with deterministicMemoryId := fun _ => memoryId } }

theorem exists_promotion (hreceipt : adapter.remember memoryId replies = .ok result)
    (hsearchable : result.Searchable revisionId) :
    ∃ answers s', adapter.Answers memoryId replies (answers (.remember sampleCandidate)) ∧
      (answers (.remember sampleCandidate)).receipt = .ok result ∧
      ((promoterOf memoryId).promote sampleCandidate sampleProposal).runAlone
        (act (promoterOf memoryId)) answers sampleUnpromoted = (.ok .PROMOTED, s') := by
  let eventId := (promoterOf memoryId).promotion.promotedId sampleCandidate revisionId
  -- some other id for what is drawn
  obtain ⟨drawn, hdrawn⟩ : ∃ drawn : UUID, drawn ≠ eventId := by
    by_cases h : (0 : UUID) = eventId
    · exact ⟨1, h ▸ by decide⟩
    · exact ⟨0, h⟩
  let answers : Activity → Answer := fun _ =>
    { draw := { eventId := drawn, rolloverId := drawn }, receipt := .ok result }
  have hfound : (answers (.remember sampleCandidate)).Searchable revisionId :=
    ⟨result, rfl, hsearchable⟩
  have hsteady : MemorySteady sampleCandidate eventId revisionId answers := by
    refine ⟨fun _ => rfl, fun _ => ⟨hdrawn, hdrawn⟩, ?_⟩
    rintro found ⟨_, hresult, -, hrevision, -⟩
    cases hresult
    exact some.inj (hrevision.symm.trans hsearchable.2.1)
  have hanswers : adapter.Answers memoryId replies (answers (.remember sampleCandidate)) := by
    simp [Answers, hreceipt, answers]
  have haccepted : (promoterOf memoryId).promotion.gate.evaluate sampleCandidate sampleProposal =
    [] := sample_accepted
  obtain ⟨s₁, hmarks, -, -, -, -, hrun⟩ := promote_marks haccepted hsteady.works
    RunFinalizationService.sample_stored
  have hunused : Unused eventId s₁.db :=
    ⟨by simp [hmarks.audit, sampleUnpromoted], by simp [hmarks.outbox, sampleUnpromoted]⟩
  rcases settle_complete rfl hsteady hfound hmarks.stored hmarks.unpromoted with
    ⟨-, s', -, -, -, -, hfinal⟩ | ⟨hused, -⟩
  · exact ⟨answers, s', hanswers, rfl, hrun.trans hfinal⟩
  · exact absurd hunused hused

/-- A promotion means that the revision is searchable just for the replies with which
only a confirming status passes. -/
theorem promotion_searchable_iff (adapter : UAMSMemoryAdapter) (memoryId : UUID)
    (replies : Replies) :
    adapter.PromotedMeansSearchable memoryId replies ↔ adapter.OnlyConfirmed memoryId replies := by
  constructor
  · intro h
    -- a searchable receipt promotes somebody, and then there is a confirming status
    have hconfirmed : ∀ revisionId result, adapter.remember memoryId replies = .ok result →
        result.Searchable revisionId →
        ∃ body, adapter.Decides memoryId replies body ∧ Confirmed body := by
      intro revisionId result hresult hsearchable
      obtain ⟨answers, s', hanswers, -, hpromoted⟩ := exists_promotion hresult hsearchable
      obtain ⟨_, _, -, -, body, hdecides, hbody, -⟩ := h (promoterOf memoryId) sampleCandidate
        sampleProposal answers sampleUnpromoted s' rfl hanswers hpromoted
      exact ⟨body, hdecides, hbody⟩
    refine ⟨fun body hdecides hpasses => ?_, fun assigned response hunlisted hpasses => ?_⟩
    · obtain ⟨result, hresult, hsearchable⟩ := receipt_searchable.mpr ⟨hpasses, rfl⟩
      obtain ⟨body', hdecides', hbody'⟩ := hconfirmed _ result
        (remember_ok.mpr (.inl ⟨body, hdecides, hresult⟩)) hsearchable
      exact hdecides'.unique hdecides ▸ hbody'
    · obtain ⟨revisionId, result, hresult, hsearchable⟩ := writeReceipt_searchable.mpr hpasses
      obtain ⟨body, hdecides, -⟩ := hconfirmed revisionId result
        (remember_ok.mpr (.inr ⟨assigned, response, hunlisted, hresult⟩)) hsearchable
      exact hunlisted.undecided hdecides
  · rintro ⟨hstatus, hwrite⟩ service candidate review answers s s' rfl hanswers hpromoted
    obtain ⟨revisionId, hworks, ⟨result, hresult, hsearchable⟩, row, hrow, hrevision⟩ :=
      promote_records hpromoted
    refine ⟨row, revisionId, hrow, hrevision, ?_⟩
    rcases remember_ok.mp (hanswers.receipt hworks hresult) with
      ⟨body, hdecides, hreceipt⟩ | ⟨assigned, response, hunlisted, hreceipt⟩
    · obtain ⟨hpasses, hnamed⟩ := receipt_searchable.mp ⟨result, hreceipt, hsearchable⟩
      have hconfirmed := hstatus body hdecides hpasses
      refine ⟨body, hdecides, hconfirmed, ?_⟩
      rw [← hnamed, revisionOf, hconfirmed.latest, Json.orElse, ite_self]
    · exact absurd (writeReceipt_searchable.mp ⟨_, result, hreceipt, hsearchable⟩)
        (hwrite assigned response hunlisted)

def sampleAdapter : UAMSMemoryAdapter where
  repr _ := ""
  uuidOf _ := none
  strip := id

/-- The document waits to be indexed, and its revision is not the latest. -/
def samplePending : Json :=
  .obj [("index_status", .str "pending"), ("current_revision_id", .str "1"),
    ("latest_revision_id", .str "2")]

def samplePendingReplies : Replies where
  status := .response 200 "" (some samplePending)
  write := .failed ""
  assigned := .failed ""

def samplePendingAnswers : Activity → Answer := fun _ =>
  { draw := { eventId := 7, rolloverId := 8 }, receipt := .ok ⟨true, some "2", "pending"⟩ }

theorem sample_pending_answers : sampleAdapter.Answers 90 samplePendingReplies
    (samplePendingAnswers (.remember sampleCandidate)) :=
  ⟨rfl, rfl⟩

theorem sample_pending_result : ((sampleFinalizer.promote sampleCandidate sampleProposal).runAlone
    (act sampleFinalizer) samplePendingAnswers sampleUnpromoted).1 = .ok .PROMOTED := by
  decide +kernel

theorem pending_promoted :
    ((sampleFinalizer.promote sampleCandidate sampleProposal).runAlone
      (act sampleFinalizer) samplePendingAnswers sampleUnpromoted).1 = .ok .PROMOTED ∧
    ¬ sampleAdapter.PromotedMeansSearchable 90 samplePendingReplies := by
  refine ⟨sample_pending_result, fun h => ?_⟩
  obtain ⟨_, _, -, -, body, hdecides, hconfirmed, -⟩ := h sampleFinalizer sampleCandidate
    sampleProposal samplePendingAnswers sampleUnpromoted _ rfl sample_pending_answers
    (Prod.ext sample_pending_result rfl)
  have hpending : sampleAdapter.Decides 90 samplePendingReplies samplePending :=
    .known ⟨200, "", _, rfl, by decide, rfl⟩
  obtain rfl := hdecides.unique hpending
  exact absurd hconfirmed.indexed (by decide)

end UAMSMemoryAdapter

end AutoSwe
