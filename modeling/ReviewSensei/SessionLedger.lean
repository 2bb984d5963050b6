import ReviewSensei.SessionAdmission
import ReviewSensei.Effects

/-! The in-memory ledger, by the entry of one session, and the operations on it: rounds, failed
attempts, and the two kinds of continuation grants. -/
namespace ReviewSensei.Session
open Effects

variable {rules : SessionRules}

/-- The entry of the session in the ledger's dictionary. -/
abbrev Ledger (rules : SessionRules) := Option (SessionRecord rules)

abbrev LedgerOp (rules : SessionRules) (α : Type) := Prog String (Ledger rules) α

inductive SessionLoadResult (rules : SessionRules)
  | ok (record : SessionRecord rules)
  | missing
  | expired
  | conflict

/-- `InMemorySessionLedger.load`. -/
def load (ledger : Ledger rules) (identity : SessionIdentity) (m : Moment) :
    SessionLoadResult rules :=
  match ledger with
  | none => .missing
  | some record =>
    if identity.repositoryId ≠ none ∧ record.repositoryId ≠ none ∧
        record.repositoryId ≠ identity.repositoryId then .conflict
    else if record.expired m then .expired
    else .ok record

def initializeEntry (identity : SessionIdentity) (m : Moment) : LedgerOp rules (SessionRecord rules) := do
  match load (← Prog.get) identity m with
  | .ok _ => Prog.raise "session already exists"
  | .conflict => Prog.raise "session ledger load failed: conflict"
  | .expired => Prog.raise "session ledger load failed: expired"
  | .missing => do
    let record ← Prog.lift
      (SessionRecord.create rules identity m (.ttl defaultSessionTtl) emptyFields)
    Prog.modify (fun _ => some record)
    return record

/-- `replace`, for a mutation that also reports something to its caller. -/
def replaceReporting {α : Type} (identity : SessionIdentity) (m : Moment)
    (mutate : SessionRecord rules → Except String (SessionRecord rules × α)) :
    LedgerOp rules (SessionRecord rules × α) := do
  match load (← Prog.get) identity m with
  | .ok record => do
    let updated ← Prog.lift (mutate record)
    Prog.modify (fun _ => some updated.1)
    return updated
  | _ => Prog.raise "session record is missing"

def replace (identity : SessionIdentity) (m : Moment)
    (mutate : SessionRecord rules → Except String (SessionRecord rules)) :
    LedgerOp rules (SessionRecord rules) := do
  match load (← Prog.get) identity m with
  | .ok record => do
    let updated ← Prog.lift (mutate record)
    Prog.modify (fun _ => some updated)
    return updated
  | _ => Prog.raise "session record is missing"

theorem load_some {r record : SessionRecord rules} {identity : SessionIdentity} {m : Moment}
    (h : load (some r) identity m = .ok record) : record = r := by
  unfold load at h
  dsimp only at h
  split at h
  · cases h
  split at h
  · cases h
  · exact (SessionLoadResult.ok.inj h).symm

/-- A replace stores what the mutation returned, and keeps the old record when it raises. -/
theorem replace_run (identity : SessionIdentity) (m : Moment)
    (mutate : SessionRecord rules → Except String (SessionRecord rules)) (r : SessionRecord rules) :
    (∃ r', mutate r = .ok r' ∧ (replace identity m mutate).run (some r) = (.ok r', some r')) ∨
      ∃ e, (replace identity m mutate).run (some r) = (.error e, some r) := by
  simp only [replace, Prog.run_bind, Prog.run_get, Prog.andThen_ok]
  cases hload : load (some r) identity m with
  | ok record =>
    obtain rfl := load_some hload
    cases hmutate : mutate record with
    | ok r' => exact .inl ⟨r', rfl, by simp [hmutate]⟩
    | error e => exact .inr ⟨e, by simp [hmutate]⟩
  | missing => exact .inr ⟨_, rfl⟩
  | expired => exact .inr ⟨_, rfl⟩
  | conflict => exact .inr ⟨_, rfl⟩

/-- The ledger's own `reserve`, which takes no policy digest. -/
def reserve (identity : SessionIdentity) (slot : Slot) (reservationId : String)
    (expectedGeneration : Nat) (headSha : Option String) (rescanRequest : Option AuthorizedRescan)
    (m : Moment) : LedgerOp rules (SessionRecord rules) :=
  replace identity m (fun record =>
    mutateReserved record slot reservationId expectedGeneration headSha none rescanRequest m)

def commit (identity : SessionIdentity) (reservationId : String) (expectedGeneration : Nat)
    (m : Moment) : LedgerOp rules (SessionRecord rules) :=
  replace identity m (fun record => mutateCommit record reservationId expectedGeneration m)

def abort (identity : SessionIdentity) (reservationId : String) (expectedGeneration : Nat)
    (m : Moment) : LedgerOp rules (SessionRecord rules) :=
  replace identity m (fun record => mutateAbort record reservationId expectedGeneration m)

structure PreparedSessionRound (rules : SessionRules) where
  record : SessionRecord rules
  decision : RoundAdmissionDecision
  reservationId : Option String
  transaction : Option ReviewTransaction

/-- The id a round reserves under: a rescan, an irrecoverable transaction and a successor grant
each derive their own from the caller's. -/
def roundReservationId (record : SessionFields) (reservationId : String)
    (headSha : Option String) (policyDigest : String) (rescanRequest : Option AuthorizedRescan) :
    Except String String :=
  match rescanRequest with
  | some request => rescanReservation record request headSha
  | none =>
    match headSha.bind (fun _ => hasIrrecoverableTransactionGrant record headSha policyDigest) with
    | some g =>
      .ok (sha256 (reservationId ++ "|" ++ g.commandId.getD "None" ++ ":" ++
        (g.consumedGeneration.map toString).getD "None"))
    | none =>
      match hasUnconsumedSuccessorGrant record (textOr headSha record.failedAttemptsHeadSha)
        policyDigest with
      | some g => .ok (sha256 (reservationId ++ "|" ++ g.commandId.getD "None"))
      | none => .ok reservationId

def ordinaryRescanDuplicate (record : SessionFields) (reservation : String)
    (headSha : Option String) : Bool :=
  record.rescanState.any (fun s => s.receipts.any (fun r =>
    some r.source.headSha == headSha &&
      (reservation == r.ordinaryReservation || reservation == r.reservation)))

def rescanPublicationRecovery (record : SessionFields) (headSha : Option String) : Bool :=
  record.transaction.any (fun t =>
    (t.phase == .publicationPending || t.phase == .publicationFailed) &&
      record.rescanState.any (fun s => s.receipts.any (fun r => r.reservation == t.reservationId)) &&
      some t.headSha == headSha)

/-- The flags of a round after the session's own state has set its defaults. -/
def roundFlags (record : SessionFields) (flags : StateFlags) (reservationId : String)
    (headSha : Option String) (rescanRequest : Option AuthorizedRescan) : StateFlags :=
  let duplicate := rescanRequest.any (replayedRescan record) ||
    ordinaryRescanDuplicate record reservationId headSha || rescanPublicationRecovery record headSha
  let flags := if duplicate then flags.markDuplicate else flags
  let flags := if record.operatorPaused then flags.markPaused else flags
  if record.reservationId.isSome then flags.markPaused
  else if record.lastCommittedReservationId = some reservationId then flags.markDuplicate
  else flags

/-- The record a round starts from: the stored one, or a fresh one. -/
def roundRecord (identity : SessionIdentity) (m : Moment) : LedgerOp rules (SessionRecord rules) := do
  match load (← Prog.get) identity m with
  | .missing => initializeEntry identity m
  | .expired => Prog.raise ("session ledger load failed: expired; authenticated recovery is " ++
      "required: re-enroll the session or explicitly replace the expired session marker")
  | .ok record => return record
  | .conflict => Prog.raise "session ledger load failed: conflict"

/-- The round `prepare_session_round` would reserve on this record, if any. -/
def plannedRound (record : SessionFields) (policy : ReviewConvergencePolicy)
    (reservationId : String) (headSha : Option String) (rescanRequest : Option AuthorizedRescan)
    (flags : StateFlags) : RoundAdmissionDecision :=
  evaluateRoundAdmission
    (toRoundState record headSha (some policy.digest)
      (roundFlags record flags reservationId headSha rescanRequest)) policy

def prepareSessionRound (identity : SessionIdentity) (policy : ReviewConvergencePolicy)
    (reservationId : String) (headSha : Option String) (rescanRequest : Option AuthorizedRescan)
    (flags : StateFlags) (m : Moment) : LedgerOp rules (PreparedSessionRound rules) := do
  let record ← roundRecord identity m
  let rescanRequest := rescanRequest.map
    (fun request => { request with ordinaryReservation := some reservationId })
  let reservationId ← Prog.lift
    (roundReservationId record.toSessionFields reservationId headSha policy.digest rescanRequest)
  let decision := plannedRound record.toSessionFields policy reservationId headSha rescanRequest flags
  if !policy.mode.operator || !decision.admits || !decision.countAsCompletedRound then
    return ⟨record, decision, none, none⟩
  else match decision.roundKind with
    | none => Prog.raise "admitted round kind cannot be reserved"
    | some slot =>
      if record.reservationId = none ∧ record.lastCommittedReservationId = some reservationId then
        return ⟨record, decision, none, none⟩
      else do
        let reserved ← reserve identity slot reservationId record.generation headSha rescanRequest m
        return ⟨reserved, decision, some reservationId, none⟩

structure TransactionArguments where
  baseSha : String
  headSha : String
  configurationDigest : String
  evidenceDigest : String

def prepareReviewTransaction (identity : SessionIdentity) (policy : ReviewConvergencePolicy)
    (reservationId : String) (a : TransactionArguments) (rescanRequest : Option AuthorizedRescan)
    (flags : StateFlags) (m : Moment) : LedgerOp rules (PreparedSessionRound rules) :=
  if !isGitSha a.baseSha then Prog.raise "review transaction base_sha is invalid"
  else if !isGitSha a.headSha then Prog.raise "review transaction head_sha is invalid"
  else if !isSha256 a.configurationDigest then
    Prog.raise "review transaction configuration digest is invalid"
  else if !isSha256 a.evidenceDigest then
    Prog.raise "review transaction evidence digest is invalid"
  else do
    let prepared ← prepareSessionRound identity policy reservationId (some a.headSha) rescanRequest
      flags m
    match prepared.reservationId with
    | none => return prepared
    | some held => do
      let transaction ← Prog.lift (ReviewTransaction.create identity.repository
        identity.pullRequest a.baseSha a.headSha policy.digest a.configurationDigest
        a.evidenceDigest held prepared.record.generation)
      let attached ← replace identity m (fun record =>
        attach record prepared.record.generation held transaction m)
      return ⟨attached, prepared.decision, some held, some transaction⟩

def failedAttemptId (reservationId : String) : String :=
  sha256 (reservationId ++ "|failed-attempt")

/-- Abort a held round reservation and charge the failed-attempt budget. -/
def recordSessionFailedAttempt (identity : SessionIdentity) (reservationId : String)
    (headSha : Option String) (expectedGeneration : Option Nat) (m : Moment) :
    LedgerOp rules (SessionRecord rules) := do
  let record ← match load (← Prog.get) identity m with
    | .ok record => pure record
    | _ => initializeEntry identity m
  if expectedGeneration.any (fun g =>
      record.generation != g || record.reservationId != some reservationId) then
    Prog.raise "failed-attempt cleanup ownership or generation mismatch"
  else do
    let record ←
      if record.reservationId = some reservationId then
        abort identity reservationId record.generation m
      else pure record
    let failId := failedAttemptId reservationId
    let reserved ← reserve identity .failedAttempt failId record.generation headSha none m
    commit identity failId reserved.generation m

/-- The whitespace `str.strip` removes. -/
def isPythonSpace (c : Char) : Bool :=
  let n := c.toNat
  (0x09 ≤ n && n ≤ 0x0d) || (0x1c ≤ n && n ≤ 0x20) || n == 0x85 || n == 0xa0 || n == 0x1680 ||
    (0x2000 ≤ n && n ≤ 0x200a) || n == 0x2028 || n == 0x2029 || n == 0x202f || n == 0x205f ||
    n == 0x3000

def stripBy (p : Char → Bool) (cs : List Char) : List Char :=
  ((cs.dropWhile p).reverse.dropWhile p).reverse

def strip (s : String) : String := String.ofList (stripBy isPythonSpace s.toList)

def takeText (n : Nat) (s : String) : String := String.ofList (s.toList.take n)

/-- The newest grants that are kept beside one more. -/
def priorGrants (record : SessionFields) : List ContinuationGrant :=
  record.continuationGrants.drop
    (record.continuationGrants.length - (maxStoredContinuationGrants - 1))

/-- The arguments of `transition_irrecoverable_transaction`. -/
structure TransitionArguments where
  actor : String
  headSha : Option String
  policyDigest : Option String
  commandId : Option String

def transitionCommandId (a : TransitionArguments) (transactionId : String) : String :=
  match textOr a.commandId none with
  | none => "irrecoverable-tx:" ++ takeText 32 transactionId
  | some command => takeText 64
      ("irrecoverable-tx:" ++ takeText 20 command ++ ":" ++ takeText 24 transactionId)

/-- The mutation of `transition_irrecoverable_transaction`, with its `applied`. -/
def transitionMutation (record : SessionRecord rules) (a : TransitionArguments) (m : Moment) :
    Except String (SessionRecord rules × Bool) :=
  match record.transaction with
  | none =>
    match hasUnconsumedIrrecoverableTransactionGrant record.toSessionFields
      (textOr a.headSha record.failedAttemptsHeadSha) a.policyDigest with
    | some _ => .ok (record, false)
    | none => .error "session has no committed transaction awaiting publication recovery"
  | some tx =>
    if tx.phase ≠ .publicationPending ∧ tx.phase ≠ .publicationFailed then
      .error ("transaction in phase '" ++ tx.phase.text ++
        "' is not eligible for irrecoverable transition")
    else if a.headSha ≠ none ∧ a.headSha ≠ some tx.headSha then
      .error "irrecoverable transaction head does not match current head"
    else do
      let generation ← nextGeneration record.toSessionFields
      let baseFailed :=
        if record.failedAttemptsHeadSha ≠ none ∧ record.failedAttemptsHeadSha ≠ some tx.headSha then 0
        else record.failedAttempts
      let grant : ContinuationGrant :=
        { commandId := some (transitionCommandId a tx.transactionId)
          actor := some (strip a.actor)
          headSha := some tx.headSha
          policyDigest := textOr a.policyDigest (some tx.policyDigest)
          issuedAt := some (formatDatetime (awareNow m))
          expiresAt := some record.expiresAt
          consumedReservationId := some tx.reservationId
          consumedGeneration := some generation }
      let updated ← record.evolve
        { generation := some generation
          reservationId := some none
          reservedSlot := some none
          reservationOwner := some none
          lastCommittedReservationId := some (some (retiredMarker tx.reservationId))
          failedAttempts := some (min (baseFailed + 1) maxFailedAttempts)
          failedAttemptsHeadSha := some tx.headSha
          transaction := some none
          operatorPaused := some false
          continuationGrants := some (priorGrants record.toSessionFields ++ [grant]) } m
      .ok (updated, true)

/-- Retire an irrecoverable committed transaction and authorize one successor. -/
def transitionIrrecoverableTransaction (identity : SessionIdentity) (a : TransitionArguments)
    (m : Moment) : LedgerOp rules (SessionRecord rules × Bool) :=
  if (strip a.actor).isEmpty then
    Prog.raise "irrecoverable transaction transition requires an actor"
  else replaceReporting identity m (fun record => transitionMutation record a m)

/-- The arguments of `grant_successor_continuation`. -/
structure GrantArguments where
  actor : String
  actorRole : Option String
  headSha : Option String
  policyDigest : Option String
  commandId : Option String
  expectedGeneration : Option Nat

def isTokenChar (c : Char) : Bool :=
  isAsciiAlnum c.toNat || c == '.' || c == '_' || c == ':' || c == '-'

/-- `re.sub("[^A-Za-z0-9._:-]+", "-", text)`: each run of other characters becomes one dash. -/
def dashRuns : List Char → List Char
  | [] => []
  | c :: cs =>
    if isTokenChar c then c :: dashRuns cs
    else match cs with
      | c' :: _ => if isTokenChar c' then '-' :: dashRuns cs else dashRuns cs
      | [] => ['-']

def safeToken (raw : String) : String :=
  let token := stripBy (· == '-') (dashRuns raw.toList)
  if token.isEmpty then "grant" else String.ofList token

def successorCommandId (generation : Nat) (commandId : Option String) (targetHead : String) :
    String :=
  takeText 128 ("successor:" ++ toString generation ++ ":" ++
    safeToken (strip ((textOr commandId (some (takeText 16 targetHead))).getD "")))

/-- A grant that is already there: only a pause is lifted. -/
def keepSuccessor (record : SessionRecord rules) (existing : ContinuationGrant)
    (expectedGeneration : Option Nat) (m : Moment) : Except String (SessionRecord rules × Bool) :=
  if expectedGeneration.any (fun g => record.generation != g &&
      !startsWith ("successor:" ++ toString g ++ ":") (existing.commandId.getD "")) then
    .error "successor continuation grant generation does not match"
  else if record.operatorPaused then do
    let generation ← nextGeneration record.toSessionFields
    let updated ← record.evolve { generation := some generation, operatorPaused := some false } m
    .ok (updated, true)
  else .ok (record, false)

/-- A new grant for a head whose budget is spent and whose ceiling is not reached. -/
def issueSuccessor (record : SessionRecord rules) (a : GrantArguments) (targetHead policyDigest : String)
    (m : Moment) : Except String (SessionRecord rules × Bool) :=
  if a.expectedGeneration.any (fun g => record.generation != g) then
    .error "successor continuation grant generation does not match"
  else if failedAttemptsForHead record.toSessionFields (some targetHead) < defaultMaxFailedAttempts then
    .error "failed-attempt allowance is not exhausted; successor grant is not needed"
  else if maxFailedAttempts ≤ failedAttemptsForHead record.toSessionFields (some targetHead) then
    .error "hard failed-attempt ceiling is reached; push a new head to continue"
  else do
    let grant : ContinuationGrant :=
      { commandId := some (successorCommandId record.generation a.commandId targetHead)
        actor := some (strip a.actor)
        headSha := some targetHead
        policyDigest := some policyDigest
        issuedAt := some (formatDatetime (awareNow m))
        expiresAt := some record.expiresAt
        consumedReservationId := none
        consumedGeneration := none }
    let generation ← nextGeneration record.toSessionFields
    let updated ← record.evolve
      { generation := some generation
        operatorPaused := some false
        continuationGrants := some (priorGrants record.toSessionFields ++ [grant]) } m
    .ok (updated, true)

/-- The mutation of `grant_successor_continuation`, with its `applied`. -/
def grantMutation (record : SessionRecord rules) (a : GrantArguments) (m : Moment) :
    Except String (SessionRecord rules × Bool) :=
  if record.reservationId ≠ none then
    .error "cannot grant successor continuation while a session reservation is held"
  else if record.transaction.any (fun t => t.phase == .analysis || t.phase == .publicationPending ||
      t.phase == .publicationFailed) then
    .error ("cannot grant successor continuation while transaction is in phase '" ++
      ((record.transaction.map (fun t => t.phase.text)).getD "") ++ "'")
  else match textOr a.headSha (textOr record.failedAttemptsHeadSha
      (record.transaction.map ReviewTransaction.headSha)) with
    | none => .error "successor continuation grant requires a valid 40-char hex head SHA"
    | some targetHead =>
      if !isGitSha targetHead then
        .error "successor continuation grant requires a valid 40-char hex head SHA"
      else if record.failedAttemptsHeadSha ≠ none ∧
          record.failedAttemptsHeadSha ≠ some targetHead then
        .error "successor continuation grant head does not match failed-attempt head"
      else
        let policyDigest := (textOr a.policyDigest (textOr
          (record.transaction.map ReviewTransaction.policyDigest)
          (some ReviewConvergencePolicy.default.digest))).getD ""
        if !isSha256 policyDigest then
          .error "successor continuation grant requires a valid 64-char hex policy digest"
        else match hasUnconsumedSuccessorGrant record.toSessionFields (some targetHead)
            (some policyDigest) with
          | some existing => keepSuccessor record existing a.expectedGeneration m
          | none => issueSuccessor record a targetHead policyDigest m

/-- Issue an explicit, bounded, idempotent successor continuation grant. -/
def grantSuccessorContinuation (identity : SessionIdentity) (a : GrantArguments) (m : Moment) :
    LedgerOp rules (SessionRecord rules × Bool) :=
  if (strip a.actor).isEmpty then
    Prog.raise "successor continuation grant requires an actor"
  else if a.actorRole ∉ [some "maintain", some "admin", some "OWNER", some "MEMBER"] then
    Prog.raise "successor continuation grant requires maintain or admin permission"
  else replaceReporting identity m (fun record => grantMutation record a m)

/-- Rules that accept every document; the digest of a record is one of its generation. -/
def sampleRules : SessionRules where
  recordSha256 f := sha256 ("record:" ++ toString f.generation)
  rejects _ := none
  readSessionBaseline _ := .ok none

def sampleIdentity : SessionIdentity := ⟨"octo/demo", 7, none⟩

def sampleMoment : Moment := ⟨some 1800000000000000, 1800000000000000⟩

/-- A digest or a commit made of one repeated digit. -/
def repeated (n : Nat) (c : Char) : String := String.ofList (List.replicate n c)

def sampleTransaction : TransactionArguments where
  baseSha := repeated 40 'b'
  headSha := repeated 40 'a'
  configurationDigest := repeated 64 'c'
  evidenceDigest := repeated 64 'e'

/-- A round of the sample transaction under the caller's id. -/
def sampleRound (reservationId : String) : LedgerOp sampleRules (PreparedSessionRound sampleRules) :=
  prepareReviewTransaction sampleIdentity .default reservationId sampleTransaction none {}
    sampleMoment

end ReviewSensei.Session
