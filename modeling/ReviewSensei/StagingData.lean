import ReviewSensei.JsonSchema
import ReviewSensei.SessionSteps

/-! The durable frontier of a publication: which effects were attempted and which are settled. -/
namespace ReviewSensei.Staging
open Session (isSha256 isHexText isAsciiAlnum)
open Sha256 (encode)

def maxPublicationParts : Nat := 8
def maxStagingBytes : Nat := 4096
def stagingVersion : String := "publication-staging-v2"

/-- `[a-f0-9]{32}`. -/
def isClaim : String → Bool := isHexText 32 32

/-- `[A-Za-z0-9_:.=-]{1,64}`, by its bytes. -/
def isNativeId (s : String) : Bool :=
  let bytes := encode s
  decide (1 ≤ bytes.length) && decide (bytes.length ≤ 64) &&
    bytes.all (fun b => isAsciiAlnum b || [0x5f, 0x3a, 0x2e, 0x3d, 0x2d].contains b)

structure PublicationReceipt where
  nativeId : String
  contentSha256 : String
  accepted : (isNativeId nativeId && isSha256 contentSha256) = true
  deriving DecidableEq

namespace PublicationReceipt

def make (nativeId contentSha256 : String) : Except String PublicationReceipt :=
  if h : (isNativeId nativeId && isSha256 contentSha256) = true then
    .ok ⟨nativeId, contentSha256, h⟩
  else .error "publication receipt is invalid"

@[simp] theorem make_self (r : PublicationReceipt) :
    make r.nativeId r.contentSha256 = .ok r := by
  unfold make
  rw [dif_pos r.accepted]

def toDocument (r : PublicationReceipt) : Json :=
  .obj [("native_id", .str r.nativeId), ("content_sha256", .str r.contentSha256)]

end PublicationReceipt

/-- The keys of a mapping are these, in any order. -/
def hasFields (names : List String) (fields : List (String × Json)) : Bool :=
  fields.all (fun f => names.contains f.1) &&
    names.all (fun name => (fields.map Prod.fst).contains name)

def receiptFields : List String := ["native_id", "content_sha256"]

def PublicationReceipt.fromDocument : Json → Except String PublicationReceipt
  | .obj fields =>
    if hasFields receiptFields fields then
      match Json.field? fields "native_id", Json.field? fields "content_sha256" with
      | some (.str nativeId), some (.str contentSha256) => make nativeId contentSha256
      | _, _ => .error "publication receipt is invalid"
    else .error "publication receipt has an unsupported shape"
  | _ => .error "publication receipt has an unsupported shape"

/-- The fields of a frontier before their checks. -/
structure StagingFields where
  transactionId : String
  resultSha256 : String
  planSha256 : String
  partCount : Nat
  attemptedParts : Nat := 0
  attemptTokens : List String := []
  receipts : List PublicationReceipt := []
  finalAttempted : Bool := false
  finalToken : Option String := none
  finalReceipt : Option PublicationReceipt := none
  manifestRequired : Bool := false
  manifestAttempted : Bool := false
  manifestToken : Option String := none
  manifestReceipt : Option PublicationReceipt := none
  deriving DecidableEq

namespace StagingFields

/-- What `__post_init__` requires of the fields together. -/
structure Frontier (f : StagingFields) : Prop where
  digests : isSha256 f.transactionId = true ∧ isSha256 f.resultSha256 = true ∧
    isSha256 f.planSha256 = true
  parts : f.partCount ≤ maxPublicationParts
  attempted : f.attemptedParts ≤ f.partCount
  tokens : f.attemptTokens.length = f.attemptedParts
  claims : ∀ t ∈ f.attemptTokens, isClaim t = true
  distinct : f.attemptTokens.Nodup
  settled : f.attemptedParts ≤ f.receipts.length + 1 ∧ f.receipts.length ≤ f.attemptedParts
  finalToken : f.finalAttempted = f.finalToken.isSome
  finalClaim : ∀ t ∈ f.finalToken, isClaim t = true ∧ t ∉ f.attemptTokens
  finalLast : f.finalAttempted = true → f.receipts.length = f.partCount
  finalReceipt : f.finalReceipt.isSome = true → f.finalAttempted = true
  manifestToken : f.manifestAttempted = f.manifestToken.isSome
  manifestLast : f.manifestAttempted = true →
    f.manifestRequired = true ∧ f.receipts.length = f.partCount
  manifestClaim : ∀ t ∈ f.manifestToken,
    isClaim t = true ∧ t ∉ f.attemptTokens ∧ f.finalToken ≠ some t
  manifestReceipt : f.manifestReceipt.isSome = true → f.manifestAttempted = true
  manifestFirst : f.finalAttempted = true → f.manifestRequired = true →
    f.manifestReceipt.isSome = true

theorem frontier_iff (f : StagingFields) : f.Frontier ↔
    ((isSha256 f.transactionId = true ∧ isSha256 f.resultSha256 = true ∧
        isSha256 f.planSha256 = true) ∧
      f.partCount ≤ maxPublicationParts ∧ f.attemptedParts ≤ f.partCount ∧
      f.attemptTokens.length = f.attemptedParts ∧ (∀ t ∈ f.attemptTokens, isClaim t = true) ∧
      f.attemptTokens.Nodup ∧
      (f.attemptedParts ≤ f.receipts.length + 1 ∧ f.receipts.length ≤ f.attemptedParts)) ∧
    (f.finalAttempted = f.finalToken.isSome ∧
      (∀ t ∈ f.finalToken, isClaim t = true ∧ t ∉ f.attemptTokens) ∧
      (f.finalAttempted = true → f.receipts.length = f.partCount) ∧
      (f.finalReceipt.isSome = true → f.finalAttempted = true)) ∧
    f.manifestAttempted = f.manifestToken.isSome ∧
      (f.manifestAttempted = true → f.manifestRequired = true ∧ f.receipts.length = f.partCount) ∧
      (∀ t ∈ f.manifestToken, isClaim t = true ∧ t ∉ f.attemptTokens ∧ f.finalToken ≠ some t) ∧
      (f.manifestReceipt.isSome = true → f.manifestAttempted = true) ∧
      (f.finalAttempted = true → f.manifestRequired = true → f.manifestReceipt.isSome = true) := by
  constructor
  · rintro ⟨h1, h2, h3, h4, h5, h6, h7, h8, h9, h10, h11, h12, h13, h14, h15, h16⟩
    exact ⟨⟨h1, h2, h3, h4, h5, h6, h7⟩, ⟨h8, h9, h10, h11⟩, h12, h13, h14, h15, h16⟩
  · rintro ⟨⟨h1, h2, h3, h4, h5, h6, h7⟩, ⟨h8, h9, h10, h11⟩, h12, h13, h14, h15, h16⟩
    exact ⟨h1, h2, h3, h4, h5, h6, h7, h8, h9, h10, h11, h12, h13, h14, h15, h16⟩

instance (f : StagingFields) : Decidable f.Frontier := decidable_of_iff _ f.frontier_iff.symm

/-- The native identities of what is settled: the parts, then the final frame and the manifest. -/
def nativeIds (f : StagingFields) : List String :=
  (f.receipts ++ f.finalReceipt.toList ++ f.manifestReceipt.toList).map
    PublicationReceipt.nativeId

def tokenJson : Option String → Json
  | none => .null
  | some token => .str token

def receiptJson : Option PublicationReceipt → Json
  | none => .null
  | some r => r.toDocument

def documentFields (f : StagingFields) : List (String × Json) :=
  [("schema_version", .str stagingVersion), ("transaction_id", .str f.transactionId),
    ("result_sha256", .str f.resultSha256), ("plan_sha256", .str f.planSha256),
    ("part_count", .int f.partCount), ("attempted_parts", .int f.attemptedParts),
    ("attempt_tokens", .arr (f.attemptTokens.map .str)),
    ("receipts", .arr (f.receipts.map PublicationReceipt.toDocument)),
    ("final_attempted", .bool f.finalAttempted), ("final_token", tokenJson f.finalToken),
    ("final_receipt", receiptJson f.finalReceipt),
    ("manifest_required", .bool f.manifestRequired),
    ("manifest_attempted", .bool f.manifestAttempted),
    ("manifest_token", tokenJson f.manifestToken),
    ("manifest_receipt", receiptJson f.manifestReceipt)]

def toDocument (f : StagingFields) : Json := .obj f.documentFields

/-- `__post_init__`. -/
def check (f : StagingFields) : Except String Unit :=
  if ¬ f.Frontier then .error "publication staging frontier is invalid"
  else if ¬ f.nativeIds.Nodup then .error "publication staging reuses a native identity"
  else if maxStagingBytes < f.toDocument.canonicalSize then
    .error "publication staging exceeds its reserved capacity"
  else .ok ()

theorem check_ok {f : StagingFields} (h : f.check = .ok ()) : f.Frontier ∧ f.nativeIds.Nodup := by
  unfold check at h
  split at h
  · cases h
  next hfrontier =>
  split at h
  · cases h
  next hids => exact ⟨not_not.mp hfrontier, not_not.mp hids⟩

theorem check_plain {f : StagingFields} (hfrontier : f.Frontier) (hids : f.nativeIds.Nodup)
    (hplain : Json.allPlain f.toDocument = true)
    (hsize : Json.plainSize f.toDocument ≤ maxStagingBytes) : f.check = .ok () := by
  have hcanonical := Json.canonicalSize_plain hplain
  unfold check
  rw [if_neg (not_not.mpr hfrontier), if_neg (not_not.mpr hids), if_neg (by omega)]

end StagingFields

/-- A frontier that has passed its checks. -/
structure PublicationStaging extends StagingFields where
  accepted : toStagingFields.check = .ok ()
  deriving DecidableEq

namespace PublicationStaging

def make (f : StagingFields) : Except String PublicationStaging :=
  match h : f.check with
  | .ok () => .ok ⟨f, h⟩
  | .error e => .error e

variable {s s' : PublicationStaging} {f : StagingFields}

theorem make_ok (h : make f = .ok s) : s.toStagingFields = f := by
  unfold make at h
  split at h
  · obtain rfl := Except.ok.inj h
    rfl
  · cases h

theorem make_of_fields (h : f = s.toStagingFields) : make f = .ok s := by
  subst h
  unfold make
  split
  · rfl
  · next e he => exact absurd (he.symm.trans s.accepted) (by simp)

theorem frontier (s : PublicationStaging) : s.toStagingFields.Frontier :=
  (StagingFields.check_ok s.accepted).1

def prepare (transactionId resultSha256 planSha256 : String) (partCount : Nat)
    (manifestRequired : Bool) : Except String PublicationStaging :=
  make {
    transactionId := transactionId
    resultSha256 := resultSha256
    planSha256 := planSha256
    partCount := partCount
    manifestRequired := manifestRequired }

def outstandingPart (s : PublicationStaging) : Option Nat :=
  if s.receipts.length < s.attemptedParts then some s.receipts.length else none

def complete (s : PublicationStaging) : Bool := s.finalReceipt.isSome

/-- The token is drawn before the call; a drawn one and a given one are treated alike. -/
def attemptPart (s : PublicationStaging) (ordinal : Nat) (token : String) :
    Except String PublicationStaging :=
  if ordinal ≠ s.attemptedParts ∨ s.partCount ≤ ordinal ∨ s.outstandingPart ≠ none ∨
      s.finalAttempted = true ∨ s.manifestAttempted = true then
    .error "publication part is already attempted or out of order"
  else
    make { s.toStagingFields with
      attemptedParts := s.attemptedParts + 1
      attemptTokens := s.attemptTokens ++ [token] }

/-- A part's receipt: a stored one stands, a new one is stored for the outstanding part. -/
def storePart (s : PublicationStaging) (ordinal : Nat) (receipt : PublicationReceipt) :
    Except String PublicationStaging :=
  if s.attemptedParts ≤ ordinal then .error "publication part was not attempted"
  else
    match s.receipts[ordinal]? with
    | some stored =>
      if stored ≠ receipt then
        .error "publication receipt conflicts with its immutable settlement"
      else .ok s
    | none => make { s.toStagingFields with receipts := s.receipts ++ [receipt] }

def confirmPart (s : PublicationStaging) (ordinal : Nat) (nativeId contentSha256 : String) :
    Except String PublicationStaging := do
  let receipt ← PublicationReceipt.make nativeId contentSha256
  s.storePart ordinal receipt

def attemptManifest (s : PublicationStaging) (token : String) :
    Except String PublicationStaging :=
  if s.manifestRequired = false ∨ s.manifestAttempted = true ∨ s.finalAttempted = true ∨
      s.receipts.length ≠ s.partCount then
    .error "publication manifest cannot be attempted at this frontier"
  else
    make { s.toStagingFields with
      manifestAttempted := true
      manifestToken := some token }

def storeManifest (s : PublicationStaging) (receipt : PublicationReceipt) :
    Except String PublicationStaging :=
  if s.manifestAttempted = false then .error "publication manifest was not attempted"
  else
    match s.manifestReceipt with
    | some stored =>
      if stored ≠ receipt then .error "publication manifest receipt conflicts" else .ok s
    | none => make { s.toStagingFields with manifestReceipt := some receipt }

def confirmManifest (s : PublicationStaging) (nativeId contentSha256 : String) :
    Except String PublicationStaging := do
  let receipt ← PublicationReceipt.make nativeId contentSha256
  s.storeManifest receipt

def attemptFinal (s : PublicationStaging) (token : String) : Except String PublicationStaging :=
  if s.finalAttempted = true ∨ s.receipts.length ≠ s.partCount ∨
      (s.manifestRequired = true ∧ s.manifestReceipt = none) then
    .error "publication final frame is already attempted or parts are unconfirmed"
  else
    make { s.toStagingFields with
      finalAttempted := true
      finalToken := some token }

def storeFinal (s : PublicationStaging) (receipt : PublicationReceipt) :
    Except String PublicationStaging :=
  if s.finalAttempted = false then .error "publication final frame was not attempted"
  else
    match s.finalReceipt with
    | some stored =>
      if stored ≠ receipt then .error "publication final receipt conflicts" else .ok s
    | none => make { s.toStagingFields with finalReceipt := some receipt }

def confirmFinal (s : PublicationStaging) (nativeId contentSha256 : String) :
    Except String PublicationStaging := do
  let receipt ← PublicationReceipt.make nativeId contentSha256
  s.storeFinal receipt

end PublicationStaging

section Document

def readText : Option Json → Option String
  | some (.str s) => some s
  | _ => none

def readCount : Option Json → Option Nat
  | some (.int (.ofNat n)) => some n
  | _ => none

def readFlag : Option Json → Option Bool
  | some (.bool b) => some b
  | _ => none

def readToken : Option Json → Option (Option String)
  | some .null => some none
  | some (.str s) => some (some s)
  | _ => none

def readReceipt : Option Json → Except String (Option PublicationReceipt)
  | none => .ok none
  | some .null => .ok none
  | some j => (PublicationReceipt.fromDocument j).map some

/-- The fields of a document with the types the constructor asks for. -/
def typedFields (fields : List (String × Json)) (tokens : List Json)
    (receipts : List PublicationReceipt) (finalReceipt manifestReceipt : Option PublicationReceipt) :
    Option StagingFields := do
  let transactionId ← readText (Json.field? fields "transaction_id")
  let resultSha256 ← readText (Json.field? fields "result_sha256")
  let planSha256 ← readText (Json.field? fields "plan_sha256")
  let partCount ← readCount (Json.field? fields "part_count")
  let attemptedParts ← readCount (Json.field? fields "attempted_parts")
  let attemptTokens ← tokens.mapM (fun j => readText (some j))
  let finalAttempted ← readFlag (Json.field? fields "final_attempted")
  let finalToken ← readToken (Json.field? fields "final_token")
  let manifestRequired ← readFlag (Json.field? fields "manifest_required")
  let manifestAttempted ← readFlag (Json.field? fields "manifest_attempted")
  let manifestToken ← readToken (Json.field? fields "manifest_token")
  return {
    transactionId, resultSha256, planSha256, partCount, attemptedParts, attemptTokens, receipts,
    finalAttempted, finalToken, finalReceipt, manifestRequired, manifestAttempted, manifestToken,
    manifestReceipt }

def stagingFields : List String :=
  ["schema_version", "transaction_id", "result_sha256", "plan_sha256", "part_count",
    "attempted_parts", "attempt_tokens", "receipts", "final_attempted", "final_token",
    "final_receipt", "manifest_required", "manifest_attempted", "manifest_token",
    "manifest_receipt"]

def unsupportedDocument : String := "publication staging document is unsupported"

def readFields (fields : List (String × Json)) (receipts tokens : List Json) :
    Except String PublicationStaging := do
  let settled ← receipts.mapM PublicationReceipt.fromDocument
  let finalReceipt ← readReceipt (Json.field? fields "final_receipt")
  let manifestReceipt ← readReceipt (Json.field? fields "manifest_receipt")
  match typedFields fields tokens settled finalReceipt manifestReceipt with
  | some f => PublicationStaging.make f
  | none => .error "publication staging frontier is invalid"

def fromFields (fields : List (String × Json)) : Except String PublicationStaging :=
  if hasFields stagingFields fields = false ∨
      Json.field? fields "schema_version" ≠ some (.str stagingVersion) then
    .error unsupportedDocument
  else
    match Json.field? fields "receipts", Json.field? fields "attempt_tokens" with
    | some (.arr receipts), some (.arr tokens) =>
      if maxPublicationParts < receipts.length then .error unsupportedDocument
      else readFields fields receipts tokens
    | _, _ => .error unsupportedDocument

def PublicationStaging.fromDocument : Json → Except String PublicationStaging
  | .obj fields => fromFields fields
  | _ => .error unsupportedDocument

theorem receipt_fromDocument (r : PublicationReceipt) :
    PublicationReceipt.fromDocument r.toDocument = .ok r := by
  have hshape : hasFields receiptFields [("native_id", .str r.nativeId),
      ("content_sha256", .str r.contentSha256)] = true := rfl
  simp [PublicationReceipt.toDocument, PublicationReceipt.fromDocument, hshape]

theorem mapM_ok_self {α β : Type} {f : β → Except String α} {g : α → β}
    (h : ∀ a, f (g a) = .ok a) (xs : List α) : (xs.map g).mapM f = .ok xs := by
  induction xs with
  | nil => rfl
  | cons x xs ih =>
    rw [List.map_cons, List.mapM_cons, h, ih]
    rfl

theorem mapM_some_self {α β : Type} {f : β → Option α} {g : α → β}
    (h : ∀ a, f (g a) = some a) (xs : List α) : (xs.map g).mapM f = some xs := by
  induction xs with
  | nil => rfl
  | cons x xs ih =>
    rw [List.map_cons, List.mapM_cons, h, ih]
    rfl

theorem readReceipt_json (r : Option PublicationReceipt) :
    readReceipt (some (StagingFields.receiptJson r)) = .ok r := by
  cases r with
  | none => rfl
  | some r =>
    have hread := receipt_fromDocument r
    change (PublicationReceipt.fromDocument r.toDocument).map some = .ok (some r)
    rw [hread]
    rfl

theorem readToken_json (t : Option String) :
    readToken (some (StagingFields.tokenJson t)) = some t := by
  cases t <;> rfl

theorem typedFields_document (f : StagingFields) :
    typedFields f.documentFields (f.attemptTokens.map .str) f.receipts f.finalReceipt
      f.manifestReceipt = some f := by
  have htokens := mapM_some_self (f := fun j => readText (some j)) (g := Json.str)
    (fun _ => rfl) f.attemptTokens
  unfold typedFields
  rw [htokens]
  simp [StagingFields.documentFields, readText, readCount, readFlag, readToken_json]

/-- A frontier is read back from its document. -/
theorem fromDocument_toDocument (s : PublicationStaging) :
    PublicationStaging.fromDocument s.toDocument = .ok s := by
  have hcount : s.receipts.length ≤ maxPublicationParts :=
    (s.frontier.settled.2.trans s.frontier.attempted).trans s.frontier.parts
  have hshape : hasFields stagingFields s.documentFields = true := rfl
  have hversion : Json.field? s.documentFields "schema_version" = some (.str stagingVersion) := rfl
  have hfields : readFields s.documentFields (s.receipts.map PublicationReceipt.toDocument)
      (s.attemptTokens.map .str) = .ok s := by
    have hfinal : Json.field? s.documentFields "final_receipt" =
        some (StagingFields.receiptJson s.finalReceipt) := rfl
    have hmanifest : Json.field? s.documentFields "manifest_receipt" =
        some (StagingFields.receiptJson s.manifestReceipt) := rfl
    simp only [readFields, mapM_ok_self receipt_fromDocument, hfinal, hmanifest,
      readReceipt_json, bind, Except.bind]
    rw [typedFields_document s.toStagingFields]
    exact PublicationStaging.make_of_fields rfl
  change fromFields s.documentFields = .ok s
  unfold fromFields
  rw [if_neg (by simp [hshape, hversion])]
  change (if maxPublicationParts < (s.receipts.map PublicationReceipt.toDocument).length then _
    else readFields _ _ _) = _
  rw [if_neg (by simpa using hcount)]
  exact hfields

end Document

/-- What an operation makes of a value that `after` may hold. -/
def offer {α : Type} (value : Option α) (op : α → Except String PublicationStaging) :
    Except String (List PublicationStaging) :=
  match value with
  | none => .ok []
  | some a => (op a).map (fun s => [s])

/-- The value counts only under the guard. -/
def guarded {α : Type} (guard : Prop) [Decidable guard] (value : Option α) : Option α :=
  if guard then value else none

section Successor
variable (s after : PublicationStaging)

def partCandidate : Except String (List PublicationStaging) :=
  offer (guarded (s.outstandingPart = none ∧ s.finalAttempted = false ∧
      s.manifestAttempted = false ∧ s.attemptedParts < s.partCount ∧
      after.attemptTokens.length = s.attemptedParts + 1) after.attemptTokens.getLast?)
    (fun token => s.attemptPart s.attemptedParts token)

def receiptCandidate : Except String (List PublicationStaging) :=
  match s.outstandingPart with
  | none => .ok []
  | some ordinal =>
    offer (guarded (after.receipts.length = s.receipts.length + 1) after.receipts.getLast?)
      (fun r => s.confirmPart ordinal r.nativeId r.contentSha256)

def manifestCandidate : Except String (List PublicationStaging) :=
  offer (guarded (s.manifestRequired = true ∧ s.manifestAttempted = false ∧
      s.receipts.length = s.partCount) after.manifestToken)
    s.attemptManifest

def manifestReceiptCandidate : Except String (List PublicationStaging) :=
  offer (guarded (s.manifestAttempted = true ∧ s.manifestReceipt = none) after.manifestReceipt)
    (fun r => s.confirmManifest r.nativeId r.contentSha256)

def finalCandidate : Except String (List PublicationStaging) :=
  offer (guarded (s.receipts.length = s.partCount ∧ s.finalAttempted = false ∧
      (s.manifestRequired = false ∨ s.manifestReceipt ≠ none)) after.finalToken)
    s.attemptFinal

def finalReceiptCandidate : Except String (List PublicationStaging) :=
  offer (guarded (s.finalAttempted = true ∧ s.finalReceipt = none) after.finalReceipt)
    (fun r => s.confirmFinal r.nativeId r.contentSha256)

/-- The candidates that cross one frontier. -/
def singleCandidates : Except String (List PublicationStaging) := do
  let part ← partCandidate s after
  let receipt ← receiptCandidate s after
  let manifest ← manifestCandidate s after
  let manifestReceipt ← manifestReceiptCandidate s after
  let final ← finalCandidate s after
  let finalReceipt ← finalReceiptCandidate s after
  return part ++ receipt ++ manifest ++ manifestReceipt ++ final ++ finalReceipt

/-- A settlement may share one step with the next claim. -/
def settleAndClaim (confirmed : PublicationStaging) : Except String (List PublicationStaging) :=
  if s.receipts.length < confirmed.receipts.length then
    if confirmed.attemptedParts < confirmed.partCount then
      offer (guarded (after.attemptTokens.length = confirmed.attemptedParts + 1)
        after.attemptTokens.getLast?)
        (fun token => confirmed.attemptPart confirmed.attemptedParts token)
    else if confirmed.manifestRequired then offer after.manifestToken confirmed.attemptManifest
    else offer after.finalToken confirmed.attemptFinal
  else if confirmed.manifestReceipt ≠ none ∧ s.manifestReceipt = none then
    offer after.finalToken confirmed.attemptFinal
  else .ok []

def combinedCandidates (settled : List PublicationStaging) :
    Except String (List PublicationStaging) := do
  let claims ← settled.mapM (settleAndClaim s after)
  return claims.flatten

/-- `require_successor`. -/
def requireSuccessor : Except String Unit :=
  if s = after then .ok ()
  else do
    let settled ← singleCandidates s after
    let combined ← combinedCandidates s after settled
    if after ∈ settled ++ combined then .ok ()
    else .error "publication staging changed its plan, receipt, or durable frontier"

end Successor

/-- The first claim of a prepared frontier. -/
def openingClaim (prepared new : PublicationStaging) : Except String (List PublicationStaging) :=
  if prepared.partCount ≠ 0 then
    offer new.attemptTokens.head? (fun token => prepared.attemptPart 0 token)
  else offer new.manifestToken prepared.attemptManifest

/-- What a frontier may begin with: no attempt, or the first claim. -/
def openingCandidates (new : PublicationStaging) : Except String (List PublicationStaging) := do
  let prepared ← PublicationStaging.prepare new.transactionId new.resultSha256 new.planSha256
    new.partCount new.manifestRequired
  let claimed ← openingClaim prepared new
  return prepared :: claimed

/-- A new frontier may take the place of this one. -/
def replaceable (old : Option PublicationStaging) (transactionId : String) : Bool :=
  old.all (fun o => o.complete && decide (o.transactionId ≠ transactionId))

def requireOpening (new : PublicationStaging) : Except String Unit := do
  let candidates ← openingCandidates new
  if new ∈ candidates then .ok ()
  else .error "publication staging must begin before its first attempt"

/-- `require_staging_successor` of two frontiers that have been read. -/
def requireStaging (old new : Option PublicationStaging) : Except String Unit :=
  if old = new then .ok ()
  else
    match old, new with
    | _, none => .error "publication staging cannot be silently discarded"
    | none, some n => requireOpening n
    | some o, some n =>
      if replaceable (some o) n.transactionId then requireOpening n else requireSuccessor o n

end ReviewSensei.Staging
