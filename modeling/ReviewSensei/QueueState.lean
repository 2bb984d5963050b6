import ReviewSensei.FactoredRuns
import ReviewSensei.EvidenceSizes

/-! The carrier of a queue: its journal in a compressed document, with the identities of a retained
inventory written as their places in it. Documents are kept with their keys in order. -/
namespace ReviewSensei.Json

/-- `value[name] = item`, of a key that the object has. -/
def setField : Json → String → Json → Json
  | obj fields, name, item => obj (fields.map (fun f => if f.1 = name then (f.1, item) else f))
  | j, _, _ => j

end ReviewSensei.Json

namespace ReviewSensei.Assessment
open Evidence (Codec digest base64 decodeEvidence)

section Envelope

def envelopeKeys : List String := ["journal", "kind", "schema_version"]
def queueStateKind : String := "assessment-queue-state"

/-- The journal of an envelope, by the version that it names. -/
def checkJournal (journal : Json) : Except String Unit :=
  if journal.get? "schema_version" = some (.str queueInterfaceVersion) then do
    let _ ← Journal.fromDocument .assessment journal
    pure ()
  else do
    let _ ← Journal.fromDocument .factored journal
    pure ()

def readEnvelope (value : Json) : Except String Json :=
  match value.record? envelopeKeys with
  | some [journal, kind, version] => do
    ensure (version = .str "1.0" ∧ kind = .str queueStateKind ∧
      value.canonicalSize ≤ maxOperationReceiptBytes) "assessment queue carrier is invalid"
    checkJournal journal
    pure value
  | _ => .error "assessment queue carrier is invalid"

/-- `_queue_state_envelope`. -/
def queueStateEnvelope (envelope : Json) : Except String Json := readEnvelope envelope.sortKeys

def journalOf (document : Json) : Json := (document.get? "journal").getD .null

def isFactored (journal : Json) : Bool :=
  decide (journal.get? "schema_version" = some (.str factoredJournalInterfaceVersion))

end Envelope

section Reference

def referenceKeys : List String := ["inventory_digest", "inventory_ids_sha256", "snapshot"]

/-- `_queue_reference`. The identities are plain, so both ways of writing JSON agree on them. -/
def queueReference (q : HeldQueue) : Json :=
  .obj (referenceKeys.zip [.str q.inventoryDigest, .str (digest (texts q.inventoryIds)),
    q.snapshot.toDict])

/-- The lists of a queue whose items are identities of its inventory. -/
def referencedNames : List String := ["inventory_ids", "pending_order", "resolved_ids"]

def arrayOf (message : String) : Option Json → Except String (List Json)
  | some (.arr items) => .ok items
  | _ => .error message

variable (ids : List String)

/-- `indexes[item]`. -/
def indexed : Json → Except String Json
  | .str s => if s ∈ ids then .ok (.int (ids.idxOf s)) else .error "KeyError"
  | _ => .error "KeyError"

/-- An item of the string table: an identity of the inventory becomes a reference. -/
def referenced : Json → Json
  | .str s => if s ∈ ids then .obj [("inventory_id", .int (ids.idxOf s))] else .str s
  | item => item

def indexArrays : List String → Json → Except String Json
  | [], state => pure state
  | name :: names, state => do
    let items ← arrayOf "KeyError" (state.get? name)
    let items ← items.mapM (indexed ids)
    indexArrays names (state.setField name (.arr items))

/-- The envelope whose journal refers to the identities by their places. -/
def referencedEnvelope (document : Json) : Except String Json := do
  let journal := journalOf document
  let state ← indexArrays ids referencedNames ((journal.get? "queue").getD .null)
  let strings ← arrayOf "KeyError" (journal.get? "strings")
  let journal := (journal.setField "queue" state).setField "strings"
    (.arr (strings.map (referenced ids)))
  pure (document.setField "journal" journal)

end Reference

section Expansion
variable (ids : List String) (bound : Int)

/-- `identity` of `_expand_queue_reference`: the size of what was reconstructed so far moves from
the reference to the identity. -/
def identity (index written : Json) (size : Int) : Except String (String × Int) :=
  match index with
  | .int i =>
    match reference ids i with
    | some value =>
      if size + ((Json.str value).canonicalSize - written.canonicalSize) ≤ bound then
        .ok (value, size + ((Json.str value).canonicalSize - written.canonicalSize))
      else .error "reconstructed queue reference exceeds bound"
    | none => .error "queue reference index is invalid"
  | _ => .error "queue reference index is invalid"

def expandIndexes : List Json → Int → Except String (List Json × Int)
  | [], size => pure ([], size)
  | index :: indexes, size => do
    let (value, size) ← identity ids bound index index size
    let (values, size) ← expandIndexes indexes size
    pure (.str value :: values, size)

def expandArrays : List String → Json → Int → Except String (Json × Int)
  | [], state, size => pure (state, size)
  | name :: names, state, size => do
    let indexes ← arrayOf "queue reference index array is invalid" (state.get? name)
    ensure (indexes.length ≤ maxQueueFindings) "queue reference index array is invalid"
    let (values, size) ← expandIndexes ids bound indexes size
    expandArrays names (state.setField name (.arr values)) size

def expandString (item : Json) (size : Int) : Except String (String × Int) :=
  match item with
  | .str s => .ok (s, size)
  | .obj [(key, index)] =>
    if key = "inventory_id" then identity ids bound index item size
    else .error "queue reference string is invalid"
  | _ => .error "queue reference string is invalid"

def expandStrings : List Json → Int → Except String (List Json × Int)
  | [], size => pure ([], size)
  | item :: items, size => do
    let (value, size) ← expandString ids bound item size
    let (values, size) ← expandStrings items size
    pure (.str value :: values, size)

def referencedState (journal : Json) : Option (Json × List Json) :=
  match journal.get? "queue", journal.get? "strings" with
  | some (.obj state), some (.arr strings) =>
    if strings.length ≤ maxFactoredStrings then some (.obj state, strings) else none
  | _, _ => none

def expandState (document journal : Json) : Except String Json :=
  match referencedState journal with
  | none => .error "referenced queue fields are invalid"
  | some (state, strings) => do
    ensure ((document.canonicalSize : Int) ≤ bound) "reconstructed queue reference exceeds bound"
    let (state, size) ← expandArrays ids bound referencedNames state document.canonicalSize
    let (strings, _) ← expandStrings ids bound strings size
    let journal := (journal.setField "queue" state).setField "strings" (.arr strings)
    pure (document.setField "journal" journal)

end Expansion

/-- `_expand_queue_reference`. -/
def expandQueueReference (document : Json) (queue : HeldQueue) (maximum : Int) :
    Except String Json := do
  ensure ((document.record? envelopeKeys).isSome = true) "referenced queue envelope is invalid"
  ensure (isFactored (journalOf document) = true) "referenced queue journal is invalid"
  expandState queue.inventoryIds (min maximum maxOperationReceiptBytes) document (journalOf document)

section Carrier
variable (codec : Codec)

def encodedKeys : List String := ["data", "decoded_bytes", "encoding", "sha256"]
def evidenceEncoding : String := "zlib-json-v1"

/-- `encode_evidence`. -/
def encodeEvidence (value : Json) (maxDecoded : Nat) : Except String Json := do
  ensure (value.canonicalSize ≤ maxDecoded) "evidence exceeds the decoded byte bound"
  pure (.obj (encodedKeys.zip [.str (base64 (codec.compress value.canonical)),
    .int value.canonicalSize, .str evidenceEncoding, .str (digest value)]))

/-- `decode_evidence`. -/
def decodeDocument (value : Json) (maxEncoded maxDecoded : Nat) : Except String Json :=
  match value.record? encodedKeys with
  | some [.str data, .int size, encoding, .str sha256] => do
    ensure (encoding = .str evidenceEncoding) "encoded evidence exceeds its contract"
    decodeEvidence codec size sha256 data maxEncoded maxDecoded
  | some _ => .error "encoded evidence exceeds its contract"
  | none => .error "encoded evidence has an invalid shape"

def packedV1 : String := "assessment-queue-state-packed-v1"
def packedV2 : String := "assessment-queue-state-packed-v2"
def packedKeys : List String := ["kind", "schema_version", "state"]
def packedReferenceKeys : List String :=
  ["kind", "original_bytes", "original_sha256", "queue_reference", "schema_version", "state"]

/-- The document inside the carrier, as `pack_queue_state` writes it for a queue. -/
def carried (envelope : Json) (queue : Option HeldQueue) : Except String Json := do
  let document ← queueStateEnvelope envelope
  match queue with
  | none => pure document
  | some queue => do
    ensure (isFactored (journalOf document) = true) "queue references require factored history"
    let retained ← queueFromDocument (((journalOf document).get? "queue").getD .null)
    ensure (queueReference retained = queueReference queue) "queue reference inventory changed"
    referencedEnvelope queue.inventoryIds document

/-- The carrier around its state. -/
def packedDocument (envelope : Json) (state : Json) : Option HeldQueue → Json
  | none => .obj (packedKeys.zip [.str packedV1, .str "1.0", state])
  | some queue => .obj (packedReferenceKeys.zip [.str packedV2, .int envelope.canonicalSize,
      .str (digest envelope), queueReference queue, .str "1.0", state])

/-- `pack_queue_state`. -/
def packQueueState (envelope : Json) (queue : Option HeldQueue) : Except String Json := do
  let document ← carried envelope queue
  let state ← encodeEvidence codec document maxOperationReceiptBytes
  ensure ((packedDocument envelope state queue).canonicalSize ≤ maxOperationReceiptBytes)
    "packed assessment queue exceeds encoded bound"
  pure (packedDocument envelope state queue)

def readState (state : Json) : Except String Json :=
  decodeDocument codec state maxOperationReceiptBytes maxOperationReceiptBytes

/-- The decoded state of a carrier of the first version. -/
def unpackV1 (document : Json) : Except String Json :=
  match document.record? packedKeys with
  | some [_, version, state] => do
    ensure (version = .str "1.0") "packed assessment queue shape is invalid"
    ensure (document.canonicalSize ≤ maxOperationReceiptBytes)
      "packed assessment queue exceeds encoded bound"
    let decoded ← readState codec state
    queueStateEnvelope decoded
  | _ => .error "packed assessment queue shape is invalid"

/-- The reconstructed state differs from the original in no byte. -/
def checkOriginal (decoded : Json) (bytes : Int) (sha256 : String) : Except String Unit :=
  ensure ((decoded.canonicalSize : Int) = bytes ∧
    decoded.canonicalSize ≤ maxOperationReceiptBytes ∧ digest decoded = sha256)
    "reconstructed queue reference differs from original"

/-- What the carrier says of its original, for the retained queue that it refers to. -/
def originalOf (queue : Option HeldQueue) (bytes sha256 inventory : Json) :
    Except String (HeldQueue × Int × String) :=
  match queue, bytes, sha256 with
  | some queue, .int bytes, .str sha256 =>
    if inventory.equals (queueReference queue) = true ∧ 0 < bytes ∧
        bytes ≤ maxOperationReceiptBytes ∧ Session.isSha256 sha256 = true then
      .ok (queue, bytes, sha256)
    else .error "original authenticated queue reference is unavailable"
  | _, _, _ => .error "original authenticated queue reference is unavailable"

/-- The decoded state of a carrier of the second version. -/
def unpackV2 (document : Json) (queue : Option HeldQueue) : Except String Json :=
  match document.record? packedReferenceKeys with
  | some [_, bytes, sha256, inventory, version, state] => do
    ensure (version = .str "1.0") "packed assessment queue shape is invalid"
    ensure (document.canonicalSize ≤ maxOperationReceiptBytes)
      "packed assessment queue exceeds encoded bound"
    let (queue, bytes, sha256) ← originalOf queue bytes sha256 inventory
    let decoded ← readState codec state
    let decoded ← expandQueueReference decoded queue bytes
    checkOriginal decoded bytes sha256
    let validated ← queueStateEnvelope decoded
    let retained ← queueFromDocument (((journalOf validated).get? "queue").getD .null)
    ensure (queueReference retained = queueReference queue)
      "reconstructed queue reference inventory changed"
    pure validated
  | _ => .error "packed assessment queue shape is invalid"

def unpackOrdered (document : Json) (queue : Option HeldQueue) : Except String Json :=
  if document.get? "kind" = some (.str packedV1) then unpackV1 codec document
  else if document.get? "kind" = some (.str packedV2) then unpackV2 codec document queue
  else queueStateEnvelope document

/-- `unpack_queue_state`. -/
def unpackQueueState (document : Json) (queue : Option HeldQueue) : Except String Json :=
  unpackOrdered codec document.sortKeys queue

end Carrier
end ReviewSensei.Assessment
