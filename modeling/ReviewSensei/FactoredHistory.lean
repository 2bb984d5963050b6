import ReviewSensei.QueueDocuments

/-! Assessment journals: a queue with the receipts of its operations, and the factored layout
whose history shares one table of strings. Documents are kept with their keys in order. -/
namespace ReviewSensei.Assessment
open Session (isSha256)

def maxOperationReceiptBytes : Nat := 2097152
def maxReconstructedHistoryBytes : Nat := 8388608
def maxRetainedAssessmentOperations : Nat := 32
def maxRetainedFactoredOperations : Nat := 256
def maxFactoredStrings : Nat := 16384
def maxFactoredDepth : Nat := 32
def factoredJournalInterfaceVersion : String := "assessment-history-v2"

/-- What one pass over the history has charged, in all and for its current operation. -/
structure Charged where
  total : Nat
  rowTotal : Nat
  deriving DecidableEq

def Charged.charge (c : Charged) (size : Nat) : Except String Charged :=
  if maxReconstructedHistoryBytes < c.total + size ∨
      maxOperationReceiptBytes < c.rowTotal + size then
    .error "assessment journal exceeds reconstruction bounds"
  else .ok ⟨c.total + size, c.rowTotal + size⟩

/-- The brackets and the commas around the items of a list. -/
def listFrame (items : List Json) : Nat := 2 + (items.length - 1)

/-- The braces, the commas and the keys with their colons. -/
def dictFrame (fields : List (String × Json)) : Nat :=
  2 + (fields.length - 1) + (fields.map (fun f => (Json.str f.1).size + 1)).sum

def checkDepth (depth : Nat) : Except String Unit :=
  ensure (depth ≤ maxFactoredDepth) "assessment history nesting exceeds bounds"

section Encoding

/-- The table of strings that encoding fills, with what it has charged. -/
structure Encoder where
  strings : List String
  charged : Charged
  deriving DecidableEq

def Encoder.charge (t : Encoder) (size : Nat) : Except String Encoder := do
  let charged ← t.charged.charge size
  pure { t with charged }

def Encoder.index (t : Encoder) (value : String) : Except String (Nat × Encoder) :=
  if value ∈ t.strings then .ok (t.strings.idxOf value, t)
  else if t.strings.length = maxFactoredStrings then
    .error "assessment history string table exceeds bounds"
  else .ok (t.strings.length, { t with strings := t.strings ++ [value] })

mutual

/-- `encode` of `_encode_document`: a string is its index, an integer and an object are tagged. -/
def encode : Json → Nat → Encoder → Except String (Json × Encoder)
  | .str s, depth, t => do
    checkDepth depth
    let t ← t.charge (Json.str s).size
    let (index, t) ← t.index s
    pure (.int index, t)
  | .null, depth, t => do
    checkDepth depth
    let t ← t.charge Json.null.size
    pure (.null, t)
  | .bool b, depth, t => do
    checkDepth depth
    let t ← t.charge (Json.bool b).size
    pure (.bool b, t)
  | .int i, depth, t => do
    checkDepth depth
    let t ← t.charge (Json.int i).size
    pure (.obj [("integer", .int i)], t)
  | .arr items, depth, t => do
    checkDepth depth
    let t ← t.charge (listFrame items)
    let (items, t) ← encodeItems items (depth + 1) t
    pure (.arr items, t)
  | .obj fields, depth, t => do
    checkDepth depth
    let t ← t.charge (dictFrame fields)
    let (fields, t) ← encodeFields fields (depth + 1) t
    pure (.obj [("fields", .obj fields)], t)

def encodeItems : List Json → Nat → Encoder → Except String (List Json × Encoder)
  | [], _, t => pure ([], t)
  | item :: items, depth, t => do
    let (item, t) ← encode item depth t
    let (items, t) ← encodeItems items depth t
    pure (item :: items, t)

def encodeFields : List (String × Json) → Nat → Encoder →
    Except String (List (String × Json) × Encoder)
  | [], _, t => pure ([], t)
  | (key, value) :: fields, depth, t => do
    let (value, t) ← encode value depth t
    let (fields, t) ← encodeFields fields depth t
    pure ((key, value) :: fields, t)

end

/-- The records of the operations; each of them has its own row of charges. -/
def encodeRows : List Json → Encoder → Except String (List Json × Encoder)
  | [], t => pure ([], t)
  | item :: rest, t => do
    let (record, t) ← encode item 0 { t with charged := { t.charged with rowTotal := 0 } }
    let (records, t) ← encodeRows rest t
    pure (record :: records, t)

end Encoding

section Decoding
variable (strings : List String)

/-- The string that an encoded integer refers to. -/
def reference (i : Int) : Option String := if i < 0 then none else strings[i.toNat]?

mutual

/-- `decode` of `_decode_operations`. -/
def decode : Json → Nat → Charged → Except String (Json × Charged)
  | .null, depth, c => do
    checkDepth depth
    let c ← c.charge Json.null.size
    pure (.null, c)
  | .bool b, depth, c => do
    checkDepth depth
    let c ← c.charge (Json.bool b).size
    pure (.bool b, c)
  | .int i, depth, c => do
    checkDepth depth
    match reference strings i with
    | none => .error "assessment history reference is invalid"
    | some s => do
      let c ← c.charge (Json.str s).size
      pure (.str s, c)
  | .arr items, depth, c => do
    checkDepth depth
    let c ← c.charge (listFrame items)
    let (items, c) ← decodeItems items (depth + 1) c
    pure (.arr items, c)
  | .obj [(key, .int i)], depth, c => do
    checkDepth depth
    ensure (key = "integer") "assessment history encoded value is invalid"
    let c ← c.charge (Json.int i).size
    pure (.int i, c)
  | .obj [(key, .obj fields)], depth, c => do
    checkDepth depth
    ensure (key = "fields") "assessment history encoded value is invalid"
    let c ← c.charge (dictFrame fields)
    let (fields, c) ← decodeFields fields (depth + 1) c
    pure (.obj fields, c)
  | _, depth, _ => do
    checkDepth depth
    .error "assessment history encoded value is invalid"

def decodeItems : List Json → Nat → Charged → Except String (List Json × Charged)
  | [], _, c => pure ([], c)
  | item :: items, depth, c => do
    let (item, c) ← decode item depth c
    let (items, c) ← decodeItems items depth c
    pure (item :: items, c)

def decodeFields : List (String × Json) → Nat → Charged →
    Except String (List (String × Json) × Charged)
  | [], _, c => pure ([], c)
  | (key, value) :: fields, depth, c => do
    let (value, c) ← decode value depth c
    let (fields, c) ← decodeFields fields depth c
    pure ((key, value) :: fields, c)

end

def isDict : Json → Bool
  | .obj _ => true
  | _ => false

def decodeRows : List Json → Charged → Except String (List Json)
  | [], _ => pure []
  | item :: rest, c => do
    let (operation, c) ← decode strings item 0 { c with rowTotal := 0 }
    ensure (isDict operation = true) "assessment history operation is invalid"
    let operations ← decodeRows rest c
    pure (operation :: operations)

end Decoding

/-- The table of a document: its strings, each of them once, and its records. -/
def readTable (document : Json) : Option (List String × List Json) :=
  match document.get? "strings", document.get? "operations" with
  | some (.arr items), some (.arr records) => do
    let strings ← items.mapM readText?
    if strings.length ≤ maxFactoredStrings ∧ strings.Nodup ∧
        records.length ≤ maxRetainedFactoredOperations then
      some (strings, records)
    else none
  | _, _ => none

/-- `FactoredAssessmentJournal._decode_operations`. -/
def decodeOperations (document : Json) : Except String (List Json) :=
  match readTable document with
  | some (strings, records) => decodeRows strings records ⟨0, 0⟩
  | none => .error "assessment history table is invalid"

section Settlement

def isZero : Option Json → Bool
  | some (.int i) => decide (i = 0)
  | some (.bool b) => !b
  | _ => false

/-- All provider calls of the budget are spent. -/
def callsSpent : Option Json → Option Json → Bool
  | some (.int calls), some (.int maximum) => decide (0 < maximum) && decide (maximum ≤ calls)
  | _, _ => false

def batchId? : Json → Option Json
  | .obj fields => some ((Json.field? fields "batch_id").getD .null)
  | _ => none

def isHashable : Json → Bool
  | .arr _ => false
  | .obj _ => false
  | _ => true

/-- The completed batches are those that the receipt has digests of. -/
def batchesComplete (completed : List Json) (digests : List (String × Json)) :
    Except String Bool := do
  let ids := completed.filterMap batchId?
  ensure (ids.all isHashable = true) "assessment journal document is invalid"
  pure (ids.all (fun id => digests.any (fun d => decide (id = .str d.1))) &&
    digests.all (fun d => ids.contains (.str d.1)))

/-- `_settled`: nothing of the operation is still in flight. -/
def settled (receipt : Json) : Except String Bool :=
  match receipt.get? "counters", receipt.get? "resource_budget", receipt.get? "completed",
    receipt.get? "request_digests" with
  | some (.obj counts), some (.obj budget), some (.arr completed), some (.obj digests) =>
    if isZero (receipt.get? "response_bytes_reserved") = false then .ok false
    else if callsSpent (Json.field? counts "provider_calls")
        (Json.field? budget "max_provider_calls") = true then .ok true
    else if digests = [] then .ok false
    else batchesComplete completed digests
  | _, _, _, _ => .ok false

def activeOperations : List Json → Except String Nat
  | [] => pure 0
  | item :: rest => do
    let done ← settled ((item.get? "receipt").getD .null)
    let active ← activeOperations rest
    pure (if done = true then active else active + 1)

end Settlement

/-- The class of a journal: its layout of the history. -/
inductive JournalKind
  | assessment
  | factored
  deriving DecidableEq

def JournalKind.maxRetainedOperations : JournalKind → Nat
  | .assessment => maxRetainedAssessmentOperations
  | .factored => maxRetainedFactoredOperations

def operationKeys : List String := ["operation_id", "receipt", "source_digest"]
def journalKeys : List String := ["operations", "queue", "schema_version"]
def factoredKeys : List String := ["operations", "queue", "schema_version", "strings"]

/-- One retained operation: a source, its operation and the receipt of it. -/
structure Operation where
  operationId : String
  receipt : List (String × Json)
  sourceDigest : String
  deriving DecidableEq

def Operation.toDocument (o : Operation) : Json :=
  .obj (operationKeys.zip [.str o.operationId, .obj o.receipt, .str o.sourceDigest])

def Operation.bound (o : Operation) : Bool :=
  isSha256 o.sourceDigest && isSha256 o.operationId &&
    decide (Json.field? o.receipt "operation_id" = some (.str o.operationId))

def readOperation (item : Json) : Option Operation :=
  match item.record? operationKeys with
  | some [.str id, .obj receipt, .str source] =>
    if Operation.bound ⟨id, receipt, source⟩ = true then some ⟨id, receipt, source⟩ else none
  | _ => none

/-- Every operation is bound to its receipt, and no source has two of them. -/
def sourcesBound (operations : List Json) : Bool :=
  match operations.mapM readOperation with
  | some rows => decide (rows.map Operation.sourceDigest).Nodup
  | none => false

/-- `FactoredAssessmentJournal._encode_document`. -/
def encodeHistory (queue : HeldQueue) (operations : List Json) : Except String Json := do
  let active ← activeOperations operations
  ensure (active ≤ maxRetainedAssessmentOperations)
    "assessment journal exceeds active operation bounds"
  let (records, t) ← encodeRows operations ⟨[], ⟨0, 0⟩⟩
  ensure (t.strings.length ≤ maxFactoredStrings) "assessment history string table exceeds bounds"
  pure (.obj (factoredKeys.zip [.arr records, queue.toQueueFields.toDocument,
    .str factoredJournalInterfaceVersion, texts t.strings]))

/-- `_encode_document`. -/
def encodeDocument (queue : HeldQueue) (operations : List Json) :
    JournalKind → Except String Json
  | .assessment => pure (.obj (journalKeys.zip [.arr operations, queue.toQueueFields.toDocument,
      .str queueInterfaceVersion]))
  | .factored => encodeHistory queue operations

/-- What `__init__` retains of operations whose keys are in order. -/
def retainedDocument (kind : JournalKind) (queue : HeldQueue) (operations : List Json) :
    Except String Json := do
  ensure (operations.length ≤ kind.maxRetainedOperations)
    "assessment journal exceeds retained operation bounds"
  ensure (sourcesBound operations = true) "assessment journal source/operation binding is invalid"
  let document ← encodeDocument queue operations kind
  ensure (document.canonicalSize ≤ maxOperationReceiptBytes)
    "assessment journal exceeds aggregate storage"
  pure document

/-- A journal is the document that `__init__` made of a queue and its operations. -/
structure Journal (kind : JournalKind) where
  document : Json
  built : ∃ (queue : HeldQueue) (operations : List Json),
    retainedDocument kind queue (operations.map Json.sortKeys) = .ok document

def Journal.construct (kind : JournalKind) (queue : HeldQueue) (operations : List Json) :
    Except String (Journal kind) :=
  match h : retainedDocument kind queue (operations.map Json.sortKeys) with
  | .ok document => .ok ⟨document, queue, operations, h⟩
  | .error message => .error message

/-- `_operations`. -/
def Journal.operations {kind : JournalKind} (journal : Journal kind) : Except String (List Json) :=
  match kind with
  | .assessment =>
    match journal.document.get? "operations" with
    | some (.arr operations) => .ok operations
    | _ => .error "assessment journal document is invalid"
  | .factored => decodeOperations journal.document

/-- The queue in the document of a journal. -/
def Journal.queue {kind : JournalKind} (journal : Journal kind) : Except String HeldQueue :=
  queueFromDocument ((journal.document.get? "queue").getD .null)

/-- `AssessmentJournal.from_document`, on a document with its keys in order. -/
def readJournal (value : Json) : Except String (Journal .assessment) :=
  match value.record? journalKeys with
  | some [.arr operations, queue, version] => do
    ensure (version = .str queueInterfaceVersion) "assessment journal document is invalid"
    let queue ← queueFromDocument queue
    Journal.construct .assessment queue operations
  | _ => .error "assessment journal document is invalid"

/-- `FactoredAssessmentJournal.from_document`, on a document with its keys in order. -/
def readFactored (value : Json) : Except String (Journal .factored) :=
  match value.record? factoredKeys with
  | some [_, queue, version, _] => do
    ensure (version = .str factoredJournalInterfaceVersion)
      "assessment history document is invalid"
    ensure (value.canonicalSize ≤ maxOperationReceiptBytes)
      "assessment journal exceeds aggregate storage"
    let queue ← queueFromDocument queue
    let operations ← decodeOperations value
    let journal ← Journal.construct .factored queue operations
    -- no unused strings, alternate references or unbounded aliases
    ensure (journal.document.equals value = true) "assessment history encoding is noncanonical"
    pure journal
  | _ => .error "assessment history document is invalid"

def Journal.fromDocument (kind : JournalKind) (value : Json) : Except String (Journal kind) :=
  match kind with
  | .assessment => readJournal value.sortKeys
  | .factored => readFactored value.sortKeys

/-- `FactoredAssessmentJournal.from_legacy`. -/
def Journal.fromLegacy (journal : Journal .assessment) : Except String (Journal .factored) := do
  let queue ← journal.queue
  let operations ← journal.operations
  Journal.construct .factored queue operations

end ReviewSensei.Assessment
