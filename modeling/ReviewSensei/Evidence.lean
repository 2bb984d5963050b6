import ReviewSensei.Base64
import ReviewSensei.JsonFields
import ReviewSensei.HistoricalHolds
import ReviewSensei.ReadBudget

/-! Documents kept as evidence: split into stored parts, or inline in their manifest. -/
namespace ReviewSensei.Evidence
open Session (isHexText isSha256 isGitSha)
open Sha256 (encode)
open Json (readText readInteger)
open Holds (isNamePair isProducer isStorageId)
open ReadBudget (EvidenceReadBudget Clock)

def maxPartBytes : Nat := 32768
def partFramingReserve : Nat := 512
def packedChunkBytes : Nat := 23500
def maxParts : Nat := 32
def maxPartitionBytes : Nat := 1048576
def maxPartitionDecodedBytes : Nat := 2097152
def maxManifestBytes : Nat := 8192

/-- zlib and the JSON reader. -/
structure Codec where
  /-- `zlib.compress(raw, level=9)`. -/
  compress : String → List UInt8
  /-- What a complete zlib stream with nothing after it holds. -/
  inflate : List UInt8 → Option String
  /-- `json.loads`, without the nonfinite numbers. -/
  loads : String → Option Json

/-- The snapshot and the owner of a document. -/
structure Binding where
  repository : String
  repositoryId : Option Int
  pullRequest : Int
  baseSha : String
  headSha : String
  policyDigest : String
  configurationDigest : String
  generation : Int
  producer : String
  purpose : String
  deriving DecidableEq

def optionalInt : Option Int → Json
  | none => .null
  | some i => .int i

def Binding.toDocument (b : Binding) : Json :=
  .obj [("repository", .str b.repository), ("repository_id", optionalInt b.repositoryId),
    ("pull_request", .int b.pullRequest), ("base_sha", .str b.baseSha),
    ("head_sha", .str b.headSha), ("policy_digest", .str b.policyDigest),
    ("configuration_digest", .str b.configurationDigest), ("generation", .int b.generation),
    ("producer", .str b.producer), ("purpose", .str b.purpose), ("schema_version", .str "1.0")]

def bindingKeys : List String :=
  ["repository", "repository_id", "pull_request", "base_sha", "head_sha", "policy_digest",
    "configuration_digest", "generation", "producer", "purpose", "schema_version"]

def purposes : List String :=
  ["baseline", "human-inventory", "feedback", "evidence", "queue", "dispositions"]

def isRepository (s : String) : Bool := isNamePair s && decide ((encode s).length ≤ 256)

/-- `_integer`. -/
def integer (value : Option Json) (minimum maximum : Int) : Except String Int :=
  readInteger minimum maximum "partition integer exceeds its contract" value

/-- `_sha`. -/
def sha (value : Option Json) : Except String String :=
  readText isSha256 "partition digest is invalid" value

/-- The repository's number, which may be null. -/
def repositoryId : Option Json → Except String (Option Int)
  | some .null => .ok none
  | value => (integer value 1 2147483647).map some

def validateBinding (value : Json) : Except String Binding := do
  ensure (value.hasKeys bindingKeys = true) "partition binding has an invalid shape"
  let repository ← readText isRepository "partition repository is invalid" (value.get? "repository")
  let identity ← repositoryId (value.get? "repository_id")
  let pullRequest ← integer (value.get? "pull_request") 1 2147483647
  let generation ← integer (value.get? "generation") 0 2147483647
  let baseSha ← readText isGitSha "partition snapshot is invalid" (value.get? "base_sha")
  let headSha ← readText isGitSha "partition snapshot is invalid" (value.get? "head_sha")
  let policyDigest ← sha (value.get? "policy_digest")
  let configurationDigest ← sha (value.get? "configuration_digest")
  let producer ← readText isProducer "partition producer is invalid" (value.get? "producer")
  let purpose ← readText purposes.contains "partition purpose is invalid" (value.get? "purpose")
  ensure (value.get? "schema_version" = some (.str "1.0"))
    "partition document schema is unsupported"
  return { repository, repositoryId := identity, pullRequest, baseSha, headSha, policyDigest,
           configurationDigest, generation, producer, purpose }

structure PartReference where
  storageId : String
  bytes : Int
  sha256 : String
  deriving DecidableEq

def PartReference.toDocument (r : PartReference) : Json :=
  .obj [("storage_id", .str r.storageId), ("bytes", .int r.bytes), ("sha256", .str r.sha256)]

/-- What the owner's record keeps of a document that is stored in parts. -/
structure Manifest where
  binding : Binding
  itemCount : Int
  decodedBytes : Int
  sha256 : String
  encodedBytes : Int
  parts : List PartReference
  deriving DecidableEq

def partitionEncoding : String := "partitioned-json-v1"

def Manifest.toDocument (m : Manifest) : Json :=
  .obj [("encoding", .str partitionEncoding), ("binding", m.binding.toDocument),
    ("item_count", .int m.itemCount), ("decoded_bytes", .int m.decodedBytes),
    ("sha256", .str m.sha256), ("encoded_bytes", .int m.encodedBytes),
    ("parts", .arr (m.parts.map PartReference.toDocument))]

def manifestKeys : List String :=
  ["encoding", "binding", "item_count", "decoded_bytes", "sha256", "encoded_bytes", "parts"]

/-- The part references in their order, with the bytes they add up to. -/
def readReferences (seen : List String) (total : Int) :
    List Json → Except String (List PartReference × Int)
  | [] => .ok ([], total)
  | part :: parts => do
    ensure (part.hasKeys ["storage_id", "bytes", "sha256"] = true) "partition reference is invalid"
    let identity ← readText (fun s => isStorageId s && decide (s ∉ seen))
      "partition storage identity is invalid or duplicated" (part.get? "storage_id")
    let bytes ← integer (part.get? "bytes") 1 (maxPartBytes - partFramingReserve)
    let sha256 ← sha (part.get? "sha256")
    let (references, total) ←
      readReferences (identity :: seen) (total + bytes + partFramingReserve) parts
    return ({ storageId := identity, bytes, sha256 } :: references, total)

/-- `value["parts"]`. -/
def partItems : Option Json → Except String (List Json)
  | some (.arr parts) =>
    if 1 ≤ parts.length ∧ parts.length ≤ maxParts then .ok parts
    else .error "partition manifest part count is invalid"
  | _ => .error "partition manifest part count is invalid"

def validateManifest (value : Json) : Except String Manifest := do
  ensure (value.hasKeys manifestKeys = true ∧ value.get? "encoding" = some (.str partitionEncoding))
    "partition manifest is unsupported or malformed"
  ensure (value.canonicalSize ≤ maxManifestBytes) "partition manifest capacity exceeded"
  let binding ← validateBinding ((value.get? "binding").getD .null)
  let itemCount ← integer (value.get? "item_count") 0 4096
  let decodedBytes ← integer (value.get? "decoded_bytes") 1 maxPartitionDecodedBytes
  let encodedBytes ← integer (value.get? "encoded_bytes") 1 maxPartitionBytes
  let sha256 ← sha (value.get? "sha256")
  let items ← partItems (value.get? "parts")
  let (parts, total) ← readReferences [] 0 items
  ensure (total = encodedBytes) "partition aggregate length does not match"
  return { binding, itemCount, decodedBytes, sha256, encodedBytes, parts }

/-- One stored piece of a document. -/
structure Part where
  bindingSha256 : String
  inventorySha256 : String
  index : Nat
  count : Nat
  data : String
  deriving DecidableEq

def partEncoding : String := "evidence-part-v1"

def Part.toDocument (p : Part) : Json :=
  .obj [("encoding", .str partEncoding), ("binding_sha256", .str p.bindingSha256),
    ("inventory_sha256", .str p.inventorySha256), ("index", .int p.index),
    ("count", .int p.count), ("data", .str p.data)]

def partKeys : List String :=
  ["encoding", "binding_sha256", "inventory_sha256", "index", "count", "data"]

/-- `[packed[i : i + size] for i in range(0, len(packed), size)]`. -/
def chunks {α : Type} (size : Nat) (packed : List α) : List (List α) :=
  (List.range ((packed.length + size - 1) / size)).map
    (fun i => (packed.drop (i * size)).take size)

def base64 (bytes : List UInt8) : String := String.ofList (Base64.encode bytes)

def digest (value : Json) : String := ReviewSensei.sha256 value.canonical

/-- The parts of a packed document. -/
def partsOf (bindingSha256 inventorySha256 : String) (pieces : List (List UInt8)) : List Part :=
  pieces.zipIdx.map (fun piece =>
    { bindingSha256, inventorySha256, index := piece.2, count := pieces.length,
      data := base64 piece.1 })

def framedBytes (p : Part) : Nat := p.toDocument.canonicalSize + partFramingReserve

section Writing
variable (codec : Codec)

/-- `partition_evidence`. -/
def partitionEvidence (value : Json) (binding : Binding) (itemCount : Int) :
    Except String (List Part) := do
  let binding ← validateBinding binding.toDocument
  let _ ← integer (some (.int itemCount)) 0 4096
  ensure (0 < value.canonicalSize ∧ value.canonicalSize ≤ maxPartitionDecodedBytes)
    "partition capacity exceeded: decoded bytes"
  let pieces := chunks packedChunkBytes (codec.compress value.canonical)
  ensure (pieces.length ≤ maxParts) "partition capacity exceeded: part count"
  let parts := partsOf (digest binding.toDocument) (digest value) pieces
  ensure ((∀ p ∈ parts, framedBytes p ≤ maxPartBytes) ∧
      (parts.map framedBytes).sum ≤ maxPartitionBytes)
    "partition capacity exceeded: framed bytes"
  return parts

/-- The manifest of parts that are stored under these identities. -/
def manifestOf (value : Json) (binding : Binding) (itemCount : Int) (parts : List Part)
    (storageIds : List String) : Manifest where
  binding := binding
  itemCount := itemCount
  decodedBytes := value.canonicalSize
  sha256 := digest value
  encodedBytes := (parts.map framedBytes).sum
  parts := (storageIds.zip parts).map (fun entry =>
    { storageId := entry.1
      bytes := entry.2.toDocument.canonicalSize
      sha256 := digest entry.2.toDocument })

def evidenceManifest (value : Json) (binding : Binding) (itemCount : Int) (parts : List Part)
    (storageIds : List String) : Except String Manifest := do
  ensure (parts.length = storageIds.length) "partition storage identities are incomplete"
  validateManifest (manifestOf value binding itemCount parts storageIds).toDocument

end Writing

/-- A payload the adapter has checked, and its observed owner. -/
structure AuthenticatedPart where
  document : Json
  producer : String

/-- What a storage identity holds; a missing one raises. -/
abbrev Reader := String → Option AuthenticatedPart

/-- The clock as it is looked at, time after time. -/
abbrev Looks := Nat → Clock

section Reading
variable (codec : Codec) (reader : Reader) (budget : EvidenceReadBudget) (looks : Looks)

/-- `len(data) ≤ MAX_PART_BYTES`, in characters. -/
def partData : Option Json → Except String String :=
  readText (fun s => decide (s.length ≤ maxPartBytes)) "partition part exceeds its contract"

def unpack (data : String) : Except String (List UInt8) :=
  match Base64.decode data.toList with
  | some bytes => .ok bytes
  | none => .error "partition data is invalid"

/-- The adapter's read of one part. -/
def loadPart (identity producer : String) : Except String Json :=
  match reader identity with
  | none => .error "partition part cannot be loaded"
  | some loaded =>
    if loaded.producer = producer then .ok loaded.document
    else .error "partition owner authentication failed"

/-- A part that was loaded, checked against its reference. -/
def openPart (manifest : Manifest) (bindingSha256 : String) (index : Nat)
    (reference : PartReference) (part : Json) : Except String (List UInt8) := do
  ensure (part.hasKeys partKeys = true) "partition part is malformed"
  let data ← partData (part.get? "data")
  ensure ((part.canonicalSize : Int) = reference.bytes ∧ digest part = reference.sha256 ∧
      part.get? "encoding" = some (.str partEncoding) ∧
      part.get? "binding_sha256" = some (.str bindingSha256) ∧
      part.get? "inventory_sha256" = some (.str manifest.sha256))
    "partition integrity or ordering failed"
  let position ← integer (part.get? "index") 0 (maxParts - 1)
  ensure (position = index) "partition integrity or ordering failed"
  let count ← integer (part.get? "count") 1 maxParts
  ensure (count = manifest.parts.length) "partition integrity or ordering failed"
  unpack data

/-- Every part in its order; two looks at the clock for each. -/
def readParts (manifest : Manifest) (bindingSha256 : String) (index look : Nat)
    (packed : List UInt8) : List PartReference → Except String (List UInt8 × Nat)
  | [] => .ok (packed, look)
  | reference :: references => do
    budget.check (looks look)
    let part ← loadPart reader reference.storageId manifest.binding.producer
    budget.check (looks (look + 1))
    let bytes ← openPart manifest bindingSha256 index reference part
    readParts manifest bindingSha256 (index + 1) (look + 2) (packed ++ bytes) references

def envelope (size : Int) (sha256 data : String) : Json :=
  .obj [("encoding", .str "zlib-json-v1"), ("decoded_bytes", .int size), ("sha256", .str sha256),
    ("data", .str data)]

def decoded (packed : List UInt8) (size : Int) (sha256 : String) : Option Json := do
  let raw ← codec.inflate packed
  guard (((encode raw).length : Int) = size)
  guard (ReviewSensei.sha256 raw = sha256)
  let document ← codec.loads raw
  guard (document.canonical = raw)
  return document

/-- `decode_evidence` of an envelope with these values. -/
def decodeEvidence (size : Int) (sha256 data : String) (maxEncoded maxDecoded : Nat) :
    Except String Json := do
  ensure (0 < size ∧ size ≤ maxDecoded ∧ sha256.length = 64 ∧ data.length ≤ maxEncoded ∧
      (envelope size sha256 data).canonicalSize ≤ maxEncoded)
    "encoded evidence exceeds its contract"
  match (Base64.decode data.toList).bind (fun packed => decoded codec packed size sha256) with
  | some document => .ok document
  | none => .error "encoded evidence is invalid"

/-- The document of a manifest, and the looks at the clock so far. -/
def readPartitionedEvidence (value : Json) (expected : Binding) (look : Nat) :
    Except String (Json × Nat) := do
  let manifest ← validateManifest value
  ensure (manifest.binding = expected) "partition snapshot or producer does not match"
  let (packed, look) ← readParts reader budget looks manifest (digest manifest.binding.toDocument)
    0 look [] manifest.parts
  let document ← decodeEvidence codec manifest.decodedBytes manifest.sha256 (base64 packed)
    maxPartitionBytes maxPartitionDecodedBytes
  return (document, look)

end Reading

/-- A document inside its manifest. -/
structure InlineManifest where
  binding : Binding
  itemCount : Int
  sha256 : String
  document : Json

def inlineEncoding : String := "inline-json-v1"

def inlineKeys : List String := ["encoding", "binding", "item_count", "sha256", "document"]

def isObject : Json → Bool
  | .obj _ => true
  | _ => false

/-- `read_inline_evidence`. -/
def readInlineEvidence (value : Json) (expected : Json) : Except String Json := do
  ensure (value.hasKeys inlineKeys = true ∧ value.get? "encoding" = some (.str inlineEncoding))
    "inline evidence manifest is unsupported"
  let binding ← validateBinding ((value.get? "binding").getD .null)
  let wanted ← validateBinding expected
  ensure (binding = wanted) "inline evidence binding does not match"
  let _ ← integer (value.get? "item_count") 0 4096
  let sha256 ← sha (value.get? "sha256")
  let document := (value.get? "document").getD .null
  ensure (isObject document = true) "inline evidence document is invalid"
  ensure (digest document = sha256) "inline evidence digest does not match"
  ensure (value.canonicalSize ≤ maxManifestBytes) "inline evidence exceeds manifest capacity"
  return document

end ReviewSensei.Evidence
