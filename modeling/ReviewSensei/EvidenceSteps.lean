import ReviewSensei.Evidence

/-! Evidence that was written is read back, and how large its manifest is. -/
namespace ReviewSensei.Evidence
open Session (isHexText isSha256 isGitSha bind_ok)
open Sha256 (encode)
open Json (readText readInteger readText_ok readInteger_ok isPlain)
open Holds (isNamePair isProducer isStorageId)
open ReadBudget (EvidenceReadBudget Clock)

theorem integer_ok {lo hi i : Int} (hlo : lo ≤ i) (hhi : i ≤ hi) :
    integer (some (.int i)) lo hi = .ok i := readInteger_ok hlo hhi

theorem sha_ok {s : String} (h : isSha256 s = true) : sha (some (.str s)) = .ok s := readText_ok h

structure Binding.Valid (b : Binding) : Prop where
  repository : isRepository b.repository = true
  repositoryId : ∀ i, b.repositoryId = some i → 1 ≤ i ∧ i ≤ 2147483647
  pullRequest : 1 ≤ b.pullRequest ∧ b.pullRequest ≤ 2147483647
  generation : 0 ≤ b.generation ∧ b.generation ≤ 2147483647
  baseSha : isGitSha b.baseSha = true
  headSha : isGitSha b.headSha = true
  policyDigest : isSha256 b.policyDigest = true
  configurationDigest : isSha256 b.configurationDigest = true
  producer : isProducer b.producer = true
  purpose : purposes.contains b.purpose = true

theorem repositoryId_ok {value : Option Int} (h : ∀ i, value = some i → 1 ≤ i ∧ i ≤ 2147483647) :
    repositoryId (some (optionalInt value)) = .ok value := by
  cases value with
  | none => rfl
  | some i =>
    obtain ⟨hlo, hhi⟩ := h i rfl
    have hread := integer_ok hlo hhi
    simp only [repositoryId, optionalInt, hread]
    rfl

theorem validateBinding_ok {b : Binding} (h : b.Valid) : validateBinding b.toDocument = .ok b := by
  have hkeys : b.toDocument.hasKeys bindingKeys = true := rfl
  unfold validateBinding
  rw [ensure_bind hkeys]
  simp only [Binding.toDocument, Json.get?, Json.field?_cons, String.reduceEq, if_true, if_false]
  rw [ok_bind (readText_ok h.repository), ok_bind (repositoryId_ok h.repositoryId),
    ok_bind (integer_ok h.pullRequest.1 h.pullRequest.2),
    ok_bind (integer_ok h.generation.1 h.generation.2), ok_bind (readText_ok h.baseSha),
    ok_bind (readText_ok h.headSha), ok_bind (sha_ok h.policyDigest),
    ok_bind (sha_ok h.configurationDigest), ok_bind (readText_ok h.producer),
    ok_bind (readText_ok h.purpose), ensure_bind trivial]
  rfl

theorem integer_inv {lo hi i k : Int} (h : integer (some (.int i)) lo hi = .ok k) :
    k = i ∧ lo ≤ i ∧ i ≤ hi := by
  obtain ⟨heq, hlo, hhi⟩ := Json.readInteger_inv h
  cases heq
  exact ⟨rfl, hlo, hhi⟩

theorem text_inv {accepts : String → Bool} {message s t : String}
    (h : readText accepts message (some (.str s)) = .ok t) : t = s ∧ accepts s = true := by
  obtain ⟨heq, haccepts⟩ := Json.readText_inv h
  cases heq
  exact ⟨rfl, haccepts⟩

theorem repositoryId_inv {value id : Option Int}
    (h : repositoryId (some (optionalInt value)) = .ok id) :
    id = value ∧ ∀ i, value = some i → 1 ≤ i ∧ i ≤ 2147483647 := by
  cases value with
  | none =>
    cases h
    exact ⟨rfl, nofun⟩
  | some i =>
    simp only [repositoryId, optionalInt, Except.map] at h
    split at h
    · cases h
    · rename_i k hk
      obtain ⟨rfl, hlo, hhi⟩ := integer_inv hk
      cases h
      refine ⟨rfl, ?_⟩
      intro j hj
      cases hj
      exact ⟨hlo, hhi⟩

theorem validateBinding_inv {b c : Binding} (h : validateBinding b.toDocument = .ok c) :
    c = b ∧ b.Valid := by
  unfold validateBinding at h
  simp only [Binding.toDocument, Json.get?, Json.field?_cons, String.reduceEq, if_true, if_false]
    at h
  obtain ⟨_, _, h⟩ := bind_ok h
  obtain ⟨_, rrepository, h⟩ := bind_ok h
  obtain ⟨_, rid, h⟩ := bind_ok h
  obtain ⟨_, rpull, h⟩ := bind_ok h
  obtain ⟨_, rgeneration, h⟩ := bind_ok h
  obtain ⟨_, rbase, h⟩ := bind_ok h
  obtain ⟨_, rhead, h⟩ := bind_ok h
  obtain ⟨_, rpolicy, h⟩ := bind_ok h
  obtain ⟨_, rconfiguration, h⟩ := bind_ok h
  obtain ⟨_, rproducer, h⟩ := bind_ok h
  obtain ⟨_, rpurpose, h⟩ := bind_ok h
  obtain ⟨_, _, h⟩ := bind_ok h
  obtain ⟨rfl, hrepository⟩ := text_inv rrepository
  obtain ⟨rfl, hid⟩ := repositoryId_inv rid
  obtain ⟨rfl, hpull⟩ := integer_inv rpull
  obtain ⟨rfl, hgeneration⟩ := integer_inv rgeneration
  obtain ⟨rfl, hbase⟩ := text_inv rbase
  obtain ⟨rfl, hhead⟩ := text_inv rhead
  obtain ⟨rfl, hpolicy⟩ := text_inv rpolicy
  obtain ⟨rfl, hconfiguration⟩ := text_inv rconfiguration
  obtain ⟨rfl, hproducer⟩ := text_inv rproducer
  obtain ⟨rfl, hpurpose⟩ := text_inv rpurpose
  cases h
  exact ⟨rfl, hrepository, hid, hpull, hgeneration, hbase, hhead, hpolicy, hconfiguration,
    hproducer, hpurpose⟩

/-- The bytes a list of references adds up to. -/
def referencedBytes (parts : List PartReference) : Int :=
  (parts.map (fun r => r.bytes + (partFramingReserve : Int))).sum

def PartReference.Valid (r : PartReference) : Prop :=
  isStorageId r.storageId = true ∧
    (1 ≤ r.bytes ∧ r.bytes ≤ (maxPartBytes : Int) - partFramingReserve) ∧ isSha256 r.sha256 = true

theorem readReferences_ok {parts : List PartReference} {seen : List String} {total : Int}
    (hvalid : ∀ r ∈ parts, r.Valid) (hnodup : (parts.map PartReference.storageId).Nodup)
    (hfresh : ∀ r ∈ parts, r.storageId ∉ seen) :
    readReferences seen total (parts.map PartReference.toDocument) =
      .ok (parts, total + referencedBytes parts) := by
  induction parts generalizing seen total with
  | nil => simp [readReferences, referencedBytes]
  | cons r rs ih =>
    obtain ⟨hid, hbytes, hsha⟩ := hvalid r List.mem_cons_self
    have hkeys : r.toDocument.hasKeys ["storage_id", "bytes", "sha256"] = true := rfl
    have haccept : (isStorageId r.storageId && decide (r.storageId ∉ seen)) = true := by
      simp [hid, hfresh r List.mem_cons_self]
    rw [List.map_cons, List.nodup_cons] at hnodup
    have hrest : readReferences (r.storageId :: seen) (total + r.bytes + partFramingReserve)
        (rs.map PartReference.toDocument) =
          .ok (rs, total + r.bytes + partFramingReserve + referencedBytes rs) := ih
      (fun q hq => hvalid q (List.mem_cons_of_mem _ hq)) hnodup.2 (by
        intro q hq hmem
        rcases List.mem_cons.mp hmem with heq | hmem
        · exact hnodup.1 (heq ▸ List.mem_map_of_mem hq)
        · exact hfresh q (List.mem_cons_of_mem _ hq) hmem)
    rw [List.map_cons, readReferences, ensure_bind hkeys]
    simp only [PartReference.toDocument, Json.get?, Json.field?_cons, String.reduceEq, if_true,
      if_false]
    rw [ok_bind (readText_ok haccept), ok_bind (integer_ok hbytes.1 hbytes.2),
      ok_bind (sha_ok hsha), ok_bind hrest]
    have htotal : total + r.bytes + partFramingReserve + referencedBytes rs =
        total + referencedBytes (r :: rs) := by
      simp only [referencedBytes, List.map_cons, List.sum_cons]
      omega
    rw [htotal]
    rfl

theorem readReferences_inv {parts references : List PartReference} {seen : List String}
    {total sum : Int}
    (h : readReferences seen total (parts.map PartReference.toDocument) = .ok (references, sum)) :
    references = parts ∧ sum = total + referencedBytes parts ∧ (∀ r ∈ parts, r.Valid) ∧
      (parts.map PartReference.storageId).Nodup ∧ ∀ r ∈ parts, r.storageId ∉ seen := by
  induction parts generalizing seen total references sum with
  | nil =>
    cases h
    simp [referencedBytes]
  | cons r rs ih =>
    rw [List.map_cons, readReferences] at h
    simp only [PartReference.toDocument, Json.get?, Json.field?_cons, String.reduceEq, if_true,
      if_false] at h
    obtain ⟨_, _, h⟩ := bind_ok h
    obtain ⟨_, rid, h⟩ := bind_ok h
    obtain ⟨_, rbytes, h⟩ := bind_ok h
    obtain ⟨_, rsha, h⟩ := bind_ok h
    obtain ⟨⟨tail, after⟩, hrest, h⟩ := bind_ok h
    obtain ⟨rfl, hid⟩ := text_inv rid
    obtain ⟨rfl, hbytes⟩ := integer_inv rbytes
    obtain ⟨rfl, hsha⟩ := text_inv rsha
    obtain ⟨rfl, rfl, hvalid, hnodup, hfresh⟩ := ih hrest
    cases h
    rw [Bool.and_eq_true, decide_eq_true_eq] at hid
    refine ⟨rfl, ?_, ?_, ?_, ?_⟩
    · simp only [referencedBytes, List.map_cons, List.sum_cons]
      omega
    · intro q hq
      rcases List.mem_cons.mp hq with rfl | hq
      · exact ⟨hid.1, hbytes, hsha⟩
      · exact hvalid q hq
    · rw [List.map_cons, List.nodup_cons]
      refine ⟨?_, hnodup⟩
      intro hmem
      obtain ⟨q, hq, heq⟩ := List.mem_map.mp hmem
      exact hfresh q hq (heq ▸ List.mem_cons_self)
    · intro q hq
      rcases List.mem_cons.mp hq with rfl | hq
      · exact hid.2
      · exact fun hmem => hfresh q hq (List.mem_cons_of_mem _ hmem)

/-- The checks on a manifest's fields. -/
structure Manifest.Fields (m : Manifest) : Prop where
  binding : m.binding.Valid
  itemCount : 0 ≤ m.itemCount ∧ m.itemCount ≤ 4096
  decodedBytes : 1 ≤ m.decodedBytes ∧ m.decodedBytes ≤ maxPartitionDecodedBytes
  encodedBytes : 1 ≤ m.encodedBytes ∧ m.encodedBytes ≤ maxPartitionBytes
  sha256 : isSha256 m.sha256 = true
  count : 1 ≤ m.parts.length ∧ m.parts.length ≤ maxParts
  parts : ∀ r ∈ m.parts, r.Valid
  distinct : (m.parts.map PartReference.storageId).Nodup
  total : referencedBytes m.parts = m.encodedBytes

structure Manifest.Valid (m : Manifest) : Prop extends Manifest.Fields m where
  size : m.toDocument.canonicalSize ≤ maxManifestBytes

theorem partItems_ok {parts : List Json} (h : 1 ≤ parts.length ∧ parts.length ≤ maxParts) :
    partItems (some (.arr parts)) = .ok parts := if_pos h

theorem partItems_inv {parts items : List Json} (h : partItems (some (.arr parts)) = .ok items) :
    items = parts ∧ 1 ≤ parts.length ∧ parts.length ≤ maxParts := by
  unfold partItems at h
  dsimp only at h
  split at h
  · cases h
    exact ⟨rfl, by assumption⟩
  · cases h

theorem validateManifest_ok {m : Manifest} (h : m.Valid) :
    validateManifest m.toDocument = .ok m := by
  have hkeys : m.toDocument.hasKeys manifestKeys = true := rfl
  have hencoding : m.toDocument.get? "encoding" = some (.str partitionEncoding) := rfl
  have hcount : 1 ≤ (m.parts.map PartReference.toDocument).length ∧
      (m.parts.map PartReference.toDocument).length ≤ maxParts := by
    rw [List.length_map]
    exact h.count
  have hparts : readReferences [] 0 (m.parts.map PartReference.toDocument) =
      .ok (m.parts, 0 + referencedBytes m.parts) :=
    readReferences_ok h.parts h.distinct (fun _ _ => List.not_mem_nil)
  rw [h.total, Int.zero_add] at hparts
  unfold validateManifest
  rw [ensure_bind ⟨hkeys, hencoding⟩, ensure_bind h.size]
  simp only [Manifest.toDocument, Json.get?, Json.field?_cons, String.reduceEq, if_true, if_false,
    Option.getD_some]
  rw [ok_bind (validateBinding_ok h.binding), ok_bind (integer_ok h.itemCount.1 h.itemCount.2),
    ok_bind (integer_ok h.decodedBytes.1 h.decodedBytes.2),
    ok_bind (integer_ok h.encodedBytes.1 h.encodedBytes.2), ok_bind (sha_ok h.sha256),
    ok_bind (partItems_ok hcount), ok_bind hparts]
  exact ensure_bind rfl _

theorem validateManifest_inv {m n : Manifest} (h : validateManifest m.toDocument = .ok n) :
    n = m ∧ m.Valid := by
  unfold validateManifest at h
  obtain ⟨_, _, h⟩ := bind_ok h
  obtain ⟨_, hsize, h⟩ := bind_ok h
  have hsize := ensure_inv hsize
  simp only [Manifest.toDocument, Json.get?, Json.field?_cons, String.reduceEq, if_true, if_false,
    Option.getD_some] at h
  obtain ⟨_, rbinding, h⟩ := bind_ok h
  obtain ⟨_, ritems, h⟩ := bind_ok h
  obtain ⟨_, rdecoded, h⟩ := bind_ok h
  obtain ⟨_, rencoded, h⟩ := bind_ok h
  obtain ⟨_, rsha, h⟩ := bind_ok h
  obtain ⟨_, rcount, h⟩ := bind_ok h
  obtain ⟨⟨references, total⟩, hparts, h⟩ := bind_ok h
  obtain ⟨_, htotal, h⟩ := bind_ok h
  obtain ⟨rfl, hbinding⟩ := validateBinding_inv rbinding
  obtain ⟨rfl, hitems⟩ := integer_inv ritems
  obtain ⟨rfl, hdecoded⟩ := integer_inv rdecoded
  obtain ⟨rfl, hencoded⟩ := integer_inv rencoded
  obtain ⟨rfl, hsha⟩ := text_inv rsha
  obtain ⟨rfl, hcount⟩ := partItems_inv rcount
  obtain ⟨rfl, rfl, hvalid, hnodup, _⟩ := readReferences_inv hparts
  have htotal := ensure_inv htotal
  rw [List.length_map] at hcount
  cases h
  exact ⟨rfl, ⟨hbinding, hitems, hdecoded, hencoded, hsha, hcount, hvalid, hnodup,
    by rw [← htotal, Int.zero_add]⟩, hsize⟩

section Chunks
variable {α : Type}

theorem chunks_length_le {size : Nat} {packed piece : List α} (h : piece ∈ chunks size packed) :
    piece.length ≤ size := by
  obtain ⟨i, _, rfl⟩ := List.mem_map.mp h
  exact List.length_take_le _ _

theorem flatten_pieces (size : Nat) (packed : List α) (n : Nat) :
    ((List.range n).map (fun i => (packed.drop (i * size)).take size)).flatten =
      packed.take (n * size) := by
  induction n with
  | zero => simp
  | succ n ih =>
    rw [List.range_succ, List.map_append, List.flatten_append, ih]
    simp only [List.map_cons, List.map_nil, List.flatten_cons, List.flatten_nil, List.append_nil]
    rw [Nat.succ_mul, List.take_add]

theorem flatten_chunks {size : Nat} (hsize : 0 < size) (packed : List α) :
    (chunks size packed).flatten = packed := by
  rw [chunks, flatten_pieces]
  apply List.take_of_length_le
  -- the last piece may be short, so the count is rounded up
  have hdiv := Nat.div_add_mod (packed.length + size - 1) size
  have hmod := Nat.mod_lt (packed.length + size - 1) hsize
  have hcomm := Nat.mul_comm size ((packed.length + size - 1) / size)
  omega

end Chunks

theorem base64_decode (bytes : List UInt8) : Base64.decode (base64 bytes).toList = some bytes := by
  rw [base64, String.toList_ofList]
  exact Base64.decode_encode bytes

theorem base64_length (bytes : List UInt8) :
    (base64 bytes).length = (bytes.length + 2) / 3 * 4 := by
  rw [base64, String.length_ofList]
  exact Base64.length_encode bytes

theorem size_base64 (bytes : List UInt8) :
    (Json.str (base64 bytes)).size = (bytes.length + 2) / 3 * 4 + 2 := by
  obtain ⟨hplain, hlength⟩ := Json.isPlain_ofList (Base64.encode_plain bytes)
  have hsize := Json.size_text hplain
  rw [hlength, Base64.length_encode] at hsize
  exact hsize

theorem length_digest (value : Json) : (digest value).length = 64 := by
  obtain ⟨cs, h, hlength, _⟩ := sha256_hex value.canonical
  rw [digest, h, String.length_ofList, hlength]

/-- The envelope of at most 32 pieces fits. -/
theorem size_envelope {size : Int} (hlo : 0 ≤ size) (hhi : size ≤ maxPartitionDecodedBytes)
    (value : Json) {packed : List UInt8} (hpacked : packed.length ≤ 752000) :
    (envelope size (digest value) (base64 packed)).canonicalSize ≤ maxPartitionBytes := by
  have hsize : (Json.int size).size ≤ 7 := by
    apply Json.size_int_le (by decide) hlo
    have hmax : (maxPartitionDecodedBytes : Int) = 2097152 := rfl
    omega
  have hdigest : (Json.str (digest value)).size = 66 := size_sha256 _
  have hdata := size_base64 packed
  have hencoding : (Json.str "zlib-json-v1").size = 14 := rfl
  rw [Json.canonicalSize_eq, envelope, Json.size_fields (List.cons_ne_nil _ _)]
  simp only [Json.valuesSize_cons, Json.valuesSize_nil, hencoding, hdigest, hdata]
  have hframe : Json.frameSize ["encoding", "decoded_bytes", "sha256", "data"] = 48 := by decide
  simp only [List.map_cons, List.map_nil, hframe]
  have hmax : maxPartitionBytes = 1048576 := rfl
  omega

/-- zlib's own `compressBound`. -/
def compressBound (n : Nat) : Nat := n + n / 4096 + n / 16384 + n / 33554432 + 13

/-- The runtime's codec keeps the document: what was compressed inflates and parses to it. -/
structure Codec.Keeps (codec : Codec) (value : Json) : Prop where
  inflate : codec.inflate (codec.compress value.canonical) = some value.canonical
  loads : codec.loads value.canonical = some value
  bound : (codec.compress value.canonical).length ≤ compressBound value.canonicalSize

/-- Parts that are stored under the identities of their manifest. -/
structure Staged (codec : Codec) (reader : Reader) (value : Json) (binding : Binding)
    (itemCount : Int) (manifest : Manifest) : Prop where
  keeps : codec.Keeps value
  written : ∃ parts storageIds, partitionEvidence codec value binding itemCount = .ok parts ∧
    evidenceManifest value binding itemCount parts storageIds = .ok manifest ∧
    ∀ entry ∈ storageIds.zip parts,
      reader entry.1 = some ⟨entry.2.toDocument, binding.producer⟩

section ReadBack
variable {codec : Codec} {reader : Reader} {budget : EvidenceReadBudget} {looks : Looks}

/-- The deadline is not reached at any of these looks. -/
def Live (budget : EvidenceReadBudget) (looks : Looks) (start stop : Nat) : Prop :=
  ∀ k, start ≤ k → k < stop → (looks k).now < budget.deadline

theorem Live.mono {start stop first last : Nat} (h : Live budget looks start stop)
    (hfirst : start ≤ first) (hlast : last ≤ stop) : Live budget looks first last := by
  intro k hk hlt
  apply h k
  · omega
  · omega

theorem check_ok {c : Clock} (h : c.now < budget.deadline) : budget.check c = .ok () :=
  if_neg (by omega)

/-- How a manifest refers to a part that is stored under an identity. -/
def referenceOf (entry : String × Part) : PartReference where
  storageId := entry.1
  bytes := entry.2.toDocument.canonicalSize
  sha256 := digest entry.2.toDocument

/-- One piece, as the writer frames it. -/
def framed (bindingSha256 inventorySha256 : String) (count : Nat) (piece : List UInt8 × Nat) :
    Part where
  bindingSha256 := bindingSha256
  inventorySha256 := inventorySha256
  index := piece.2
  count := count
  data := base64 piece.1

theorem loadPart_ok {identity producer : String} {document : Json}
    (h : reader identity = some ⟨document, producer⟩) :
    loadPart reader identity producer = .ok document := by
  unfold loadPart
  rw [h]
  exact if_pos rfl

theorem openPart_ok {manifest : Manifest} (bindingSha256 identity : String) {index : Nat}
    {count : Nat} {piece : List UInt8} (hcount : 1 ≤ count ∧ count ≤ maxParts)
    (hlength : manifest.parts.length = count) (hindex : index < count) (hpiece : piece.length ≤ packedChunkBytes) :
    openPart manifest bindingSha256 index
        (referenceOf (identity,
          framed bindingSha256 manifest.sha256 count (piece, index)))
        (framed bindingSha256 manifest.sha256 count (piece, index)).toDocument =
      .ok piece := by
  have hmax : maxParts = 32 := rfl
  have hdata : decide ((base64 piece).length ≤ maxPartBytes) = true := by
    rw [decide_eq_true_eq, base64_length]
    have hchunk : packedChunkBytes = 23500 := rfl
    have hbound : maxPartBytes = 32768 := rfl
    omega
  have hunpack : unpack (base64 piece) = .ok piece := by
    unfold unpack
    rw [base64_decode]
  unfold openPart
  rw [ensure_bind (p := Json.hasKeys partKeys _ = true) rfl]
  simp only [framed, Part.toDocument, Json.get?, Json.field?_cons, String.reduceEq, if_true,
    if_false]
  rw [partData, ok_bind (readText_ok hdata), ensure_bind ⟨rfl, rfl, trivial, trivial, trivial⟩,
    ok_bind (integer_ok (by omega) (by omega)), ensure_bind rfl,
    ok_bind (integer_ok (by omega) (by omega)), ensure_bind (by omega)]
  exact hunpack

/-- Reading goes on from any piece: the pieces follow in their order. -/
theorem readParts_ok {manifest : Manifest} {bindingSha256 : String} {pieces : List (List UInt8)}
    {count : Nat} (packed : List UInt8) (ids : List String) (index look : Nat)
    (hcount : 1 ≤ count ∧ count ≤ maxParts) (hlength : manifest.parts.length = count)
    (hids : ids.length = pieces.length) (hindex : index + pieces.length = count)
    (hpieces : ∀ piece ∈ pieces, piece.length ≤ packedChunkBytes)
    (hstored : ∀ entry ∈ ids.zip ((pieces.zipIdx index).map
        (framed bindingSha256 manifest.sha256 count)),
      reader entry.1 = some ⟨entry.2.toDocument, manifest.binding.producer⟩)
    (hlive : Live budget looks look (look + 2 * pieces.length)) :
    readParts reader budget looks manifest bindingSha256 index look packed
        ((ids.zip ((pieces.zipIdx index).map
          (framed bindingSha256 manifest.sha256 count))).map referenceOf) =
      .ok (packed ++ pieces.flatten, look + 2 * pieces.length) := by
  induction pieces generalizing packed ids index look with
  | nil =>
    cases ids with
    | nil => simp [readParts]
    | cons id ids => cases hids
  | cons piece pieces ih =>
    cases ids with
    | nil => cases hids
    | cons id ids =>
      rw [List.length_cons] at hindex hlive
      rw [List.zipIdx_cons, List.map_cons, List.zip_cons_cons] at hstored ⊢
      have hfirst : loadPart reader (referenceOf (id, framed bindingSha256 manifest.sha256
          count (piece, index))).storageId manifest.binding.producer = .ok _ :=
        loadPart_ok (hstored _ List.mem_cons_self)
      have hlook := check_ok (hlive look (le_refl _) (by omega))
      have hagain := check_ok (hlive (look + 1) (by omega) (by omega))
      have hpart := openPart_ok bindingSha256 id hcount hlength (show index < count by omega)
        (hpieces piece List.mem_cons_self)
      have hrest := ih (packed ++ piece) ids (index + 1) (look + 2) (by simpa using hids) (by omega)
        (fun p hp => hpieces p (List.mem_cons_of_mem _ hp))
        (fun entry hentry => hstored entry (List.mem_cons_of_mem _ hentry))
        (hlive.mono (by omega) (by omega))
      rw [List.map_cons, readParts, ok_bind hlook, ok_bind hfirst, ok_bind hagain,
        ok_bind hpart, hrest, List.flatten_cons, List.append_assoc, List.length_cons]
      congr 2
      omega

theorem decodeEvidence_ok {value : Json} (hkeeps : codec.Keeps value)
    (hsize : 0 < value.canonicalSize ∧ value.canonicalSize ≤ maxPartitionDecodedBytes)
    (hpacked : (codec.compress value.canonical).length ≤ 752000) :
    decodeEvidence codec value.canonicalSize (digest value)
        (base64 (codec.compress value.canonical)) maxPartitionBytes maxPartitionDecodedBytes =
      .ok value := by
  have hlength := base64_length (codec.compress value.canonical)
  have hmax : maxPartitionBytes = 1048576 := rfl
  have henvelope : (envelope value.canonicalSize (digest value)
      (base64 (codec.compress value.canonical))).canonicalSize ≤ maxPartitionBytes :=
    size_envelope (by omega) (by exact_mod_cast hsize.2) value hpacked
  have hdecoded : decoded codec (codec.compress value.canonical) value.canonicalSize
      (digest value) = some value := by
    unfold decoded
    rw [hkeeps.inflate]
    simp [Json.encode_canonical, digest, hkeeps.loads, guard]
  unfold decodeEvidence
  rw [ensure_bind ⟨by omega, by exact_mod_cast hsize.2, length_digest value, by omega, henvelope⟩,
    base64_decode, Option.bind_some, hdecoded]

/-- The pieces a document is stored in. -/
def Codec.pieces (codec : Codec) (value : Json) : List (List UInt8) :=
  chunks packedChunkBytes (codec.compress value.canonical)

/-- What the writer leaves: a valid manifest of the document's pieces, each under its identity. -/
structure Staged.Spec (codec : Codec) (reader : Reader) (value : Json) (binding : Binding)
    (itemCount : Int) (manifest : Manifest) (ids : List String) : Prop where
  valid : manifest.Valid
  binding_eq : manifest.binding = binding
  itemCount_eq : manifest.itemCount = itemCount
  sha256_eq : manifest.sha256 = digest value
  decoded_eq : manifest.decodedBytes = value.canonicalSize
  parts_eq : manifest.parts = (ids.zip (((codec.pieces value).zipIdx 0).map
    (framed (digest binding.toDocument) (digest value) (codec.pieces value).length))).map referenceOf
  ids_length : ids.length = (codec.pieces value).length
  size : 0 < value.canonicalSize ∧ value.canonicalSize ≤ maxPartitionDecodedBytes
  stored : ∀ entry ∈ ids.zip (((codec.pieces value).zipIdx 0).map
      (framed (digest binding.toDocument) (digest value) (codec.pieces value).length)),
    reader entry.1 = some ⟨entry.2.toDocument, binding.producer⟩

theorem Staged.spec {value : Json} {binding : Binding} {itemCount : Int} {manifest : Manifest}
    (h : Staged codec reader value binding itemCount manifest) :
    ∃ ids, Staged.Spec codec reader value binding itemCount manifest ids := by
  obtain ⟨_, parts, ids, hparts, hmanifest, hstored⟩ := h
  unfold partitionEvidence at hparts
  obtain ⟨checked, hbinding, h1⟩ := bind_ok hparts
  obtain ⟨_, _, h2⟩ := bind_ok h1
  obtain ⟨_, hsize, h3⟩ := bind_ok h2
  obtain ⟨_, hpieces, h4⟩ := bind_ok h3
  obtain ⟨_, _, h5⟩ := bind_ok h4
  have hsize := ensure_inv hsize
  cases h5
  obtain ⟨rfl, _⟩ := validateBinding_inv hbinding
  unfold evidenceManifest at hmanifest
  obtain ⟨_, hids, hvalidated⟩ := bind_ok hmanifest
  have hids := ensure_inv hids
  obtain ⟨rfl, hvalid⟩ := validateManifest_inv hvalidated
  rw [partsOf, List.length_map, List.length_zipIdx] at hids
  exact ⟨ids, hvalid, rfl, rfl, rfl, rfl, rfl, hids.symm, hsize, hstored⟩

theorem Staged.Spec.length {value : Json} {binding : Binding} {itemCount : Int}
    {manifest : Manifest} {ids : List String}
    (h : Staged.Spec codec reader value binding itemCount manifest ids) :
    manifest.parts.length = (codec.pieces value).length := by
  rw [h.parts_eq, List.length_map, List.length_zip, List.length_map, List.length_zipIdx,
    h.ids_length, min_self]

theorem flatten_length_le {α : Type} {pieces : List (List α)} {size : Nat}
    (h : ∀ piece ∈ pieces, piece.length ≤ size) : pieces.flatten.length ≤ pieces.length * size := by
  induction pieces with
  | nil => simp
  | cons piece pieces ih =>
    have hfirst := h piece List.mem_cons_self
    have hrest := ih fun p hp => h p (List.mem_cons_of_mem _ hp)
    rw [List.flatten_cons, List.length_append, List.length_cons, Nat.succ_mul]
    omega

/-- What was staged is read back: the very document, with two looks at the clock for each part. -/
theorem readPartitionedEvidence_ok {value : Json} {binding : Binding} {itemCount : Int}
    {manifest : Manifest} (hstaged : Staged codec reader value binding itemCount manifest)
    {look : Nat} (hlive : Live budget looks look (look + 2 * manifest.parts.length)) :
    readPartitionedEvidence codec reader budget looks manifest.toDocument binding look =
      .ok (value, look + 2 * manifest.parts.length) := by
  obtain ⟨ids, hspec⟩ := hstaged.spec
  have hlength := hspec.length
  have hcount : 1 ≤ (codec.pieces value).length ∧ (codec.pieces value).length ≤ maxParts := by
    rw [← hlength]
    exact hspec.valid.count
  have hpieces : ∀ piece ∈ codec.pieces value, piece.length ≤ packedChunkBytes :=
    fun _ => chunks_length_le
  have hflatten : (codec.pieces value).flatten = codec.compress value.canonical :=
    flatten_chunks (by decide) _
  have hpacked : (codec.compress value.canonical).length ≤ 752000 := by
    have hle := flatten_length_le hpieces
    rw [hflatten] at hle
    have hmax : maxParts = 32 := rfl
    have hchunk : packedChunkBytes = 23500 := rfl
    rw [hchunk] at hle
    omega
  have hstored := hspec.stored
  rw [← hspec.sha256_eq, ← hspec.binding_eq] at hstored
  have hlooks := hlive
  rw [hlength] at hlooks
  have hread := readParts_ok [] ids 0 look hcount hlength hspec.ids_length (Nat.zero_add _) hpieces
    hstored hlooks
  rw [hspec.sha256_eq, hspec.binding_eq, ← hspec.parts_eq, List.nil_append, hflatten] at hread
  unfold readPartitionedEvidence
  rw [ok_bind (validateManifest_ok hspec.valid), ensure_bind hspec.binding_eq, hspec.binding_eq,
    ok_bind hread]
  dsimp only
  rw [hspec.decoded_eq, hspec.sha256_eq,
    ok_bind (decodeEvidence_ok hstaged.keeps hspec.size hpacked), hlength]
  rfl

end ReadBack

end ReviewSensei.Evidence
