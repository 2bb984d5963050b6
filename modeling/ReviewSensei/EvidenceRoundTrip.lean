import ReviewSensei.EvidenceSizes
import Mathlib.Algebra.Order.BigOperators.Group.List
import Mathlib.Algebra.Order.Group.Nat

/-! Evidence that was preflighted and stored in parts: its manifest is valid, no bound of the reader
is tighter than those of the writer, and a store that was tampered with is refused. -/
namespace ReviewSensei.Evidence
open Session (isSha256 bind_ok)
open Sha256 (encode)
open Holds (isStorageId)
open ReadBudget (EvidenceReadBudget)

/-- What the writer's preflight found of a document. -/
structure Preflight (codec : Codec) (value : Json) (binding : Binding) (itemCount : Int)
    (parts : List Part) : Prop where
  bindingValid : binding.Valid
  items : 0 ≤ itemCount ∧ itemCount ≤ 4096
  size : 0 < value.canonicalSize ∧ value.canonicalSize ≤ maxPartitionDecodedBytes
  count : (codec.pieces value).length ≤ maxParts
  written : parts = partsOf (digest binding.toDocument) (digest value) (codec.pieces value)
  framed : ∀ p ∈ parts, framedBytes p ≤ maxPartBytes
  total : (parts.map framedBytes).sum ≤ maxPartitionBytes

theorem integer_some {lo hi i k : Int} (h : integer (some (.int i)) lo hi = .ok k) :
    lo ≤ i ∧ i ≤ hi := (integer_inv h).2

theorem partitionEvidence_inv {codec : Codec} {value : Json} {binding : Binding} {itemCount : Int}
    {parts : List Part} (h : partitionEvidence codec value binding itemCount = .ok parts) :
    Preflight codec value binding itemCount parts := by
  unfold partitionEvidence at h
  obtain ⟨checked, hbinding, h⟩ := bind_ok h
  obtain ⟨_, hcount, h⟩ := bind_ok h
  obtain ⟨_, hsize, h⟩ := bind_ok h
  obtain ⟨_, hpieces, h⟩ := bind_ok h
  obtain ⟨_, hframed, h⟩ := bind_ok h
  obtain rfl := Except.ok.inj h
  obtain ⟨rfl, hvalid⟩ := validateBinding_inv hbinding
  obtain ⟨hparts, htotal⟩ := ensure_inv hframed
  exact ⟨hvalid, integer_some hcount, ensure_inv hsize, ensure_inv hpieces, rfl, hparts, htotal⟩

/-- The parts of a document, stored under identities of their own. -/
structure Stored (codec : Codec) (reader : Reader) (value : Json) (binding : Binding)
    (itemCount : Int) (parts : List Part) (ids : List String) : Prop where
  keeps : codec.Keeps value
  packed : codec.compress value.canonical ≠ []
  written : partitionEvidence codec value binding itemCount = .ok parts
  length : parts.length = ids.length
  valid : ∀ id ∈ ids, isStorageId id = true
  distinct : ids.Nodup
  stored : ∀ entry ∈ ids.zip parts, reader entry.1 = some ⟨entry.2.toDocument, binding.producer⟩

section Manifest
variable {codec : Codec} {reader : Reader} {value : Json} {binding : Binding} {itemCount : Int}
  {parts : List Part} {ids : List String}

theorem pieces_ne_nil (h : codec.compress value.canonical ≠ []) :
    1 ≤ (codec.pieces value).length := by
  have hpos := List.length_pos_iff.mpr h
  rw [Codec.pieces, chunks, List.length_map, List.length_range]
  have hchunk : packedChunkBytes = 23500 := rfl
  rw [hchunk]
  omega

theorem Preflight.length (h : Preflight codec value binding itemCount parts) :
    parts.length = (codec.pieces value).length := by
  rw [h.written, partsOf, List.length_map, List.length_zipIdx]

/-- The bytes that the references add up to are those that the preflight added up. -/
theorem referencedBytes_framed (hlength : parts.length = ids.length) :
    referencedBytes ((ids.zip parts).map referenceOf) = ((parts.map framedBytes).sum : Nat) := by
  induction parts generalizing ids with
  | nil =>
    rw [List.zip_nil_right]
    rfl
  | cons p ps ih =>
    cases ids with
    | nil => cases hlength
    | cons id ids =>
      have hrest := ih (Nat.succ.inj hlength)
      simp only [referencedBytes, List.map_cons, List.sum_cons, List.zip_cons_cons, referenceOf,
        framedBytes] at hrest ⊢
      omega

theorem manifestOf_parts : (manifestOf value binding itemCount parts ids).parts =
    (ids.zip parts).map referenceOf := rfl

/-- The manifest of what passed the preflight is valid, however many parts it has. -/
theorem Stored.manifest_valid (h : Stored codec reader value binding itemCount parts ids) :
    (manifestOf value binding itemCount parts ids).Valid := by
  have hpre := partitionEvidence_inv h.written
  have hmax : maxParts = 32 := rfl
  have hreserve : partFramingReserve = 512 := rfl
  have hpartbytes : maxPartBytes = 32768 := rfl
  have hcount : 1 ≤ parts.length ∧ parts.length ≤ maxParts := by
    rw [hpre.length]
    exact ⟨pieces_ne_nil h.packed, hpre.count⟩
  have hrefs : (manifestOf value binding itemCount parts ids).parts.length = parts.length := by
    rw [manifestOf_parts, List.length_map, List.length_zip, h.length, min_self]
  have hids : (manifestOf value binding itemCount parts ids).parts.map PartReference.storageId =
      ids := by
    rw [manifestOf_parts, List.map_map]
    exact List.map_fst_zip h.length.ge
  have hsum := referencedBytes_framed h.length
  have hpos : 1 ≤ (parts.map framedBytes).sum := by
    obtain ⟨p, hp⟩ := List.exists_mem_of_length_pos hcount.1
    have hle := List.le_sum_of_mem (List.mem_map_of_mem (f := framedBytes) hp)
    unfold framedBytes at hle ⊢
    omega
  have hfields : (manifestOf value binding itemCount parts ids).Fields := by
    refine ⟨hpre.bindingValid, hpre.items, ?_, ?_, isSha256_sha256 _, hrefs.symm ▸ hcount, ?_,
      hids.symm ▸ h.distinct, hsum⟩
    · change (1 : Int) ≤ value.canonicalSize ∧
        (value.canonicalSize : Int) ≤ maxPartitionDecodedBytes
      have hsize := hpre.size
      omega
    · change (1 : Int) ≤ ((parts.map framedBytes).sum : Nat) ∧
        (((parts.map framedBytes).sum : Nat) : Int) ≤ maxPartitionBytes
      have htotal := hpre.total
      omega
    · intro r hr
      rw [manifestOf_parts, List.mem_map] at hr
      obtain ⟨⟨id, p⟩, hentry, rfl⟩ := hr
      obtain ⟨hid, hp⟩ := List.of_mem_zip hentry
      have hframed := hpre.framed p hp
      have hlow : 1 ≤ p.toDocument.canonicalSize := by
        rw [Json.canonicalSize_eq]
        change 1 ≤ (Json.obj _).size
        rw [Json.size_obj]
        omega
      unfold framedBytes at hframed
      refine ⟨h.valid id hid, ?_, isSha256_sha256 _⟩
      change (1 : Int) ≤ p.toDocument.canonicalSize ∧
        (p.toDocument.canonicalSize : Int) ≤ (maxPartBytes : Int) - partFramingReserve
      omega
  refine ⟨hfields, ?_⟩
  have hle := hfields.size_le
  have hmanifest : maxManifestBytes = 8192 := rfl
  rw [Json.canonicalSize_eq]
  omega

theorem Stored.manifest (h : Stored codec reader value binding itemCount parts ids) :
    evidenceManifest value binding itemCount parts ids =
      .ok (manifestOf value binding itemCount parts ids) := by
  rw [evidenceManifest, ensure_bind h.length]
  exact validateManifest_ok h.manifest_valid

theorem Stored.staged (h : Stored codec reader value binding itemCount parts ids) :
    Staged codec reader value binding itemCount (manifestOf value binding itemCount parts ids) :=
  ⟨h.keeps, parts, ids, h.written, h.manifest, h.stored⟩

/-- Every bound of the reader, for what passed the writer's bounds. -/
structure ReadBounds (codec : Codec) (value : Json) (parts : List Part) (manifest : Manifest) :
    Prop where
  part : ∀ p ∈ parts, p.toDocument.canonicalSize ≤ maxPartBytes - partFramingReserve ∧
    p.data.length ≤ maxPartBytes
  count : 1 ≤ manifest.parts.length ∧ manifest.parts.length ≤ maxParts
  document : manifest.toDocument.canonicalSize ≤ maxManifestBytes
  encoded : manifest.encodedBytes ≤ maxPartitionBytes
  envelope : (envelope value.canonicalSize (digest value)
    (base64 (codec.compress value.canonical))).canonicalSize ≤ maxPartitionBytes
  decoded : 0 < value.canonicalSize ∧ value.canonicalSize ≤ maxPartitionDecodedBytes

theorem packed_length_le (h : (codec.pieces value).length ≤ maxParts) :
    (codec.compress value.canonical).length ≤ 752000 := by
  have hpieces : ∀ piece ∈ codec.pieces value, piece.length ≤ packedChunkBytes :=
    fun _ => chunks_length_le
  have hflatten : (codec.pieces value).flatten = codec.compress value.canonical :=
    flatten_chunks (by decide) _
  have hle := flatten_length_le hpieces
  have hmax : maxParts = 32 := rfl
  have hchunk : packedChunkBytes = 23500 := rfl
  rw [hflatten, hchunk] at hle
  omega

theorem Stored.bounds (h : Stored codec reader value binding itemCount parts ids) :
    ReadBounds codec value parts (manifestOf value binding itemCount parts ids) := by
  have hpre := partitionEvidence_inv h.written
  have hvalid := h.manifest_valid
  refine ⟨?_, hvalid.count, hvalid.size, hvalid.encodedBytes.2, ?_, hpre.size⟩
  · intro p hp
    have hframed := hpre.framed p hp
    unfold framedBytes at hframed
    refine ⟨by omega, ?_⟩
    rw [hpre.written, partsOf, List.mem_map] at hp
    obtain ⟨⟨piece, k⟩, hpiece, rfl⟩ := hp
    have hlength : piece.length ≤ packedChunkBytes :=
      chunks_length_le (List.fst_mem_of_mem_zipIdx hpiece)
    change (base64 piece).length ≤ maxPartBytes
    rw [base64_length]
    have hchunk : packedChunkBytes = 23500 := rfl
    have hbound : maxPartBytes = 32768 := rfl
    omega
  · exact size_envelope (by omega) (by exact_mod_cast hpre.size.2) value
      (packed_length_le hpre.count)

end Manifest

section Tampering
variable {codec : Codec} {reader : Reader} {budget : EvidenceReadBudget} {looks : Looks}

/-- What a part has to say for the reader to take it. -/
structure Opens (manifest : Manifest) (bindingSha256 : String) (index : Nat)
    (reference : PartReference) (part : Json) : Prop where
  sha256 : digest part = reference.sha256
  bound : part.get? "binding_sha256" = some (.str bindingSha256)
  place : part.get? "index" = some (.int index)

theorem integer_eq {value : Option Json} {lo hi i : Int} (h : integer value lo hi = .ok i) :
    value = some (.int i) := (Json.readInteger_inv h).1

theorem openPart_inv {manifest : Manifest} {bindingSha256 : String} {index : Nat}
    {reference : PartReference} {part : Json} {bytes : List UInt8}
    (h : openPart manifest bindingSha256 index reference part = .ok bytes) :
    Opens manifest bindingSha256 index reference part := by
  obtain ⟨_, _, h⟩ := bind_ok h
  obtain ⟨_, _, h⟩ := bind_ok h
  obtain ⟨_, hintegrity, h⟩ := bind_ok h
  obtain ⟨position, hposition, h⟩ := bind_ok h
  obtain ⟨_, hindex, _⟩ := bind_ok h
  obtain ⟨_, hdigest, _, hbinding, _⟩ := ensure_inv hintegrity
  exact ⟨hdigest, hbinding, by rw [integer_eq hposition, ensure_inv hindex]⟩

theorem loadPart_inv {identity producer : String} {document : Json}
    (h : loadPart reader identity producer = .ok document) :
    reader identity = some ⟨document, producer⟩ := by
  unfold loadPart at h
  split at h
  next => cases h
  next loaded hloaded =>
    split at h
    next hproducer =>
      obtain rfl := Except.ok.inj h
      rw [hloaded, ← hproducer]
    next => cases h

/-- Every part that was read is the one that its reference names, at its own place. -/
theorem readParts_inv {manifest : Manifest} {bindingSha256 : String} {index look : Nat}
    {packed : List UInt8} {references : List PartReference} {result : List UInt8 × Nat}
    (h : readParts reader budget looks manifest bindingSha256 index look packed references =
      .ok result) {k : Nat} {reference : PartReference} (hk : references[k]? = some reference) :
    ∃ document, reader reference.storageId = some ⟨document, manifest.binding.producer⟩ ∧
      Opens manifest bindingSha256 (index + k) reference document := by
  induction references generalizing index look packed k with
  | nil => cases hk
  | cons first rest ih =>
    obtain ⟨_, _, h⟩ := bind_ok h
    obtain ⟨document, hdocument, h⟩ := bind_ok h
    obtain ⟨_, _, h⟩ := bind_ok h
    obtain ⟨bytes, hbytes, h⟩ := bind_ok h
    cases k with
    | zero =>
      obtain rfl : first = reference := Option.some.inj hk
      exact ⟨document, loadPart_inv hdocument, openPart_inv hbytes⟩
    | succ k =>
      obtain ⟨other, hother, hopens⟩ := ih h hk
      refine ⟨other, hother, ?_⟩
      have hplace : index + 1 + k = index + (k + 1) := by omega
      exact hplace ▸ hopens

/-- A store that does not return the parts that were written: one is missing, of another producer,
of another binding, at the place of another part, or another document altogether. -/
inductive Tampered (reader : Reader) (binding : Binding) (parts : List Part)
    (ids : List String) : Prop
  | missing {id : String} (hid : id ∈ ids) (h : reader id = none)
  | producer {id : String} {loaded : AuthenticatedPart} (hid : id ∈ ids)
    (h : reader id = some loaded) (hproducer : loaded.producer ≠ binding.producer)
  | binding {id : String} {loaded : AuthenticatedPart} (hid : id ∈ ids)
    (h : reader id = some loaded)
    (hbinding : loaded.document.get? "binding_sha256" ≠ some (.str (digest binding.toDocument)))
  | reordered {k j : Nat} {id producer : String} {part : Part} (hid : ids[k]? = some id)
    (hpart : parts[j]? = some part) (hplace : j ≠ k)
    (h : reader id = some ⟨part.toDocument, producer⟩)
  | substituted {id : String} {part : Part} {loaded : AuthenticatedPart}
    (hentry : (id, part) ∈ ids.zip parts) (h : reader id = some loaded)
    (hdocument : loaded.document.canonical ≠ part.toDocument.canonical)

/-- SHA-256 does not collide on a stored part and what the store returns for it. -/
def NoCollision (reader : Reader) (parts : List Part) (ids : List String) : Prop :=
  ∀ entry ∈ ids.zip parts, ∀ loaded, reader entry.1 = some loaded →
    digest loaded.document = digest entry.2.toDocument →
    loaded.document.canonical = entry.2.toDocument.canonical

theorem partsOf_index {bindingSha256 inventorySha256 : String} {pieces : List (List UInt8)}
    {j : Nat} {part : Part} (h : (partsOf bindingSha256 inventorySha256 pieces)[j]? = some part) :
    part.index = j := by
  rw [partsOf, List.getElem?_map, Option.map_eq_some_iff] at h
  obtain ⟨piece, hpiece, rfl⟩ := h
  rw [List.getElem?_zipIdx, Option.map_eq_some_iff] at hpiece
  obtain ⟨bytes, -, rfl⟩ := hpiece
  exact Nat.zero_add j

theorem not_read_error {α : Type} {x : Except String α} (h : ∀ a, x ≠ .ok a) :
    ∃ message, x = .error message := by
  cases x with
  | ok a => exact absurd rfl (h a)
  | error message => exact ⟨message, rfl⟩

/-- What was read under a manifest of these parts is what was written. -/
theorem read_untampered {value : Json} {binding expected : Binding} {itemCount : Int}
    {parts : List Part} {ids : List String} {look : Nat} {result : Json × Nat}
    (hlength : parts.length = ids.length)
    (hparts : parts = partsOf (digest binding.toDocument) (digest value) (codec.pieces value))
    (hcollision : NoCollision reader parts ids)
    (h : readPartitionedEvidence codec reader budget looks
      (manifestOf value binding itemCount parts ids).toDocument expected look = .ok result) :
    expected = binding ∧ ¬ Tampered reader binding parts ids := by
  obtain ⟨manifest, hmanifest, h⟩ := bind_ok h
  obtain ⟨rfl, hvalid⟩ := validateManifest_inv hmanifest
  obtain ⟨_, hexpected, h⟩ := bind_ok h
  obtain ⟨⟨packed, last⟩, hread, _⟩ := bind_ok h
  refine ⟨(ensure_inv hexpected).symm, ?_⟩
  -- each identity with its part and what the reader returned for it
  have hall : ∀ k id, ids[k]? = some id → ∃ part document, parts[k]? = some part ∧
      reader id = some ⟨document, binding.producer⟩ ∧
      Opens (manifestOf value binding itemCount parts ids) (digest binding.toDocument) k
        (referenceOf (id, part)) document := by
    intro k id hid
    obtain ⟨hk, -⟩ := List.getElem?_eq_some_iff.mp hid
    obtain ⟨part, hpart⟩ : ∃ part, parts[k]? = some part :=
      ⟨_, List.getElem?_eq_getElem (hlength ▸ hk)⟩
    have hentry : (ids.zip parts)[k]? = some (id, part) := by
      rw [List.getElem?_zip_eq_some]
      exact ⟨hid, hpart⟩
    have href : ((ids.zip parts).map referenceOf)[k]? = some (referenceOf (id, part)) := by
      rw [List.getElem?_map, hentry]
      rfl
    obtain ⟨document, hdocument, hopens⟩ := readParts_inv hread href
    rw [Nat.zero_add] at hopens
    exact ⟨_, document, hpart, hdocument, hopens⟩
  have hmem : ∀ id ∈ ids, ∃ k, ids[k]? = some id := fun id hid => List.mem_iff_getElem?.mp hid
  intro htampered
  cases htampered with
  | missing hid hnone =>
    obtain ⟨k, hk⟩ := hmem _ hid
    obtain ⟨part, document, -, hdocument, -⟩ := hall k _ hk
    rw [hnone] at hdocument
    cases hdocument
  | producer hid hloaded hproducer =>
    obtain ⟨k, hk⟩ := hmem _ hid
    obtain ⟨part, document, -, hdocument, -⟩ := hall k _ hk
    obtain rfl := Option.some.inj (hloaded.symm.trans hdocument)
    exact hproducer rfl
  | binding hid hloaded hbinding =>
    obtain ⟨k, hk⟩ := hmem _ hid
    obtain ⟨part, document, -, hdocument, hopens⟩ := hall k _ hk
    obtain rfl := Option.some.inj (hloaded.symm.trans hdocument)
    exact hbinding hopens.bound
  | reordered hid hpart hplace hloaded =>
    obtain ⟨other, document, -, hdocument, hopens⟩ := hall _ _ hid
    obtain ⟨rfl, -⟩ := AuthenticatedPart.mk.inj (Option.some.inj (hloaded.symm.trans hdocument))
    rw [hparts] at hpart
    have hindex := hopens.place
    simp only [Part.toDocument, Json.get?, Json.field?_cons, String.reduceEq, if_true, if_false,
      Option.some.injEq, Json.int.injEq] at hindex
    exact hplace ((partsOf_index hpart).symm.trans (Int.ofNat.inj hindex))
  | substituted hentry hloaded hdocument =>
    obtain ⟨k, hk⟩ := List.mem_iff_getElem?.mp hentry
    obtain ⟨hid, hpart⟩ := List.getElem?_zip_eq_some.mp hk
    obtain ⟨other, document, hother, hread', hopens⟩ := hall k _ hid
    obtain rfl := Option.some.inj (hpart.symm.trans hother)
    obtain rfl := Option.some.inj (hloaded.symm.trans hread')
    exact hdocument (hcollision _ hentry _ hloaded hopens.sha256)

end Tampering

section Sample

/-- What zlib makes of an empty array. -/
def emptyPacked : List UInt8 := [120, 218, 139, 142, 5, 0, 1, 21, 0, 185]

/-- A codec that knows the empty array only. -/
def emptyCodec : Codec where
  compress raw := if raw = "[]" then emptyPacked else []
  inflate bytes := if bytes = emptyPacked then some "[]" else none
  loads raw := if raw = "[]" then some (.arr []) else none

def roundTripBinding : Binding where
  repository := "o/r"
  repositoryId := none
  pullRequest := 1
  baseSha := "aaaaaaaaaaaaaaaaaaaaaaaaaaaaaaaaaaaaaaaa"
  headSha := "bbbbbbbbbbbbbbbbbbbbbbbbbbbbbbbbbbbbbbbb"
  policyDigest := "0000000000000000000000000000000000000000000000000000000000000000"
  configurationDigest := "0000000000000000000000000000000000000000000000000000000000000000"
  generation := 1
  producer := "local-ledger"
  purpose := "evidence"

def emptyPart : Part := onePart emptyCodec (.arr []) roundTripBinding

def emptyReader : Reader := fun id =>
  if id = "1" then some ⟨emptyPart.toDocument, roundTripBinding.producer⟩ else none

theorem emptyCodec_keeps : emptyCodec.Keeps (.arr []) := by
  have hcanonical : Json.canonical (.arr []) = "[]" := by decide
  constructor <;> rw [hcanonical] <;> decide

theorem roundTripBinding_valid : roundTripBinding.Valid := by
  have hone : (1 : Int) ≤ 1 ∧ (1 : Int) ≤ 2147483647 := by decide
  have hzero : (0 : Int) ≤ 1 ∧ (1 : Int) ≤ 2147483647 := by decide
  have hhash : isSha256 roundTripBinding.policyDigest = true := by decide
  exact ⟨rfl, nofun, hone, hzero, rfl, rfl, hhash, hhash, rfl, rfl⟩

theorem emptyStored :
    Stored emptyCodec emptyReader (.arr []) roundTripBinding 1 [emptyPart] ["1"] := by
  have hcanonical : Json.canonical (.arr []) = "[]" := by decide
  have hpacked : emptyCodec.compress (Json.canonical (.arr [])) ≠ [] := by
    rw [hcanonical]
    decide
  have hsize : 0 < Json.canonicalSize (.arr []) ∧ Json.canonicalSize (.arr []) ≤ 16384 := by
    decide
  obtain ⟨hwritten, -⟩ := staging_succeeds "1" roundTripBinding_valid emptyCodec_keeps hpacked
    hsize (by decide)
  refine ⟨emptyCodec_keeps, hpacked, hwritten, rfl, ?_, List.nodup_singleton _, ?_⟩
  · intro id hid
    rw [List.mem_singleton.mp hid]
    decide
  · intro entry hentry
    obtain rfl : entry = ("1", emptyPart) := List.mem_singleton.mp hentry
    exact if_pos rfl

end Sample
end ReviewSensei.Evidence
