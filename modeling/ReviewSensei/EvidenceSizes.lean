import ReviewSensei.EvidenceSteps

/-! How large the manifest of a document in one part can get. -/
namespace ReviewSensei.Evidence
open Session (isHexText isSha256 isGitSha isHexDigit isAsciiAlnum)
open Sha256 (encode)
open Json (isPlain isPlainByte)
open Holds (isNamePair isProducer isStorageId isNameByte isDigitByte)

/-- A text of so many plain bytes at most. -/
def PlainUpTo (n : Nat) (s : String) : Prop := isPlain s = true ∧ (encode s).length ≤ n

theorem PlainUpTo.size_le {n : Nat} {s : String} (h : PlainUpTo n s) : (Json.str s).size ≤ n + 2 := by
  have hsize := Json.size_text h.1
  have hlength := h.2
  omega

theorem plain_bytes {accepts : Nat → Bool} {bytes : List Nat}
    (h : ∀ b, accepts b = true → isPlainByte b = true) (hbytes : bytes.all accepts = true) :
    bytes.all isPlainByte = true := by
  rw [List.all_eq_true] at hbytes ⊢
  exact fun b hb => h b (hbytes b hb)

theorem hexDigit_plain (b : Nat) (h : isHexDigit b = true) : isPlainByte b = true := by
  simp only [isHexDigit, isPlainByte, Bool.and_eq_true, Bool.or_eq_true, decide_eq_true_eq,
    bne_iff_ne, ne_eq] at h ⊢
  omega

theorem alnum_plain (b : Nat) (h : isAsciiAlnum b = true) : isPlainByte b = true := by
  simp only [isAsciiAlnum, isPlainByte, Bool.and_eq_true, Bool.or_eq_true, decide_eq_true_eq,
    bne_iff_ne, ne_eq] at h ⊢
  omega

theorem digit_plain (b : Nat) (h : isDigitByte b = true) : isPlainByte b = true := by
  simp only [isDigitByte, isPlainByte, Bool.and_eq_true, decide_eq_true_eq, bne_iff_ne, ne_eq]
    at h ⊢
  omega

theorem hexText_plain {lo hi : Nat} {s : String} (h : isHexText lo hi s = true) :
    PlainUpTo hi s := by
  simp only [isHexText, Bool.and_eq_true, decide_eq_true_eq] at h
  exact ⟨plain_bytes hexDigit_plain h.2, h.1.2⟩

theorem nameByte_plain (b : Nat) (h : isNameByte b = true) : isPlainByte b = true := by
  simp only [isNameByte, Bool.or_eq_true] at h
  rcases h with h | h
  · exact alnum_plain b h
  · simp only [List.contains_eq_mem, List.mem_cons, List.not_mem_nil, or_false,
      decide_eq_true_eq] at h
    rcases h with rfl | rfl | rfl <;> decide

theorem repository_plain {s : String} (h : isRepository s = true) : PlainUpTo 256 s := by
  simp only [isRepository, Bool.and_eq_true, decide_eq_true_eq] at h
  refine ⟨?_, h.2⟩
  have hpair := h.1
  unfold isNamePair at hpair
  split at hpair
  · rename_i owner name hsplit
    have hjoin : [0x2f].intercalate ((encode s).splitOn 0x2f) = encode s :=
      List.intercalate_splitOn _
    rw [hsplit] at hjoin
    simp only [Bool.and_eq_true, List.all_append] at hpair
    have hbytes : encode s = owner ++ 0x2f :: name := by
      rw [← hjoin]
      simp [List.intercalate]
    have hslash : isPlainByte 0x2f = true := by decide
    have howner := plain_bytes nameByte_plain hpair.2.1
    have hname := plain_bytes nameByte_plain hpair.2.2
    rw [isPlain, hbytes, List.all_append, List.all_cons, howner, hname, hslash]
    rfl
  · cases hpair

theorem producer_plain {s : String} (h : isProducer s = true) : PlainUpTo 30 s := by
  have hprefix : encode "github-bot:" = [103, 105, 116, 104, 117, 98, 45, 98, 111, 116, 58] := by
    decide
  have hplain : (encode "github-bot:").all isPlainByte = true := by decide
  unfold isProducer at h
  simp only [Bool.or_eq_true, Bool.and_eq_true, decide_eq_true_eq] at h
  rcases h with rfl | h
  · exact ⟨by decide, by decide⟩
  · obtain ⟨rest, hrest⟩ := List.isPrefixOf_iff_prefix.mp h.1.1.1.1
    rw [← hrest, List.drop_left] at h
    have hdigits := plain_bytes digit_plain h.1.1.1.2
    constructor
    · rw [isPlain, ← hrest, List.all_append, hplain, hdigits]
      rfl
    · rw [← hrest, List.length_append, hprefix]
      simp only [List.length_cons, List.length_nil]
      omega

theorem storageId_plain {s : String} (h : isStorageId s = true) : PlainUpTo 64 s := by
  simp only [isStorageId, Bool.and_eq_true, decide_eq_true_eq] at h
  refine ⟨plain_bytes ?_ h.2, h.1.2⟩
  intro b hb
  rw [Bool.or_eq_true] at hb
  rcases hb with hb | hb
  · exact alnum_plain b hb
  · simp only [List.contains_eq_mem, List.mem_cons, List.not_mem_nil, or_false,
      decide_eq_true_eq] at hb
    rcases hb with rfl | rfl <;> decide

theorem purpose_plain {s : String} (h : purposes.contains s = true) : PlainUpTo 15 s := by
  have hall : ∀ p ∈ purposes, isPlain p = true ∧ (encode p).length ≤ 15 := by decide
  rw [List.contains_eq_mem, decide_eq_true_eq] at h
  exact hall s h

theorem size_optionalInt {value : Option Int}
    (h : ∀ i, value = some i → 1 ≤ i ∧ i ≤ 2147483647) : (optionalInt value).size ≤ 10 := by
  cases value with
  | none => decide
  | some i =>
    obtain ⟨hlo, hhi⟩ := h i rfl
    apply Json.size_int_le (by decide)
    · omega
    · omega

theorem Binding.Valid.size_le {b : Binding} (h : b.Valid) : b.toDocument.size ≤ 726 := by
  have hframe : Json.frameSize bindingKeys = 168 := by decide
  have hrepository := (repository_plain h.repository).size_le
  have hid := size_optionalInt h.repositoryId
  have hpull : (Json.int b.pullRequest).size ≤ 10 := by
    obtain ⟨hlo, hhi⟩ := h.pullRequest
    apply Json.size_int_le (by decide)
    · omega
    · omega
  have hgeneration : (Json.int b.generation).size ≤ 10 := by
    obtain ⟨hlo, hhi⟩ := h.generation
    apply Json.size_int_le (by decide)
    · omega
    · omega
  have hbase := (hexText_plain h.baseSha).size_le
  have hhead := (hexText_plain h.headSha).size_le
  have hpolicy := (hexText_plain h.policyDigest).size_le
  have hconfiguration := (hexText_plain h.configurationDigest).size_le
  have hproducer := (producer_plain h.producer).size_le
  have hpurpose := (purpose_plain h.purpose).size_le
  have hversion : (Json.str "1.0").size = 5 := by decide
  rw [Binding.toDocument, Json.size_fields (List.cons_ne_nil _ _)]
  simp only [List.map_cons, List.map_nil, Json.valuesSize_cons, Json.valuesSize_nil, hversion]
  change Json.frameSize bindingKeys + _ ≤ _
  omega

theorem PartReference.Valid.size_le {r : PartReference} (h : r.Valid) :
    r.toDocument.size ≤ 171 := by
  obtain ⟨hid, ⟨hlo, hhi⟩, hsha⟩ := h
  have hframe : Json.frameSize ["storage_id", "bytes", "sha256"] = 34 := by decide
  have hidsize := (storageId_plain hid).size_le
  have hshasize := (hexText_plain hsha).size_le
  have hbytes : (Json.int r.bytes).size ≤ 5 := by
    have hmax : (maxPartBytes : Int) = 32768 := rfl
    have hreserve : (partFramingReserve : Int) = 512 := rfl
    apply Json.size_int_le (by decide)
    · omega
    · omega
  rw [PartReference.toDocument, Json.size_fields (List.cons_ne_nil _ _)]
  simp only [List.map_cons, List.map_nil, Json.valuesSize_cons, Json.valuesSize_nil, hframe]
  omega

theorem size_parts_le {parts : List PartReference} (h : ∀ r ∈ parts, r.Valid) :
    (Json.arr (parts.map PartReference.toDocument)).size ≤ 172 * parts.length + 2 := by
  have hsum : ∀ rs : List PartReference, (∀ r ∈ rs, r.Valid) →
      ((rs.map PartReference.toDocument).map (fun k => k.size + 1)).sum ≤ 172 * rs.length := by
    intro rs hrs
    induction rs with
    | nil => exact Nat.le_refl _
    | cons r rs ih =>
      have hfirst := (hrs r List.mem_cons_self).size_le
      have hrest := ih (fun q hq => hrs q (List.mem_cons_of_mem _ hq))
      simp only [List.map_cons, List.sum_cons, List.length_cons] at hrest ⊢
      omega
  cases parts with
  | nil => exact Nat.le_refl _
  | cons r rs =>
    have hle := hsum (r :: rs) h
    rw [List.map_cons, Json.size_arr, Json.itemsSize_eq, ← List.map_cons]
    omega

/-- The manifest of a document, by the number of its parts. -/
theorem Manifest.Fields.size_le {m : Manifest} (h : m.Fields) :
    m.toDocument.size ≤ 924 + 172 * m.parts.length := by
  have hframe : Json.frameSize manifestKeys = 91 := by decide
  have hencoding : (Json.str partitionEncoding).size = 21 := by decide
  have hbinding := h.binding.size_le
  have hcount : (Json.int m.itemCount).size ≤ 4 := by
    obtain ⟨hlo, hhi⟩ := h.itemCount
    apply Json.size_int_le (by decide)
    · omega
    · omega
  have hdecoded : (Json.int m.decodedBytes).size ≤ 7 := by
    obtain ⟨hlo, hhi⟩ := h.decodedBytes
    have hmax : (maxPartitionDecodedBytes : Int) = 2097152 := rfl
    apply Json.size_int_le (by decide)
    · omega
    · omega
  have hencoded : (Json.int m.encodedBytes).size ≤ 7 := by
    obtain ⟨hlo, hhi⟩ := h.encodedBytes
    have hmax : (maxPartitionBytes : Int) = 1048576 := rfl
    apply Json.size_int_le (by decide)
    · omega
    · omega
  have hsha := (hexText_plain h.sha256).size_le
  have hparts := size_parts_le h.parts
  rw [Manifest.toDocument, Json.size_fields (List.cons_ne_nil _ _)]
  simp only [List.map_cons, List.map_nil, Json.valuesSize_cons, Json.valuesSize_nil, hencoding]
  change Json.frameSize manifestKeys + _ ≤ _
  omega

/-- A document of up to 16 KiB is stored in one part. -/
theorem Staged.one_part {codec : Codec} {reader : Reader} {value : Json} {binding : Binding}
    {itemCount : Int} {manifest : Manifest}
    (h : Staged codec reader value binding itemCount manifest) (hsize : value.canonicalSize ≤ 16384) :
    manifest.parts.length = 1 := by
  have hbound := h.keeps.bound
  obtain ⟨ids, hspec⟩ := h.spec
  have hlength := hspec.length
  have hcount := hspec.valid.count.1
  rw [Codec.pieces, chunks, List.length_map, List.length_range] at hlength
  have hchunk : packedChunkBytes = 23500 := rfl
  rw [hchunk] at hlength
  unfold compressBound at hbound
  omega

/-- A document of up to 16 KiB, packed within the bound, frames into one part that fits. -/
theorem size_framed {bindingSha256 inventorySha256 : String} {packed : List UInt8}
    (hbinding : isSha256 bindingSha256 = true) (hinventory : isSha256 inventorySha256 = true)
    (hpacked : packed.length ≤ 17000) :
    (framed bindingSha256 inventorySha256 1 (packed, 0)).toDocument.canonicalSize ≤ 23000 := by
  have hframe : Json.frameSize partKeys = 77 := by decide
  have hencoding : (Json.str partEncoding).size = 18 := by decide
  have hbindingsize := (hexText_plain hbinding).size_le
  have hinventorysize := (hexText_plain hinventory).size_le
  have hdata := size_base64 packed
  have hindex : (Json.int (0 : Nat)).size = 1 := by decide
  have hcount : (Json.int (1 : Nat)).size = 1 := by decide
  rw [Json.canonicalSize_eq, framed, Part.toDocument, Json.size_fields (List.cons_ne_nil _ _)]
  simp only [List.map_cons, List.map_nil, Json.valuesSize_cons, Json.valuesSize_nil, hencoding,
    hindex, hcount, hdata]
  change Json.frameSize partKeys + _ ≤ _
  omega

theorem chunks_one {α : Type} {size : Nat} {packed : List α} (hne : packed ≠ [])
    (hsize : packed.length ≤ size) : chunks size packed = [packed] := by
  have hpos := List.length_pos_iff.mpr hne
  have hdiv : (packed.length + size - 1) / size = 1 := by
    apply Nat.div_eq_of_lt_le <;> omega
  rw [chunks, hdiv]
  simp [List.take_of_length_le hsize]

/-- The one part of a small document. -/
def onePart (codec : Codec) (value : Json) (binding : Binding) : Part :=
  framed (digest binding.toDocument) (digest value) 1 (codec.compress value.canonical, 0)

/-- Whatever fits into 16 KiB can be staged, under any storage identity. -/
theorem staging_succeeds {codec : Codec} {value : Json} {binding : Binding} (storageId : String)
    (hbinding : binding.Valid) (hkeeps : codec.Keeps value)
    (hne : codec.compress value.canonical ≠ [])
    (hsize : 0 < value.canonicalSize ∧ value.canonicalSize ≤ 16384)
    (hid : isStorageId storageId = true) :
    partitionEvidence codec value binding 1 = .ok [onePart codec value binding] ∧
      evidenceManifest value binding 1 [onePart codec value binding] [storageId] =
        .ok (manifestOf value binding 1 [onePart codec value binding] [storageId]) := by
  have hpacked : (codec.compress value.canonical).length ≤ 17000 := by
    have hbound := hkeeps.bound
    unfold compressBound at hbound
    omega
  have hchunks : chunks packedChunkBytes (codec.compress value.canonical) =
      [codec.compress value.canonical] :=
    chunks_one hne (le_trans hpacked (by decide))
  let part := onePart codec value binding
  have hparts : partsOf (digest binding.toDocument) (digest value)
      [codec.compress value.canonical] = [part] := rfl
  have hframed : part.toDocument.canonicalSize ≤ 23000 :=
    size_framed (isSha256_sha256 _) (isSha256_sha256 _) hpacked
  have hpos : 1 ≤ part.toDocument.canonicalSize := by
    rw [Json.canonicalSize_eq]
    change 1 ≤ (Json.obj _).size
    rw [Json.size_obj]
    omega
  have hreserve : partFramingReserve = 512 := rfl
  have hmaxpart : maxPartBytes = 32768 := rfl
  have hmaxall : maxPartitionBytes = 1048576 := rfl
  have hmaxdecoded : maxPartitionDecodedBytes = 2097152 := rfl
  have hfits : (∀ p ∈ [part], framedBytes p ≤ maxPartBytes) ∧
      ([part].map framedBytes).sum ≤ maxPartitionBytes := by
    rw [List.map_singleton, List.sum_singleton]
    unfold framedBytes
    refine ⟨?_, by omega⟩
    intro p hp
    rw [List.mem_singleton] at hp
    subst hp
    omega
  refine ⟨?_, ?_⟩
  · unfold partitionEvidence
    rw [ok_bind (validateBinding_ok hbinding), ok_bind (integer_ok (by decide) (by decide)),
      ensure_bind ⟨hsize.1, by omega⟩]
    dsimp only
    have hone : [codec.compress value.canonical].length ≤ maxParts := Nat.le_of_ble_eq_true rfl
    rw [hchunks, ensure_bind hone, hparts, ensure_bind hfits]
    rfl
  · have hfields : (manifestOf value binding 1 [part] [storageId]).Fields := by
      have hitems : (0 : Int) ≤ 1 ∧ (1 : Int) ≤ 4096 := by decide
      have hcount : 1 ≤ 1 ∧ 1 ≤ maxParts := by decide
      refine ⟨hbinding, hitems, ?_, ?_, isSha256_sha256 _, hcount, ?_, List.nodup_singleton _, ?_⟩
      · change (1 : Int) ≤ value.canonicalSize ∧ (value.canonicalSize : Int) ≤ maxPartitionDecodedBytes
        omega
      · change (1 : Int) ≤ (([part].map framedBytes).sum : Nat) ∧
          ((([part].map framedBytes).sum : Nat) : Int) ≤ maxPartitionBytes
        rw [List.map_singleton, List.sum_singleton]
        unfold framedBytes
        omega
      · intro r hr
        obtain rfl : r = referenceOf (storageId, part) := List.mem_singleton.mp hr
        refine ⟨hid, ?_, isSha256_sha256 _⟩
        change (1 : Int) ≤ part.toDocument.canonicalSize ∧
          (part.toDocument.canonicalSize : Int) ≤ (maxPartBytes : Int) - partFramingReserve
        omega
      · change referencedBytes [referenceOf (storageId, part)] =
          (([part].map framedBytes).sum : Nat)
        rw [referencedBytes, List.map_singleton, List.sum_singleton, List.map_singleton,
          List.sum_singleton]
        rfl
    have hmanifest : (manifestOf value binding 1 [part] [storageId]).Valid := by
      refine ⟨hfields, ?_⟩
      have hle := hfields.size_le
      have hone : (manifestOf value binding 1 [part] [storageId]).parts.length = 1 := rfl
      rw [hone] at hle
      rw [Json.canonicalSize_eq]
      exact le_trans hle (by decide)
    have hlength : [part].length = [storageId].length := rfl
    unfold evidenceManifest
    rw [ensure_bind hlength]
    exact validateManifest_ok hmanifest

end ReviewSensei.Evidence
