import ReviewSensei.BaselineReading
import ReviewSensei.QueueStateRuns

/-! What a written history gives back, and which baselines have one history. -/
namespace ReviewSensei.Convergence
open Session (bind_ok)
open Evidence (Manifest validateManifest digest partitionEncoding)
open Assessment (Inverts encodedOf decodeDocument)
open Human (sorted)
open Review (CommentFields)

section Writing
variable {rules : AdmissionRules} {store : PartitionStore} {b b' : ReviewBaseline}
  {maxBytes : Nat} {stored : Json}

/-- What the store promises of a baseline: its reader returns what its writer stored, and the
manifest is bound to the review of the baseline and counts its document. -/
structure PartitionStore.Keeps (store : PartitionStore) (b : ReviewBaseline) : Prop where
  reads : ∀ writer ∈ store.writer, ∀ maxBytes stored,
    writer b.toDocument b.findings.length maxBytes = .ok stored →
      ∃ reader, store.reader = some reader ∧ reader stored = .ok b.toDocument
  binds : ∀ writer ∈ store.writer, ∀ maxBytes stored manifest,
    writer b.toDocument b.findings.length maxBytes = .ok stored →
      validateManifest stored = .ok manifest →
        manifest.binding.purpose = "baseline" ∧ Authorizes manifest b.toDocument b.evidence

theorem persistedForm_ok (h : persistedForm rules b = .ok stored) :
    stored = b.toDocument ∨ stored = encodedOf rules.codec b.toDocument := by
  unfold persistedForm at h
  split at h
  · exact .inl (Except.ok.inj h).symm
  · split at h
    · exact .inr (Assessment.encodeEvidence_inv h).1
    · exact .inl (Except.ok.inj h).symm

/-- The three forms of a history that was written. -/
theorem historyDocument_ok (h : historyDocument rules store b maxBytes true = .ok stored) :
    maxBytes ≤ maxHistoryBaselineBytes ∧ b.complete = true ∧ b.coverageComplete = true ∧
      b.toDocument.canonicalSize ≤ maxBaselineDecodedBytes ∧
      evidenceSchema b.toDocument = true ∧
      (stored = b.toDocument ∨
        (stored = encodedOf rules.codec b.toDocument ∧ stored.canonicalSize ≤ maxBytes) ∨
        writeParts store b maxBytes = .ok stored) := by
  unfold historyDocument at h
  obtain ⟨_, hmax, h⟩ := bind_ok h
  obtain ⟨_, _, h⟩ := bind_ok h
  obtain ⟨_, _, h⟩ := bind_ok h
  obtain ⟨_, _, h⟩ := bind_ok h
  obtain ⟨_, hcomplete, h⟩ := bind_ok h
  obtain ⟨persisted, hform, h⟩ := bind_ok h
  obtain ⟨_, hreasons, h⟩ := bind_ok h
  obtain ⟨_, hschema, h⟩ := bind_ok h
  obtain ⟨hcomplete, hcovered⟩ := ensure_inv hcomplete rfl
  have hdecoded : b.toDocument.canonicalSize ≤ maxBaselineDecodedBytes := by
    have hnone := (List.append_eq_nil_iff.mp (List.append_eq_nil_iff.mp (ensure_inv hreasons)).1).1
    by_contra hlarge
    rw [if_pos (Nat.lt_of_not_le hlarge)] at hnone
    cases hnone
  refine ⟨ensure_inv hmax, hcomplete, hcovered, hdecoded, ensure_inv hschema, ?_⟩
  split at h
  · exact .inr (.inr h)
  · next hfits =>
    obtain rfl := Except.ok.inj h
    rcases persistedForm_ok hform with hplain | hencoded
    · exact .inl hplain
    · exact .inr (.inl ⟨hencoded, Nat.le_of_not_lt hfits⟩)

theorem not_isLarge (hfew : b.findings.length ≤ legacyHistoryWriteFindings)
    (hsize : b.toDocument.canonicalSize ≤ maxHistoryBaselineBytes)
    (hwidths : identityOrPathCharacters b ≤ 256 ∧ symbolCharacters b ≤ 256 ∧
      defectKindCharacters b ≤ 128) : ¬ isLarge b := by
  unfold isLarge
  omega

/-- A small complete baseline is written as its document. -/
theorem historyDocument_small (hmax : maxBytes ≤ maxHistoryBaselineBytes)
    (hpaths : b.reviewedPaths.length ≤ maxCacheMetadataItems ∧
      b.relatedPaths.length ≤ maxRelatedPaths)
    (hcomplete : b.complete = true ∧ b.coverageComplete = true) (hsmall : ¬ isLarge b)
    (hfields : ¬ fieldsExceedBound b) (hschema : evidenceSchema b.toDocument = true)
    (hsize : b.toDocument.canonicalSize ≤ maxBytes) :
    historyDocument rules store b maxBytes true = .ok b.toDocument := by
  have hdecoded : ¬ maxBaselineDecodedBytes < b.toDocument.canonicalSize := by
    have hbound : maxHistoryBaselineBytes ≤ maxBaselineDecodedBytes := by decide
    omega
  have hform : persistedForm rules b = .ok b.toDocument := by
    unfold persistedForm
    rw [if_neg hdecoded, if_neg hsmall]
  have hreasons : persistenceReasons store b b.toDocument.canonicalSize maxBytes = [] := by
    unfold persistenceReasons
    rw [if_neg hdecoded, if_neg (fun h => Nat.not_lt_of_le hsize h.1), if_neg hfields]
    rfl
  unfold historyDocument
  rw [ensure_bind hmax, ensure_bind hpaths.1, ensure_bind hpaths.2, ensure_bind (fun _ => rfl),
    ensure_bind (fun _ => hcomplete), ok_bind hform, ensure_bind hreasons, ensure_bind hschema,
    if_neg (Nat.not_lt_of_le hsize)]
  rfl

theorem writeParts_ok (h : writeParts store b maxBytes = .ok stored) :
    ∃ writer manifest, store.writer = some writer ∧
      writer b.toDocument b.findings.length maxBytes = .ok stored ∧
      validateManifest stored = .ok manifest := by
  unfold writeParts at h
  split at h
  · cases h
  · next writer hwriter =>
    obtain ⟨persisted, hwritten, h⟩ := bind_ok h
    obtain ⟨manifest, hmanifest, h⟩ := bind_ok h
    obtain ⟨_, _, h⟩ := bind_ok h
    obtain rfl := Except.ok.inj h
    exact ⟨writer, manifest, hwriter, hwritten, hmanifest⟩

/-- A validated manifest is an object of its encoding. -/
theorem manifest_encoding {manifest : Manifest} (h : validateManifest stored = .ok manifest) :
    (∃ fields, stored = .obj fields) ∧ stored.get? "encoding" = some (.str partitionEncoding) := by
  unfold validateManifest at h
  obtain ⟨_, hshape, _⟩ := bind_ok h
  obtain ⟨hkeys, hencoding⟩ := ensure_inv hshape
  refine ⟨?_, hencoding⟩
  cases stored with
  | obj fields => exact ⟨fields, rfl⟩
  | _ => cases hkeys

/-- A history opens to the document it was written from. -/
theorem openHistory_stored (hinverts : Inverts rules.codec b.toDocument) (hkeeps : store.Keeps b)
    (h : historyDocument rules store b maxBytes true = .ok stored) :
    ∃ manifest, openHistory rules store stored = .ok (b.toDocument, manifest) ∧
      ∀ m ∈ manifest, Authorizes m b.toDocument b.evidence := by
  obtain ⟨hmax, _, _, hdecoded, _, hform⟩ := historyDocument_ok h
  rcases hform with hplain | ⟨hencoded, hsize⟩ | hparts
  · refine ⟨none, ?_, fun _ hm => nomatch hm⟩
    rw [hplain]
    rfl
  · refine ⟨none, ?_, fun _ hm => nomatch hm⟩
    have hpositive : 0 < b.toDocument.canonicalSize := by
      rw [Json.canonicalSize_eq, ReviewBaseline.toDocument, Json.size_obj]
      omega
    rw [hencoded, Json.canonicalSize_eq] at hsize
    have hread : decodeDocument rules.codec (encodedOf rules.codec b.toDocument)
        maxHistoryBaselineBytes maxBaselineDecodedBytes = .ok b.toDocument :=
      Assessment.decodeDocument_ok hinverts hpositive hdecoded (Nat.le_trans hsize hmax)
    have hother : (encodedOf rules.codec b.toDocument).get? "encoding" =
        some (.str Assessment.evidenceEncoding) := rfl
    rw [hencoded]
    unfold openHistory encodedOf
    dsimp only
    rw [encodedOf] at hother hread
    rw [hother, if_neg (by decide), if_pos Option.isSome_some, ok_bind hread]
    rfl
  · obtain ⟨writer, manifest, hwriter, hwritten, hmanifest⟩ := writeParts_ok hparts
    obtain ⟨reader, hreader, hread⟩ := hkeeps.reads writer hwriter _ _ hwritten
    obtain ⟨hpurpose, hauthority⟩ := hkeeps.binds writer hwriter _ _ _ hwritten hmanifest
    refine ⟨some manifest, ?_, fun m hm => Option.some.inj hm ▸ hauthority⟩
    obtain ⟨⟨fields, rfl⟩, hencoding⟩ := manifest_encoding hmanifest
    unfold openHistory
    dsimp only
    rw [if_pos hencoding, ok_bind hmanifest, hreader]
    dsimp only
    rw [ensure_bind hpurpose, ok_bind hread]
    rfl

theorem widest_perm {texts texts' : List String} (h : texts.Perm texts') :
    widest texts = widest texts' := by
  have hcomm : RightCommutative (max : Nat → Nat → Nat) := ⟨Nat.max_right_comm⟩
  exact (h.map String.length).foldl_eq 0

/-- The history is written from the document, the size of the inventory and the widths of its
texts. -/
theorem historyDocument_congr (h : SameEvidence b b') (hfindings : sortedFindings b'.findings =
    sortedFindings b.findings) (maxBytes : Nat) :
    historyDocument rules store b' maxBytes true = historyDocument rules store b maxBytes true := by
  have hdocument : b'.toDocument = b.toDocument := by
    unfold ReviewBaseline.toDocument
    rw [hfindings, h.cacheKey, h.complete, h.coverageComplete, h.generation, h.policyDigest,
      sorted_of_perm h.relatedPaths, sorted_of_perm h.reviewedPaths]
  have hpaths : identityOrPathCharacters b' = identityOrPathCharacters b := by
    unfold identityOrPathCharacters
    rw [hfindings, h.cacheKey]
    exact widest_perm ((((List.Perm.refl _).append h.reviewedPaths.symm).append
      h.relatedPaths.symm).append_right _)
  have hsymbols : symbolCharacters b' = symbolCharacters b := by
    unfold symbolCharacters
    rw [hfindings]
  have hkinds : defectKindCharacters b' = defectKindCharacters b := by
    unfold defectKindCharacters
    rw [hfindings]
  have hexceed : fieldsExceedBound b' ↔ fieldsExceedBound b := by
    unfold fieldsExceedBound
    rw [hpaths, hsymbols, hkinds]
  have hlarge : isLarge b' ↔ isLarge b := by
    unfold isLarge
    rw [hdocument, hpaths, hsymbols, hkinds, h.findings.length_eq]
  have hform : persistedForm rules b' = persistedForm rules b := by
    unfold persistedForm
    rw [hdocument]
    exact if_congr Iff.rfl rfl (if_congr hlarge rfl rfl)
  have hreasons : ∀ size, persistenceReasons store b' size maxBytes =
      persistenceReasons store b size maxBytes := by
    intro size
    unfold persistenceReasons
    rw [hdocument, if_congr hexceed rfl rfl]
  have hparts : writeParts store b' maxBytes = writeParts store b maxBytes := by
    unfold writeParts
    rw [hdocument, h.findings.length_eq]
  unfold historyDocument
  simp only [hform, hreasons, hparts, hdocument, h.complete, h.coverageComplete,
    h.reviewedPaths.length_eq, h.relatedPaths.length_eq, implies_true]

end Writing

section RoundTrip
variable {rules : AdmissionRules} {store : PartitionStore} {b b' : ReviewBaseline}
  {maxBytes : Nat} {stored : Json}

theorem matchesOf_perm {α : Type} {items items' : List α} (h : items.Perm items') :
    matchesOf items = matchesOf items' := by
  match items, items', h with
  | [], items', h => rw [List.nil_perm.mp h]
  | [item], items', h => rw [List.singleton_perm.mp h]
  | _ :: _ :: _, items', h =>
    have hlength := h.length_eq
    match items', hlength with
    | _ :: _ :: _, _ => rfl

/-- A comment finds the same concern whatever the order of the baseline. -/
theorem baselineMatch_same (h : SameEvidence b b') (c : CommentFields) :
    baselineMatch rules c b' = baselineMatch rules c b := by
  have hfilter : ∀ accepts : BaselineFinding → Bool,
      matchesOf (b'.findings.filter accepts) = matchesOf (b.findings.filter accepts) :=
    fun accepts => matchesOf_perm (h.findings.symm.filter accepts)
  unfold baselineMatch
  simp only [hfilter]

/-- What a stored history is for: it reads back, with the same answers, and it does not depend on
the order in which the evidence was listed. -/
structure HistoryKept (rules : AdmissionRules) (store : PartitionStore) (b : ReviewBaseline)
    (maxBytes : Nat) (stored : Json) : Prop where
  reads : ∃ read, baselineFromHistoryDocument rules store stored = .ok read ∧ SameEvidence b read ∧
    (∀ key policy, evaluateBaselineCompatibility read key policy =
      evaluateBaselineCompatibility b key policy) ∧
    ∀ c, baselineMatch rules c read = baselineMatch rules c b
  canonical : ∀ b', SameEvidence b b' → historyDocument rules store b' maxBytes true = .ok stored

/-- A fingerprint names one finding of the baseline. -/
def DistinctFindings (b : ReviewBaseline) : Prop :=
  ∀ f ∈ b.findings, ∀ g ∈ b.findings, f.fingerprint = g.fingerprint → f = g

/-- A history keeps its baseline exactly where the identity texts fit in bytes and no two findings
share a fingerprint. -/
theorem history_kept_iff (hvalid : b.Valid rules)
    (hinverts : ∀ b', SameEvidence b b' → Inverts rules.codec b'.toDocument)
    (hkeeps : ∀ b', SameEvidence b b' → store.Keeps b')
    (h : historyDocument rules store b maxBytes true = .ok stored) :
    HistoryKept rules store b maxBytes stored ↔ TextsFit b ∧ DistinctFindings b := by
  have hself : SameEvidence b b :=
    ⟨rfl, rfl, rfl, rfl, rfl, List.Perm.refl _, List.Perm.refl _, List.Perm.refl _⟩
  obtain ⟨manifest, hopen, hauthority⟩ :=
    openHistory_stored (hinverts b hself) (hkeeps b hself) h
  obtain ⟨_, _, _, _, hschema, _⟩ := historyDocument_ok h
  obtain ⟨hreads, hfits⟩ := read_opened hvalid hschema hopen hauthority
  constructor
  · intro hkept
    obtain ⟨read, hread, _⟩ := hkept.reads
    refine ⟨hfits read hread, fun f hf g hg hsame => ?_⟩
    by_contra hne
    obtain ⟨gs, hperm, hresorted⟩ := exists_resorted hf hg hsame hne
    have hother : SameEvidence b { b with findings := gs } :=
      ⟨rfl, rfl, rfl, rfl, rfl, hperm, List.Perm.refl _, List.Perm.refl _⟩
    -- the other order is written as the same document, so both documents open from it
    have hwritten := hkept.canonical _ hother
    obtain ⟨manifest', hopen', _⟩ :=
      openHistory_stored (hinverts _ hother) (hkeeps _ hother) hwritten
    have hdocuments : b.toDocument = ReviewBaseline.toDocument { b with findings := gs } :=
      congrArg Prod.fst (Except.ok.inj (hopen.symm.trans hopen'))
    have hordered := inOrder_of_document hvalid (hother.valid hvalid) hdocuments
    exact hresorted (congrArg ReviewBaseline.findings hordered).symm
  · rintro ⟨hfit, hdistinct⟩
    have hordered := sameEvidence_inOrder b
    refine ⟨⟨b.inOrder, hreads hfit, hordered, fun _ _ => rfl, baselineMatch_same hordered⟩, ?_⟩
    intro b' hsame
    rw [historyDocument_congr hsame (sortedFindings_of_perm hsame.findings hdistinct).symm]
    exact h

end RoundTrip

section Staging
open Evidence (Codec Binding Part Reader Looks partitionEvidence evidenceManifest
  readPartitionedEvidence Live maxParts)
open ReadBudget (EvidenceReadBudget)

/-- A store that stages parts for one binding, and resolves their manifest. -/
def stagingStore (codec : Codec) (binding : Binding) (storageIds : List Part → List String)
    (reader : Reader) (budget : EvidenceReadBudget) (looks : Looks) : PartitionStore where
  writer := some fun document count allowance => do
    let parts ← partitionEvidence codec document binding count
    let manifest ← evidenceManifest document binding count parts (storageIds parts)
    ensure (manifest.toDocument.canonicalSize ≤ allowance)
      "partition manifest exceeds actual lifecycle allocation"
    return manifest.toDocument
  reader := some fun value =>
    (readPartitionedEvidence codec reader budget looks value binding 0).map Prod.fst

/-- The binding that a checkpoint gives the history of a baseline. -/
structure BindsBaseline (binding : Binding) (b : ReviewBaseline) : Prop where
  repository : binding.repository = b.cacheKey.repository
  pullRequest : binding.pullRequest = b.cacheKey.pullRequest
  baseSha : binding.baseSha = b.cacheKey.baseSha
  headSha : binding.headSha = b.cacheKey.headSha
  generation : binding.generation = b.generation
  policyDigest : binding.policyDigest = b.policyDigest
  purpose : binding.purpose = "baseline"

variable {codec : Codec} {binding : Binding} {storageIds : List Part → List String}
  {reader : Reader} {budget : EvidenceReadBudget} {looks : Looks} {b : ReviewBaseline}

/-- Staging under the binding of a baseline keeps its history, as long as the parts stay where they
were written and the deadline of the reads is not reached. -/
theorem stagingStore_keeps (hbinds : BindsBaseline binding b) (hkeeps : codec.Keeps b.toDocument)
    (hheld : ∀ parts, partitionEvidence codec b.toDocument binding b.findings.length = .ok parts →
      ∀ entry ∈ (storageIds parts).zip parts,
        reader entry.1 = some ⟨entry.2.toDocument, binding.producer⟩)
    (hlive : Live budget looks 0 (2 * maxParts)) :
    (stagingStore codec binding storageIds reader budget looks).Keeps b := by
  have hwritten : ∀ writer ∈ (stagingStore codec binding storageIds reader budget looks).writer,
      ∀ maxBytes stored, writer b.toDocument b.findings.length maxBytes = .ok stored →
        ∃ manifest, stored = manifest.toDocument ∧
          Evidence.Staged codec reader b.toDocument binding b.findings.length manifest := by
    intro writer hwriter maxBytes stored h
    obtain rfl := Option.some.inj hwriter
    obtain ⟨parts, hparts, h⟩ := bind_ok h
    obtain ⟨manifest, hmanifest, h⟩ := bind_ok h
    obtain ⟨_, _, h⟩ := bind_ok h
    exact ⟨manifest, (Except.ok.inj h).symm, hkeeps, parts, storageIds parts, hparts, hmanifest,
      hheld parts hparts⟩
  constructor
  · intro writer hwriter maxBytes stored h
    obtain ⟨manifest, rfl, hstaged⟩ := hwritten writer hwriter maxBytes stored h
    obtain ⟨ids, hspec⟩ := hstaged.spec
    have hlooks : Live budget looks 0 (0 + 2 * manifest.parts.length) := by
      have hcount := hspec.valid.count.2
      exact hlive.mono (Nat.le_refl 0) (by omega)
    refine ⟨_, rfl, ?_⟩
    rw [Evidence.readPartitionedEvidence_ok hstaged hlooks]
    rfl
  · intro writer hwriter maxBytes stored manifest' h hvalidated
    obtain ⟨manifest, rfl, hstaged⟩ := hwritten writer hwriter maxBytes stored h
    obtain ⟨ids, hspec⟩ := hstaged.spec
    obtain ⟨rfl, _⟩ := Evidence.validateManifest_inv hvalidated
    rw [hspec.binding_eq]
    refine ⟨hbinds.purpose, ?_⟩
    have hlength : b.evidence.findings.length = b.findings.length := by
      rw [ReviewBaseline.evidence, List.length_map]
      exact (sortedFindings_perm b.findings).length_eq
    unfold Authorizes
    rw [hspec.binding_eq, hspec.decoded_eq, hspec.sha256_eq, hspec.itemCount_eq, hlength,
      hbinds.repository, hbinds.pullRequest, hbinds.baseSha, hbinds.headSha, hbinds.generation,
      hbinds.policyDigest]
    exact ⟨rfl, rfl, rfl, rfl, rfl, rfl, rfl, rfl, rfl⟩

end Staging

section Sample

def historyKey : CacheKey where
  repository := "o/r"
  pullRequest := 1
  baseSha := String.ofList (List.replicate 40 'b')
  headSha := String.ofList (List.replicate 40 'c')
  engine := "e"
  model := "m"
  profile := "p"
  stageDigest := String.ofList (List.replicate 64 'd')
  contextDigest := String.ofList (List.replicate 64 'e')
  learningDigest := String.ofList (List.replicate 64 'f')

/-- A finding under the one fingerprint of the sample. -/
def historyFinding (kind : String) : BaselineFinding where
  fingerprint := String.ofList (List.replicate 64 'a')
  resolutionCriterion := String.ofList (List.replicate 64 '0')
  path := some "a.py"
  defectKind := kind
  blocking := true

def historyBaseline (kinds : List String) : ReviewBaseline where
  cacheKey := historyKey
  policyDigest := String.ofList (List.replicate 64 '1')
  complete := true
  findings := kinds.map historyFinding
  reviewedPaths := ["a.py"]

/-- A codec for the one document of the sample. -/
def historyCodec : Evidence.Codec where
  compress := fun raw => raw.toUTF8.data.toList
  inflate := fun packed =>
    if packed = (historyBaseline ["Bug"]).toDocument.canonical.toUTF8.data.toList then
      some (historyBaseline ["Bug"]).toDocument.canonical
    else none
  loads := fun raw =>
    if raw = (historyBaseline ["Bug"]).toDocument.canonical then
      some (historyBaseline ["Bug"]).toDocument
    else none

def historyRules : AdmissionRules where
  unicode := { nfc := fun _ => true, forbidden := fun _ => false }
  lower := fun s => String.ofList (s.toList.map Char.toLower)
  codec := historyCodec
  casefold := fun s => String.ofList (s.toList.map Char.toLower)
  printable := fun _ => true
  instant := fun _ => 0

/-- A codec for one document inverts on it. -/
theorem inverts_only (value : Json) : Inverts
    { compress := fun raw => raw.toUTF8.data.toList
      inflate := fun packed =>
        if packed = value.canonical.toUTF8.data.toList then some value.canonical else none
      loads := fun raw => if raw = value.canonical then some value else none } value :=
  ⟨if_pos rfl, if_pos rfl⟩

theorem historyCodec_inverts : Inverts historyCodec (historyBaseline ["Bug"]).toDocument :=
  inverts_only _

/-- The binding of the sample. -/
def historyBinding : Evidence.Binding :=
  { Evidence.roundTripBinding with
    baseSha := historyKey.baseSha
    headSha := historyKey.headSha
    policyDigest := (historyBaseline []).policyDigest
    generation := 0
    purpose := "baseline" }

/-- A reader of the first part. -/
def historyReader : Evidence.Reader := fun _ =>
  (Evidence.partitionEvidence historyCodec (historyBaseline ["Bug"]).toDocument historyBinding
    1).toOption.bind (fun parts => parts.head?.map (⟨·.toDocument, historyBinding.producer⟩))

theorem sample_staged : (stagingStore historyCodec historyBinding (fun _ => ["1"]) historyReader
    ⟨false, none, 0, 0, 1, 0⟩ (fun _ => ⟨0, 0⟩)).Keeps (historyBaseline ["Bug"]) := by
  have hbytes (raw : String) : (historyCodec.compress raw).length = (Sha256.encode raw).length :=
    (List.length_map _).symm
  refine stagingStore_keeps ⟨rfl, rfl, rfl, rfl, rfl, rfl, rfl⟩ ⟨historyCodec_inverts.inflate,
    historyCodec_inverts.loads, ?_⟩ ?_ (fun _ _ _ => Nat.one_pos)
  · rw [hbytes, Json.encode_canonical, Evidence.compressBound]
    omega
  · intro parts hparts entry hentry
    cases parts with
    | nil => cases hentry
    | cons part parts =>
      obtain rfl := List.mem_singleton.mp hentry
      rw [historyReader, show Evidence.partitionEvidence _ _ _ 1 = _ from hparts]
      rfl

theorem sample_key : historyKey.check = .ok () := by
  decide

theorem sample_finding : (historyFinding "Bug").check historyRules = .ok () := by
  decide

theorem sample_written :
    historyDocument historyRules {} (historyBaseline ["Bug"]) maxHistoryBaselineBytes true =
      .ok (historyBaseline ["Bug"]).toDocument := by
  have hsize : (historyBaseline ["Bug"]).toDocument.canonicalSize ≤
      maxHistoryBaselineBytes := by
    rw [Json.canonicalSize_plain (by decide)]
    decide
  exact historyDocument_small (Nat.le_refl _) (by decide) ⟨rfl, rfl⟩
    (not_isLarge (by decide) hsize (by decide)) (by decide) (by decide) hsize

theorem sample_kept : HistoryKept historyRules {} (historyBaseline ["Bug"]) maxHistoryBaselineBytes
    (historyBaseline ["Bug"]).toDocument := by
  have hvalid : (historyBaseline ["Bug"]).Valid historyRules := by
    refine ⟨sample_key, fun f hf => ?_, ?_⟩
    · rw [List.mem_singleton.mp hf]
      exact sample_finding
    · rfl
  have hsame : ∀ b', SameEvidence (historyBaseline ["Bug"]) b' →
      b'.toDocument = (historyBaseline ["Bug"]).toDocument := by
    intro b' h
    unfold ReviewBaseline.toDocument
    rw [← List.singleton_perm.mp h.findings, h.cacheKey, h.complete, h.coverageComplete,
      h.generation, h.policyDigest, sorted_of_perm h.reviewedPaths, sorted_of_perm h.relatedPaths]
    rfl
  have hinverts : ∀ b', SameEvidence (historyBaseline ["Bug"]) b' →
      Inverts historyRules.codec b'.toDocument := by
    intro b' h
    rw [hsame b' h]
    exact historyCodec_inverts
  have hkeeps : ∀ b', SameEvidence (historyBaseline ["Bug"]) b' → PartitionStore.Keeps {} b' :=
    fun _ _ => ⟨fun _ h => (nomatch h), fun _ h => (nomatch h)⟩
  have hfit : TextsFit (historyBaseline ["Bug"]) := by
    intro f hf
    rw [List.mem_singleton.mp hf]
    exact ⟨fun _ h => (nomatch h), by decide⟩
  have hdistinct : DistinctFindings (historyBaseline ["Bug"]) := by
    intro f hf g hg _
    rw [List.mem_singleton.mp hf, List.mem_singleton.mp hg]
  exact (history_kept_iff hvalid hinverts hkeeps sample_written).mpr ⟨hfit, hdistinct⟩

theorem twins_written :
    historyDocument historyRules {} (historyBaseline ["Bug", "bug"]) maxHistoryBaselineBytes true =
      .ok (historyBaseline ["Bug", "bug"]).toDocument := by
  have hsize : (historyBaseline ["Bug", "bug"]).toDocument.canonicalSize ≤
      maxHistoryBaselineBytes := by
    rw [Json.canonicalSize_plain (by decide)]
    decide
  exact historyDocument_small (Nat.le_refl _) (by decide) ⟨rfl, rfl⟩
    (not_isLarge (by decide) hsize (by decide)) (by decide) (by decide) hsize

/-- Two findings of one fingerprint: the history shows in which order they were listed. -/
theorem twin_findings_listed :
    SameEvidence (historyBaseline ["Bug", "bug"]) (historyBaseline ["bug", "Bug"]) ∧
      historyDocument historyRules {} (historyBaseline ["Bug", "bug"]) maxHistoryBaselineBytes true =
        .ok (historyBaseline ["Bug", "bug"]).toDocument ∧
      ¬ HistoryKept historyRules {} (historyBaseline ["Bug", "bug"]) maxHistoryBaselineBytes
        (historyBaseline ["Bug", "bug"]).toDocument := by
  have hsame : SameEvidence (historyBaseline ["Bug", "bug"]) (historyBaseline ["bug", "Bug"]) :=
    ⟨rfl, rfl, rfl, rfl, rfl, List.Perm.swap _ _ _, List.Perm.refl _, List.Perm.refl _⟩
  refine ⟨hsame, twins_written, fun hkept => ?_⟩
  -- the other listing has to be written to the same document, which shows its own order
  obtain ⟨_, _, _, _, _, hform⟩ := historyDocument_ok (hkept.canonical _ hsame)
  rcases hform with hplain | ⟨hencoded, _⟩ | hparts
  · exact absurd hplain (by decide)
  · exact absurd (congrArg (Json.get? · "encoding") hencoded) nofun
  · cases hparts

end Sample
end ReviewSensei.Convergence
