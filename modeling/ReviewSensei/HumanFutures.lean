import ReviewSensei.HumanReadback

/-! Every state that an inventory can reach by resolving findings is one that the inventory had room
for: its document is written and read back, whatever its form. -/
namespace ReviewSensei.Human
open Session (bind_ok isSha256 isGitSha)
open Review (CommentFields ReviewComment)
open Assessment (Inverts encodedOf encodedKeys evidenceEncoding decodeDocument)

section Sizes
variable {rules : Rules} {x : PendingHumanReview rules} {resolved : List String}

/-- The document of an encoded inventory, around its evidence. -/
def encodedFields (x : PendingHumanReview rules) (resolved : List String) :
    List (String × Json) :=
  [("inventory", Evidence.envelope (x.documentWith []).canonicalSize
      (Evidence.digest (x.documentWith []))
      (Evidence.base64 (rules.codec.compress (x.documentWith []).canonical))),
    ("resolved", .arr (resolved.map .str))]

theorem single_encoded (h : x.isEncoded) (resolved : List String) :
    x.single resolved = .obj (encodedFields x resolved) := if_pos h

theorem single_plain (h : ¬ x.isEncoded) (resolved : List String) :
    x.single resolved = .obj (documentFields x resolved) := by
  rw [InventoryFields.single, if_neg h, documentWith_fields]

/-- Resolving every finding takes most room. -/
theorem single_le (x : PendingHumanReview rules)
    (hknown : ∀ identity ∈ resolved, identity ∈ x.identities)
    (hfew : resolved.length ≤ x.identities.length) :
    (x.single resolved).canonicalSize ≤ (x.single (sorted x.identities)).canonicalSize := by
  have hsome : (Json.arr (resolved.map .str)).size = max 2 (67 * resolved.length + 1) :=
    size_digests fun identity h => identity_sha (hknown identity h)
  have hall : (Json.arr ((sorted x.identities).map .str)).size =
      max 2 (67 * (sorted x.identities).length + 1) :=
    size_digests fun identity h => identity_sha ((mem_sorted _ _).mp h)
  have hlength : (sorted x.identities).length = x.identities.length :=
    (List.perm_insertionSort _ x.identities).length_eq
  have hle : (Json.arr (resolved.map .str)).size ≤
      (Json.arr ((sorted x.identities).map .str)).size := by
    omega
  by_cases hencoded : x.isEncoded
  · rw [single_encoded hencoded, single_encoded hencoded, Json.canonicalSize_eq,
      Json.canonicalSize_eq, encodedFields, encodedFields, Json.size_fields (List.cons_ne_nil _ _),
      Json.size_fields (List.cons_ne_nil _ _)]
    simp only [List.map_cons, Json.valuesSize_cons]
    omega
  · rw [single_plain hencoded, single_plain hencoded, Json.canonicalSize_eq,
      Json.canonicalSize_eq, documentFields, documentFields]
    rw [List.cons_append, List.cons_append, List.cons_append, List.cons_append, List.cons_append,
      List.cons_append, Json.size_fields (List.cons_ne_nil _ _),
      Json.size_fields (List.cons_ne_nil _ _)]
    simp only [List.map_cons, Json.valuesSize_cons]
    omega

theorem capacity_fits (h : x.legacyCapacityError = none) :
    (x.single (sorted x.identities)).canonicalSize ≤ maxHumanReviewBytes := by
  rw [x.facts.legacy] at h
  unfold InventoryFields.capacityError at h
  split at h
  · cases h
  · split at h
    · cases h
    next hsize => exact Nat.le_of_not_lt hsize

theorem document_positive (x : PendingHumanReview rules) (resolved : List String) :
    0 < (x.documentWith resolved).canonicalSize := by
  have hne : documentFields x resolved ≠ [] := List.cons_ne_nil _ _
  rw [documentWith_fields, Json.canonicalSize_eq, Json.size_fields hne, Json.frameSize]
  omega

end Sizes

section Evidence
open PendingHumanReview (withResolved decodeInventory fewResolutions)
variable {rules : Rules} {printable : String → Bool} {x : PendingHumanReview rules}
  {resolved : List String}

/-- The evidence as it is read back, its keys in order. -/
theorem envelope_sortKeys (value : Json) :
    (Evidence.envelope value.canonicalSize (Evidence.digest value)
        (Evidence.base64 (rules.codec.compress value.canonical))).sortKeys =
      encodedOf rules.codec value.sortKeys := by
  have hsize := canonicalSize_sortKeys value
  have hcanonical : value.sortKeys.canonical = value.canonical := by
    rw [Json.canonical, Json.canonical, Json.sortKeys_sortKeys]
  have hdigest : Evidence.digest value.sortKeys = Evidence.digest value := by
    rw [Evidence.digest, Evidence.digest, hcanonical]
  have hordered : (encodedOf rules.codec value).Ordered := Assessment.ordered_encodedOf value
  have hnodup : (["encoding", "decoded_bytes", "sha256", "data"] : List String).Nodup := by decide
  have hperm : ∀ size encoding sha data : Json,
      [("encoding", encoding), ("decoded_bytes", size), ("sha256", sha), ("data", data)].Perm
        [("data", data), ("decoded_bytes", size), ("encoding", encoding), ("sha256", sha)] := by
    intro size encoding sha data
    have hfront := List.perm_append_singleton ("data", data)
      [("encoding", encoding), ("decoded_bytes", size), ("sha256", sha)]
    exact hfront.trans (.cons _ (.swap _ _ _))
  rw [encodedOf, hsize, hcanonical, hdigest]
  exact Json.sortKeys_perm (hperm _ _ _ _) hnodup hordered

/-- Resolutions stand beside the evidence, not in it. -/
theorem withResolved_field (resolved : Json) (fs : List (String × Json)) (name : String) :
    Json.field? (fs.map (fun f => if f.1 = "resolved" then ("resolved", resolved) else f)) name =
      if name = "resolved" then (Json.field? fs "resolved").map (fun _ => resolved)
      else Json.field? fs name := by
  induction fs with
  | nil =>
    split
    · rfl
    · rfl
  | cons f fs ih =>
    obtain ⟨key, j⟩ := f
    rw [List.map_cons, Json.field?_cons, Json.field?_cons]
    by_cases hkey : key = "resolved"
    · rw [if_pos hkey, if_pos hkey, Json.field?_cons]
      by_cases hname : name = "resolved"
      · rw [if_pos hname, if_pos hname.symm]
        rfl
      · rw [if_neg (Ne.symm hname), ih, if_neg hname, if_neg hname, hkey, if_neg (Ne.symm hname)]
    · rw [if_neg hkey, if_neg hkey, Json.field?_cons, ih]
      by_cases hname : name = "resolved"
      · rw [if_pos hname, if_pos hname, hname, if_neg hkey]
      · rw [if_neg hname, if_neg hname]

theorem withResolved_keys (resolved : Json) (keys : List String) (fs : List (String × Json)) :
    (withResolved resolved (.obj fs)).hasKeys keys = (Json.obj fs).hasKeys keys := by
  have hkeys : (fs.map (fun f => if f.1 = "resolved" then ("resolved", resolved) else f)).map
      Prod.fst = fs.map Prod.fst := by
    rw [List.map_map]
    apply List.map_congr_left
    intro f _
    dsimp only [Function.comp_apply]
    split
    next h => exact h.symm
    next => rfl
  have hall (gs : List (String × Json)) :
      gs.all (fun f => keys.contains f.1) = (gs.map Prod.fst).all keys.contains := by
    rw [List.all_map]
    rfl
  rw [withResolved, Json.hasKeys, Json.hasKeys, hkeys, hall, hall, hkeys]

/-- The decoded document, with the resolutions from beside it. -/
theorem holds_withResolved (x : PendingHumanReview rules) (resolved : List String) :
    Holds x resolved (withResolved (.arr (resolved.map .str)) (x.documentWith []).sortKeys) := by
  have hget := Json.get?_sortKeys _ (documentFields_nodup x [])
  obtain ⟨fs, hfs⟩ : ∃ fs, (x.documentWith []).sortKeys = .obj fs := by
    rw [documentWith_fields, Json.sortKeys]
    exact ⟨_, rfl⟩
  have hfield (name : String) : Json.field? fs name =
      (Json.field? (documentFields x []) name).map Json.sortKeys := by
    have hname := hget name
    rw [← documentWith_fields, hfs] at hname
    exact hname
  have hvalue (name : String) :
      (withResolved (.arr (resolved.map .str)) (.obj fs)).get? name =
        if name = "resolved" then some (.arr (resolved.map .str))
        else (Json.field? (documentFields x []) name).map Json.sortKeys := by
    have hresolved : Json.field? fs "resolved" ≠ none := by
      rw [hfield]
      exact Option.some_ne_none _
    rw [withResolved, Json.get?, withResolved_field]
    split
    · obtain ⟨j, hj⟩ := Option.ne_none_iff_exists'.mp hresolved
      rw [hj]
      rfl
    · exact hfield name
  rw [hfs]
  refine ⟨?_, ?_, ?_, ?_⟩
  · apply readSchema_document x []
    · intro keys
      rw [withResolved_keys, ← hfs, documentWith_fields, Json.hasKeys_sortKeys]
    · rw [hvalue, if_neg (by decide)]
      unfold documentFields
      cases x.crossFile with
      | false => rfl
      | true => rfl
  · rw [hvalue, if_neg (by decide)]
    exact congrArg some (Json.sortKeys_arr (findingDocument x.crossFile) x.findings)
  · rw [hvalue, if_pos rfl]
  · rw [hvalue, if_neg (by decide)]
    rfl

/-- An encoded document is decoded to the document inside it. -/
theorem decodeInventory_ok (hencoded : x.isEncoded) (hlegacy : x.legacyCapacityError = none)
    (hinverts : Inverts rules.codec (x.documentWith []).sortKeys)
    (hknown : ∀ identity ∈ resolved, identity ∈ x.identities)
    (hfew : resolved.length ≤ x.identities.length) :
    decodeInventory rules (x.single resolved).sortKeys =
      .ok (withResolved (.arr (resolved.map .str)) (x.documentWith []).sortKeys) := by
  have hnodup : (["inventory", "resolved"] : List String).Nodup := by decide
  have hget := Json.get?_sortKeys (encodedFields x resolved) hnodup
  have hinventory : (Json.obj (encodedFields x resolved)).sortKeys.get? "inventory" =
      some (encodedOf rules.codec (x.documentWith []).sortKeys) := by
    rw [hget]
    exact congrArg some (envelope_sortKeys _)
  have hresolved : (Json.obj (encodedFields x resolved)).sortKeys.get? "resolved" =
      some (.arr (resolved.map .str)) := by
    rw [hget]
    exact congrArg some (Json.sortKeys_texts resolved)
  have hkeys : (Json.obj (encodedFields x resolved)).sortKeys.hasKeys ["inventory", "resolved"] =
      true := by
    rw [Json.hasKeys_sortKeys]
    rfl
  have hsize : (Json.obj (encodedFields x resolved)).canonicalSize ≤ maxHumanReviewBytes := by
    rw [← single_encoded hencoded]
    exact (single_le x hknown hfew).trans (capacity_fits hlegacy)
  have hmany : resolved.length ≤ maxHumanInventoryFindings := hfew.trans (identities_few x)
  have hroom : (encodedOf rules.codec (x.documentWith []).sortKeys).size ≤
      maxHumanReviewBytes := by
    have henvelope := canonicalSize_sortKeys (Evidence.envelope (x.documentWith []).canonicalSize
      (Evidence.digest (x.documentWith []))
      (Evidence.base64 (rules.codec.compress (x.documentWith []).canonical)))
    rw [envelope_sortKeys, Json.canonicalSize_eq, Json.canonicalSize_eq] at henvelope
    rw [Json.canonicalSize_eq, encodedFields, Json.size_fields (List.cons_ne_nil _ _)] at hsize
    simp only [Json.valuesSize_cons] at hsize
    omega
  have hdecoded : decodeDocument rules.codec (encodedOf rules.codec (x.documentWith []).sortKeys)
      maxHumanReviewBytes maxHumanDecodedBytes = .ok (x.documentWith []).sortKeys := by
    apply Assessment.decodeDocument_ok hinverts
    · rw [canonicalSize_sortKeys]
      exact document_positive x []
    · rw [canonicalSize_sortKeys]
      exact x.facts.packable hencoded
    · exact hroom
  have hempty : (x.documentWith []).sortKeys.get? "resolved" = some (.arr []) :=
    (holds_document x []).resolutions
  have hfewer : fewResolutions (.arr (resolved.map .str)) = true := by
    rw [fewResolutions, List.length_map]
    exact decide_eq_true hmany
  rw [single_encoded hencoded]
  unfold decodeInventory
  rw [hresolved, hinventory, Option.getD_some, Option.getD_some]
  dsimp only
  rw [ensure_bind ⟨hkeys, hfewer, by rw [canonicalSize_sortKeys]; exact hsize⟩, ok_bind hdecoded,
    ensure_bind hempty]
  rfl

/-- What an inventory writes in one document is read back from it. -/
theorem fromDict_single (hfits : RecordFits x) (hlegacy : x.legacyCapacityError = none)
    (hinverts : x.isEncoded → Inverts rules.codec (x.documentWith []).sortKeys) :
    ∃ z, PendingHumanReview.fromDict rules printable (x.single x.resolved).sortKeys = .ok z ∧
      z.toInventoryFields = legacyInventory x x.resolved := by
  have hknown := x.facts.resolvedKnown
  have honce := x.facts.resolvedOnce
  by_cases hencoded : x.isEncoded
  · have hdecoded := decodeInventory_ok hencoded hlegacy (hinverts hencoded) hknown
      (resolved_few x)
    have hinventory : ((x.single x.resolved).sortKeys.get? "inventory") ≠ none := by
      have hnodup : (["inventory", "resolved"] : List String).Nodup := by decide
      rw [single_encoded hencoded, Json.get?_sortKeys (encodedFields x x.resolved) hnodup]
      exact Option.some_ne_none _
    obtain ⟨j, hj⟩ := Option.ne_none_iff_exists'.mp hinventory
    obtain ⟨z, hz, hfields⟩ := @fromDocument_holds rules printable _ _ _
      (holds_withResolved x x.resolved) hfits hlegacy honce hknown
    refine ⟨z, ?_, hfields⟩
    unfold PendingHumanReview.fromDict
    rw [hj]
    dsimp only
    rw [ok_bind hdecoded]
    exact hz
  · have hinventory : ((x.single x.resolved).sortKeys.get? "inventory") = none := by
      rw [single_plain hencoded, Json.get?_sortKeys _ (documentFields_nodup x x.resolved)]
      unfold documentFields
      cases x.crossFile with
      | false => rfl
      | true => rfl
    obtain ⟨z, hz, hfields⟩ := @fromDocument_holds rules printable _ _ _
      (holds_document x x.resolved) hfits hlegacy honce hknown
    refine ⟨z, ?_, hfields⟩
    unfold PendingHumanReview.fromDict
    rw [hinventory, InventoryFields.single, if_neg hencoded]
    exact hz

end Evidence

section Futures
variable {rules : Rules} {printable : String → Bool} {x y : PendingHumanReview rules}

/-- Resolutions are in order from the first decisions that were applied. -/
theorem applyAll_sorted (x : PendingHumanReview rules)
    (steps : List (List AssessmentDecision)) : applyAll x steps = x ∨
      sorted (applyAll x steps).resolved = (applyAll x steps).resolved := by
  have hstep (x : PendingHumanReview rules) (ds : List AssessmentDecision) :
      applied x ds = x ∨ sorted (applied x ds).resolved = (applied x ds).resolved := by
    by_cases h : Admitted x ds
    · obtain ⟨z, hz, hfields⟩ := apply_admitted h
      have hresolved : z.resolved = sorted (x.resolved ++ acceptedIds ds).dedup :=
        congrArg InventoryFields.resolved hfields
      have happlied : applied x ds = z := by
        rw [applied, hz]
      rw [happlied, hresolved]
      exact .inr (sorted_sorted _)
    · rw [applied, apply_refused h]
      exact .inl rfl
  induction steps generalizing x with
  | nil => exact .inl rfl
  | cons ds rest ih =>
    have hrest := ih (applied x ds)
    rw [applyAll, List.foldl_cons, ← applyAll]
    rcases hrest with hsame | hsorted
    · rw [hsame]
      exact hstep x ds
    · exact .inr hsorted

/-- The resolutions change nothing that the constructor checked of the findings. -/
theorem SameInventory.capacity (h : SameInventory x y) :
    y.legacyCapacityError = x.legacyCapacityError := by
  rw [y.facts.legacy, x.facts.legacy, h.fields]
  rfl

theorem SameInventory.encoded (h : SameInventory x y) : y.isEncoded ↔ x.isEncoded := by
  rw [h.fields]
  exact Iff.rfl

theorem SameInventory.document (h : SameInventory x y) (resolved : List String) :
    y.documentWith resolved = x.documentWith resolved := by
  rw [h.fields]
  rfl

theorem SameInventory.fits (h : SameInventory x y) : RecordFits y ↔ RecordFits x := by
  have hcross : y.crossFile = x.crossFile := by
    rw [h.fields]
    rfl
  have hids : y.identities = x.identities := by
    rw [h.fields]
    rfl
  unfold RecordFits legacyInventory
  rw [hcross, hids, h.fields]

theorem toDict_ok (h : x.legacyCapacityError = none) : x.toDict = .ok (x.single x.resolved) := by
  unfold PendingHumanReview.toDict
  rw [h]
  exact persisted_ok x.facts.packable x.resolved

theorem toDict_inv {document : Json} (h : x.toDict = .ok document) :
    x.legacyCapacityError = none := by
  cases hlegacy : x.legacyCapacityError with
  | none => rfl
  | some message =>
    unfold PendingHumanReview.toDict at h
    rw [hlegacy] at h
    cases h

/-- What an assessment is told of a finding. -/
def assessed (f : HumanReviewFinding rules) : String × String × List String :=
  (f.fingerprint, f.body, f.evidencePaths)

/-- The inventory read back from a single document has the same findings left. -/
theorem legacy_pending (x : PendingHumanReview rules) :
    (legacyInventory x x.resolved).pending.map assessed = x.pending.map assessed := by
  have hfilter : (legacyInventory x x.resolved).pending =
      x.pending.map (legacyFinding x.crossFile) := by
    unfold InventoryFields.pending legacyInventory
    rw [List.filter_map]
    rfl
  rw [hfilter, List.map_map]
  apply List.map_congr_left
  intro f hf
  have hpaths := legacy_evidence (List.mem_of_mem_filter hf)
  unfold assessed
  rw [Function.comp_apply, hpaths]
  rfl

/-- The findings and resolutions of an inventory last through every form it is written in and every
sequence of decisions applied to it. -/
theorem inventory_lasts (x : PendingHumanReview rules)
    (h : ∀ f ∈ x.findings, ∀ c ∈ f.comment, accepted rules printable c.toCommentFields = true) :
    (∃ z, PendingHumanReview.fromInventoryDocument rules printable x.inventoryDocument.sortKeys =
        .ok z ∧
      z.findings.map (fun f => (f.fingerprint, f.path, f.body, f.requiredPaths)) =
        x.findings.map (fun f => (f.fingerprint, f.path, f.body, f.requiredPaths)) ∧
      z.inventoryDocument = x.inventoryDocument ∧ z.inventoryDigest = x.inventoryDigest ∧
      z.resolved = []) ∧
    ∀ steps, ∃ y, y = applyAll x steps ∧
      (∃ r z, Resolution.fromInventory y.toInventoryFields = .ok r ∧
        Resolution.restore r y = .ok z ∧ Resolution.restore r x = .ok z ∧
        z.toInventoryFields = { y.toInventoryFields with resolved := sorted y.resolved } ∧
        (y ≠ x ∨ sorted x.resolved = x.resolved → z = y)) ∧
      (∀ document, x.toDict = .ok document → ∃ written, y.toDict = .ok written ∧
        (RecordFits x → (x.isEncoded → Inverts rules.codec (x.documentWith []).sortKeys) →
          ∃ z, PendingHumanReview.fromDict rules printable written.sortKeys = .ok z ∧
            z.pending.map assessed = y.pending.map assessed)) ∧
      ∀ ds, (Admitted y ds → ∃ z, y.apply rules ds = .ok z ∧ applied y ds = z ∧
          z.pending = y.pending.filter (fun f => decide (f.fingerprint ∉ acceptedIds ds))) ∧
        (¬ Admitted y ds → applied y ds = y ∧
          y.apply rules ds = .error "human assessment identities are invalid") := by
  constructor
  · obtain ⟨z, hz, hfields⟩ := fromInventoryDocument_ok h
    have hfindings : z.findings = x.findings.map restoredFinding := by
      rw [hfields]
      rfl
    have hdocument : z.inventoryDocument = x.inventoryDocument := by
      rw [hfields]
      exact restored_recordWith x []
    refine ⟨z, hz, ?_, hdocument, ?_, ?_⟩
    · rw [hfindings, List.map_map]
      rfl
    · rw [InventoryFields.inventoryDigest, InventoryFields.inventoryDigest, hdocument]
    · rw [hfields]
      rfl
  · intro steps
    have hsame := applyAll_same x steps
    have hsorted := applyAll_sorted x steps
    refine ⟨applyAll x steps, rfl, ?_, ?_, ?_⟩
    · generalize applyAll x steps = y at hsame hsorted ⊢
      obtain ⟨z, hz, hfields⟩ := restore_same (SameInventory.refl y)
      obtain ⟨z', hz', hfields'⟩ := restore_same hsame
      obtain rfl := PendingHumanReview.ext_fields (hfields'.trans hfields.symm)
      refine ⟨_, z', fromInventory_ok y, hz, hz', hfields, fun hcase => ?_⟩
      have hresolved : sorted y.resolved = y.resolved := by
        rcases hsorted with rfl | hsorted
        · exact hcase.resolve_left fun hne => hne rfl
        · exact hsorted
      apply PendingHumanReview.ext_fields
      rw [hfields, hresolved]
    · intro document hdocument
      generalize applyAll x steps = y at hsame ⊢
      have hlegacy : y.legacyCapacityError = none := by
        rw [hsame.capacity]
        exact toDict_inv hdocument
      refine ⟨_, toDict_ok hlegacy, fun hfits hinverts => ?_⟩
      have hencoded : y.isEncoded → Inverts rules.codec (y.documentWith []).sortKeys := by
        rw [hsame.encoded, hsame.document]
        exact hinverts
      obtain ⟨z, hz, hfields⟩ := fromDict_single (hsame.fits.mpr hfits) hlegacy hencoded
      refine ⟨z, hz, ?_⟩
      rw [hfields]
      exact legacy_pending y
    · intro ds
      constructor
      · intro hadmitted
        obtain ⟨z, hz, -⟩ := apply_admitted hadmitted
        refine ⟨z, hz, ?_, pending_apply hz⟩
        rw [applied, hz]
      · intro hrefused
        refine ⟨?_, apply_refused hrefused⟩
        rw [applied, apply_refused hrefused]

end Futures

section Sample

def plainRules : Rules where
  unicode := { nfc := fun _ => true, forbidden := fun _ => false }
  lower := fun s => String.ofList (s.toList.map Char.toLower)
  codec := { compress := fun _ => [], inflate := fun _ => none, loads := fun _ => none }

def firstIdentity : String := "1111111111111111111111111111111111111111111111111111111111111111"
def secondIdentity : String := "2222222222222222222222222222222222222222222222222222222222222222"

def plainFinding (fingerprint : String) (h : isSha256 fingerprint = true) :
    HumanReviewFinding plainRules where
  toFindingFields := { fingerprint, path := "a.py", body := "Check this" }
  accepted := by
    have hpath : Diff.validateRepositoryPath plainRules.unicode "human finding path" true
        "a.py".toList = .ok () := by decide
    have hbody : validateBoundedText "Check this" maxCommentBodyBytes "human finding" false =
        .ok () := by decide
    exact check_iff.mpr ⟨h, fun c hc => absurd hc (Option.not_mem_none c),
      Diff.validateRepositoryPath_iff.mp hpath, hbody, Nat.zero_le 8,
      fun path hp => absurd hp List.not_mem_nil, List.nodup_nil, .inl rfl⟩

/-- Two findings, both resolved, the later one first. -/
def plainFields : InventoryFields plainRules where
  baseSha := "0000000000000000000000000000000000000000"
  findings := [plainFinding firstIdentity (by decide), plainFinding secondIdentity (by decide)]
  resolved := [secondIdentity, firstIdentity]

theorem plain_sorted : sorted plainFields.identities = [firstIdentity, secondIdentity] := by
  decide

theorem plain_facts : InventoryFacts plainFields none := by
  have hrecord : (plainFields.recordWith [firstIdentity, secondIdentity]).canonicalSize ≤
      maxHumanDecodedBytes := by
    rw [Json.canonicalSize_plain (by decide)]
    decide
  have hdocument : (plainFields.documentWith [firstIdentity, secondIdentity]).canonicalSize ≤
      maxHumanReviewBytes := by
    rw [Json.canonicalSize_plain (by decide)]
    decide
  have hencoded : ¬ plainFields.isEncoded := by
    rw [InventoryFields.isEncoded, plain_sorted]
    refine not_or.mpr ⟨by decide, not_or.mpr ⟨by decide, Nat.not_lt.mpr hdocument⟩⟩
  refine ⟨by decide, by decide, by decide, by decide, by decide,
    by decide, ?_, fun h => absurd h hencoded, ?_⟩
  · rw [plain_sorted]
    exact hrecord
  · rw [InventoryFields.capacityError, InventoryFields.single, plain_sorted, if_neg hencoded,
      if_neg (by decide), if_neg (Nat.not_lt.mpr hdocument)]

def plainInventory : PendingHumanReview plainRules where
  toInventoryFields := plainFields
  legacyCapacityError := none
  accepted := inventory_check_iff.mpr plain_facts

theorem plain_lasts : ∃ z r,
    PendingHumanReview.fromInventoryDocument plainRules (fun _ => true)
      plainInventory.inventoryDocument.sortKeys = .ok z ∧
    z.inventoryDigest = plainInventory.inventoryDigest ∧ z.resolved = [] ∧
    Resolution.fromInventory (applyAll plainInventory []).toInventoryFields = .ok r := by
  obtain ⟨⟨z, hz, -, -, hdigest, hresolved⟩, hruns⟩ :=
    @inventory_lasts plainRules (fun _ => true) plainInventory (by
      intro f hf c hc
      have hall : ∀ f ∈ plainInventory.findings, f.comment = none := by
        intro f hf
        rcases List.mem_cons.mp hf with rfl | hf
        · rfl
        · rw [List.mem_singleton.mp hf]
          rfl
      rw [hall f hf] at hc
      cases hc)
  obtain ⟨y, rfl, ⟨r, -, hr, -⟩, -⟩ := hruns []
  exact ⟨z, r, hz, hdigest, hresolved, hr⟩

/-- Before any decision is applied, restoring puts the resolutions in order. -/
theorem restored_in_order : ∃ r z,
    Resolution.fromInventory (applyAll plainInventory []).toInventoryFields = .ok r ∧
      Resolution.restore r plainInventory = .ok z ∧ z.resolved = [firstIdentity, secondIdentity] ∧
      (applyAll plainInventory []).resolved = [secondIdentity, firstIdentity] ∧
      z ≠ applyAll plainInventory [] := by
  obtain ⟨z, hz, hfields⟩ := restore_same (SameInventory.refl plainInventory)
  have hresolved : z.resolved = [firstIdentity, secondIdentity] := by
    rw [hfields]
    decide
  refine ⟨_, z, fromInventory_ok plainInventory, hz, hresolved, rfl, fun h => ?_⟩
  have hother : z.resolved = [secondIdentity, firstIdentity] := by
    rw [h]
    rfl
  rw [hresolved] at hother
  exact absurd hother (by decide)

end Sample
end ReviewSensei.Human
