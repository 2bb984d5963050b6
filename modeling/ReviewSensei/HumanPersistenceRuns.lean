import Mathlib.Data.List.Dedup
import ReviewSensei.HumanPersistenceSteps

/-! Whatever findings of an inventory are resolved, in whatever steps, it stays one that can be
written, read back and restored. -/
namespace ReviewSensei.Human
open Session (bind_ok isSha256 isGitSha)
open Sha256 (encode)
open Review (CommentFields ReviewComment)

section Checks
variable {rules : Rules} {f g : InventoryFields rules} {legacy : Option String}

/-- The single document of an inventory with some resolutions, where there is one. -/
def InventoryFields.single (f : InventoryFields rules) (resolved : List String) : Json :=
  if f.isEncoded then
    .obj [("inventory", Evidence.envelope (f.documentWith []).canonicalSize
        (Evidence.digest (f.documentWith []))
        (Evidence.base64 (rules.codec.compress (f.documentWith []).canonical))),
      ("resolved", .arr (resolved.map .str))]
  else f.documentWith resolved

/-- What keeps an inventory in parts. -/
def InventoryFields.capacityError (f : InventoryFields rules) : Option String :=
  if 64 < f.paths.length then some "human review required path inventory is too large"
  else if maxHumanReviewBytes < (f.single (sorted f.identities)).canonicalSize then
    some "human review inventory exceeds the configured size limit"
  else none

/-- The evidence of an encoded inventory is one that can be packed. -/
def InventoryFields.packable (f : InventoryFields rules) : Prop :=
  f.isEncoded → (f.documentWith []).canonicalSize ≤ maxHumanDecodedBytes

theorem persisted_ok (h : f.packable) (resolved : List String) :
    f.persisted resolved = .ok (f.single resolved) := by
  unfold InventoryFields.persisted InventoryFields.single
  split
  next hencoded =>
    have hpacked : encodeEvidence rules.codec (f.documentWith []) maxHumanDecodedBytes =
        .ok (Evidence.envelope (f.documentWith []).canonicalSize
          (Evidence.digest (f.documentWith []))
          (Evidence.base64 (rules.codec.compress (f.documentWith []).canonical))) :=
      ensure_bind (h hencoded) _
    rw [ok_bind hpacked]
    rfl
  next => rfl

theorem packable_of {resolved : List String} {document : Json}
    (h : f.persisted resolved = .ok document) : f.packable := by
  intro hencoded
  unfold InventoryFields.persisted at h
  rw [if_pos hencoded] at h
  obtain ⟨_, hevidence, _⟩ := bind_ok h
  obtain ⟨_, hsize, _⟩ := bind_ok hevidence
  exact ensure_inv hsize

/-- What the constructor of an inventory establishes. -/
structure InventoryFacts (f : InventoryFields rules) (legacy : Option String) : Prop where
  base : isGitSha f.baseSha = true
  count : 1 ≤ f.findings.length ∧ f.findings.length ≤ maxHumanInventoryFindings
  paths : f.paths.length ≤ maxHumanInventoryPaths
  once : f.identities.Nodup
  resolvedOnce : f.resolved.Nodup
  resolvedKnown : ∀ identity ∈ f.resolved, identity ∈ f.identities
  size : (f.recordWith (sorted f.identities)).canonicalSize ≤ maxHumanDecodedBytes
  packable : f.packable
  legacy : legacy = f.capacityError

/-- An identity of an inventory is a digest. -/
theorem identity_sha {identity : String} (h : identity ∈ f.identities) :
    isSha256 identity = true := by
  obtain ⟨finding, _, rfl⟩ := List.mem_map.mp h
  exact finding.facts.identity

theorem inventory_check_iff : f.check = .ok legacy ↔ InventoryFacts f legacy := by
  unfold InventoryFields.check
  constructor
  · intro h
    obtain ⟨_, hbase, h⟩ := bind_ok h
    obtain ⟨_, hcount, h⟩ := bind_ok h
    obtain ⟨_, hpaths, h⟩ := bind_ok h
    obtain ⟨_, honce, h⟩ := bind_ok h
    obtain ⟨_, _, h⟩ := bind_ok h
    obtain ⟨_, hresolved, h⟩ := bind_ok h
    obtain ⟨_, hsize, h⟩ := bind_ok h
    obtain ⟨future, hfuture, h⟩ := bind_ok h
    have hpackable := packable_of hfuture
    have hresolved := ensure_inv hresolved
    rw [persisted_ok hpackable] at hfuture
    obtain rfl := Except.ok.inj hfuture
    exact ⟨ensure_inv hbase, ensure_inv hcount, ensure_inv hpaths, ensure_inv honce, hresolved.1,
      hresolved.2, ensure_inv hsize, hpackable, (Except.ok.inj h).symm⟩
  · intro h
    have hsha : ∀ identity ∈ f.resolved, isSha256 identity = true := fun identity hidentity =>
      identity_sha (h.resolvedKnown identity hidentity)
    rw [ensure_bind h.base, ensure_bind h.count, ensure_bind h.paths, ensure_bind h.once,
      ensure_bind hsha, ensure_bind ⟨h.resolvedOnce, h.resolvedKnown⟩, ensure_bind h.size,
      ok_bind (persisted_ok h.packable _), h.legacy]
    rfl

theorem PendingHumanReview.facts (inventory : PendingHumanReview rules) :
    InventoryFacts inventory.toInventoryFields inventory.legacyCapacityError :=
  inventory_check_iff.mp inventory.accepted

theorem PendingHumanReview.ext_fields {x y : PendingHumanReview rules}
    (h : x.toInventoryFields = y.toInventoryFields) : x = y := by
  have hlegacy : x.legacyCapacityError = y.legacyCapacityError := by
    rw [x.facts.legacy, y.facts.legacy, h]
  cases x
  cases y
  cases h
  cases hlegacy
  rfl

theorem construct_of_facts (h : InventoryFacts f legacy) :
    ∃ inventory, PendingHumanReview.construct f = .ok inventory ∧
      inventory.toInventoryFields = f := by
  have hcheck := inventory_check_iff.mpr h
  unfold PendingHumanReview.construct
  split
  next legacy' hlegacy => exact ⟨_, rfl, rfl⟩
  next message hmessage =>
    rw [hcheck] at hmessage
    cases hmessage

/-- An inventory may be given any other resolutions of its own findings. -/
theorem InventoryFacts.resolve (h : InventoryFacts f legacy) {resolved : List String}
    (honce : resolved.Nodup) (hknown : ∀ identity ∈ resolved, identity ∈ f.identities) :
    InventoryFacts { f with resolved } legacy :=
  ⟨h.base, h.count, h.paths, h.once, honce, hknown, h.size, h.packable, h.legacy⟩

end Checks

section Applying
variable {rules : Rules} {x y z : PendingHumanReview rules} {ds : List AssessmentDecision}

theorem sorted_nodup {texts : List String} : (sorted texts).Nodup ↔ texts.Nodup :=
  (List.perm_insertionSort _ texts).nodup_iff

/-- The decisions name pending findings, each once. -/
def Admitted (inventory : PendingHumanReview rules) (ds : List AssessmentDecision) : Prop :=
  (ds.map AssessmentDecision.fingerprint).Nodup ∧
    ∀ d ∈ ds, d.fingerprint ∈ inventory.pending.map (fun f => f.fingerprint)

/-- The findings that the decisions resolve. -/
def acceptedIds (ds : List AssessmentDecision) : List String :=
  (ds.filter (fun d => !d.unresolved)).map AssessmentDecision.fingerprint

theorem pending_known {inventory : PendingHumanReview rules} {fingerprint : String}
    (h : fingerprint ∈ inventory.pending.map (fun f => f.fingerprint)) :
    fingerprint ∈ inventory.identities := by
  obtain ⟨finding, hfinding, rfl⟩ := List.mem_map.mp h
  exact List.mem_map_of_mem (List.mem_of_mem_filter hfinding)

/-- Admitted decisions are applied: the accepted ones resolve their findings. -/
theorem apply_admitted (h : Admitted x ds) : ∃ z, x.apply rules ds = .ok z ∧
    z.toInventoryFields =
      { x.toInventoryFields with resolved := sorted (x.resolved ++ acceptedIds ds).dedup } := by
  have hknown : ∀ identity ∈ sorted (x.resolved ++ acceptedIds ds).dedup,
      identity ∈ x.identities := by
    intro identity hidentity
    rw [mem_sorted, List.mem_dedup, List.mem_append] at hidentity
    rcases hidentity with hidentity | hidentity
    · exact x.facts.resolvedKnown identity hidentity
    · obtain ⟨d, hd, rfl⟩ := List.mem_map.mp hidentity
      exact pending_known (h.2 d (List.mem_of_mem_filter hd))
  obtain ⟨z, hz, hfields⟩ := construct_of_facts
    (x.facts.resolve (sorted_nodup.mpr (List.nodup_dedup _)) hknown)
  refine ⟨z, ?_, hfields⟩
  unfold PendingHumanReview.apply
  rw [ensure_bind h.1, ensure_bind h.2]
  exact hz

/-- Decisions on an unknown, a resolved or a repeated finding are refused. -/
theorem apply_refused (h : ¬ Admitted x ds) :
    x.apply rules ds = .error "human assessment identities are invalid" := by
  unfold PendingHumanReview.apply
  by_cases honce : (ds.map AssessmentDecision.fingerprint).Nodup
  · have hpending : ¬ ∀ d ∈ ds, d.fingerprint ∈ x.pending.map (fun f => f.fingerprint) :=
      fun hpending => h ⟨honce, hpending⟩
    rw [ensure_bind honce, ensure, if_neg hpending]
    rfl
  · rw [ensure, if_neg honce]
    rfl

/-- Two inventories of the same findings. -/
structure SameInventory (x y : PendingHumanReview rules) : Prop where
  fields : y.toInventoryFields = { x.toInventoryFields with resolved := y.resolved }
  grown : ∀ identity ∈ x.resolved, identity ∈ y.resolved

theorem SameInventory.refl (x : PendingHumanReview rules) : SameInventory x x :=
  ⟨rfl, fun _ h => h⟩

theorem SameInventory.trans (hxy : SameInventory x y) (hyz : SameInventory y z) :
    SameInventory x z := by
  refine ⟨?_, fun identity h => hyz.grown identity (hxy.grown identity h)⟩
  calc z.toInventoryFields = { y.toInventoryFields with resolved := z.resolved } := hyz.fields
    _ = { x.toInventoryFields with resolved := z.resolved } := by rw [hxy.fields]

theorem apply_same (h : x.apply rules ds = .ok z) : SameInventory x z := by
  by_cases hadmitted : Admitted x ds
  · obtain ⟨z', hz, hfields⟩ := apply_admitted hadmitted
    rw [h] at hz
    obtain rfl := Except.ok.inj hz
    have hresolved : z.resolved = sorted (x.resolved ++ acceptedIds ds).dedup :=
      congrArg InventoryFields.resolved hfields
    refine ⟨by rw [hresolved]; exact hfields, ?_⟩
    intro identity hidentity
    rw [hresolved, mem_sorted, List.mem_dedup]
    exact List.mem_append_left _ hidentity
  · rw [apply_refused hadmitted] at h
    cases h

/-- Exactly the findings that were accepted are no longer pending. -/
theorem pending_apply (h : x.apply rules ds = .ok z) :
    z.pending = x.pending.filter (fun f => decide (f.fingerprint ∉ acceptedIds ds)) := by
  have hadmitted : Admitted x ds := by
    by_contra hnot
    rw [apply_refused hnot] at h
    cases h
  obtain ⟨z', hz, hfields⟩ := apply_admitted hadmitted
  rw [h] at hz
  obtain rfl := Except.ok.inj hz
  have hmem (fingerprint : String) : fingerprint ∈ z.resolved ↔
      fingerprint ∈ x.resolved ∨ fingerprint ∈ acceptedIds ds := by
    rw [congrArg InventoryFields.resolved hfields, mem_sorted, List.mem_dedup, List.mem_append]
  have hfindings : z.findings = x.findings := by rw [hfields]
  unfold InventoryFields.pending
  rw [hfindings, List.filter_filter]
  apply List.filter_congr
  intro finding _
  rw [← Bool.decide_and]
  apply decide_eq_decide.mpr
  rw [hmem, not_or, and_comm]

/-- One call of `apply`: refused decisions leave the inventory. -/
def applied (x : PendingHumanReview rules) (ds : List AssessmentDecision) :
    PendingHumanReview rules :=
  match x.apply rules ds with
  | .ok z => z
  | .error _ => x

def applyAll (x : PendingHumanReview rules) (steps : List (List AssessmentDecision)) :
    PendingHumanReview rules := steps.foldl applied x

theorem applyAll_same (x : PendingHumanReview rules) (steps : List (List AssessmentDecision)) :
    SameInventory x (applyAll x steps) := by
  induction steps generalizing x with
  | nil => exact .refl x
  | cons ds rest ih =>
    have hstep : SameInventory x (applied x ds) := by
      unfold applied
      split
      next z hz => exact apply_same hz
      next => exact .refl x
    exact hstep.trans (ih (applied x ds))

end Applying

section Restoring
variable {rules : Rules} {x y : PendingHumanReview rules}

theorem sorted_sorted (texts : List String) : sorted (sorted texts) = sorted texts := by
  have htotal : Std.Total (fun a b : String => a ≤ b) := ⟨String.le_total⟩
  have htrans : IsTrans String (fun a b => a ≤ b) := ⟨fun _ _ _ => String.le_trans⟩
  have hsorted := List.pairwise_insertionSort (fun a b : String => a ≤ b) texts
  exact hsorted.insertionSort_eq

/-- The size of a list of digests depends on their number only. -/
theorem size_digests {texts : List String} (h : ∀ s ∈ texts, isSha256 s = true) :
    (Json.arr (texts.map .str)).size = max 2 (67 * texts.length + 1) := by
  rw [Json.size_arr]
  cases texts with
  | nil => rfl
  | cons s rest =>
    have hsum : ∀ ts : List String, (∀ t ∈ ts, isSha256 t = true) →
        ((ts.map Json.str).map (fun k => k.size + 1)).sum = 67 * ts.length := by
      intro ts hts
      induction ts with
      | nil => rfl
      | cons t ts ih =>
        have ht := Assessment.size_identity (hts t List.mem_cons_self)
        have hrest := ih fun u hu => hts u (List.mem_cons_of_mem _ hu)
        rw [List.map_cons, List.map_cons, List.sum_cons, hrest, ht, List.length_cons]
        omega
    have hall := hsum (s :: rest) h
    rw [List.map_cons, Json.itemsSize_eq, ← List.map_cons, hall, List.length_cons]
    omega

/-- There are no more resolutions than findings. -/
theorem resolved_few (inventory : PendingHumanReview rules) :
    inventory.resolved.length ≤ inventory.identities.length := by
  have hsub : inventory.resolved ⊆ inventory.identities := inventory.facts.resolvedKnown
  exact (List.subperm_of_subset inventory.facts.resolvedOnce hsub).length_le

theorem identities_few (inventory : PendingHumanReview rules) :
    inventory.identities.length ≤ maxHumanInventoryFindings := by
  rw [InventoryFields.identities, List.length_map]
  exact inventory.facts.count.2

/-- Every inventory has a compact resolution state. -/
theorem fromInventory_ok (inventory : PendingHumanReview rules) :
    Resolution.fromInventory inventory.toInventoryFields =
      .ok ⟨inventory.inventoryDigest, sorted inventory.resolved⟩ := by
  have hlength : (sorted inventory.resolved).length = inventory.resolved.length :=
    (List.perm_insertionSort _ inventory.resolved).length_eq
  have hfew := (resolved_few inventory).trans (identities_few inventory)
  have hsha : ∀ identity ∈ sorted inventory.resolved, isSha256 identity = true := by
    intro identity hidentity
    exact identity_sha (inventory.facts.resolvedKnown identity
      ((mem_sorted _ _).mp hidentity))
  have hdigest : isSha256 inventory.inventoryDigest = true := isSha256_sha256 _
  have hsize : (Resolution.toDict ⟨inventory.inventoryDigest, sorted inventory.resolved⟩).canonicalSize ≤
      maxHumanReviewBytes := by
    have harr := size_digests hsha
    have hid := Assessment.size_identity hdigest
    have hframe : Json.frameSize ["schema_version", "inventory_digest", "resolved"] = 51 := by
      decide
    have hversion : (Json.str "1").size = 3 := by decide
    rw [Json.canonicalSize_eq, Resolution.toDict, Json.size_fields (List.cons_ne_nil _ _)]
    simp only [List.map_cons, List.map_nil, Json.valuesSize_cons, Json.valuesSize_nil, hframe,
      hversion, sorted_sorted, harr, hid, hlength]
    have hmax : maxHumanReviewBytes = 24576 := rfl
    have hmany : maxHumanInventoryFindings = 250 := rfl
    omega
  unfold Resolution.fromInventory Resolution.construct
  rw [ensure_bind hdigest, ensure_bind ⟨hlength ▸ hfew, hsha,
    sorted_nodup.mpr inventory.facts.resolvedOnce⟩, ensure_bind hsize]
  rfl

/-- The resolutions of a later state restore it from any earlier one. -/
theorem restore_same (h : SameInventory x y) : ∃ z,
    Resolution.restore ⟨y.inventoryDigest, sorted y.resolved⟩ x = .ok z ∧
      z.toInventoryFields = { y.toInventoryFields with resolved := sorted y.resolved } := by
  have hdigest : x.inventoryDigest = y.inventoryDigest := by
    unfold InventoryFields.inventoryDigest InventoryFields.inventoryDocument
      InventoryFields.recordWith
    rw [h.fields]
  have hfindings : y.findings = x.findings := by rw [h.fields]
  have hids : y.identities = x.identities := by
    unfold InventoryFields.identities
    rw [hfindings]
  have hknown : ∀ identity ∈ sorted y.resolved, identity ∈ x.identities := by
    intro identity hidentity
    rw [← hids]
    exact y.facts.resolvedKnown identity ((mem_sorted _ _).mp hidentity)
  have hgrown : ∀ identity ∈ x.resolved, identity ∈ sorted y.resolved := fun identity hidentity =>
    (mem_sorted _ _).mpr (h.grown identity hidentity)
  have honce : (sorted (sorted y.resolved)).Nodup :=
    sorted_nodup.mpr (sorted_nodup.mpr y.facts.resolvedOnce)
  obtain ⟨z, hz, hfields⟩ := construct_of_facts (x.facts.resolve honce
    (fun identity hidentity => hknown identity ((mem_sorted _ _).mp hidentity)))
  refine ⟨z, ?_, ?_⟩
  · unfold Resolution.restore
    rw [ensure_bind ⟨hdigest, hknown, hgrown⟩]
    exact hz
  · rw [hfields, sorted_sorted, h.fields]

end Restoring

section Records
variable {rules : Rules} {printable : String → Bool} {x : PendingHumanReview rules}

/-- The inventory a record gives back. -/
def restoredFields (x : PendingHumanReview rules) : InventoryFields rules where
  baseSha := x.baseSha
  findings := x.findings.map restoredFinding

theorem restored_identities (x : PendingHumanReview rules) :
    (restoredFields x).identities = x.identities := by
  unfold InventoryFields.identities restoredFields
  rw [List.map_map]
  rfl

theorem restored_recordWith (x : PendingHumanReview rules) (resolved : List String) :
    (restoredFields x).recordWith resolved = x.recordWith resolved := by
  have hrecords : (x.findings.map restoredFinding).map (fun f => f.toRecord rules) =
      x.findings.map (fun f => f.toRecord rules) := by
    rw [List.map_map]
    exact List.map_congr_left fun f _ => toRecord_restored f
  unfold InventoryFields.recordWith restoredFields
  dsimp only
  rw [hrecords]

theorem restored_paths (x : PendingHumanReview rules) : (restoredFields x).paths = x.paths := by
  unfold InventoryFields.paths restoredFields
  rw [List.flatMap_map]
  rfl

theorem restored_documentWith (x : PendingHumanReview rules) (resolved : List String) :
    (restoredFields x).documentWith resolved = x.documentWith resolved := by
  have hcross : (restoredFields x).crossFile = x.crossFile := by
    unfold InventoryFields.crossFile restoredFields
    rw [List.any_map]
    rfl
  unfold InventoryFields.documentWith
  rw [hcross]
  unfold restoredFields
  dsimp only
  rw [List.map_map, List.map_map]
  rfl

theorem restored_isEncoded (x : PendingHumanReview rules) :
    (restoredFields x).isEncoded ↔ x.isEncoded := by
  unfold InventoryFields.isEncoded
  rw [restored_identities, restored_documentWith]
  unfold restoredFields
  simp only [List.length_map, List.mem_map, exists_exists_and_eq_and]
  rfl

theorem restored_facts (x : PendingHumanReview rules) :
    InventoryFacts (restoredFields x) (restoredFields x).capacityError := by
  have h := x.facts
  have hcount : (restoredFields x).findings.length = x.findings.length := List.length_map _
  refine ⟨h.base, hcount ▸ h.count, ?_, ?_, List.nodup_nil, fun _ hid => absurd hid List.not_mem_nil,
    ?_, ?_, rfl⟩
  · rw [restored_paths]
    exact h.paths
  · rw [restored_identities]
    exact h.once
  · rw [restored_identities, restored_recordWith]
    exact h.size
  · intro hencoded
    rw [restored_documentWith]
    exact h.packable ((restored_isEncoded x).mp hencoded)

theorem canonicalSize_sortKeys (j : Json) : j.sortKeys.canonicalSize = j.canonicalSize := by
  unfold Json.canonicalSize
  rw [Json.sortKeys_sortKeys]

/-- Resolutions only add to the size of a record. -/
theorem recordWith_nil_le (f : InventoryFields rules) :
    (f.recordWith []).canonicalSize ≤ (f.recordWith (sorted f.identities)).canonicalSize := by
  have hall : ∀ identity ∈ sorted f.identities, isSha256 identity = true := fun identity h =>
    identity_sha ((mem_sorted _ _).mp h)
  have hnone : ∀ identity ∈ ([] : List String), isSha256 identity = true :=
    fun _ h => absurd h List.not_mem_nil
  have hfull := size_digests hall
  have hempty := size_digests hnone
  rw [Json.canonicalSize_eq, Json.canonicalSize_eq, InventoryFields.recordWith,
    InventoryFields.recordWith, Json.size_fields (List.cons_ne_nil _ _),
    Json.size_fields (List.cons_ne_nil _ _)]
  simp only [List.map_cons, Json.valuesSize_cons, Json.valuesSize_nil, hfull, hempty,
    List.length_nil]
  omega

/-- The immutable document of an inventory reads back, with nothing resolved. -/
theorem fromInventoryDocument_ok
    (h : ∀ f ∈ x.findings, ∀ c ∈ f.comment, accepted rules printable c.toCommentFields = true) :
    ∃ z, PendingHumanReview.fromInventoryDocument rules printable x.inventoryDocument.sortKeys =
        .ok z ∧ z.toInventoryFields = restoredFields x := by
  obtain ⟨z, hz, hfields⟩ := construct_of_facts (restored_facts x)
  refine ⟨z, ?_, hfields⟩
  have hkeys : (["schema_version", "base_sha", "findings", "resolved"] : List String).Nodup := by
    decide
  have hget := Json.get?_sortKeys [("schema_version", .str "3"), ("base_sha", .str x.baseSha),
    ("findings", .arr (x.findings.map (fun finding => finding.toRecord rules))),
    ("resolved", .arr [])] hkeys
  have hresolved : x.inventoryDocument.sortKeys.get? "resolved" = some (.arr []) :=
    hget "resolved"
  have hfindings : x.inventoryDocument.sortKeys.get? "findings" =
      some (.arr (x.findings.map (fun finding => (finding.toRecord rules).sortKeys))) :=
    (hget "findings").trans (congrArg some (Json.sortKeys_arr
      (fun finding : HumanReviewFinding rules => finding.toRecord rules) x.findings))
  have hbase : x.inventoryDocument.sortKeys.get? "base_sha" = some (.str x.baseSha) :=
    hget "base_sha"
  have hversion : x.inventoryDocument.sortKeys.get? "schema_version" = some (.str "3") :=
    hget "schema_version"
  have hobject : Evidence.isObject x.inventoryDocument.sortKeys = true := by
    rw [InventoryFields.inventoryDocument, InventoryFields.recordWith, Json.sortKeys]
    rfl
  have hsize : x.inventoryDocument.sortKeys.canonicalSize ≤ maxHumanDecodedBytes := by
    rw [canonicalSize_sortKeys]
    exact (recordWith_nil_le x.toInventoryFields).trans x.facts.size
  have hschema : readSchema false x.inventoryDocument.sortKeys = .ok .record := by
    have hthree : x.inventoryDocument.sortKeys.hasKeys legacyFields ≠ true := by
      rw [InventoryFields.inventoryDocument, InventoryFields.recordWith, Json.hasKeys_sortKeys]
      exact nofun
    have hfour : x.inventoryDocument.sortKeys.hasKeys (legacyFields ++ ["schema_version"]) =
        true := by
      rw [InventoryFields.inventoryDocument, InventoryFields.recordWith, Json.hasKeys_sortKeys]
      rfl
    have hsecond : ¬ (some (Json.str "3") = some (.str "2")) := by decide
    unfold readSchema
    rw [if_neg hthree, if_pos hfour, hversion, if_neg hsecond, if_pos ⟨rfl, rfl⟩]
  have hread : (x.findings.map (fun finding => (finding.toRecord rules).sortKeys)).mapM
      (readFinding rules printable .record) = .ok (x.findings.map restoredFinding) := by
    have hall : ∀ fs : List (HumanReviewFinding rules), (∀ f ∈ fs, f ∈ x.findings) →
        (fs.map (fun finding => (finding.toRecord rules).sortKeys)).mapM
          (readFinding rules printable .record) = .ok (fs.map restoredFinding) := by
      intro fs hfs
      induction fs with
      | nil => rfl
      | cons f fs ih =>
        have hfirst := readFinding_record f (h f (hfs f List.mem_cons_self))
        have hrest := ih fun g hg => hfs g (List.mem_cons_of_mem _ hg)
        rw [List.map_cons, List.mapM_cons, ok_bind hfirst, ok_bind hrest]
        rfl
    exact hall x.findings fun _ hf => hf
  have hbaseText : Json.readText (fun _ => true) "human review base is invalid"
      (x.inventoryDocument.sortKeys.get? "base_sha") = .ok x.baseSha := by
    rw [hbase]
    rfl
  have hitems : readItems (x.inventoryDocument.sortKeys.get? "findings") =
      .ok (x.findings.map (fun finding => (finding.toRecord rules).sortKeys)) := by
    rw [hfindings]
    rfl
  have hnone : readItems (x.inventoryDocument.sortKeys.get? "resolved") = .ok [] := by
    rw [hresolved]
    rfl
  unfold PendingHumanReview.fromInventoryDocument
  rw [ensure_bind ⟨hobject, hresolved⟩, ensure_bind hsize]
  unfold PendingHumanReview.fromDocument
  rw [ok_bind hschema, ok_bind hitems, ok_bind hnone, ok_bind hread, ok_bind hbaseText]
  exact ok_bind hz _

end Records
end ReviewSensei.Human
