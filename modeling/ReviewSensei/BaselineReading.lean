import ReviewSensei.BaselineDocument

/-! What the document of a baseline reads back to, and what its order leaves open. -/
namespace ReviewSensei.Convergence
open Session (bind_ok)
open Evidence (Manifest)
open Human (sorted validateBoundedText)
open Diff (validateRepositoryPath)
open Sha256 (encode)

theorem forM_iff {α : Type} {f : α → Except String Unit} {l : List α} :
    l.forM f = .ok () ↔ ∀ a ∈ l, f a = .ok () := by
  induction l with
  | nil => exact iff_of_true rfl (fun _ h => absurd h List.not_mem_nil)
  | cons a rest ih =>
    rw [List.forall_mem_cons, ← ih]
    constructor
    · intro h
      obtain ⟨_, hfirst, hrest⟩ := bind_ok h
      exact ⟨hfirst, hrest⟩
    · intro h
      exact (ok_bind h.1 _).trans h.2

section Sorting
variable {fs gs : List BaselineFinding}

theorem sortedFindings_perm (fs : List BaselineFinding) : (sortedFindings fs).Perm fs :=
  List.perm_insertionSort _ _

theorem sortedFindings_pairwise (fs : List BaselineFinding) :
    (sortedFindings fs).Pairwise (fun f g => f.fingerprint ≤ g.fingerprint) := by
  have htotal : Std.Total (fun f g : BaselineFinding => f.fingerprint ≤ g.fingerprint) :=
    ⟨fun f g => String.le_total f.fingerprint g.fingerprint⟩
  have htrans : IsTrans BaselineFinding (fun f g => f.fingerprint ≤ g.fingerprint) :=
    ⟨fun _ _ _ hfg hgh => String.le_trans hfg hgh⟩
  exact List.pairwise_insertionSort _ fs

/-- The sort does not change the order of findings that share a fingerprint. -/
theorem filter_sortedFindings (fs : List BaselineFinding) (fingerprint : String) :
    (sortedFindings fs).filter (fun f => f.fingerprint = fingerprint) =
      fs.filter (fun f => f.fingerprint = fingerprint) := by
  have htotal : Std.Total (fun f g : BaselineFinding => f.fingerprint ≤ g.fingerprint) :=
    ⟨fun f g => String.le_total f.fingerprint g.fingerprint⟩
  have htrans : IsTrans BaselineFinding (fun f g => f.fingerprint ≤ g.fingerprint) :=
    ⟨fun _ _ _ hfg hgh => String.le_trans hfg hgh⟩
  have hblock : (fs.filter (fun f => f.fingerprint = fingerprint)).Pairwise
      (fun f g => f.fingerprint ≤ g.fingerprint) := by
    apply List.pairwise_of_forall_mem_list
    intro f hf g hg
    have hf : f.fingerprint = fingerprint := of_decide_eq_true (List.mem_filter.mp hf).2
    have hg : g.fingerprint = fingerprint := of_decide_eq_true (List.mem_filter.mp hg).2
    have hsame : f.fingerprint = g.fingerprint := hf.trans hg.symm
    exact hsame ▸ String.le_refl f.fingerprint
  have hsub : (fs.filter (fun f => f.fingerprint = fingerprint)).Sublist (sortedFindings fs) :=
    List.sublist_insertionSort hblock List.filter_sublist
  have hfiltered := hsub.filter (fun f => decide (f.fingerprint = fingerprint))
  rw [List.filter_filter] at hfiltered
  simp only [Bool.and_self] at hfiltered
  exact (hfiltered.eq_of_length (((sortedFindings_perm fs).filter _).length_eq.symm)).symm

/-- Where a fingerprint names one finding, the sorted list does not depend on the order. -/
theorem sortedFindings_of_perm (h : fs.Perm gs)
    (hdistinct : ∀ f ∈ fs, ∀ g ∈ fs, f.fingerprint = g.fingerprint → f = g) :
    sortedFindings fs = sortedFindings gs := by
  have hperm : (sortedFindings fs).Perm (sortedFindings gs) :=
    (sortedFindings_perm fs).trans (h.trans (sortedFindings_perm gs).symm)
  refine hperm.eq_of_pairwise ?_ (sortedFindings_pairwise fs) (sortedFindings_pairwise gs)
  intro f g hf hg hfg hgf
  have hf : f ∈ fs := (sortedFindings_perm fs).mem_iff.mp hf
  have hg : g ∈ fs := h.mem_iff.mpr ((sortedFindings_perm gs).mem_iff.mp hg)
  exact hdistinct f hf g hg (String.le_antisymm hfg hgf)

/-- Two findings of one fingerprint can be listed so that the sorted list changes. -/
theorem exists_resorted {f g : BaselineFinding} (hf : f ∈ fs) (hg : g ∈ fs)
    (hsame : f.fingerprint = g.fingerprint) (hne : f ≠ g) :
    ∃ gs, fs.Perm gs ∧ sortedFindings gs ≠ sortedFindings fs := by
  by_contra hnone
  push Not at hnone
  have hfirst := hnone _ (List.perm_cons_erase hf)
  have hsecond := hnone _ (List.perm_cons_erase hg)
  have hfilters := congrArg (List.filter (fun e => e.fingerprint = f.fingerprint))
    (hfirst.trans hsecond.symm)
  rw [filter_sortedFindings, filter_sortedFindings, List.filter_cons_of_pos (by simp),
    List.filter_cons_of_pos (by simp [hsame])] at hfilters
  exact hne (List.cons.inj hfilters).1

theorem sorted_of_perm {texts texts' : List String} (h : texts.Perm texts') :
    sorted texts = sorted texts' := by
  have hperm : (sorted texts).Perm (sorted texts') :=
    (List.perm_insertionSort _ _).trans (h.trans (List.perm_insertionSort _ _).symm)
  exact hperm.eq_of_pairwise (fun _ _ _ _ hab hba => String.le_antisymm hab hba)
    (List.pairwise_insertionSort _ _) (List.pairwise_insertionSort _ _)

end Sorting

section Paths
variable {rules : AdmissionRules} {label : String} {paths seen out : List String}

/-- What a list of paths is before the constructors change it. -/
structure GoodPaths (rules : AdmissionRules) (label : String) (paths : List String) : Prop where
  valid : ∀ path ∈ paths, validateRepositoryPath rules.unicode label true path.toList = .ok ()
  nodup : paths.Nodup
  few : paths.length ≤ maxCacheMetadataItems

theorem foldPaths_ok (h : (seen ++ paths).Nodup)
    (hfew : (seen ++ paths).length ≤ maxCacheMetadataItems)
    (hvalid : ∀ path ∈ paths, validateRepositoryPath rules.unicode label true path.toList = .ok ()) :
    paths.foldlM (addPath rules label) seen = .ok (seen ++ paths) := by
  induction paths generalizing seen with
  | nil => simp [pure, Except.pure]
  | cons path rest ih =>
    have hfresh : path ∉ seen := by
      intro hmem
      exact (List.nodup_append.mp h).2.2 path hmem path List.mem_cons_self rfl
    have hstep : addPath rules label seen path = .ok (seen ++ [path]) := by
      unfold addPath
      rw [List.length_append, List.length_cons] at hfew
      rw [ok_bind (hvalid path List.mem_cons_self), ensure_bind (.inr (by omega)), if_neg hfresh]
      rfl
    rw [List.foldlM_cons, ok_bind hstep, ih]
    · rw [List.append_assoc, List.singleton_append]
    · rwa [List.append_assoc, List.singleton_append]
    · rwa [List.append_assoc, List.singleton_append]
    · exact fun p hp => hvalid p (List.mem_cons_of_mem _ hp)

theorem foldPaths_inv (h : paths.foldlM (addPath rules label) seen = .ok out)
    (hseen : seen.Nodup) (hfew : seen.length ≤ maxCacheMetadataItems) :
    out.Nodup ∧ out.length ≤ maxCacheMetadataItems ∧
      (∀ path ∈ paths,
        validateRepositoryPath rules.unicode label true path.toList = .ok ()) ∧
      ∀ path, path ∈ out ↔ path ∈ seen ∨ path ∈ paths := by
  induction paths generalizing seen with
  | nil =>
    obtain rfl : seen = out := Except.ok.inj h
    exact ⟨hseen, hfew, fun _ hp => absurd hp List.not_mem_nil, fun p => by simp⟩
  | cons path rest ih =>
    rw [List.foldlM_cons] at h
    obtain ⟨next, hstep, h⟩ := bind_ok h
    unfold addPath at hstep
    obtain ⟨_, hvalid, hstep⟩ := bind_ok hstep
    obtain ⟨_, hroom, hstep⟩ := bind_ok hstep
    have hroom := ensure_inv hroom
    obtain rfl := Except.ok.inj hstep
    have hnext : (if path ∈ seen then seen else seen ++ [path]).Nodup ∧
        (if path ∈ seen then seen else seen ++ [path]).length ≤ maxCacheMetadataItems ∧
        ∀ p, p ∈ (if path ∈ seen then seen else seen ++ [path]) ↔ p ∈ seen ∨ p = path := by
      split
      · next hmem =>
        refine ⟨hseen, hfew, fun p => ⟨.inl, ?_⟩⟩
        rintro (hp | rfl)
        · exact hp
        · exact hmem
      · next hfresh =>
        refine ⟨?_, ?_, fun p => by simp⟩
        · rw [List.nodup_append]
          refine ⟨hseen, List.nodup_singleton _, fun p hp q hq heq => ?_⟩
          rw [List.mem_singleton] at hq
          exact hfresh (hq ▸ heq ▸ hp)
        · have hlt := hroom.resolve_left hfresh
          rw [List.length_append, List.length_singleton]
          omega
    obtain ⟨hnodup, hlength, hrest, hmem⟩ := ih h hnext.1 hnext.2.1
    refine ⟨hnodup, hlength, ?_, ?_⟩
    · intro p hp
      rcases List.mem_cons.mp hp with rfl | hp
      · exact hvalid
      · exact hrest p hp
    · intro p
      rw [hmem, hnext.2.2, List.mem_cons, or_assoc]

theorem boundedPaths_ok (h : GoodPaths rules label paths) :
    boundedPaths rules label paths = .ok paths := by
  have hfold : paths.foldlM (addPath rules label) [] = .ok ([] ++ paths) :=
    foldPaths_ok h.nodup h.few h.valid
  exact hfold

theorem boundedPaths_good (h : boundedPaths rules label paths = .ok paths) :
    GoodPaths rules label paths := by
  obtain ⟨hnodup, hfew, hvalid, _⟩ := foldPaths_inv h List.nodup_nil (Nat.zero_le _)
  exact ⟨hvalid, hnodup, hfew⟩

theorem GoodPaths.of_perm {paths' : List String} (h : GoodPaths rules label paths)
    (hperm : paths.Perm paths') : GoodPaths rules label paths' :=
  ⟨fun p hp => h.valid p (hperm.mem_iff.mpr hp), hperm.nodup_iff.mp h.nodup,
    hperm.length_eq ▸ h.few⟩

end Paths

section Rebuilding
variable {rules : AdmissionRules} {b b' : ReviewBaseline}

@[simp] theorem readNullable_nullable (s : Option String) : readNullable (nullable s) = some s := by
  cases s with
  | none => rfl
  | some s => rfl

theorem CacheKey.ofDocument_toDocument {k : CacheKey} (h : k.check = .ok ()) :
    CacheKey.ofDocument k.toDocument = some k := by
  have hguard : (guard (0 ≤ (k.pullRequest : Int) ∧ k.check.isOk = true) : Option Unit) =
      some () := by
    rw [h]
    exact if_pos ⟨Int.natCast_nonneg _, rfl⟩
  unfold CacheKey.ofDocument CacheKey.toDocument
  rw [Json.record?_zip rfl]
  simp only [Int.toNat_natCast]
  rw [hguard]
  rfl

theorem BaselineFinding.ofDocument_toDocument {f : BaselineFinding} (h : f.check rules = .ok ()) :
    BaselineFinding.ofDocument rules f.toDocument = some f := by
  have hguard : (guard (0 ≤ (f.generation : Int) ∧ (f.check rules).isOk = true) : Option Unit) =
      some () := by
    rw [h]
    exact if_pos ⟨Int.natCast_nonneg _, rfl⟩
  unfold BaselineFinding.ofDocument BaselineFinding.toDocument
  rw [Json.record?_zip rfl]
  simp only [readNullable_nullable, Int.toNat_natCast]
  exact (congrArg (fun g => g >>= fun _ => some f) hguard).trans rfl

theorem mapM_findings {fs : List BaselineFinding} (h : ∀ f ∈ fs, f.check rules = .ok ()) :
    (fs.map BaselineFinding.toDocument).mapM (BaselineFinding.ofDocument rules) = some fs := by
  induction fs with
  | nil => rfl
  | cons f rest ih =>
    rw [List.map_cons, List.mapM_cons, BaselineFinding.ofDocument_toDocument
      (h f List.mem_cons_self), ih fun g hg => h g (List.mem_cons_of_mem _ hg)]
    rfl

theorem mapM_texts (texts : List String) : (texts.map Json.str).mapM readText = some texts := by
  induction texts with
  | nil => rfl
  | cons s rest ih =>
    rw [List.map_cons, List.mapM_cons, ih]
    rfl

/-- The same evidence, whatever the order of its findings and its paths. -/
structure SameEvidence (b b' : ReviewBaseline) : Prop where
  cacheKey : b'.cacheKey = b.cacheKey
  policyDigest : b'.policyDigest = b.policyDigest
  complete : b'.complete = b.complete
  coverageComplete : b'.coverageComplete = b.coverageComplete
  generation : b'.generation = b.generation
  findings : b.findings.Perm b'.findings
  reviewedPaths : b.reviewedPaths.Perm b'.reviewedPaths
  relatedPaths : b.relatedPaths.Perm b'.relatedPaths

/-- The baseline in the order of its document. -/
def ReviewBaseline.inOrder (b : ReviewBaseline) : ReviewBaseline :=
  { b with
    findings := sortedFindings b.findings
    reviewedPaths := sorted b.reviewedPaths
    relatedPaths := sorted b.relatedPaths }

theorem sameEvidence_inOrder (b : ReviewBaseline) : SameEvidence b b.inOrder :=
  ⟨rfl, rfl, rfl, rfl, rfl, (sortedFindings_perm _).symm, (List.perm_insertionSort _ _).symm,
    (List.perm_insertionSort _ _).symm⟩

theorem construct_good (h : b.construct rules = .ok b) :
    Session.isSha256 b.policyDigest = true ∧ b.findings.length ≤ maxCacheMetadataItems ∧
      GoodPaths rules "reviewed" b.reviewedPaths ∧ GoodPaths rules "related" b.relatedPaths ∧
      b.relatedPaths.length ≤ maxRelatedPaths := by
  unfold ReviewBaseline.construct at h
  obtain ⟨_, hpolicy, h⟩ := bind_ok h
  obtain ⟨_, hfindings, h⟩ := bind_ok h
  obtain ⟨reviewed, hreviewed, h⟩ := bind_ok h
  obtain ⟨related, hrelated, h⟩ := bind_ok h
  have hsame := Except.ok.inj h
  obtain rfl : reviewed = b.reviewedPaths := congrArg ReviewBaseline.reviewedPaths hsame
  obtain rfl : related = b.relatedPaths := congrArg ReviewBaseline.relatedPaths hsame
  unfold boundedRelatedPaths at hrelated
  obtain ⟨paths, hpaths, hrelated⟩ := bind_ok hrelated
  obtain ⟨_, hfew, hrelated⟩ := bind_ok hrelated
  obtain rfl : paths = b.relatedPaths := Except.ok.inj hrelated
  exact ⟨ensure_inv hpolicy, ensure_inv hfindings, boundedPaths_good hreviewed,
    boundedPaths_good hpaths, ensure_inv hfew⟩

theorem construct_of_good (hpolicy : Session.isSha256 b.policyDigest = true)
    (hfindings : b.findings.length ≤ maxCacheMetadataItems)
    (hreviewed : GoodPaths rules "reviewed" b.reviewedPaths)
    (hrelated : GoodPaths rules "related" b.relatedPaths)
    (hfew : b.relatedPaths.length ≤ maxRelatedPaths) : b.construct rules = .ok b := by
  have hbounded : boundedRelatedPaths rules b.relatedPaths = .ok b.relatedPaths := by
    unfold boundedRelatedPaths
    rw [ok_bind (boundedPaths_ok hrelated), ensure_bind hfew]
    rfl
  unfold ReviewBaseline.construct
  rw [ensure_bind hpolicy, ensure_bind hfindings, ok_bind (boundedPaths_ok hreviewed),
    ok_bind hbounded]
  rfl

theorem SameEvidence.valid (h : SameEvidence b b') (hvalid : b.Valid rules) : b'.Valid rules := by
  obtain ⟨hpolicy, hfindings, hreviewed, hrelated, hfew⟩ := construct_good hvalid.fields
  refine ⟨h.cacheKey ▸ hvalid.key, fun f hf => hvalid.findings f (h.findings.mem_iff.mpr hf), ?_⟩
  exact construct_of_good (h.policyDigest ▸ hpolicy) (h.findings.length_eq ▸ hfindings)
    (hreviewed.of_perm h.reviewedPaths) (hrelated.of_perm h.relatedPaths)
    (h.relatedPaths.length_eq ▸ hfew)

def ReviewBaseline.evidence (b : ReviewBaseline) : EvidenceFields where
  cacheKey := b.cacheKey.toDocument
  complete := b.complete
  coverageComplete := b.coverageComplete
  findings := (sortedFindings b.findings).map BaselineFinding.toDocument
  generation := b.generation
  policyDigest := b.policyDigest
  relatedPaths := (sorted b.relatedPaths).map .str
  reviewedPaths := (sorted b.reviewedPaths).map .str

theorem ofDocument_evidence (b : ReviewBaseline) :
    EvidenceFields.ofDocument b.toDocument = some b.evidence := by
  unfold EvidenceFields.ofDocument ReviewBaseline.toDocument
  rw [Json.record?_zip rfl]
  rfl

/-- The members of a valid baseline's document are its members in order. -/
theorem rebuild_evidence (hvalid : b.Valid rules) : b.evidence.rebuild rules = some b.inOrder := by
  have hordered := (sameEvidence_inOrder b).valid hvalid
  have hguard : (guard (0 ≤ (b.generation : Int)) : Option Unit) = some () :=
    if_pos (Int.natCast_nonneg _)
  have hfindings : ∀ f ∈ sortedFindings b.findings, f.check rules = .ok () := hordered.findings
  have hfields := hordered.fields
  unfold EvidenceFields.rebuild ReviewBaseline.evidence
  dsimp only
  rw [CacheKey.ofDocument_toDocument hvalid.key, mapM_findings hfindings, mapM_texts, mapM_texts, hguard]
  simp only [Option.bind_eq_bind, Option.bind_some, Int.toNat_natCast]
  exact congrArg Except.toOption hfields

/-- Documents tell baselines apart up to the order of what they list. -/
theorem inOrder_of_document (hvalid : b.Valid rules) (hvalid' : b'.Valid rules)
    (h : b.toDocument = b'.toDocument) : b.inOrder = b'.inOrder := by
  have hevidence := ofDocument_evidence b
  rw [h, ofDocument_evidence b'] at hevidence
  have hrebuilt := rebuild_evidence hvalid
  rw [← Option.some.inj hevidence, rebuild_evidence hvalid'] at hrebuilt
  exact (Option.some.inj hrebuilt).symm

end Rebuilding

section Reading
variable {rules : AdmissionRules} {store : PartitionStore} {b : ReviewBaseline} {value : Json}
  {manifest : Option Manifest}

/-- The texts that the reader bounds in bytes. -/
def TextsFit (b : ReviewBaseline) : Prop :=
  ∀ f ∈ b.findings, (∀ s ∈ f.symbol, (encode s).length ≤ maxModelBytes) ∧
    (encode f.defectKind).length ≤ maxModelBytes

theorem boundedText_iff {s : String} : validateBoundedText s maxModelBytes "baseline identity" true =
    .ok () ↔ (encode s).length ≤ maxModelBytes := by
  unfold validateBoundedText
  rw [ensure_bind (.inl rfl)]
  exact ⟨ensure_inv, ensure_ok⟩

theorem checkIdentity_iff {f : BaselineFinding} : checkIdentity f.toDocument = .ok () ↔
    (∀ s ∈ f.symbol, (encode s).length ≤ maxModelBytes) ∧
      (encode f.defectKind).length ≤ maxModelBytes := by
  have hsymbol : f.toDocument.get? "symbol" = some (nullable f.symbol) := rfl
  have hkind : f.toDocument.get? "defect_kind" = some (.str f.defectKind) := rfl
  unfold checkIdentity
  rw [forM_iff]
  simp only [List.forall_mem_cons, List.not_mem_nil, false_imp_iff, implies_true, and_true,
    hsymbol, hkind, boundedText_iff]
  cases f.symbol with
  | none => simp [nullable]
  | some s => simp [nullable, boundedText_iff]

/-- Once a valid baseline's document is open, it reads back exactly where its texts fit. -/
theorem read_opened (hvalid : b.Valid rules) (hschema : evidenceSchema b.toDocument = true)
    (hopen : openHistory rules store value = .ok (b.toDocument, manifest))
    (hauthority : ∀ m ∈ manifest, Authorizes m b.toDocument b.evidence) :
    (TextsFit b → baselineFromHistoryDocument rules store value = .ok b.inOrder) ∧
      ∀ read, baselineFromHistoryDocument rules store value = .ok read → TextsFit b := by
  have hkey : (b.evidence.cacheKey.record? cacheKeyKeys).isSome = true := by
    rw [ReviewBaseline.evidence, CacheKey.toDocument, Json.record?_zip rfl]
    rfl
  have hfindings : ∀ item ∈ b.evidence.findings, (item.record? findingKeys).isSome = true := by
    intro item hitem
    obtain ⟨f, _, rfl⟩ := List.mem_map.mp hitem
    rw [BaselineFinding.toDocument, Json.record?_zip rfl]
    rfl
  have htexts : b.evidence.findings.forM checkIdentity = .ok () ↔ TextsFit b := by
    rw [forM_iff]
    unfold ReviewBaseline.evidence TextsFit
    simp only [List.forall_mem_map, checkIdentity_iff]
    exact forall_congr' fun f => imp_congr_left (sortedFindings_perm b.findings).mem_iff
  have hread : baselineFromHistoryDocument rules store value =
      (b.evidence.findings.forM checkIdentity >>= fun _ => .ok b.inOrder) := by
    unfold baselineFromHistoryDocument
    rw [ok_bind hopen]
    dsimp only
    rw [ensure_bind hschema, ofDocument_evidence]
    dsimp only
    rw [ensure_bind hauthority, ensure_bind hkey, ensure_bind hfindings, rebuild_evidence hvalid]
  rw [hread]
  constructor
  · intro hfit
    exact ok_bind (htexts.mpr hfit) _
  · intro read h
    obtain ⟨_, hchecked, _⟩ := bind_ok h
    exact htexts.mp hchecked

end Reading

end ReviewSensei.Convergence
