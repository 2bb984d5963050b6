import ReviewSensei.PromptContext
import ReviewSensei.BaselineReading

/-! Leaving out whole documents keeps every value one that its constructor accepts. -/
namespace ReviewSensei.Prompt
open Session (bind_ok isSha256)
open Diff (UnicodeRules validateRepositoryPath)

section Decisions
variable {rules : UnicodeRules}

/-- What is left out of the prompt keeps the provenance of its source. -/
theorem leftOut_accepted (d : DocumentDecision rules) : d.leftOut.check rules = .ok () := by
  have h := d.accepted
  unfold DecisionFields.check at h
  obtain ⟨_, hpath, h⟩ := bind_ok h
  obtain ⟨_, hdigests, h⟩ := bind_ok h
  obtain ⟨_, hbytes, _⟩ := bind_ok h
  have hdigests := ensure_inv hdigests
  have hsource : d.sourceSha256 = "" ∨ isSha256 d.sourceSha256 = true :=
    hdigests _ List.mem_cons_self
  have hpath : validateRepositoryPath rules "document selection path" false
      d.leftOut.path.toList = .ok () := hpath
  have hboth : ∀ digest ∈ [d.leftOut.sourceSha256, d.leftOut.payloadSha256],
      digest = "" ∨ isSha256 digest = true := by
    intro digest hdigest
    rcases List.mem_cons.mp hdigest with rfl | hdigest
    · exact hsource
    · exact .inl (List.mem_singleton.mp hdigest)
  have hsize : ∀ n ∈ d.leftOut.sourceBytes, 0 ≤ n ∧ n ≤ 2 ^ 63 - 1 := ensure_inv hbytes
  have hranges : d.leftOut.lineRanges.length ≤ maxExtractWindows ∧
      rangesFit d.leftOut.sourceBytes 0 d.leftOut.lineRanges = true := ⟨Nat.zero_le _, rfl⟩
  have hpayload : d.leftOut.checkPayload = .ok () := by
    have hstatus : d.leftOut.status = .omitted := rfl
    unfold DecisionFields.checkPayload
    rw [if_pos hstatus]
    exact ensure_ok ⟨rfl, rfl, rfl⟩
  have hsummarized : d.leftOut.status ≠ .summarized := nofun
  have hselected : d.leftOut.status ≠ .selected := nofun
  unfold DecisionFields.check
  rw [ok_bind hpath, ensure_bind hboth, ensure_bind hsize, ensure_bind hranges, ok_bind hpayload,
    ensure_bind fun h => absurd h hsummarized, ensure_bind fun h => hsummarized h.1]
  exact ensure_ok fun h => absurd h hselected

/-- The decision of a prompt that leaves out some paths. -/
def DocumentDecision.without (omitted : List String) (d : DocumentDecision rules) :
    DocumentDecision rules :=
  if d.path ∈ omitted ∧ d.status ≠ .omitted then ⟨d.leftOut, leftOut_accepted d⟩ else d

theorem construct_decision (d : DocumentDecision rules) :
    DocumentDecision.construct rules d.toDecisionFields = .ok d := by
  unfold DocumentDecision.construct
  split
  next => rfl
  next message h =>
    rw [d.accepted] at h
    cases h

theorem leaveOutDecision_ok (omitted : List String) (d : DocumentDecision rules) :
    leaveOutDecision omitted d = .ok (d.without omitted) := by
  unfold leaveOutDecision DocumentDecision.without
  split
  · exact construct_decision ⟨d.leftOut, leftOut_accepted d⟩
  · rfl

theorem without_path (omitted : List String) (d : DocumentDecision rules) :
    (d.without omitted).path = d.path := by
  unfold DocumentDecision.without
  split
  · rfl
  · rfl

/-- What a report keeps is what it kept before, less the paths left out. -/
theorem without_kept (omitted : List String) (d : DocumentDecision rules) :
    (d.without omitted).kept = (d.kept && decide (d.path ∉ omitted)) := by
  unfold DocumentDecision.without DecisionFields.kept
  split
  next h =>
    have hout : decide (d.path ∉ omitted) = false := decide_eq_false (not_not.mpr h.1)
    rw [hout, Bool.and_false]
    rfl
  next h =>
    by_cases hstatus : d.status = .omitted
    · rw [decide_eq_false (not_not.mpr hstatus)]
      rfl
    · have hin : d.path ∉ omitted := fun hmem => h ⟨hmem, hstatus⟩
      rw [decide_eq_true hin, Bool.and_true]

theorem without_of_kept {omitted : List String} {d : DocumentDecision rules}
    (h : (d.without omitted).kept = true) : d.without omitted = d := by
  rw [without_kept, Bool.and_eq_true] at h
  have hin := of_decide_eq_true h.2
  unfold DocumentDecision.without
  exact if_neg fun hout => hin hout.1

end Decisions

section Reports
variable {rules : UnicodeRules}

theorem without_filter (omitted : List String) (decisions : List (DocumentDecision rules)) :
    (decisions.map (DocumentDecision.without omitted)).filter (fun d => d.kept) =
      (decisions.filter (fun d => d.kept)).filter (fun d => decide (d.path ∉ omitted)) := by
  induction decisions with
  | nil => rfl
  | cons d rest ih =>
    have hkept := without_kept omitted d
    have hfilter : (d :: rest).filter (fun d => d.kept) =
        if d.kept = true then d :: rest.filter (fun d => d.kept)
        else rest.filter (fun d => d.kept) := List.filter_cons
    rw [List.map_cons, List.filter_cons, ih]
    by_cases h : (d.without omitted).kept = true
    · have hsame := without_of_kept h
      rw [if_pos h, hsame]
      rw [hkept, Bool.and_eq_true] at h
      rw [hfilter, if_pos h.1, List.filter_cons, if_pos h.2]
    · rw [if_neg h]
      rw [hkept, Bool.and_eq_true, not_and] at h
      by_cases hd : d.kept = true
      · rw [hfilter, if_pos hd, List.filter_cons, if_neg (h hd)]
      · rw [hfilter, if_neg hd]

theorem without_report (omitted : List String) (report : DocumentSelectionReport rules) :
    checkReport (report.decisions.map (DocumentDecision.without omitted)) = .ok () := by
  have h := report.accepted
  unfold checkReport at h
  obtain ⟨_, hcount, h⟩ := bind_ok h
  obtain ⟨_, hpaths, h⟩ := bind_ok h
  have hsame : (report.decisions.map (DocumentDecision.without omitted)).map (fun d => d.path) =
      report.decisions.map (fun d => d.path) := by
    rw [List.map_map]
    exact List.map_congr_left fun d _ => without_path omitted d
  have hfew : ((report.decisions.map (DocumentDecision.without omitted)).filter
      (fun d => d.kept)).length ≤ maxReviewContextFiles := by
    rw [without_filter]
    exact (List.length_filter_le _ _).trans (ensure_inv h)
  unfold checkReport
  rw [hsame, ensure_bind (by rw [List.length_map]; exact ensure_inv hcount),
    ensure_bind (ensure_inv hpaths)]
  exact ensure_ok hfew

def DocumentSelectionReport.without (omitted : List String)
    (report : DocumentSelectionReport rules) : DocumentSelectionReport rules :=
  ⟨report.decisions.map (DocumentDecision.without omitted), without_report omitted report⟩

theorem construct_report (report : DocumentSelectionReport rules) :
    DocumentSelectionReport.construct report.decisions = .ok report := by
  unfold DocumentSelectionReport.construct
  split
  next => rfl
  next message h =>
    rw [report.accepted] at h
    cases h

/-- A report names each path once. -/
theorem report_nodup (report : DocumentSelectionReport rules) :
    (report.decisions.map (fun d => d.path)).Nodup := by
  have h := report.accepted
  unfold checkReport at h
  obtain ⟨_, _, h⟩ := bind_ok h
  obtain ⟨_, hpaths, _⟩ := bind_ok h
  rw [ensure_inv hpaths]
  exact (List.perm_insertionSort _ _).nodup_iff.mpr (List.nodup_dedup _)

theorem expected_nodup (report : DocumentSelectionReport rules) :
    (report.expected.map Prod.fst).Nodup := by
  have hsub := (List.filter_sublist (l := report.decisions) (p := fun d => d.kept)).map
    (fun d : DocumentDecision rules => d.path)
  have hmap : report.expected.map Prod.fst =
      (report.decisions.filter (fun d => d.kept)).map (fun d => d.path) := by
    rw [DocumentSelectionReport.expected, List.map_map]
    rfl
  rw [hmap]
  exact (report_nodup report).sublist hsub

end Reports

section Tables
variable {α β : Type}

/-- A table of pairs whose keys do not repeat. -/
theorem ofPairs_perm {ps : List (String × α)} (h : (ps.map Prod.fst).Nodup) :
    (Dict.ofPairs ps).Perm ps := by
  have hkeys := Dict.nodup_ofPairs ps
  apply (List.perm_ext_iff_of_nodup hkeys.of_map h.of_map).mpr
  intro p
  obtain ⟨k, v⟩ := p
  constructor
  · intro hmem
    exact Dict.mem_of_get?_ofPairs (Dict.get?_of_mem hkeys hmem)
  · intro hmem
    exact Dict.mem_of_get? (Dict.get?_ofPairs_of_mem hmem h)

/-- The comparison of `validate_documents`: the pairs are the promised ones, each once. -/
theorem same_iff_perm {ds es : List (String × String)} (hes : (es.map Prod.fst).Nodup) :
    (Dict.ofPairs ds).same (Dict.ofPairs es) = true ∧ ds.length = (Dict.ofPairs es).length ↔
      ds.Perm es := by
  have hlength : (Dict.ofPairs es).length = es.length := (ofPairs_perm hes).length_eq
  constructor
  · intro ⟨hsame, hcount⟩
    rw [Dict.same_iff] at hsame
    have hkeys (k : String) : k ∈ ds.map Prod.fst ↔ k ∈ es.map Prod.fst := by
      rw [← Dict.isSome_get?_ofPairs, ← Dict.isSome_get?_ofPairs, hsame]
    -- as many pairs as keys: none of them repeats
    have hsub : (es.map Prod.fst).Subperm (ds.map Prod.fst) :=
      List.subperm_of_subset hes fun k hk => (hkeys k).mpr hk
    have hperm := hsub.perm_of_length_le (by
      rw [List.length_map, List.length_map, hcount, hlength])
    have hds : (ds.map Prod.fst).Nodup := hperm.nodup_iff.mp hes
    apply (List.perm_ext_iff_of_nodup hds.of_map hes.of_map).mpr
    intro p
    obtain ⟨k, v⟩ := p
    constructor
    · intro hmem
      have hget := Dict.get?_ofPairs_of_mem hmem hds
      rw [hsame] at hget
      exact Dict.mem_of_get?_ofPairs hget
    · intro hmem
      have hget := Dict.get?_ofPairs_of_mem hmem hes
      rw [← hsame] at hget
      exact Dict.mem_of_get?_ofPairs hget
  · intro hperm
    have hds : (ds.map Prod.fst).Nodup := (hperm.map Prod.fst).nodup_iff.mpr hes
    refine ⟨?_, hperm.length_eq.trans hlength.symm⟩
    rw [Dict.same_iff]
    intro k
    apply Option.ext
    intro v
    constructor
    · intro hget
      exact Dict.get?_ofPairs_of_mem (hperm.mem_iff.mp (Dict.mem_of_get?_ofPairs hget)) hes
    · intro hget
      exact Dict.get?_ofPairs_of_mem (hperm.mem_iff.mpr (Dict.mem_of_get?_ofPairs hget)) hds

end Tables

section Lenses
variable {rules : UnicodeRules} {L : Type} {active : L → Bool}
  {report : DocumentSelectionReport rules} {documents : List (ReviewDocument rules)}
  {categories omitted : List String} {c : ReviewLensContext rules active}

/-- What `validate_documents` establishes. -/
structure Validated (report : DocumentSelectionReport rules)
    (documents : List (ReviewDocument rules)) : Prop where
  same : (documents.map (fun document => (document.path, document.sha256))).Perm report.expected
  payloads : ∀ d ∈ report.decisions, ∀ document ∈ documents, document.path = d.path →
    (d.status = .selected → d.sourceBytes = some (document.bytes : Int)) ∧
      (d.status = .summarized → document.bytes ≤ maxExtractBytes)

theorem checkPayload_iff {byPath : Dict String (ReviewDocument rules)} {d : DocumentDecision rules} :
    DocumentSelectionReport.checkPayload byPath d = .ok () ↔
      (d.status = .selected → d.sourceBytes =
        some ((((byPath.get? d.path).map (fun document => document.bytes)).getD 0 : Nat) : Int)) ∧
      (d.status = .summarized →
        ((byPath.get? d.path).map (fun document => document.bytes)).getD 0 ≤ maxExtractBytes) := by
  unfold DocumentSelectionReport.checkPayload
  constructor
  · intro h
    obtain ⟨_, hselected, h⟩ := bind_ok h
    exact ⟨ensure_inv hselected, ensure_inv h⟩
  · intro h
    dsimp only
    rw [ensure_bind h.1]
    exact ensure_ok h.2

theorem validated_iff : report.validateDocuments documents = .ok () ↔ Validated report documents := by
  have hmatch := @same_iff_perm (documents.map (fun document => (document.path, document.sha256)))
    report.expected (expected_nodup report)
  rw [List.length_map] at hmatch
  unfold DocumentSelectionReport.validateDocuments
  constructor
  · intro h
    obtain ⟨_, hsame, h⟩ := bind_ok h
    have hsame := hmatch.mp (ensure_inv hsame)
    have hall := Convergence.forM_iff.mp h
    have hnodup : ((documents.map (fun document => (document.path, document))).map
        Prod.fst).Nodup := by
      have hperm := (hsame.map Prod.fst).nodup_iff.mpr (expected_nodup report)
      rw [List.map_map] at hperm ⊢
      exact hperm
    refine ⟨hsame, fun d hd document hdocument hpath => ?_⟩
    have hcheck := checkPayload_iff.mp (hall d hd)
    have hget : (Dict.ofPairs (documents.map (fun document => (document.path, document)))).get?
        d.path = some document :=
      Dict.get?_ofPairs_of_mem (List.mem_map.mpr ⟨document, hdocument, by rw [hpath]⟩) hnodup
    rw [hget] at hcheck
    exact hcheck
  · intro h
    rw [ensure_bind (hmatch.mpr h.same)]
    apply Convergence.forM_iff.mpr
    intro d hd
    apply checkPayload_iff.mpr
    cases hget : (Dict.ofPairs (documents.map (fun document => (document.path, document)))).get?
        d.path with
    | some document =>
      obtain ⟨document', hdocument, heq⟩ := List.mem_map.mp (Dict.mem_of_get?_ofPairs hget)
      obtain ⟨hpath, rfl⟩ := Prod.mk.inj heq
      exact h.payloads d hd document' hdocument hpath
    | none =>
      -- only a document that was left out before stands in no table
      have hout : d.status = .omitted := by
        by_contra hstatus
        have hexpected : (d.path, d.payloadSha256) ∈ report.expected :=
          List.mem_map.mpr ⟨d, List.mem_filter.mpr ⟨hd, decide_eq_true hstatus⟩, rfl⟩
        obtain ⟨document, hdocument, heq⟩ := List.mem_map.mp (h.same.mem_iff.mpr hexpected)
        have hsome := (Dict.isSome_get?_ofPairs
          (documents.map (fun document => (document.path, document))) d.path).mpr
          (List.mem_map.mpr ⟨_, List.mem_map_of_mem hdocument, (Prod.mk.inj heq).1⟩)
        rw [hget] at hsome
        cases hsome
      rw [hout]
      exact ⟨nofun, nofun⟩

theorem Validated.without (h : Validated report documents) (omitted : List String) :
    Validated (report.without omitted)
      (documents.filter (fun d => decide (d.path ∉ omitted))) := by
  refine ⟨?_, ?_⟩
  · have hexpected : (report.without omitted).expected =
        report.expected.filter (fun p => decide (p.1 ∉ omitted)) := by
      rw [DocumentSelectionReport.expected, DocumentSelectionReport.without, without_filter,
        DocumentSelectionReport.expected, List.filter_map]
      rfl
    have hdocuments : (documents.filter (fun d => decide (d.path ∉ omitted))).map
        (fun document => (document.path, document.sha256)) =
          (documents.map (fun document => (document.path, document.sha256))).filter
            (fun p => decide (p.1 ∉ omitted)) := by
      rw [List.filter_map]
      rfl
    rw [hexpected, hdocuments]
    exact h.same.filter _
  · intro d' hd' document hdocument hpath
    obtain ⟨d, hd, rfl⟩ := List.mem_map.mp hd'
    have hin := of_decide_eq_true (List.mem_filter.mp hdocument).2
    rw [without_path] at hpath
    have hsame : d.without omitted = d := by
      unfold DocumentDecision.without
      exact if_neg fun hout => hin (hpath ▸ hout.1)
    rw [hsame]
    exact h.payloads d hd document (List.mem_of_mem_filter hdocument) hpath

theorem ReviewLensContext.validated (h : c.documentSelection = some report) :
    Validated report c.documents := by
  have hcheck := c.accepted
  unfold LensFields.check at hcheck
  obtain ⟨_, _, hcheck⟩ := bind_ok hcheck
  obtain ⟨_, _, hcheck⟩ := bind_ok hcheck
  rw [h] at hcheck
  exact validated_iff.mp hcheck

/-- The fields of a lens whose prompt leaves out some paths. -/
def leftOutFields (omitted : List String) (c : ReviewLensContext rules active)
    (report : DocumentSelectionReport rules) : LensFields rules L :=
  { c.toLensFields with
    documents := c.documents.filter (fun d => decide (d.path ∉ omitted))
    documentSelection := some (report.without omitted) }

theorem leftOutFields_accepted (h : c.documentSelection = some report) :
    (leftOutFields omitted c report).check active = .ok () := by
  have hcheck := c.accepted
  unfold LensFields.check at hcheck
  obtain ⟨_, hcategory, hcheck⟩ := bind_ok hcheck
  obtain ⟨_, hlearnings, _⟩ := bind_ok hcheck
  have hcategory : isLearningId (leftOutFields omitted c report).categoryId = true :=
    ensure_inv hcategory
  have hlearnings : (leftOutFields omitted c report).learnings.all active = true :=
    ensure_inv hlearnings
  unfold LensFields.check
  rw [ensure_bind hcategory, ensure_bind hlearnings]
  exact validated_iff.mpr ((c.validated h).without omitted)

/-- The lens of a prompt that leaves out some paths. -/
def ReviewLensContext.without (categories omitted : List String)
    (c : ReviewLensContext rules active) : ReviewLensContext rules active :=
  if c.categoryId ∉ categories ∨ omitted = [] then c
  else match h : c.documentSelection with
    | none => c
    | some report => ⟨leftOutFields omitted c report, leftOutFields_accepted h⟩

theorem construct_context (c : ReviewLensContext rules active) :
    ReviewLensContext.construct active c.toLensFields = .ok c := by
  unfold ReviewLensContext.construct
  split
  next => rfl
  next message h =>
    rw [c.accepted] at h
    cases h

theorem leaveOutContext_ok (categories omitted : List String)
    (c : ReviewLensContext rules active) :
    leaveOutContext categories omitted c = .ok (c.without categories omitted) := by
  unfold leaveOutContext ReviewLensContext.without
  by_cases hfree : c.categoryId ∉ categories ∨ omitted = []
  · rw [if_pos hfree, if_pos hfree]
  · rw [if_neg hfree, if_neg hfree]
    split
    next hnone =>
      split
      next => rfl
      next report hsome =>
        rw [hnone] at hsome
        cases hsome
    next report hreport =>
      split
      next hnone =>
        rw [hreport] at hnone
        cases hnone
      next report' hsome =>
        obtain rfl : report = report' := Option.some.inj (hreport.symm.trans hsome)
        have hdecisions : report.decisions.mapM (leaveOutDecision omitted) =
            .ok (report.without omitted).decisions := by
          have hall : ∀ ds : List (DocumentDecision rules), ds.mapM (leaveOutDecision omitted) =
              .ok (ds.map (DocumentDecision.without omitted)) := by
            intro ds
            induction ds with
            | nil => rfl
            | cons d ds ih =>
              rw [List.mapM_cons, ok_bind (leaveOutDecision_ok omitted d), ok_bind ih]
              rfl
          exact hall report.decisions
        rw [ok_bind hdecisions, ok_bind (construct_report (report.without omitted))]
        exact construct_context ⟨leftOutFields omitted c report, leftOutFields_accepted hsome⟩

/-- What a lens of the prompt has of the lens before. -/
structure LensWithout (categories omitted : List String) (c c' : ReviewLensContext rules active) :
    Prop where
  category : c'.categoryId = c.categoryId
  learnings : c'.learnings = c.learnings
  inactive : c.categoryId ∉ categories → c' = c
  unreported : c.documentSelection = none → c' = c
  documents : c.categoryId ∈ categories → c.documentSelection ≠ none →
    c'.documents = c.documents.filter (fun d => decide (d.path ∉ omitted))
  marked : c.categoryId ∈ categories → ∀ report, c.documentSelection = some report →
    ∃ report', c'.documentSelection = some report' ∧
      report'.decisions.map DocumentDecision.toDecisionFields = report.decisions.map (fun d =>
        if d.path ∈ omitted ∧ d.status ≠ .omitted then d.leftOut else d.toDecisionFields)

theorem without_fields (omitted : List String) (d : DocumentDecision rules) :
    (d.without omitted).toDecisionFields =
      if d.path ∈ omitted ∧ d.status ≠ .omitted then d.leftOut else d.toDecisionFields := by
  unfold DocumentDecision.without
  split
  · rfl
  · rfl

theorem lens_without (categories omitted : List String) (c : ReviewLensContext rules active) :
    LensWithout categories omitted c (c.without categories omitted) := by
  unfold ReviewLensContext.without
  split
  next hfree =>
    refine ⟨rfl, rfl, fun _ => rfl, fun _ => rfl, fun hactive _ => ?_, fun hactive report hreport =>
      ⟨report, hreport, ?_⟩⟩
    · have hnone : omitted = [] := hfree.resolve_left (not_not.mpr hactive)
      rw [hnone]
      exact (List.filter_eq_self.mpr fun _ _ => decide_eq_true List.not_mem_nil).symm
    · have hnone : omitted = [] := hfree.resolve_left (not_not.mpr hactive)
      rw [hnone]
      exact List.map_congr_left fun d _ => (if_neg fun h => List.not_mem_nil h.1).symm
  next hfree =>
    have hactive : c.categoryId ∈ categories := not_not.mp fun h => hfree (.inl h)
    split
    next hnone =>
      refine ⟨rfl, rfl, fun _ => rfl, fun _ => rfl, fun _ hsome => absurd hnone hsome,
        fun _ report hreport => ?_⟩
      rw [hnone] at hreport
      cases hreport
    next report hreport =>
      refine ⟨rfl, rfl, fun hnot => absurd hactive hnot, fun hnone => ?_, fun _ _ => rfl,
        fun _ report' hreport' => ⟨_, rfl, ?_⟩⟩
      · rw [hreport] at hnone
        cases hnone
      · obtain rfl : report = report' := Option.some.inj (hreport.symm.trans hreport')
        rw [DocumentSelectionReport.without, List.map_map]
        exact List.map_congr_left fun d _ => without_fields omitted d

/-- No document is new in a lens of the prompt. -/
theorem LensWithout.subset {c' : ReviewLensContext rules active}
    (h : LensWithout categories omitted c c') : c'.documents ⊆ c.documents := by
  by_cases hactive : c.categoryId ∈ categories
  · by_cases hnone : c.documentSelection = none
    · rw [h.unreported hnone]
      exact List.Subset.refl _
    · rw [h.documents hactive hnone]
      exact List.filter_subset_self _
  · rw [h.inactive hactive]
    exact List.Subset.refl _

end Lenses
end ReviewSensei.Prompt
