import ReviewSensei.PromptRanking

/-! The rendering that a prompt is admitted with leaves out the fewest documents that let it fit. -/
namespace ReviewSensei.Prompt
open Diff (UnicodeRules)

section Omissions
variable {rules : UnicodeRules} {L S B : Type} {active : L → Bool} {categories omitted : List String}
  {request selected : ReviewRequest rules active S B}

/-- What the request of a prompt has of the request before: whole documents of the lenses in use are
left out, and marked so. -/
structure Omits (categories omitted : List String) (request selected : ReviewRequest rules active S B) :
    Prop where
  frame : selected.frame = request.frame
  lenses : List.Forall₂ (fun c c' => LensWithout categories omitted c c' ∧
      (c.categoryId ∈ categories → c'.documents =
        c.documents.filter (fun d => decide (d.path ∉ omitted))))
    request.lensContexts selected.lensContexts

theorem omits_without (h : ∀ path ∈ omitted, ¬ Mandatory categories request path) :
    Omits categories omitted request (request.without categories omitted) := by
  refine ⟨rfl, ?_⟩
  have hall : ∀ cs : List (ReviewLensContext rules active), (∀ c ∈ cs, c ∈ request.lensContexts) →
      List.Forall₂ (fun c c' => LensWithout categories omitted c c' ∧
        (c.categoryId ∈ categories → c'.documents =
          c.documents.filter (fun d => decide (d.path ∉ omitted))))
        cs (cs.map (ReviewLensContext.without categories omitted)) := by
    intro cs hcs
    induction cs with
    | nil => exact .nil
    | cons c cs ih =>
      have hlens := lens_without categories omitted c
      refine .cons ⟨hlens, fun hactive => ?_⟩ (ih fun d hd => hcs d (List.mem_cons_of_mem _ hd))
      by_cases hnone : c.documentSelection = none
      · -- every document of a lens without a report is mandatory
        rw [hlens.unreported hnone]
        refine (List.filter_eq_self.mpr fun d hd => ?_).symm
        apply decide_eq_true
        intro hout
        refine h d.path hout ⟨c, hcs c List.mem_cons_self, hactive, ⟨d, hd, rfl⟩, ?_⟩
        unfold isMandatory decisionOn
        rw [hnone]
        rfl
      · exact hlens.documents hactive hnone
  exact hall request.lensContexts fun _ hc => hc

/-- A path is in use after the omission exactly if it was and is not left out. -/
theorem Omits.used (h : Omits categories omitted request selected) (path : String) :
    Used categories selected path ↔ Used categories request path ∧ path ∉ omitted := by
  obtain ⟨-, hlenses⟩ := h
  unfold Used ActiveDocument
  generalize request.lensContexts = before at hlenses ⊢
  generalize selected.lensContexts = after at hlenses ⊢
  constructor
  · rintro ⟨d, ⟨c', hc', hactive, hd⟩, rfl⟩
    obtain ⟨c, hc, hlens, hdocuments⟩ : ∃ c ∈ before, LensWithout categories omitted c c' ∧
        (c.categoryId ∈ categories → c'.documents =
          c.documents.filter (fun d => decide (d.path ∉ omitted))) := by
      induction hlenses with
      | nil => cases hc'
      | cons hfirst _ ih =>
        rcases List.mem_cons.mp hc' with rfl | hc'
        · exact ⟨_, List.mem_cons_self, hfirst⟩
        · obtain ⟨c, hc, hfacts⟩ := ih hc'
          exact ⟨c, List.mem_cons_of_mem _ hc, hfacts⟩
    rw [hlens.category] at hactive
    rw [hdocuments hactive, List.mem_filter] at hd
    exact ⟨⟨d, ⟨c, hc, hactive, hd.1⟩, rfl⟩, of_decide_eq_true hd.2⟩
  · rintro ⟨⟨d, ⟨c, hc, hactive, hd⟩, rfl⟩, hin⟩
    obtain ⟨c', hc', hlens, hdocuments⟩ : ∃ c' ∈ after, LensWithout categories omitted c c' ∧
        (c.categoryId ∈ categories → c'.documents =
          c.documents.filter (fun d => decide (d.path ∉ omitted))) := by
      induction hlenses with
      | nil => cases hc
      | cons hfirst _ ih =>
        rcases List.mem_cons.mp hc with rfl | hc
        · exact ⟨_, List.mem_cons_self, hfirst⟩
        · obtain ⟨c', hc', hfacts⟩ := ih hc
          exact ⟨c', List.mem_cons_of_mem _ hc', hfacts⟩
    refine ⟨d, ⟨c', hc', hlens.category ▸ hactive, ?_⟩, rfl⟩
    rw [hdocuments hactive, List.mem_filter]
    exact ⟨hd, decide_eq_true hin⟩

theorem mem_activePaths {path : String} :
    path ∈ activePaths categories request ↔ Used categories request path := by
  unfold activePaths Used ActiveDocument
  rw [List.mem_dedup, List.mem_flatMap]
  constructor
  · rintro ⟨c, hc, hpath⟩
    obtain ⟨hc, hactive⟩ := List.mem_filter.mp hc
    obtain ⟨d, hd, rfl⟩ := List.mem_map.mp hpath
    exact ⟨d, ⟨c, hc, of_decide_eq_true hactive, hd⟩, rfl⟩
  · rintro ⟨d, ⟨c, hc, hactive, hd⟩, rfl⟩
    exact ⟨c, List.mem_filter.mpr ⟨hc, decide_eq_true hactive⟩, List.mem_map_of_mem hd⟩

/-- As many paths are gone as were left out. -/
theorem Omits.count (h : Omits categories omitted request selected) (honce : omitted.Nodup)
    (hused : ∀ path ∈ omitted, Used categories request path) :
    ((activePaths categories request).filter
      (fun path => decide (path ∉ activePaths categories selected))).length = omitted.length := by
  have hperm : ((activePaths categories request).filter
      (fun path => decide (path ∉ activePaths categories selected))).Perm omitted := by
    have hnodup : (activePaths categories request).Nodup := List.nodup_dedup _
    apply (List.perm_ext_iff_of_nodup (hnodup.filter _) honce).mpr
    intro path
    rw [List.mem_filter, mem_activePaths, decide_eq_true_iff, mem_activePaths, h.used]
    constructor
    · rintro ⟨hpath, hgone⟩
      by_contra hin
      exact hgone ⟨hpath, hin⟩
    · exact fun hout => ⟨hused path hout, fun hin => hin.2 hout⟩
  exact hperm.length_eq

end Omissions

section Admitting
variable {rules : UnicodeRules} {L S B σ : Type} [LinearOrder σ] {active : L → Bool}
  {categories cs : List String} {request : ReviewRequest rules active S B}
  {render : ReviewRequest rules active S B → String} {fits : String → Bool}
  {score : DocumentFields → σ}

/-- Leaving out one more supplemental document never makes a fitting prompt stop fitting. -/
def Monotone (categories : List String) (request : ReviewRequest rules active S B)
    (render : ReviewRequest rules active S B → String) (fits : String → Bool) : Prop :=
  ∀ omitted path, (∀ p ∈ omitted, Supplemental categories request p) →
    Supplemental categories request path → path ∉ omitted →
    fits (render (request.without categories omitted)) = true →
    fits (render (request.without categories (omitted ++ [path]))) = true

/-- What a probe of so many candidates finds. -/
def found (categories : List String) (request : ReviewRequest rules active S B)
    (render : ReviewRequest rules active S B → String) (fits : String → Bool) (cs : List String)
    (count : Nat) : Option (ReviewRequest rules active S B × String) :=
  let selected := request.without categories (cs.take count)
  if fits (render selected) = true then some (selected, render selected) else none

theorem probe_ok (cs : List String) (count : Nat) : probe categories request render fits cs count =
    .ok (found categories request render fits cs count) := by
  unfold probe
  rw [ok_bind (selectedRequest_ok categories request (cs.take count))]
  rfl

theorem found_some {count : Nat} {a : ReviewRequest rules active S B × String}
    (h : found categories request render fits cs count = some a) :
    fits (render (request.without categories (cs.take count))) = true ∧
      a = (request.without categories (cs.take count),
        render (request.without categories (cs.take count))) := by
  unfold found at h
  dsimp only at h
  split at h
  next hfits => exact ⟨hfits, (Option.some.inj h).symm⟩
  next => cases h

theorem found_none {count : Nat} : found categories request render fits cs count = none ↔
    fits (render (request.without categories (cs.take count))) = false := by
  unfold found
  dsimp only
  split
  next hfits => exact iff_of_false nofun (fun h => by rw [hfits] at h; cases h)
  next hfits => exact iff_of_true rfl (Bool.not_eq_true _ ▸ hfits)

theorem found_later (hmono : Monotone categories request render fits)
    (h : Candidates score categories request cs) {n : Nat} (hn : n < cs.length)
    (hfound : (found categories request render fits cs n).isSome) :
    (found categories request render fits cs (n + 1)).isSome := by
  obtain ⟨a, ha⟩ := Option.isSome_iff_exists.mp hfound
  have hfits := (found_some ha).1
  have htake : cs.take (n + 1) = cs.take n ++ [cs[n]] := List.take_succ_eq_append_getElem hn
  have hnew : cs[n] ∉ cs.take n := by
    have hnodup := h.nodup.sublist (List.take_sublist (n + 1) cs)
    rw [htake, List.nodup_append] at hnodup
    exact fun hmem => hnodup.2.2 _ hmem _ (List.mem_singleton_self _) rfl
  have hnext := hmono (cs.take n) cs[n] (fun p hp => (h.mem p).mp (List.mem_of_mem_take hp))
    ((h.mem _).mp (List.getElem_mem hn)) hnew hfits
  rw [← htake] at hnext
  rw [Option.isSome_iff_ne_none]
  intro hnone
  rw [found_none.mp hnone] at hnext
  cases hnext

/-- The number of candidates left out is the least one whose rendering fits. -/
theorem findFitting_least (hmono : Monotone categories request render fits)
    (h : Candidates score categories request cs) :
    (found categories request render fits cs cs.length = none ∧
      findFitting categories request render fits cs = .ok none) ∨
    ∃ n a, n ≤ cs.length ∧ findFitting categories request render fits cs = .ok (some (n, a)) ∧
      found categories request render fits cs n = some a ∧
      (found categories request render fits cs cs.length).isSome ∧
      ∀ m < n, found categories request render fits cs m = none := by
  have hlater : ∀ n, 0 ≤ n → n < cs.length → (found categories request render fits cs n).isSome →
      (found categories request render fits cs (n + 1)).isSome :=
    fun n _ hn hfound => found_later hmono h hn hfound
  unfold findFitting
  rw [ok_bind (probe_ok cs 0)]
  cases hzero : found categories request render fits cs 0 with
  | some a =>
    have hlast := Bisection.passes_later hlater (Nat.le_refl 0) (Nat.zero_le cs.length)
      (Nat.le_refl _) (by rw [hzero]; rfl)
    exact .inr ⟨0, a, Nat.zero_le _, rfl, hzero, hlast, fun m hm => absurd hm (Nat.not_lt_zero m)⟩
  | none =>
    by_cases hempty : cs = []
    · subst hempty
      exact .inl ⟨hzero, rfl⟩
    · dsimp only
      rw [if_neg hempty, ok_bind (probe_ok cs cs.length)]
      cases hlast : found categories request render fits cs cs.length with
      | none => exact .inl ⟨rfl, rfl⟩
      | some a =>
        have hpos := List.length_pos_iff.mpr hempty
        obtain ⟨n, b, hsearch, hn, hn', hb, hbefore⟩ := Bisection.search_first
          (fun n _ _ => @probe_ok rules L S B active categories request render fits cs n)
          (fun n _ hn hfound => hlater n (Nat.zero_le n) hn hfound) hpos hlast
        refine .inr ⟨n, b, hn', ?_, hb, rfl, fun m hm => ?_⟩
        · dsimp only
          rw [ok_bind hsearch]
        · by_cases hm' : 1 ≤ m
          · exact hbefore m hm' hm
          · obtain rfl : m = 0 := by omega
            exact hzero

/-- Admission overflows exactly if even the omission of every supplemental document does not fit, and
otherwise leaves out the shortest fitting prefix of the ranked candidates; the request, the counts
and the reports that it returns are those of that prefix. -/
theorem prompt_admitted (categories : List String) (request : ReviewRequest rules active S B)
    (render : ReviewRequest rules active S B → String) (fits : String → Bool)
    (score : DocumentFields → σ) (hmono : Monotone categories request render fits) :
    ∃ cs, Candidates score categories request cs ∧
      (admitPromptContext categories request render fits score = .error overflow ↔
        fits (render (request.without categories cs)) = false) ∧
      (∀ e, admitPromptContext categories request render fits score = .error e → e = overflow) ∧
      ∀ a, admitPromptContext categories request render fits score = .ok a →
        ∃ n ≤ cs.length, a.request = request.without categories (cs.take n) ∧
          fits (render (request.without categories (cs.take n))) = true ∧
          (∀ m < n, fits (render (request.without categories (cs.take m))) = false) ∧
          Omits categories (cs.take n) request a.request ∧
          (∀ path, Mandatory categories request path → path ∉ cs.take n) ∧
          (∀ path ∈ cs.take n, ¬ Used categories a.request path) ∧
          a.prompt = render a.request ∧ a.promptOmitted = n ∧
          ((activePaths categories request).filter
            (fun path => decide (path ∉ activePaths categories a.request))).length = n ∧
          a.originalReports =
            (activeReports categories request).map (fun p => originalReport p.1 p.2) ∧
          a.originalOmissionReasons =
            (activeReports categories request).map (fun p => (p.1, p.2.omissionReasons)) ∧
          a.selectedReports =
            (activeReports categories a.request).map (fun p => (p.1, p.2.inventorySha256)) ∧
          a.complete = !(activeReports categories a.request).any (fun p => p.2.lossy) ∧
          a.selectedCount = (activePaths categories a.request).length := by
  obtain ⟨r, hrank, hranked, hreports, hreasons⟩ :=
    @rank_ok rules L σ active score [] {} categories _ request.lensContexts Ranked.nil
      (request_consistent request)
  have hcandidates := candidates_of_ranked hranked
  have hrun : rank score categories request.lensContexts = .ok r := hrank
  refine ⟨r.candidates, hcandidates, ?_⟩
  unfold admitPromptContext
  rw [ok_bind hrun]
  have hall : request.without categories (r.candidates.take r.candidates.length) =
      request.without categories r.candidates := by rw [List.take_length]
  rcases findFitting_least hmono hcandidates with ⟨hlast, hnone⟩ | ⟨n, b, hn, hsome, hb, hlast, hbefore⟩
  · rw [ok_bind hnone]
    have hunfit := found_none.mp hlast
    rw [hall] at hunfit
    refine ⟨iff_of_true rfl hunfit, fun e he => (Except.error.inj he).symm, fun a ha => ?_⟩
    cases ha
  · rw [ok_bind hsome]
    obtain ⟨hfits, rfl⟩ := found_some hb
    have hfit : fits (render (request.without categories r.candidates)) = true := by
      obtain ⟨b', hb'⟩ := Option.isSome_iff_exists.mp hlast
      rw [← hall]
      exact (found_some hb').1
    have hsupplemental : ∀ path ∈ r.candidates.take n, Supplemental categories request path :=
      fun path hpath => (hcandidates.mem path).mp (List.mem_of_mem_take hpath)
    have homits := omits_without fun path hpath => (hsupplemental path hpath).2
    have hlength : (r.candidates.take n).length = n := List.length_take_of_le hn
    refine ⟨iff_of_false nofun (fun h => by rw [hfit] at h; cases h), nofun, fun a ha => ?_⟩
    obtain rfl := Except.ok.inj ha
    refine ⟨n, hn, rfl, hfits, fun m hm => found_none.mp (hbefore m hm), homits, ?_, ?_, rfl,
      hlength, ?_, hreports, hreasons, rfl, rfl, rfl⟩
    · exact fun path hmandatory hpath => (hsupplemental path hpath).2 hmandatory
    · exact fun path hpath hused => ((homits.used path).mp hused).2 hpath
    · exact (homits.count (hcandidates.nodup.sublist (List.take_sublist n _))
        fun path hpath => (hsupplemental path hpath).1).trans hlength

end Admitting

section Sample

/-- Leaving out more never brings a document back. -/
theorem without_fewer {rules : UnicodeRules} {L : Type} {active : L → Bool}
    {categories omitted more : List String} (c : ReviewLensContext rules active) :
    (c.without categories (omitted ++ more)).documents ⊆ (c.without categories omitted).documents := by
  have hlens := lens_without categories omitted c
  have hmore := lens_without categories (omitted ++ more) c
  by_cases hactive : c.categoryId ∈ categories
  · by_cases hnone : c.documentSelection = none
    · rw [hlens.unreported hnone, hmore.unreported hnone]
      exact List.Subset.refl _
    · rw [hlens.documents hactive hnone, hmore.documents hactive hnone]
      intro d hd
      obtain ⟨hd, hin⟩ := List.mem_filter.mp hd
      have hin := of_decide_eq_true hin
      exact List.mem_filter.mpr ⟨hd, decide_eq_true fun hout => hin (List.mem_append_left _ hout)⟩
  · rw [hlens.inactive hactive, hmore.inactive hactive]
    exact List.Subset.refl _

def sampleRules : UnicodeRules := { nfc := fun _ => true, forbidden := fun _ => false }

@[irreducible] def sampleDigest : String := sha256 "Read me"

theorem sampleDigest_eq : sampleDigest = sha256 "Read me" := by
  delta sampleDigest
  exact Eq.refl _

theorem sampleDigest_sha : Session.isSha256 sampleDigest = true := by
  rw [sampleDigest_eq]
  exact isSha256_sha256 _

theorem sampleDigest_some : sampleDigest ≠ "" := by
  have hsha := sampleDigest_sha
  intro h
  rw [h] at hsha
  exact absurd hsha (by decide)

def sampleDocument : ReviewDocument sampleRules where
  toDocumentFields := { path := "a.md", content := "Read me", sha256 := sampleDigest }
  accepted := by
    have hpath : Diff.validateRepositoryPath sampleRules "review document path" false
        "a.md".toList = .ok () := by decide
    have hcontent : Session.strip "Read me" ≠ "" := by decide
    have hbound : Human.validateBoundedText "Read me" maxReviewDocumentBytes
        "review document content" false = .ok () := by decide
    unfold DocumentFields.check
    rw [ok_bind hpath, ensure_bind hcontent, ok_bind hbound, ensure_bind sampleDigest_sha]
    exact ensure_ok sampleDigest_eq

def sampleDecision : DocumentDecision sampleRules where
  path := "a.md"
  status := .selected
  reason := .scopeMatch
  sourceSha256 := sampleDigest
  payloadSha256 := sampleDigest
  sourceBytes := some 7
  accepted := by
    have hpath : Diff.validateRepositoryPath sampleRules "document selection path" false
        "a.md".toList = .ok () := by decide
    have hdigests : ∀ digest ∈ [sampleDigest, sampleDigest],
        digest = "" ∨ Session.isSha256 digest = true := by
      intro digest hdigest
      right
      rcases List.mem_cons.mp hdigest with rfl | hdigest
      · exact sampleDigest_sha
      · rw [List.mem_singleton.mp hdigest]
        exact sampleDigest_sha
    have hsize : ∀ n ∈ some (7 : Int), 0 ≤ n ∧ n ≤ 2 ^ 63 - 1 := by decide
    unfold DecisionFields.check DecisionFields.checkPayload
    rw [ok_bind hpath, ensure_bind hdigests, ensure_bind hsize, ensure_bind (by decide),
      if_neg (by decide), ensure_bind ⟨sampleDigest_some, sampleDigest_some⟩, ensure_ok (by decide),
      ok_bind rfl, ensure_bind nofun, ensure_bind (by decide)]
    exact ensure_ok fun _ => ⟨rfl, rfl⟩

def sampleReport : DocumentSelectionReport sampleRules where
  decisions := [sampleDecision]
  accepted := by decide

def sampleContext : ReviewLensContext sampleRules (fun _ : Unit => true) where
  categoryId := "style"
  documents := [sampleDocument]
  documentSelection := some sampleReport
  accepted := by
    have hbytes : sampleDocument.bytes = 7 := by decide
    have hvalid : sampleReport.validateDocuments [sampleDocument] = .ok () := by
      apply validated_iff.mpr
      refine ⟨.refl _, fun d hd document hdocument _ => ?_⟩
      rw [List.mem_singleton.mp hd, List.mem_singleton.mp hdocument, hbytes]
      exact ⟨fun _ => rfl, nofun⟩
    have hnone : ([] : List Unit).all (fun _ => true) = true := rfl
    unfold LensFields.check
    rw [ensure_bind (by decide), ensure_bind hnone]
    exact hvalid

def sampleRequest : ReviewRequest sampleRules (fun _ : Unit => true) Unit Unit where
  frame := { diff := "+x", workBudget := () }
  lensContexts := [sampleContext]
  accepted := by
    refine ⟨by decide, ?_, by decide⟩
    have hadd : addDocument [] sampleDocument = .ok [("a.md", sampleDocument)] :=
      ensure_bind (Eq.refl sampleDocument.toDocumentFields) _
    have hseen : ([sampleContext].flatMap (fun c => c.documents)).foldlM addDocument [] =
        .ok [("a.md", sampleDocument)] := ok_bind hadd _
    unfold checkContexts
    rw [ensure_bind (by decide), ensure_bind (by decide), ensure_bind (by decide),
      ensure_bind nofun, ok_bind hseen, ensure_bind (by decide)]
    exact ensure_ok (by decide)

/-- A prompt that is empty where no document is in it. -/
def sampleRender (request : ReviewRequest sampleRules (fun _ : Unit => true) Unit Unit) : String :=
  if request.lensContexts.all (fun c => c.documents.isEmpty) then "" else "Read me"

def sampleFits (prompt : String) : Bool := decide (prompt = "")

theorem sample_fits {request : ReviewRequest sampleRules (fun _ : Unit => true) Unit Unit} :
    sampleFits (sampleRender request) = true ↔ ∀ c ∈ request.lensContexts, c.documents = [] := by
  unfold sampleFits sampleRender
  rw [decide_eq_true_iff]
  split
  next h =>
    refine iff_of_true rfl fun c hc => ?_
    exact List.isEmpty_iff.mp (List.all_eq_true.mp h c hc)
  next h =>
    refine iff_of_false (by decide) fun hall => h ?_
    exact List.all_eq_true.mpr fun c hc => List.isEmpty_iff.mpr (hall c hc)

theorem sample_prompt_admitted : ∃ a, admitPromptContext ["style"] sampleRequest sampleRender sampleFits
    (fun _ => 0) = .ok a ∧ a.prompt = "" := by
  obtain ⟨cs, hcandidates, hoverflow, hother, hadmitted⟩ := prompt_admitted ["style"] sampleRequest
    sampleRender sampleFits (fun _ => 0) (by
      intro omitted path _ _ _ hfits
      rw [sample_fits] at hfits ⊢
      intro c' hc'
      obtain ⟨c, hc, rfl⟩ := List.mem_map.mp hc'
      have hbefore := hfits _ (List.mem_map_of_mem hc)
      exact List.subset_nil.mp (hbefore ▸ without_fewer c))
  cases hresult : admitPromptContext ["style"] sampleRequest sampleRender sampleFits
      (fun _ => 0) with
  | ok a =>
    obtain ⟨n, -, hrequest, hfits, -, -, -, -, hprompt, -⟩ := hadmitted a hresult
    rw [← hrequest, ← hprompt] at hfits
    exact ⟨a, rfl, of_decide_eq_true hfits⟩
  | error e =>
    -- the only document is a supplemental one, so leaving out the candidates leaves nothing
    exfalso
    have hunfit := hoverflow.mp (hother e hresult ▸ hresult)
    have hmandatory : ¬ Mandatory ["style"] sampleRequest "a.md" := by
      rintro ⟨c, hc, -, -, hm⟩
      rw [List.mem_singleton.mp hc] at hm
      exact absurd hm (by decide)
    have hmem : "a.md" ∈ cs := (hcandidates.mem "a.md").mpr ⟨⟨sampleDocument, ⟨sampleContext,
      List.mem_singleton_self _, by decide, List.mem_singleton_self _⟩, rfl⟩, hmandatory⟩
    have hfit : sampleFits (sampleRender (sampleRequest.without ["style"] cs)) = true := by
      rw [sample_fits]
      intro c' hc'
      obtain ⟨c, hc, rfl⟩ := List.mem_map.mp hc'
      obtain rfl := List.mem_singleton.mp hc
      rw [(lens_without ["style"] cs sampleContext).documents (by decide) (Option.some_ne_none _)]
      exact List.filter_eq_nil_iff.mpr fun d hd => by
        rw [List.mem_singleton.mp hd]
        exact fun hin => of_decide_eq_true hin hmem
    rw [hfit] at hunfit
    cases hunfit

end Sample

end ReviewSensei.Prompt
