import ReviewSensei.PromptRequests

/-! The order in which supplemental documents are left out: one loop over the lenses in use gathers
their ranks, the mandatory paths and the reports. -/
namespace ReviewSensei.Prompt
open Session (bind_ok)
open Diff (UnicodeRules)

section Ranking
variable {rules : UnicodeRules} {L σ : Type} {active : L → Bool}
  {score : DocumentFields → σ} {ps : List (LensFields rules L × ReviewDocument rules)}
  {r r' : Ranking σ} {context : LensFields rules L} {document : ReviewDocument rules}
  {documents : List (ReviewDocument rules)} {categories : List String}

/-- What the loop knows after the documents that it has seen, each with its lens. -/
structure Ranked (score : DocumentFields → σ)
    (ps : List (LensFields rules L × ReviewDocument rules)) (r : Ranking σ) : Prop where
  payloads : ∀ k s, r.payloads.get? k = some s → ∃ p ∈ ps, p.2.path = k ∧ p.2.sha256 = s
  nodup : r.optional.keys.Nodup
  optional : ∀ k, k ∈ r.optional.keys ↔ ∃ p ∈ ps, p.2.path = k ∧ isMandatory p.1 k = false
  scores : ∀ k v, r.optional.get? k = some v →
    ∃ p ∈ ps, p.2.path = k ∧ v = score p.2.toDocumentFields
  mandatory : ∀ k, k ∈ r.mandatory ↔ ∃ p ∈ ps, p.2.path = k ∧ isMandatory p.1 k = true
  mandatoryOnce : r.mandatory.Nodup

theorem Ranked.nil : Ranked score ([] : List (LensFields rules L × ReviewDocument rules)) {} := by
  refine ⟨nofun, List.nodup_nil, ?_, nofun, ?_, List.nodup_nil⟩
  · exact fun k => iff_of_false List.not_mem_nil fun ⟨_, hp, _⟩ => List.not_mem_nil hp
  · exact fun k => iff_of_false List.not_mem_nil fun ⟨_, hp, _⟩ => List.not_mem_nil hp

/-- One more document adds its path to one of the two kinds. -/
theorem seen_path {q : LensFields rules L → Bool} {k : String} :
    (∃ p ∈ ps ++ [(context, document)], p.2.path = k ∧ q p.1 = true) ↔
      (∃ p ∈ ps, p.2.path = k ∧ q p.1 = true) ∨ (document.path = k ∧ q context = true) := by
  constructor
  · intro ⟨p, hp, hpath, hq⟩
    rcases List.mem_append.mp hp with hp | hp
    · exact .inl ⟨p, hp, hpath, hq⟩
    · rw [List.mem_singleton.mp hp] at hpath hq
      exact .inr ⟨hpath, hq⟩
  · rintro (⟨p, hp, hpath, hq⟩ | ⟨hpath, hq⟩)
    · exact ⟨p, List.mem_append_left _ hp, hpath, hq⟩
    · exact ⟨_, List.mem_append_right _ (List.mem_singleton_self _), hpath, hq⟩

theorem payloads_step (h : Ranked score ps r) {k s : String}
    (hget : (r.payloads.setDefault document.path document.sha256).get? k = some s) :
    ∃ p ∈ ps ++ [(context, document)], p.2.path = k ∧ p.2.sha256 = s := by
  rw [Dict.get?_setDefault] at hget
  split at hget
  next hkey =>
    obtain rfl := Option.some.inj hget
    exact ⟨_, List.mem_append_right _ (List.mem_singleton_self _), hkey.1, rfl⟩
  next =>
    obtain ⟨p, hp, hpath, hsha⟩ := h.payloads k s hget
    exact ⟨p, List.mem_append_left _ hp, hpath, hsha⟩

theorem mem_addMandatory {mandatory : List String} {path k : String} :
    k ∈ addMandatory mandatory path ↔ k ∈ mandatory ∨ path = k := by
  unfold addMandatory
  split
  next hmem =>
    constructor
    · exact .inl
    · rintro (h | rfl)
      · exact h
      · exact hmem
  next => rw [List.mem_append, List.mem_singleton, eq_comm]

/-- One document never conflicts with an earlier one, and is ranked. -/
theorem rankDocument_ok [LinearOrder σ] (context : LensFields rules L) (h : Ranked score ps r)
    (hsame : ∀ p ∈ ps, p.2.path = document.path → p.2.toDocumentFields = document.toDocumentFields) :
    ∃ r', rankDocument score context r document = .ok r' ∧
      Ranked score (ps ++ [(context, document)]) r' ∧ r'.originalReports = r.originalReports ∧
      r'.omissionReasons = r.omissionReasons := by
  have hprior : (r.payloads.get? document.path).getD document.sha256 = document.sha256 := by
    cases hget : r.payloads.get? document.path with
    | none => rfl
    | some s =>
      obtain ⟨p, hp, hpath, hsha⟩ := h.payloads _ _ hget
      rw [Option.getD_some, ← hsha, hsame p hp hpath]
  unfold rankDocument
  dsimp only
  rw [ensure_bind hprior]
  by_cases hmandatory : isMandatory context document.path = true
  · rw [if_pos hmandatory]
    refine ⟨_, rfl, ⟨fun k s hget => payloads_step h hget, h.nodup, fun k => ?_, fun k v hget => ?_,
      fun k => ?_, ?_⟩, rfl, rfl⟩
    · have hseen := @seen_path rules L ps context document
        (fun c => !isMandatory c k) k
      simp only [Bool.not_eq_true'] at hseen
      rw [hseen, h.optional k]
      constructor
      · exact .inl
      · rintro (hk | ⟨rfl, hk⟩)
        · exact hk
        · rw [hmandatory] at hk
          cases hk
    · obtain ⟨p, hp, hfacts⟩ := h.scores k v hget
      exact ⟨p, List.mem_append_left _ hp, hfacts⟩
    · rw [@seen_path rules L ps context document (fun c => isMandatory c k) k, mem_addMandatory,
        h.mandatory k]
      constructor
      · rintro (hk | rfl)
        · exact .inl hk
        · exact .inr ⟨rfl, hmandatory⟩
      · rintro (hk | ⟨hk, -⟩)
        · exact .inl hk
        · exact .inr hk
    · dsimp only
      unfold addMandatory
      split
      · exact h.mandatoryOnce
      next hnew =>
        exact h.mandatoryOnce.append (List.nodup_singleton _) (List.disjoint_singleton.mpr hnew)
  · rw [if_neg hmandatory]
    have hoptional : isMandatory context document.path = false := Bool.not_eq_true _ ▸ hmandatory
    refine ⟨_, rfl, ⟨fun k s hget => payloads_step h hget, Dict.nodup_set h.nodup _ _, fun k => ?_,
      fun k v hget => ?_, fun k => ?_, h.mandatoryOnce⟩, rfl, rfl⟩
    · have hseen := @seen_path rules L ps context document
        (fun c => !isMandatory c k) k
      simp only [Bool.not_eq_true'] at hseen
      rw [hseen, Dict.mem_keys_iff, Dict.get?_set]
      by_cases hk : document.path = k
      · subst hk
        rw [if_pos rfl]
        exact iff_of_true rfl (.inr ⟨rfl, hoptional⟩)
      · rw [if_neg hk, ← Dict.mem_keys_iff, h.optional k]
        constructor
        · exact .inl
        · rintro (hk' | ⟨hk', -⟩)
          · exact hk'
          · exact absurd hk' hk
    · dsimp only at hget
      rw [Dict.get?_set] at hget
      split at hget
      next hk =>
        obtain rfl := Option.some.inj hget
        refine ⟨_, List.mem_append_right _ (List.mem_singleton_self _), hk, ?_⟩
        -- an earlier score of the path is the score of the same document
        cases hprior : r.optional.get? document.path with
        | none => exact max_self _
        | some v =>
          obtain ⟨p, hp, hpath, rfl⟩ := h.scores _ _ hprior
          rw [Option.getD_some, hsame p hp hpath]
          exact max_self _
      next =>
        obtain ⟨p, hp, hfacts⟩ := h.scores k v hget
        exact ⟨p, List.mem_append_left _ hp, hfacts⟩
    · rw [@seen_path rules L ps context document (fun c => isMandatory c k) k, h.mandatory k]
      constructor
      · exact .inl
      · rintro (hk | ⟨rfl, hk⟩)
        · exact hk
        · rw [hoptional] at hk
          cases hk

theorem addReport_ranked (h : Ranked score ps r) (c : LensFields rules L) :
    Ranked score ps (addReport c r) := by
  unfold addReport
  cases c.documentSelection with
  | none => exact h
  | some report => exact ⟨h.payloads, h.nodup, h.optional, h.scores, h.mandatory, h.mandatoryOnce⟩

theorem rankDocuments_ok [LinearOrder σ] (context : LensFields rules L) (h : Ranked score ps r)
    (hconsistent : Consistent (ps.map Prod.snd ++ documents)) :
    ∃ r', documents.foldlM (rankDocument score context) r = .ok r' ∧
      Ranked score (ps ++ documents.map (fun d => (context, d))) r' ∧
      r'.originalReports = r.originalReports ∧ r'.omissionReasons = r.omissionReasons := by
  induction documents generalizing ps r with
  | nil =>
    rw [List.map_nil, List.append_nil]
    exact ⟨r, rfl, h, rfl, rfl⟩
  | cons d rest ih =>
    have hsame : ∀ p ∈ ps, p.2.path = d.path → p.2.toDocumentFields = d.toDocumentFields := by
      intro p hp hpath
      exact hconsistent p.2 (List.mem_append_left _ (List.mem_map_of_mem hp)) d
        (List.mem_append_right _ List.mem_cons_self) hpath
    obtain ⟨next, hnext, hranked, hreports, hreasons⟩ := rankDocument_ok context h hsame
    have hrest : Consistent ((ps ++ [(context, d)]).map Prod.snd ++ rest) := by
      rw [List.map_append, List.append_assoc]
      exact hconsistent
    obtain ⟨r', hr', hranked', hreports', hreasons'⟩ := ih hranked hrest
    refine ⟨r', ?_, ?_, hreports'.trans hreports, hreasons'.trans hreasons⟩
    · rw [List.foldlM_cons, ok_bind hnext]
      exact hr'
    · rw [List.append_assoc] at hranked'
      exact hranked'

/-- The documents of the lenses in use, each with its lens. -/
def activePairs (categories : List String) (contexts : List (ReviewLensContext rules active)) :
    List (LensFields rules L × ReviewDocument rules) :=
  (contexts.filter (fun c => decide (c.categoryId ∈ categories))).flatMap
    (fun c => c.documents.map (fun d => (c.toLensFields, d)))

theorem mem_activePairs {contexts : List (ReviewLensContext rules active)}
    {p : LensFields rules L × ReviewDocument rules} : p ∈ activePairs categories contexts ↔
      ∃ c ∈ contexts, c.categoryId ∈ categories ∧ p.2 ∈ c.documents ∧ c.toLensFields = p.1 := by
  unfold activePairs
  rw [List.mem_flatMap]
  constructor
  · intro ⟨c, hc, hp⟩
    obtain ⟨hc, hactive⟩ := List.mem_filter.mp hc
    obtain ⟨d, hd, rfl⟩ := List.mem_map.mp hp
    exact ⟨c, hc, of_decide_eq_true hactive, hd, rfl⟩
  · intro ⟨c, hc, hactive, hd, hlens⟩
    exact ⟨c, List.mem_filter.mpr ⟨hc, decide_eq_true hactive⟩,
      List.mem_map.mpr ⟨p.2, hd, by rw [hlens]⟩⟩

/-- The reports of some lenses, of those in use. -/
def reportsOf (categories : List String) (contexts : List (ReviewLensContext rules active)) :
    List (String × DocumentSelectionReport rules) :=
  contexts.filterMap (fun c =>
    if c.categoryId ∈ categories then c.documentSelection.map (fun r => (c.categoryId, r))
    else none)

theorem activePairs_cons (c : ReviewLensContext rules active)
    (rest : List (ReviewLensContext rules active)) : activePairs categories (c :: rest) =
      (if c.categoryId ∈ categories then c.documents.map (fun d => (c.toLensFields, d)) else []) ++
        activePairs categories rest := by
  unfold activePairs
  rw [List.filter_cons]
  by_cases hactive : c.categoryId ∈ categories
  · rw [if_pos (decide_eq_true hactive), if_pos hactive]
    rfl
  · rw [if_neg (by simpa using hactive), if_neg hactive]
    rfl

theorem reportsOf_cons (c : ReviewLensContext rules active)
    (rest : List (ReviewLensContext rules active)) : reportsOf categories (c :: rest) =
      (if c.categoryId ∈ categories then
        (c.documentSelection.map (fun r => (c.categoryId, r))).toList else []) ++
        reportsOf categories rest := by
  unfold reportsOf
  rw [List.filterMap_cons]
  by_cases hactive : c.categoryId ∈ categories
  · rw [if_pos hactive, if_pos hactive]
    cases c.documentSelection with
    | none => rfl
    | some report => rfl
  · rw [if_neg hactive, if_neg hactive]
    rfl

theorem rank_ok [LinearOrder σ] {contexts : List (ReviewLensContext rules active)}
    (h : Ranked score ps r)
    (hconsistent : Consistent (ps.map Prod.snd ++ contexts.flatMap (fun c => c.documents))) :
    ∃ r', contexts.foldlM (rankContext score categories) r = .ok r' ∧
      Ranked score (ps ++ activePairs categories contexts) r' ∧
      r'.originalReports = r.originalReports ++
        (reportsOf categories contexts).map (fun p => originalReport p.1 p.2) ∧
      r'.omissionReasons = r.omissionReasons ++
        (reportsOf categories contexts).map (fun p => (p.1, p.2.omissionReasons)) := by
  induction contexts generalizing ps r with
  | nil => exact ⟨r, rfl, by rw [activePairs, List.filter_nil, List.flatMap_nil, List.append_nil]; exact h,
      (List.append_nil _).symm, (List.append_nil _).symm⟩
  | cons c rest ih =>
    rw [List.flatMap_cons] at hconsistent
    by_cases hactive : c.categoryId ∈ categories
    · have hdocuments : Consistent (ps.map Prod.snd ++ c.documents) := by
        rw [← List.append_assoc] at hconsistent
        exact fun a ha b hb => hconsistent a (List.mem_append_left _ ha) b
          (List.mem_append_left _ hb)
      obtain ⟨next, hnext, hranked, hreports, hreasons⟩ :=
        rankDocuments_ok c.toLensFields (addReport_ranked h c.toLensFields) hdocuments
      have hpairs : ps ++ activePairs categories (c :: rest) =
          (ps ++ c.documents.map (fun d => (c.toLensFields, d))) ++ activePairs categories rest := by
        rw [activePairs_cons, if_pos hactive, List.append_assoc]
      have hmap : (ps ++ c.documents.map (fun d => (c.toLensFields, d))).map Prod.snd =
          ps.map Prod.snd ++ c.documents := by
        rw [List.map_append, List.map_map]
        exact congrArg _ (List.map_id _)
      obtain ⟨r', hr', hranked', hreports', hreasons'⟩ := ih hranked (by
        rw [hmap, List.append_assoc]
        exact hconsistent)
      refine ⟨r', ?_, ?_, ?_, ?_⟩
      · rw [List.foldlM_cons, rankContext, if_pos hactive, ok_bind hnext]
        exact hr'
      · rw [hpairs]
        exact hranked'
      · rw [hreports', hreports, reportsOf_cons, if_pos hactive, addReport]
        cases c.documentSelection with
        | none => rfl
        | some report => exact List.append_assoc _ _ _
      · rw [hreasons', hreasons, reportsOf_cons, if_pos hactive, addReport]
        cases c.documentSelection with
        | none => rfl
        | some report => exact List.append_assoc _ _ _
    · have hrest : Consistent (ps.map Prod.snd ++ rest.flatMap (fun c => c.documents)) := by
        intro a ha b hb
        have hmem (d : ReviewDocument rules)
            (hd : d ∈ ps.map Prod.snd ++ rest.flatMap (fun c => c.documents)) :
            d ∈ ps.map Prod.snd ++ (c.documents ++ rest.flatMap (fun c => c.documents)) := by
          rcases List.mem_append.mp hd with hd | hd
          · exact List.mem_append_left _ hd
          · exact List.mem_append_right _ (List.mem_append_right _ hd)
        exact hconsistent a (hmem a ha) b (hmem b hb)
      obtain ⟨r', hr', hranked, hreports, hreasons⟩ := ih h hrest
      refine ⟨r', ?_, ?_, ?_, ?_⟩
      · rw [List.foldlM_cons, rankContext, if_neg hactive]
        exact hr'
      · rw [activePairs_cons, if_neg hactive]
        exact hranked
      · rw [hreports, reportsOf_cons, if_neg hactive]
        rfl
      · rw [hreasons, reportsOf_cons, if_neg hactive]
        rfl

end Ranking

section Candidates
variable {rules : UnicodeRules} {L S B σ : Type} [LinearOrder σ] {active : L → Bool}
  {score : DocumentFields → σ} {categories : List String}
  {request : ReviewRequest rules active S B} {r : Ranking σ} {cs : List String}

/-- A document of some lens in use. -/
def ActiveDocument (categories : List String) (request : ReviewRequest rules active S B)
    (d : ReviewDocument rules) : Prop :=
  ∃ c ∈ request.lensContexts, c.categoryId ∈ categories ∧ d ∈ c.documents

/-- Some lens in use has a document at the path. -/
def Used (categories : List String) (request : ReviewRequest rules active S B) (path : String) :
    Prop := ∃ d, ActiveDocument categories request d ∧ d.path = path

/-- Some lens in use has a document at the path that is pinned or has no decision. -/
def Mandatory (categories : List String) (request : ReviewRequest rules active S B)
    (path : String) : Prop :=
  ∃ c ∈ request.lensContexts, c.categoryId ∈ categories ∧ (∃ d ∈ c.documents, d.path = path) ∧
    isMandatory c.toLensFields path = true

def Supplemental (categories : List String) (request : ReviewRequest rules active S B)
    (path : String) : Prop := Used categories request path ∧ ¬ Mandatory categories request path

/-- The supplemental documents in the order in which they are left out. -/
structure Candidates (score : DocumentFields → σ) (categories : List String)
    (request : ReviewRequest rules active S B) (cs : List String) : Prop where
  nodup : cs.Nodup
  mem : ∀ path, path ∈ cs ↔ Supplemental categories request path
  ordered : cs.Pairwise (fun p q => ∀ a b, ActiveDocument categories request a →
    ActiveDocument categories request b → a.path = p → b.path = q →
      rankedBefore (score a.toDocumentFields, p) (score b.toDocumentFields, q))

theorem request_consistent (request : ReviewRequest rules active S B) :
    Consistent (request.lensContexts.flatMap (fun c => c.documents)) := by
  have h := request.accepted.2.1
  unfold checkContexts at h
  obtain ⟨_, _, h⟩ := bind_ok h
  obtain ⟨_, _, h⟩ := bind_ok h
  obtain ⟨_, _, h⟩ := bind_ok h
  obtain ⟨_, _, h⟩ := bind_ok h
  obtain ⟨seen, hseen, _⟩ := bind_ok h
  exact (addDocuments_seen Seen.nil hseen).consistent

theorem active_pair {d : ReviewDocument rules} : ActiveDocument categories request d ↔
    ∃ p ∈ activePairs categories request.lensContexts, p.2 = d := by
  constructor
  · intro ⟨c, hc, hactive, hd⟩
    exact ⟨(c.toLensFields, d), mem_activePairs.mpr ⟨c, hc, hactive, hd, rfl⟩, rfl⟩
  · rintro ⟨p, hp, rfl⟩
    obtain ⟨c, hc, hactive, hd, -⟩ := mem_activePairs.mp hp
    exact ⟨c, hc, hactive, hd⟩

theorem rankedBefore_sorted (ps : List (σ × String)) :
    (ps.insertionSort rankedBefore).Pairwise rankedBefore := by
  have htotal : Std.Total (rankedBefore : σ × String → σ × String → Prop) := by
    constructor
    intro a b
    rcases lt_trichotomy a.1 b.1 with hlt | heq | hgt
    · exact .inl (.inl hlt)
    · rcases String.le_total a.2 b.2 with hle | hge
      · exact .inl (.inr ⟨heq, hle⟩)
      · exact .inr (.inr ⟨heq.symm, hge⟩)
    · exact .inr (.inl hgt)
  have htrans : IsTrans (σ × String) rankedBefore := by
    constructor
    intro a b c hab hbc
    rcases hab with hab | ⟨hab, hab'⟩
    · rcases hbc with hbc | ⟨hbc, -⟩
      · exact .inl (hab.trans hbc)
      · exact .inl (hbc ▸ hab)
    · rcases hbc with hbc | ⟨hbc, hbc'⟩
      · exact .inl (hab ▸ hbc)
      · exact .inr ⟨hab.trans hbc, String.le_trans hab' hbc'⟩
  exact List.pairwise_insertionSort rankedBefore ps

theorem candidates_of_ranked (h : Ranked score (activePairs categories request.lensContexts) r) :
    Candidates score categories request r.candidates := by
  have hperm := List.perm_insertionSort rankedBefore
    ((r.optional.filter (fun p => decide (p.1 ∉ r.mandatory))).map (fun p => (p.2, p.1)))
  have hkeys : r.candidates.Perm
      ((r.optional.filter (fun p => decide (p.1 ∉ r.mandatory))).map Prod.fst) := by
    have hmap := hperm.map Prod.snd
    rw [List.map_map] at hmap
    exact hmap
  have hmandatory (path : String) : path ∈ r.mandatory ↔ Mandatory categories request path := by
    rw [h.mandatory]
    constructor
    · rintro ⟨p, hp, hpath, hm⟩
      obtain ⟨c, hc, hactive, hd, hlens⟩ := mem_activePairs.mp hp
      exact ⟨c, hc, hactive, ⟨p.2, hd, hpath⟩, hlens ▸ hm⟩
    · rintro ⟨c, hc, hactive, ⟨d, hd, hpath⟩, hm⟩
      exact ⟨(c.toLensFields, d), mem_activePairs.mpr ⟨c, hc, hactive, hd, rfl⟩, hpath, hm⟩
  refine ⟨?_, ?_, ?_⟩
  · rw [hkeys.nodup_iff]
    exact h.nodup.sublist (List.filter_sublist.map Prod.fst)
  · intro path
    rw [hkeys.mem_iff, List.mem_map]
    constructor
    · rintro ⟨p, hp, rfl⟩
      obtain ⟨hp, hout⟩ := List.mem_filter.mp hp
      obtain ⟨q, hq, hpath, -⟩ := (h.optional p.1).mp (List.mem_map_of_mem hp)
      refine ⟨⟨q.2, active_pair.mpr ⟨q, hq, rfl⟩, hpath⟩, ?_⟩
      rw [← hmandatory]
      exact of_decide_eq_true hout
    · rintro ⟨⟨d, hd, hpath⟩, hout⟩
      rw [← hmandatory] at hout
      obtain ⟨q, hq, rfl⟩ := active_pair.mp hd
      have hfree : isMandatory q.1 path = false := by
        by_contra hm
        exact hout ((h.mandatory path).mpr ⟨q, hq, hpath, Bool.not_eq_false _ ▸ hm⟩)
      obtain ⟨p, hp, hkey⟩ := List.mem_map.mp ((h.optional path).mpr ⟨q, hq, hpath, hfree⟩)
      exact ⟨p, List.mem_filter.mpr ⟨hp, decide_eq_true (hkey ▸ hout)⟩, hkey⟩
  · have hscore : ∀ p ∈ (((r.optional.filter (fun p => decide (p.1 ∉ r.mandatory))).map
        (fun p => (p.2, p.1))).insertionSort rankedBefore), ∀ a,
        ActiveDocument categories request a → a.path = p.2 → score a.toDocumentFields = p.1 := by
      intro p hp a ha hpath
      obtain ⟨q, hq, rfl⟩ := List.mem_map.mp (hperm.mem_iff.mp hp)
      have hget := Dict.get?_of_mem h.nodup (List.mem_of_mem_filter hq)
      obtain ⟨t, ht, htpath, hscored⟩ := h.scores _ _ hget
      obtain ⟨c, hc, -, hd, -⟩ := mem_activePairs.mp ht
      obtain ⟨c', hc', -, hd'⟩ := ha
      have hsame := request_consistent request a (List.mem_flatMap.mpr ⟨c', hc', hd'⟩) t.2
        (List.mem_flatMap.mpr ⟨c, hc, hd⟩) (hpath.trans htpath.symm)
      rw [hsame]
      exact hscored.symm
    unfold Ranking.candidates
    rw [List.pairwise_map]
    refine (rankedBefore_sorted _).imp_of_mem fun {p q} hp hq hpq a b ha hb hpa hqb => ?_
    rw [hscore p hp a ha hpa, hscore q hq b hb hqb]
    exact hpq

end Candidates

end ReviewSensei.Prompt
