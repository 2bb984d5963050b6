import ReviewSensei.PromptContextSteps

/-! A request without some of its documents is one that the constructor accepts. -/
namespace ReviewSensei.Prompt
open Session (bind_ok)
open Diff (UnicodeRules)

section Documents
variable {rules : UnicodeRules} {ds ds' rest : List (ReviewDocument rules)}
  {seen seen' : Dict String (ReviewDocument rules)}

/-- Documents of one path are one document. -/
def Consistent (ds : List (ReviewDocument rules)) : Prop :=
  ∀ a ∈ ds, ∀ b ∈ ds, a.path = b.path → a.toDocumentFields = b.toDocumentFields

/-- The table of some documents. -/
structure Seen (ds : List (ReviewDocument rules)) (seen : Dict String (ReviewDocument rules)) :
    Prop where
  nodup : seen.keys.Nodup
  own : ∀ p ∈ seen, p.2 ∈ ds ∧ p.2.path = p.1
  all : ∀ d ∈ ds, ∃ e, seen.get? d.path = some e ∧ e.toDocumentFields = d.toDocumentFields

theorem Seen.nil : Seen ([] : List (ReviewDocument rules)) [] :=
  ⟨List.nodup_nil, fun _ h => absurd h List.not_mem_nil, fun _ h => absurd h List.not_mem_nil⟩

theorem Seen.consistent (h : Seen ds seen) : Consistent ds := by
  intro a ha b hb hpath
  obtain ⟨e, hget, hfields⟩ := h.all a ha
  obtain ⟨e', hget', hfields'⟩ := h.all b hb
  rw [hpath, hget'] at hget
  obtain rfl := Option.some.inj hget
  exact hfields.symm.trans hfields'

theorem addDocument_seen {d : ReviewDocument rules} (h : Seen ds seen)
    (hadd : addDocument seen d = .ok seen') : Seen (ds ++ [d]) seen' := by
  obtain ⟨_, hsame, hadd⟩ := bind_ok hadd
  have hsame := ensure_inv hsame
  obtain rfl := Except.ok.inj hadd
  have hget (k : String) := Dict.get?_setDefault seen d.path k d
  refine ⟨?_, ?_, ?_⟩
  · unfold Dict.setDefault
    split
    · exact h.nodup
    · exact Dict.nodup_set h.nodup _ _
  · intro p hp
    have hcase : p = (d.path, d) ∨ p ∈ seen := by
      unfold Dict.setDefault at hp
      split at hp
      · exact .inr hp
      · exact Dict.mem_set hp
    rcases hcase with rfl | hp
    · exact ⟨List.mem_append_right _ (List.mem_singleton_self d), rfl⟩
    · exact ⟨List.mem_append_left _ (h.own p hp).1, (h.own p hp).2⟩
  · intro a ha
    cases hprior : seen.get? d.path with
    | none =>
      rcases List.mem_append.mp ha with ha | ha
      · obtain ⟨e, he, hfields⟩ := h.all a ha
        refine ⟨e, ?_, hfields⟩
        rw [hget, if_neg, he]
        intro hkey
        rw [← hkey.1, hprior] at he
        cases he
      · obtain rfl := List.mem_singleton.mp ha
        exact ⟨a, by rw [hget, if_pos ⟨rfl, hprior⟩], rfl⟩
    | some prior =>
      rw [hprior, Option.getD_some] at hsame
      have hkept : ∀ k, (seen.setDefault d.path d).get? k = seen.get? k := by
        intro k
        rw [hget, if_neg fun hkey => by rw [hprior] at hkey; cases hkey.2]
      rcases List.mem_append.mp ha with ha | ha
      · obtain ⟨e, he, hfields⟩ := h.all a ha
        exact ⟨e, (hkept _).trans he, hfields⟩
      · obtain rfl := List.mem_singleton.mp ha
        exact ⟨prior, (hkept _).trans hprior, hsame⟩

theorem addDocuments_seen (h : Seen ds seen) (hadd : rest.foldlM addDocument seen = .ok seen') :
    Seen (ds ++ rest) seen' := by
  induction rest generalizing ds seen with
  | nil =>
    obtain rfl := Except.ok.inj hadd
    rw [List.append_nil]
    exact h
  | cons d rest ih =>
    rw [List.foldlM_cons] at hadd
    obtain ⟨next, hnext, hadd⟩ := bind_ok hadd
    have hrest := ih (addDocument_seen h hnext) hadd
    rw [List.append_assoc] at hrest
    exact hrest

/-- Consistent documents are all taken into the table. -/
theorem addDocuments_ok (h : Seen ds seen) (hconsistent : Consistent (ds ++ rest)) :
    ∃ seen', rest.foldlM addDocument seen = .ok seen' := by
  induction rest generalizing ds seen with
  | nil => exact ⟨seen, rfl⟩
  | cons d rest ih =>
    have hadd : addDocument seen d = .ok (seen.setDefault d.path d) := by
      have hsame : ((seen.get? d.path).getD d).toDocumentFields = d.toDocumentFields := by
        cases hprior : seen.get? d.path with
        | none => rfl
        | some prior =>
          have hown := h.own _ (Dict.mem_of_get? hprior)
          exact hconsistent prior (List.mem_append_left _ hown.1) d
            (List.mem_append_right _ List.mem_cons_self) hown.2
      unfold addDocument
      dsimp only
      rw [ensure_bind hsame]
    have hnext := addDocument_seen h hadd
    rw [List.foldlM_cons, ok_bind hadd]
    apply ih hnext
    rw [List.append_assoc]
    exact hconsistent

/-- The bytes of a table, by its keys. -/
theorem seen_bytes (h : Seen ds seen) (h' : Seen ds' seen') (hsub : ds' ⊆ ds) :
    seen'.map (fun p => p.2.bytes) =
      seen'.keys.map (fun k => ((seen.get? k).map (fun d => d.bytes)).getD 0) := by
  rw [Dict.keys, List.map_map]
  apply List.map_congr_left
  intro p hp
  obtain ⟨hown, hpath⟩ := h'.own p hp
  obtain ⟨e, he, hfields⟩ := h.all p.2 (hsub hown)
  rw [hpath] at he
  have hbytes : e.bytes = p.2.bytes := by
    rw [hfields]
  rw [Function.comp_apply, he]
  exact hbytes.symm

/-- Fewer documents take no more room. -/
theorem Seen.fewer (h : Seen ds seen) (h' : Seen ds' seen') (hsub : ds' ⊆ ds) :
    seen'.length ≤ seen.length ∧
      (seen'.map (fun p => p.2.bytes)).sum ≤ (seen.map (fun p => p.2.bytes)).sum := by
  have hkeys : seen'.keys ⊆ seen.keys := by
    intro k hk
    obtain ⟨p, hp, rfl⟩ := List.mem_map.mp hk
    obtain ⟨hown, hpath⟩ := h'.own p hp
    obtain ⟨e, he, -⟩ := h.all p.2 (hsub hown)
    rw [hpath] at he
    rw [Dict.mem_keys_iff, he]
    rfl
  obtain ⟨ks, hperm, hsublist⟩ := List.subperm_of_subset h'.nodup hkeys
  constructor
  · have hlength := hperm.length_eq.symm.trans_le hsublist.length_le
    rw [Dict.keys, List.length_map, Dict.keys, List.length_map] at hlength
    exact hlength
  · rw [seen_bytes h h' hsub, seen_bytes h h (List.Subset.refl ds),
      ← (hperm.map _).sum_eq]
    exact (hsublist.map _).sum_le_sum fun _ _ => Nat.zero_le _

end Documents

section Requests
variable {rules : UnicodeRules} {L S B : Type} {active : L → Bool}
  {frame : RequestFrame L S B} {contexts : List (ReviewLensContext rules active)}
  {categories omitted : List String} {request : ReviewRequest rules active S B}

theorem contexts_without (h : checkContexts frame contexts = .ok ()) :
    checkContexts frame (contexts.map (ReviewLensContext.without categories omitted)) = .ok () := by
  unfold checkContexts at h
  obtain ⟨_, hlearnings, h⟩ := bind_ok h
  obtain ⟨_, hcount, h⟩ := bind_ok h
  obtain ⟨_, hids, h⟩ := bind_ok h
  obtain ⟨_, hactive, h⟩ := bind_ok h
  obtain ⟨seen, hseen, h⟩ := bind_ok h
  obtain ⟨_, hfiles, h⟩ := bind_ok h
  have hbytes := ensure_inv h
  have hseen := addDocuments_seen Seen.nil hseen
  have hlens (c : ReviewLensContext rules active) := lens_without categories omitted c
  have hlearnings' : (contexts.map (ReviewLensContext.without categories omitted)).map
      (fun c => c.learnings.length) = contexts.map (fun c => c.learnings.length) := by
    rw [List.map_map]
    exact List.map_congr_left fun c _ => congrArg List.length (hlens c).learnings
  have hids' : (contexts.map (ReviewLensContext.without categories omitted)).map
      (fun c => c.categoryId) = contexts.map (fun c => c.categoryId) := by
    rw [List.map_map]
    exact List.map_congr_left fun c _ => (hlens c).category
  have hsub : (contexts.map (ReviewLensContext.without categories omitted)).flatMap
      (fun c => c.documents) ⊆ contexts.flatMap (fun c => c.documents) := by
    intro d hd
    obtain ⟨c', hc', hd⟩ := List.mem_flatMap.mp hd
    obtain ⟨c, hc, rfl⟩ := List.mem_map.mp hc'
    exact List.mem_flatMap.mpr ⟨c, hc, (hlens c).subset hd⟩
  have hconsistent : Consistent ([] ++ (contexts.map
      (ReviewLensContext.without categories omitted)).flatMap (fun c => c.documents)) :=
    fun a ha b hb => hseen.consistent a (hsub ha) b (hsub hb)
  obtain ⟨seen', hadd⟩ := addDocuments_ok Seen.nil hconsistent
  have hseen' := addDocuments_seen Seen.nil hadd
  obtain ⟨hfewer, hsmaller⟩ := hseen.fewer hseen' hsub
  have hactive' : ∀ ids ∈ frame.activeCategoryIds, ∀ c ∈ contexts.map
      (ReviewLensContext.without categories omitted), c.categoryId ∈ ids := by
    intro ids hids c' hc'
    obtain ⟨c, hc, rfl⟩ := List.mem_map.mp hc'
    rw [(hlens c).category]
    exact ensure_inv hactive ids hids c hc
  unfold checkContexts
  rw [hlearnings', hids', ensure_bind (ensure_inv hlearnings),
    ensure_bind (by rw [List.length_map]; exact ensure_inv hcount), ensure_bind (ensure_inv hids),
    ensure_bind hactive', ok_bind hadd, ensure_bind (hfewer.trans (ensure_inv hfiles))]
  exact ensure_ok (hsmaller.trans hbytes)

/-- The request of a prompt that leaves out some paths. -/
def ReviewRequest.without (categories : List String) (request : ReviewRequest rules active S B)
    (omitted : List String) : ReviewRequest rules active S B where
  frame := request.frame
  lensContexts := request.lensContexts.map (ReviewLensContext.without categories omitted)
  accepted := ⟨request.accepted.1, contexts_without request.accepted.2.1, request.accepted.2.2⟩

theorem construct_request (request : ReviewRequest rules active S B) :
    ReviewRequest.construct active request.frame request.lensContexts = .ok request := by
  obtain ⟨hframe, hcontexts, hheads⟩ := request.accepted
  unfold ReviewRequest.construct
  split
  next => rfl
  next message h =>
    rw [hframe] at h
    cases h
  next message _ h =>
    rw [hcontexts] at h
    cases h
  next message _ _ h =>
    rw [hheads] at h
    cases h

theorem selectedRequest_ok (categories : List String) (request : ReviewRequest rules active S B)
    (omitted : List String) :
    selectedRequest categories request omitted = .ok (request.without categories omitted) := by
  have hall : ∀ cs : List (ReviewLensContext rules active),
      cs.mapM (leaveOutContext categories omitted) =
        .ok (cs.map (ReviewLensContext.without categories omitted)) := by
    intro cs
    induction cs with
    | nil => rfl
    | cons c cs ih =>
      rw [List.mapM_cons, ok_bind (leaveOutContext_ok categories omitted c), ok_bind ih]
      rfl
  unfold selectedRequest
  rw [ok_bind (hall request.lensContexts)]
  exact construct_request (request.without categories omitted)

end Requests

end ReviewSensei.Prompt
