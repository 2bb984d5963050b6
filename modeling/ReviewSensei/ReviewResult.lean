import ReviewSensei.ReviewComment
import ReviewSensei.Dict
import Mathlib.Data.List.Nodup

/-! Review results, over whatever else a result holds, and the projections that bind a verdict. -/
namespace ReviewSensei.Review
open Session (bind_ok)

/-- The checked fields of a result; `rest` is what the verdict does not read. -/
structure ResultFields (ρ : Type) where
  comments : List ReviewComment
  findingLifecycles : List FindingLifecycleRecord
  reviewVerdict : Option ReviewVerdict
  rest : ρ

/-- The checks of a result beside those on its verdict and its duplicates: on the values given,
and on the result after the duplicates are gone. -/
structure ResultRules (ρ : Type) where
  handoff : ResultFields ρ → Except String Unit
  fields : ResultFields ρ → Except String Unit
  bounds : ResultFields ρ → Except String Unit
  /-- The rest of a result as its document reads back. -/
  reread : ρ → Except String ρ

variable {ρ : Type}

def checkVerdict (f : ResultFields ρ) : Except String Unit :=
  match f.reviewVerdict with
  | none => .ok ()
  | some v =>
    if v.selectedCommentsSha256 ≠ commentSelectionDigest f.comments then
      .error "review verdict selected comments conflict"
    else do
      let admission ← commentAdmission f.comments
      if v.selectedAdmission ≠ admission then .error "review verdict selected admission conflicts"
      else .ok ()

/-- One comment of the duplicate check; the comments kept so far stand in order. -/
def keepUnique (unique : List ReviewComment) (c : ReviewComment) :
    Except String (List ReviewComment) :=
  match unique.find? (fun d => d.key = c.key) with
  | some previous =>
    if previous.blocking ≠ c.blocking ∨ previous.needsHuman ≠ c.needsHuman then
      .error "conflicting finding classifications"
    else .ok unique
  | none => .ok (unique ++ [c])

def uniqueComments (comments : List ReviewComment) : Except String (List ReviewComment) :=
  comments.foldlM keepUnique []

/-- `__post_init__`. -/
def ResultFields.check (rules : ResultRules ρ) (f : ResultFields ρ) :
    Except String (ResultFields ρ) := do
  rules.handoff f
  checkVerdict f
  rules.fields f
  let unique ← uniqueComments f.comments
  if maxComments < unique.length then .error "review contains too many comments"
  else do
    rules.bounds { f with comments := unique }
    .ok { f with comments := unique }

/-- A result: fields that the constructor accepted. -/
structure ReviewResult (rules : ResultRules ρ) extends ResultFields ρ where
  accepted : ∃ given : ResultFields ρ, given.check rules = .ok toResultFields

variable {rules : ResultRules ρ}

def ReviewResult.construct (rules : ResultRules ρ) (f : ResultFields ρ) :
    Except String (ReviewResult rules) :=
  match h : f.check rules with
  | .ok g => .ok ⟨g, f, h⟩
  | .error e => .error e

section Duplicates

theorem keepUnique_ok {unique unique' : List ReviewComment} {c : ReviewComment}
    (h : keepUnique unique c = .ok unique') :
    ((∃ d ∈ unique, d.key = c.key) ∧ unique' = unique) ∨
      ((∀ d ∈ unique, d.key ≠ c.key) ∧ unique' = unique ++ [c]) := by
  unfold keepUnique at h
  split at h
  · next previous hfind =>
    have hkey := List.find?_some hfind
    have hmem := List.mem_of_find?_eq_some hfind
    split at h
    · cases h
    · exact .inl ⟨⟨previous, hmem, of_decide_eq_true hkey⟩, (Except.ok.inj h).symm⟩
  · next hnone =>
    refine .inr ⟨?_, (Except.ok.inj h).symm⟩
    intro d hd hkey
    exact List.find?_eq_none.mp hnone d hd (decide_eq_true hkey)

/-- Keeping first occurrences: nothing new, no key twice, and nothing dropped where no key is
repeated. -/
theorem keepUnique_fold {comments unique unique' : List ReviewComment}
    (h : comments.foldlM keepUnique unique = .ok unique')
    (hunique : (unique.map (·.key)).Nodup) :
    unique'.Sublist (unique ++ comments) ∧ (unique'.map (·.key)).Nodup ∧
      (∀ c ∈ unique ++ comments, ∃ d ∈ unique', d.key = c.key) ∧
      (((unique ++ comments).map (·.key)).Nodup → unique' = unique ++ comments) := by
  induction comments generalizing unique with
  | nil =>
    obtain rfl : unique = unique' := Except.ok.inj h
    simp [hunique]
    exact fun c hc => ⟨c, hc, rfl⟩
  | cons c rest ih =>
    rw [List.foldlM_cons] at h
    obtain ⟨middle, hstep, hrest⟩ := bind_ok h
    rcases keepUnique_ok hstep with ⟨⟨d, hd, hkey⟩, rfl⟩ | ⟨hfresh, rfl⟩
    · obtain ⟨hsub, hnodup, hkept, hall⟩ := ih hrest hunique
      refine ⟨hsub.trans ?_, hnodup, ?_, ?_⟩
      · exact List.Sublist.append (List.Sublist.refl _) (List.sublist_cons_self c rest)
      · intro e he
        rcases List.mem_append.mp he with he | he
        · exact hkept e (List.mem_append_left _ he)
        · rcases List.mem_cons.mp he with rfl | he
          · obtain ⟨e', he', hkey'⟩ := hkept d (List.mem_append_left _ hd)
            exact ⟨e', he', hkey'.trans hkey⟩
          · exact hkept e (List.mem_append_right _ he)
      · intro hdup
        rw [List.map_append, List.map_cons, List.nodup_append] at hdup
        exact absurd hkey (hdup.2.2 d.key (List.mem_map_of_mem hd) c.key List.mem_cons_self)
    · have hunique' : ((unique ++ [c]).map (·.key)).Nodup := by
        rw [List.map_append, List.nodup_append]
        refine ⟨hunique, List.nodup_singleton _, ?_⟩
        intro k hk k' hk' heq
        obtain ⟨d, hd, rfl⟩ := List.mem_map.mp hk
        rw [List.map_singleton, List.mem_singleton] at hk'
        exact hfresh d hd (heq.trans hk')
      simpa only [List.append_assoc, List.singleton_append] using ih hrest hunique'

theorem uniqueComments_ok {comments unique : List ReviewComment}
    (h : uniqueComments comments = .ok unique) :
    unique.Sublist comments ∧ (unique.map (·.key)).Nodup ∧
      (∀ c ∈ comments, ∃ d ∈ unique, d.key = c.key) ∧
      ((comments.map (·.key)).Nodup → unique = comments) := by
  simpa only [List.nil_append] using keepUnique_fold h List.nodup_nil

end Duplicates

section Check

theorem checkVerdict_ok {f : ResultFields ρ} (h : checkVerdict f = .ok ()) {v : ReviewVerdict}
    (hv : f.reviewVerdict = some v) :
    v.selectedCommentsSha256 = commentSelectionDigest f.comments ∧
      commentAdmission f.comments = .ok v.selectedAdmission := by
  unfold checkVerdict at h
  rw [hv] at h
  dsimp only at h
  split at h
  · cases h
  · next hdigest =>
    obtain ⟨admission, hadmission, hsame⟩ := bind_ok h
    split at hsame
    · cases hsame
    · next hletters =>
      rw [not_not] at hdigest hletters
      exact ⟨hdigest, hletters ▸ hadmission⟩

theorem check_ok {f g : ResultFields ρ} (h : f.check rules = .ok g) :
    checkVerdict f = .ok () ∧ uniqueComments f.comments = .ok g.comments ∧
      g.findingLifecycles = f.findingLifecycles ∧ g.reviewVerdict = f.reviewVerdict ∧
      g.rest = f.rest := by
  unfold ResultFields.check at h
  obtain ⟨_, _, h⟩ := bind_ok h
  obtain ⟨_, hverdict, h⟩ := bind_ok h
  obtain ⟨_, _, h⟩ := bind_ok h
  obtain ⟨unique, hunique, h⟩ := bind_ok h
  split at h
  · cases h
  · obtain ⟨_, _, h⟩ := bind_ok h
    rw [← Except.ok.inj h]
    exact ⟨hverdict, hunique, rfl, rfl, rfl⟩

theorem construct_ok {f : ResultFields ρ} {r : ReviewResult rules}
    (h : ReviewResult.construct rules f = .ok r) : f.check rules = .ok r.toResultFields := by
  unfold ReviewResult.construct at h
  split at h
  · next g hcheck =>
    rw [← Except.ok.inj h]
    exact hcheck
  · cases h

theorem construct_of_check {f : ResultFields ρ} {r : ReviewResult rules}
    (h : f.check rules = .ok r.toResultFields) : ReviewResult.construct rules f = .ok r := by
  unfold ReviewResult.construct
  split
  · next g hcheck =>
    obtain rfl := Except.ok.inj (hcheck.symm.trans h)
    rfl
  · next e hcheck =>
    rw [h] at hcheck
    cases hcheck

theorem ReviewResult.keys_nodup (r : ReviewResult rules) :
    (r.comments.map (·.key)).Nodup := by
  obtain ⟨given, hgiven⟩ := r.accepted
  exact (uniqueComments_ok (check_ok hgiven).2.1).2.1

/-- A verdict as long as the comments is bound to exactly them. -/
theorem ReviewResult.admission_of_length (r : ReviewResult rules) {v : ReviewVerdict}
    (hv : r.reviewVerdict = some v)
    (hlength : r.comments.length = v.selectedAdmission.toList.length) :
    commentAdmission r.comments = .ok v.selectedAdmission := by
  obtain ⟨given, hgiven⟩ := r.accepted
  obtain ⟨hcheck, hunique, _, hverdict, _⟩ := check_ok hgiven
  obtain ⟨_, hadmission⟩ := checkVerdict_ok hcheck (hverdict ▸ hv)
  have hletters := (commentAdmission_ok hadmission).2
  have hsub := (uniqueComments_ok hunique).1
  have hsame : r.comments = given.comments := by
    refine hsub.eq_of_length ?_
    rw [hlength, hletters, String.toList_ofList, List.length_map]
  rw [hsame]
  exact hadmission

end Check
end ReviewSensei.Review
