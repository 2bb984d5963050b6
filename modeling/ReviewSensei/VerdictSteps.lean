import ReviewSensei.ReviewResult

/-! The operations that select, rebind and verify the comments of a result, and what each of them
does to admitted comments and lifecycle records. -/
namespace ReviewSensei.Review
open Session (bind_ok)
open Findings (LifecycleState)

variable {ρ : Type} {rules : ResultRules ρ} (lower : String → String)

/-- One comment of the admitted candidates, by its instance. -/
def admitOriginal (originals : Dict String ReviewComment) (c : ReviewComment) :
    Except String (Dict String ReviewComment) :=
  if !trustedAdmission c then .error "review verdict requires trusted finding admission"
  else
    let key := findingInstanceFingerprint c.toCommentFields
    if (originals.get? key).any (· ≠ c) then
      .error "review verdict has conflicting finding admission"
    else .ok (originals.set key c)

/-- One selected comment: it must be an admitted candidate as it stands. -/
def selectComment (originals : Dict String ReviewComment) (instances : List String)
    (c : ReviewComment) : Except String (List String) :=
  let key := findingInstanceFingerprint c.toCommentFields
  if originals.get? key ≠ some c then
    .error "review verdict selection changed an admitted finding"
  else .ok (instances ++ [key])

def concerns (comments : List ReviewComment) : List String :=
  comments.map (fun c => lifecycleFingerprint lower c.toCommentFields)

/-- The verdict a projection starts from. -/
def priorVerdict (result : ReviewResult rules) (policy : ConvergencePolicy) :
    Except String ReviewVerdict :=
  match result.reviewVerdict with
  | some v => .ok v
  | none => ReviewVerdict.construct
      { policyDigest := policy.digest
        selectedCommentsSha256 := commentSelectionDigest result.comments }

/-- `project_review_comments`. -/
def projectReviewComments (result : ReviewResult rules) (selected : List ReviewComment)
    (policy : ConvergencePolicy) : Except String (ReviewResult rules) :=
  if policy.quality ≠ "high-signal" ∨ policy.enforcement ≠ "publication" then
    .error "review verdict projection requires trusted high-signal publication"
  else do
    let prior ← priorVerdict result policy
    prior.requirePolicy policy
    let originals ← result.comments.foldlM admitOriginal []
    let instances ← selected.foldlM (selectComment originals) []
    let omitted := (originals.filter (fun p => !instances.contains p.1)).map (·.2)
    let omittedConcerns :=
      (concerns lower omitted).filter (fun k => !(concerns lower selected).contains k)
    if result.findingLifecycles.any (fun record =>
        omittedConcerns.contains record.fingerprint && record.state ≠ .new) then
      .error "review verdict selection cannot remove a retained obligation"
    else do
      let admission ← commentAdmission selected
      let verdict ← ReviewVerdict.construct
        { policyDigest := policy.digest
          selectedCommentsSha256 := commentSelectionDigest selected
          selectedAdmission := admission
          unselectedBlockingDefect := prior.unselectedBlockingDefect ||
            omitted.any (fun c => c.effectiveBlocking = some true)
          unselectedHumanDecision := prior.unselectedHumanDecision ||
            omitted.any (·.needsHuman) }
      ReviewResult.construct rules
        { result.toResultFields with
          comments := selected
          findingLifecycles := result.findingLifecycles.filter
            (fun record => !omittedConcerns.contains record.fingerprint)
          reviewVerdict := some verdict }

/-- A verdict that is there already was bound under this policy. -/
def requireBoundPolicy (verdict : Option ReviewVerdict) (policy : ConvergencePolicy) :
    Except String Unit :=
  match verdict with
  | none => .ok ()
  | some v => v.requirePolicy policy

/-- `bind_review_verdict`. -/
def bindReviewVerdict (result : ReviewResult rules) (policy : ConvergencePolicy) :
    Except String (ReviewResult rules) := do
  requireBoundPolicy result.reviewVerdict policy
  if policy.quality ≠ "high-signal" ∨ policy.enforcement ≠ "publication" then .ok result
  else projectReviewComments lower result result.comments policy

def instances (comments : List ReviewComment) : List String :=
  comments.map (fun c => findingInstanceFingerprint c.toCommentFields)

/-- A comment table by instance; a later comment of an instance replaces an earlier one. -/
def byInstance (comments : List ReviewComment) : Dict String ReviewComment :=
  Dict.ofPairs (comments.map (fun c => (findingInstanceFingerprint c.toCommentFields, c)))

/-- The comment carries an obligation that verification may not remove. -/
def isRequired (result : ReviewResult rules) (c : ReviewComment) : Bool :=
  c.effectiveBlocking = some true || c.needsHuman ||
    result.findingLifecycles.any (fun record =>
      record.fingerprint = lifecycleFingerprint lower c.toCommentFields && record.state ≠ .new)

/-- The admission of a required comment replaces the one that verification gave. -/
def keepAdmission (required : Dict String ReviewComment) (c : ReviewComment) : ReviewComment :=
  match required.get? (findingInstanceFingerprint c.toCommentFields) with
  | none => c
  | some original =>
    { c with
      effectiveBlocking := original.effectiveBlocking
      needsHuman := original.needsHuman }

/-- `preserve_verified_verdict`. -/
def preserveVerifiedVerdict (previous verified : ReviewResult rules) (policy : ConvergencePolicy) :
    Except String (ReviewResult rules) :=
  match previous.reviewVerdict with
  | none => .ok verified
  | some prior => do
    prior.requirePolicy policy
    let required := byInstance (previous.comments.filter (isRequired lower previous))
    let current := byInstance verified.comments
    if required.any (fun p => (current.get? p.1).all (fun c => c.toDict ≠ p.2.toDict)) then
      .error "verified selection cannot remove or change a retained obligation"
    else do
      let comments := verified.comments.map (keepAdmission required)
      let optionalRemoved := concerns lower (previous.comments.filter
        (fun c => !current.contains (findingInstanceFingerprint c.toCommentFields)))
      let priorLifecycles := previous.findingLifecycles.filter
        (fun record => !optionalRemoved.contains record.fingerprint)
      let addedLifecycles := verified.findingLifecycles.filter
        (fun record => !(previous.findingLifecycles.map (·.fingerprint)).contains
          record.fingerprint)
      let verdict ← prior.withVerifiedComments comments
      ReviewResult.construct rules
        { verified.toResultFields with
          comments
          reviewVerdict := some verdict
          findingLifecycles := priorLifecycles ++ addedLifecycles }

/-- The comments that a document gives: only a verdict restores their admission. -/
def restoredComments (verdict : Option ReviewVerdict) (comments : List ReviewComment) :
    Except String (List ReviewComment) :=
  match verdict with
  | none => .ok (comments.map unadmitted)
  | some v => do
    let bound ← ReviewVerdict.construct v
    bound.restoreComments (comments.map unadmitted)

/-- `ReviewResult.from_dict(result.to_dict())`. -/
def readBack (result : ReviewResult rules) : Except String (ReviewResult rules) := do
  let rest ← rules.reread result.rest
  let comments ← restoredComments result.reviewVerdict result.comments
  ReviewResult.construct rules { result.toResultFields with comments, rest }

/-- Required findings that were not selected hold the review. -/
def ResultFields.blockingGate (f : ResultFields ρ) : Bool :=
  f.reviewVerdict.any (·.unselectedBlockingDefect)

def ResultFields.humanGate (f : ResultFields ρ) : Bool :=
  f.reviewVerdict.any (·.unselectedHumanDecision)

/-- What every operation owes to the result it is applied to. -/
structure Keeps (f f' : ResultFields ρ) : Prop where
  blocking : ∀ c ∈ f.comments, c.effectiveBlocking = some true →
    c ∈ f'.comments ∨ f'.blockingGate = true
  human : ∀ c ∈ f.comments, c.needsHuman = true → c ∈ f'.comments ∨ f'.humanGate = true
  blocking_gate : f.blockingGate = true → f'.blockingGate = true
  human_gate : f.humanGate = true → f'.humanGate = true
  lifecycle : ∀ c ∈ f.comments, (∃ d ∈ f'.comments, d.key = c.key) →
    (∃ record ∈ f.findingLifecycles,
      record.fingerprint = lifecycleFingerprint lower c.toCommentFields) →
    ∃ record ∈ f'.findingLifecycles,
      record.fingerprint = lifecycleFingerprint lower c.toCommentFields
  obligations : ∀ record ∈ f.findingLifecycles, record.state ≠ .new →
    record ∈ f'.findingLifecycles

section Projection
variable {lower}

theorem Keeps.refl (f : ResultFields ρ) : Keeps lower f f where
  blocking := fun _ hc _ => .inl hc
  human := fun _ hc _ => .inl hc
  blocking_gate := id
  human_gate := id
  lifecycle := fun _ _ _ hrecord => hrecord
  obligations := fun _ hrecord _ => hrecord

theorem admitOriginal_ok {originals originals' : Dict String ReviewComment} {c : ReviewComment}
    (h : admitOriginal originals c = .ok originals') :
    (∀ key d, originals.get? key = some d → originals'.get? key = some d) ∧
      originals'.get? (findingInstanceFingerprint c.toCommentFields) = some c := by
  unfold admitOriginal at h
  split at h
  · cases h
  dsimp only at h
  split at h
  · cases h
  · next hsame =>
    rw [← Except.ok.inj h]
    refine ⟨?_, Dict.get?_set_self _ _ _⟩
    intro key d hd
    rw [Dict.get?_set]
    split
    · next hkey =>
      -- the entry of this instance is the comment itself
      rw [← hkey] at hd
      have heq : d = c := by
        by_contra hne
        refine hsame ?_
        rw [hd, Option.any_some]
        exact decide_eq_true hne
      rw [heq]
    · exact hd

/-- The candidate table holds every comment under its instance. -/
theorem admitOriginal_fold {comments : List ReviewComment}
    {originals originals' : Dict String ReviewComment}
    (h : comments.foldlM admitOriginal originals = .ok originals') :
    (∀ key d, originals.get? key = some d → originals'.get? key = some d) ∧
      ∀ c ∈ comments,
        originals'.get? (findingInstanceFingerprint c.toCommentFields) = some c := by
  induction comments generalizing originals with
  | nil =>
    obtain rfl : originals = originals' := Except.ok.inj h
    simp
  | cons c rest ih =>
    rw [List.foldlM_cons] at h
    obtain ⟨middle, hstep, hrest⟩ := bind_ok h
    obtain ⟨hkeep, hadd⟩ := admitOriginal_ok hstep
    obtain ⟨hkeep', hall⟩ := ih hrest
    refine ⟨fun key d hd => hkeep' key d (hkeep key d hd), ?_⟩
    intro d hd
    rcases List.mem_cons.mp hd with rfl | hd
    · exact hkeep' _ _ hadd
    · exact hall d hd

/-- A selection holds candidates as they stand, and its instances. -/
theorem selectComment_fold {originals : Dict String ReviewComment}
    {selected : List ReviewComment} {chosen chosen' : List String}
    (h : selected.foldlM (selectComment originals) chosen = .ok chosen') :
    chosen' = chosen ++ instances selected ∧
      ∀ c ∈ selected,
        originals.get? (findingInstanceFingerprint c.toCommentFields) = some c := by
  induction selected generalizing chosen with
  | nil =>
    obtain rfl : chosen = chosen' := Except.ok.inj h
    simp [instances]
  | cons c rest ih =>
    rw [List.foldlM_cons] at h
    obtain ⟨middle, hstep, hrest⟩ := bind_ok h
    obtain ⟨hchosen, hall⟩ := ih hrest
    unfold selectComment at hstep
    dsimp only at hstep
    split at hstep
    · cases hstep
    · next hsame =>
      rw [not_not] at hsame
      refine ⟨?_, ?_⟩
      · rw [hchosen, ← Except.ok.inj hstep, List.append_assoc]
        rfl
      · intro d hd
        rcases List.mem_cons.mp hd with rfl | hd
        · exact hsame
        · exact hall d hd

/-- What a projection returns, in terms of the comments it leaves out. -/
structure Projected (lower : String → String) (r r' : ReviewResult rules) (selected omitted : List ReviewComment)
    (prior verdict : ReviewVerdict) : Prop where
  bound_prior : ∀ v, r.reviewVerdict = some v → prior = v
  accepted : uniqueComments selected = .ok r'.comments
  split : ∀ c ∈ r.comments, c ∈ selected ∨ c ∈ omitted
  subset : ∀ c ∈ selected, ∀ d ∈ r.comments, c.key = d.key → c = d
  verdict_eq : r'.reviewVerdict = some verdict
  blocking_eq : verdict.unselectedBlockingDefect =
    (prior.unselectedBlockingDefect || omitted.any (fun c => c.effectiveBlocking = some true))
  human_eq : verdict.unselectedHumanDecision =
    (prior.unselectedHumanDecision || omitted.any (·.needsHuman))
  lifecycles : ∀ record ∈ r.findingLifecycles,
    record ∈ r'.findingLifecycles ∨
      (record.state = .new ∧ record.fingerprint ∉ concerns lower selected)

theorem projectReviewComments_ok {r r' : ReviewResult rules} {selected : List ReviewComment}
    {policy : ConvergencePolicy} (h : projectReviewComments lower r selected policy = .ok r') :
    ∃ omitted prior verdict, Projected lower r r' selected omitted prior verdict := by
  unfold projectReviewComments at h
  split at h
  · cases h
  obtain ⟨prior, hprior, h⟩ := bind_ok h
  obtain ⟨_, _, h⟩ := bind_ok h
  obtain ⟨originals, horiginals, h⟩ := bind_ok h
  obtain ⟨chosen, hchosen, h⟩ := bind_ok h
  obtain ⟨_, hall⟩ := admitOriginal_fold horiginals
  obtain ⟨rfl, hselected⟩ := selectComment_fold hchosen
  rw [List.nil_append] at h
  dsimp only at h
  split at h
  · cases h
  next hretained =>
  obtain ⟨admission, _, h⟩ := bind_ok h
  obtain ⟨verdict, hverdict, h⟩ := bind_ok h
  have hv := ReviewVerdict.construct_ok hverdict
  obtain ⟨_, hunique, hlifecycles, hbound, _⟩ := check_ok (construct_ok h)
  refine ⟨_, prior, verdict, ?_, hunique, ?_, ?_, hbound, by rw [hv], by rw [hv], ?_⟩
  · intro v hsome
    unfold priorVerdict at hprior
    rw [hsome] at hprior
    exact (Except.ok.inj hprior).symm
  · intro c hc
    have hget := hall c hc
    by_cases hin : findingInstanceFingerprint c.toCommentFields ∈ instances selected
    · -- a selected comment of the same instance is the candidate itself
      left
      obtain ⟨d, hd, hkey⟩ := List.mem_map.mp hin
      have hsame := hselected d hd
      rw [hkey, hget] at hsame
      exact Option.some.inj hsame ▸ hd
    · right
      refine List.mem_map.mpr ⟨_, List.mem_filter.mpr ⟨Dict.mem_of_get? hget, ?_⟩, rfl⟩
      simpa using hin
  · intro c hc d hd hkey
    have hsame : findingInstanceFingerprint c.toCommentFields =
        findingInstanceFingerprint d.toCommentFields := by
      unfold findingInstanceFingerprint
      rw [hkey]
    have hget := hselected c hc
    rw [hsame, hall d hd] at hget
    exact (Option.some.inj hget).symm
  · intro record hrecord
    rw [hlifecycles]
    by_cases hkept : (concerns lower ((originals.filter
        (fun p => !(instances selected).contains p.1)).map (·.2))).filter
        (fun k => !(concerns lower selected).contains k) |>.contains record.fingerprint
    · right
      have hnew : record.state = .new := by
        by_contra hstate
        refine hretained (List.any_eq_true.mpr ⟨record, hrecord, ?_⟩)
        rw [Bool.and_eq_true]
        exact ⟨hkept, by simpa using hstate⟩
      have hmem := (List.mem_filter.mp (List.contains_iff_mem.mp hkept)).2
      exact ⟨hnew, by simpa using hmem⟩
    · left
      exact List.mem_filter.mpr ⟨hrecord, by simpa [imp_iff_not_or] using hkept⟩

/-- A projection keeps every obligation, in the selection or in the gates. -/
theorem project_keeps {r r' : ReviewResult rules} {selected : List ReviewComment}
    {policy : ConvergencePolicy} (h : projectReviewComments lower r selected policy = .ok r') :
    Keeps lower r.toResultFields r'.toResultFields ∧ r'.reviewVerdict.isSome = true := by
  obtain ⟨omitted, prior, verdict, hp⟩ := projectReviewComments_ok h
  obtain ⟨hsub, _, hkept, _⟩ := uniqueComments_ok hp.accepted
  have hstays {c : ReviewComment} (hc : c ∈ r.comments) (hs : c ∈ selected) :
      c ∈ r'.comments := by
    obtain ⟨d, hd, hkey⟩ := hkept c hs
    exact hp.subset d (hsub.subset hd) c hc hkey ▸ hd
  refine ⟨⟨?_, ?_, ?_, ?_, ?_, ?_⟩, by rw [hp.verdict_eq]; rfl⟩
  · intro c hc hblocking
    rcases hp.split c hc with hs | homitted
    · exact .inl (hstays hc hs)
    · right
      have hany : omitted.any (fun c => c.effectiveBlocking = some true) = true :=
        List.any_eq_true.mpr ⟨c, homitted, decide_eq_true hblocking⟩
      rw [ResultFields.blockingGate, hp.verdict_eq, Option.any_some, hp.blocking_eq, hany,
        Bool.or_true]
  · intro c hc hhuman
    rcases hp.split c hc with hs | homitted
    · exact .inl (hstays hc hs)
    · right
      have hany : omitted.any (·.needsHuman) = true := List.any_eq_true.mpr ⟨c, homitted, hhuman⟩
      rw [ResultFields.humanGate, hp.verdict_eq, Option.any_some, hp.human_eq, hany, Bool.or_true]
  · intro hgate
    obtain ⟨v, hv, hflag⟩ := (Option.any_eq_true _ _).mp hgate
    rw [ResultFields.blockingGate, hp.verdict_eq, Option.any_some, hp.blocking_eq,
      hp.bound_prior v hv, hflag, Bool.true_or]
  · intro hgate
    obtain ⟨v, hv, hflag⟩ := (Option.any_eq_true _ _).mp hgate
    rw [ResultFields.humanGate, hp.verdict_eq, Option.any_some, hp.human_eq,
      hp.bound_prior v hv, hflag, Bool.true_or]
  · rintro c hc ⟨d, hd, hkey⟩ ⟨record, hrecord, hconcern⟩
    have hd' := hsub.subset hd
    obtain rfl := hp.subset d hd' c hc hkey
    rcases hp.lifecycles record hrecord with hstay | ⟨_, hfree⟩
    · exact ⟨record, hstay, hconcern⟩
    · exact absurd (hconcern ▸ List.mem_map_of_mem hd') hfree
  · intro record hrecord hstate
    rcases hp.lifecycles record hrecord with hstay | ⟨hnew, _⟩
    · exact hstay
    · exact absurd hnew hstate

theorem bind_keeps {r r' : ReviewResult rules} {policy : ConvergencePolicy}
    (h : bindReviewVerdict lower r policy = .ok r') :
    Keeps lower r.toResultFields r'.toResultFields ∧
      (r.reviewVerdict.isSome = true → r'.reviewVerdict.isSome = true) := by
  unfold bindReviewVerdict at h
  obtain ⟨_, _, h⟩ := bind_ok h
  split at h
  · obtain rfl := Except.ok.inj h
    exact ⟨Keeps.refl _, id⟩
  · obtain ⟨hkeeps, hbound⟩ := project_keeps h
    exact ⟨hkeeps, fun _ => hbound⟩

end Projection

section ReadBack
variable {lower}

/-- Reading a bound result back changes neither its comments nor its lifecycles nor its verdict. -/
theorem readBack_ok {r r' : ReviewResult rules} (h : readBack r = .ok r') {v : ReviewVerdict}
    (hv : r.reviewVerdict = some v) :
    r'.comments = r.comments ∧ r'.findingLifecycles = r.findingLifecycles ∧
      r'.reviewVerdict = r.reviewVerdict := by
  unfold readBack at h
  obtain ⟨rest, _, h⟩ := bind_ok h
  obtain ⟨comments, hcomments, h⟩ := bind_ok h
  rw [hv] at hcomments
  obtain ⟨w, hw, hrestore⟩ := bind_ok hcomments
  obtain rfl := ReviewVerdict.construct_ok hw
  have hlength : r.comments.length = w.selectedAdmission.toList.length := by
    unfold ReviewVerdict.restoreComments at hrestore
    split at hrestore
    · cases hrestore
    · next hbound =>
      rw [not_or, not_not, List.length_map] at hbound
      exact hbound.1
  obtain rfl := restore_selection (r.admission_of_length hv hlength) hrestore
  obtain ⟨_, hunique, hlifecycles, hverdict, _⟩ := check_ok (construct_ok h)
  exact ⟨(uniqueComments_ok hunique).2.2.2 r.keys_nodup, hlifecycles, hverdict⟩

theorem readBack_keeps {r r' : ReviewResult rules} (h : readBack r = .ok r')
    (hbound : r.reviewVerdict.isSome = true) :
    Keeps lower r.toResultFields r'.toResultFields ∧ r'.reviewVerdict.isSome = true := by
  obtain ⟨v, hv⟩ := Option.isSome_iff_exists.mp hbound
  obtain ⟨hcomments, hlifecycles, hverdict⟩ := readBack_ok h hv
  refine ⟨⟨?_, ?_, ?_, ?_, ?_, ?_⟩, by rw [hverdict]; exact hbound⟩
  · exact fun c hc _ => .inl (hcomments ▸ hc)
  · exact fun c hc _ => .inl (hcomments ▸ hc)
  · intro hgate
    rw [ResultFields.blockingGate, hverdict]
    exact hgate
  · intro hgate
    rw [ResultFields.humanGate, hverdict]
    exact hgate
  · exact fun _ _ _ hrecord => hlifecycles ▸ hrecord
  · exact fun _ hrecord _ => hlifecycles ▸ hrecord

end ReadBack

section Verification
variable {lower}

/-- The comments of a result do not collide, and no lifecycle record is shared between a comment
that verification removed and one that it kept. -/
structure Unshared (lower : String → String) (previous verified : ReviewResult rules) : Prop where
  instances_nodup : (instances previous.comments).Nodup
  unshared : ∀ e ∈ previous.comments,
    findingInstanceFingerprint e.toCommentFields ∉ instances verified.comments →
    ∀ c ∈ previous.comments,
      findingInstanceFingerprint c.toCommentFields ∈ instances verified.comments →
      lifecycleFingerprint lower e.toCommentFields =
        lifecycleFingerprint lower c.toCommentFields →
      ∀ record ∈ previous.findingLifecycles,
        record.fingerprint ≠ lifecycleFingerprint lower c.toCommentFields

@[simp] theorem keepAdmission_fields (required : Dict String ReviewComment) (c : ReviewComment) :
    (keepAdmission required c).toCommentFields = c.toCommentFields := by
  unfold keepAdmission
  split <;> rfl

theorem byInstance_get {comments : List ReviewComment} (hnodup : (instances comments).Nodup)
    {c : ReviewComment} (hc : c ∈ comments) :
    (byInstance comments).get? (findingInstanceFingerprint c.toCommentFields) = some c := by
  refine Dict.get?_ofPairs_of_mem (List.mem_map_of_mem hc) ?_
  rw [List.map_map]
  exact hnodup

theorem byInstance_contains (comments : List ReviewComment) (key : String) :
    (byInstance comments).contains key = true ↔ key ∈ instances comments := by
  unfold byInstance Dict.contains
  rw [Dict.isSome_get?_ofPairs, List.map_map]
  rfl

/-- What verification returns over a bound result. -/
structure Verified (lower : String → String) (r verified r' : ReviewResult rules)
    (prior verdict : ReviewVerdict) : Prop where
  prior_eq : r.reviewVerdict = some prior
  comments_eq : r'.comments =
    verified.comments.map (keepAdmission (byInstance (r.comments.filter (isRequired lower r))))
  required : ∀ key c, (byInstance (r.comments.filter (isRequired lower r))).get? key = some c →
    ∃ d ∈ verified.comments, findingInstanceFingerprint d.toCommentFields = key ∧
      d.toCommentFields = c.toCommentFields
  verdict_eq : r'.reviewVerdict = some verdict
  blocking_eq : verdict.unselectedBlockingDefect = prior.unselectedBlockingDefect
  human_eq : verdict.unselectedHumanDecision = prior.unselectedHumanDecision
  lifecycles : ∀ record ∈ r.findingLifecycles, record ∈ r'.findingLifecycles ∨
    ∃ e ∈ r.comments,
      findingInstanceFingerprint e.toCommentFields ∉ instances verified.comments ∧
      lifecycleFingerprint lower e.toCommentFields = record.fingerprint

theorem preserveVerifiedVerdict_ok {r verified r' : ReviewResult rules}
    {policy : ConvergencePolicy}
    (h : preserveVerifiedVerdict lower r verified policy = .ok r') {prior : ReviewVerdict}
    (hprior : r.reviewVerdict = some prior) :
    ∃ verdict, Verified lower r verified r' prior verdict := by
  unfold preserveVerifiedVerdict at h
  rw [hprior] at h
  obtain ⟨_, _, h⟩ := bind_ok h
  dsimp only at h
  split at h
  · cases h
  next hretained =>
  obtain ⟨verdict, hverdict, h⟩ := bind_ok h
  obtain ⟨admission, _, hverdict⟩ := bind_ok hverdict
  have hv := ReviewVerdict.construct_ok hverdict
  obtain ⟨_, hunique, hlifecycles, hbound, _⟩ := check_ok (construct_ok h)
  have hkeys : ((verified.comments.map (keepAdmission
      (byInstance (r.comments.filter (isRequired lower r))))).map (·.key)).Nodup := by
    rw [List.map_map]
    have hsame : (fun c : ReviewComment => c.key) ∘
        keepAdmission (byInstance (r.comments.filter (isRequired lower r))) =
          fun c => c.key := by
      funext c
      simp
    rw [hsame]
    exact verified.keys_nodup
  refine ⟨verdict, hprior, (uniqueComments_ok hunique).2.2.2 hkeys, ?_, hbound, by rw [hv],
    by rw [hv], ?_⟩
  · intro key c hget
    rw [Bool.not_eq_true, List.any_eq_false] at hretained
    have hpair := hretained (key, c) (Dict.mem_of_get? hget)
    rw [Option.all_eq_true] at hpair
    push Not at hpair
    obtain ⟨d, hd, hsame⟩ := hpair
    have hmem := Dict.mem_of_get?_ofPairs hd
    obtain ⟨d', hd', hpair'⟩ := List.mem_map.mp hmem
    obtain ⟨hkey, rfl⟩ := Prod.mk.inj hpair'
    exact ⟨d', hd', hkey, toDict_injective (by simpa using hsame)⟩
  · intro record hrecord
    rw [hlifecycles]
    by_cases hremoved : record.fingerprint ∈ concerns lower (r.comments.filter (fun c =>
        !(byInstance verified.comments).contains (findingInstanceFingerprint c.toCommentFields)))
    · right
      obtain ⟨e, he, hconcern⟩ := List.mem_map.mp hremoved
      obtain ⟨hmem, hgone⟩ := List.mem_filter.mp he
      refine ⟨e, hmem, ?_, hconcern⟩
      rw [← byInstance_contains]
      simpa using hgone
    · left
      refine List.mem_append_left _ (List.mem_filter.mpr ⟨hrecord, ?_⟩)
      simpa using hremoved

theorem preserve_keeps {r verified r' : ReviewResult rules} {policy : ConvergencePolicy}
    (h : preserveVerifiedVerdict lower r verified policy = .ok r')
    (hbound : r.reviewVerdict.isSome = true) (hunshared : Unshared lower r verified) :
    Keeps lower r.toResultFields r'.toResultFields ∧ r'.reviewVerdict.isSome = true := by
  obtain ⟨prior, hprior⟩ := Option.isSome_iff_exists.mp hbound
  obtain ⟨verdict, hp⟩ := preserveVerifiedVerdict_ok h hprior
  have hrequired {c : ReviewComment} (hc : c ∈ r.comments) (hr : isRequired lower r c = true) :
      c ∈ r'.comments := by
    have hmem : c ∈ r.comments.filter (isRequired lower r) := List.mem_filter.mpr ⟨hc, hr⟩
    have hnodup : (instances (r.comments.filter (isRequired lower r))).Nodup :=
      hunshared.instances_nodup.sublist (List.filter_sublist.map _)
    have hget := byInstance_get hnodup hmem
    obtain ⟨d, hd, hkey, hfields⟩ := hp.required _ c hget
    rw [hp.comments_eq]
    refine List.mem_map.mpr ⟨d, hd, ?_⟩
    unfold keepAdmission
    rw [hkey, hget]
    obtain ⟨cf, ce, cn⟩ := c
    obtain ⟨df, de, dn⟩ := d
    dsimp only at hfields
    subst hfields
    rfl
  refine ⟨⟨?_, ?_, ?_, ?_, ?_, ?_⟩, by rw [hp.verdict_eq]; rfl⟩
  · intro c hc hblocking
    exact .inl (hrequired hc (by simp [isRequired, hblocking]))
  · intro c hc hhuman
    exact .inl (hrequired hc (by simp [isRequired, hhuman]))
  · intro hgate
    rw [ResultFields.blockingGate, hprior, Option.any_some] at hgate
    rw [ResultFields.blockingGate, hp.verdict_eq, Option.any_some, hp.blocking_eq, hgate]
  · intro hgate
    rw [ResultFields.humanGate, hprior, Option.any_some] at hgate
    rw [ResultFields.humanGate, hp.verdict_eq, Option.any_some, hp.human_eq, hgate]
  · rintro c hc ⟨d, hd, hkey⟩ ⟨record, hrecord, hconcern⟩
    rcases hp.lifecycles record hrecord with hstay | ⟨e, he, hgone, hshared⟩
    · exact ⟨record, hstay, hconcern⟩
    · -- the comment stays under its own instance, so its record is not shared
      rw [hp.comments_eq] at hd
      obtain ⟨d', hd', rfl⟩ := List.mem_map.mp hd
      rw [keepAdmission_fields] at hkey
      have hin : findingInstanceFingerprint c.toCommentFields ∈ instances verified.comments := by
        unfold findingInstanceFingerprint
        rw [← hkey]
        exact List.mem_map_of_mem hd'
      exact absurd hconcern
        (hunshared.unshared e he hgone c hc hin (hshared.trans hconcern) record hrecord)
  · intro record hrecord hstate
    rcases hp.lifecycles record hrecord with hstay | ⟨e, he, hgone, hshared⟩
    · exact hstay
    · -- its comment is required, and verification kept it
      have hr : isRequired lower r e = true := by
        have hany : r.findingLifecycles.any (fun record =>
            record.fingerprint = lifecycleFingerprint lower e.toCommentFields &&
              record.state ≠ .new) = true :=
          List.any_eq_true.mpr ⟨record, hrecord, by simp [hshared, hstate]⟩
        rw [isRequired, hany, Bool.or_true]
      have hmem : e ∈ r.comments.filter (isRequired lower r) := List.mem_filter.mpr ⟨he, hr⟩
      have hnodup : (instances (r.comments.filter (isRequired lower r))).Nodup :=
        hunshared.instances_nodup.sublist (List.filter_sublist.map _)
      obtain ⟨d, hd, hkey, _⟩ := hp.required _ e (byInstance_get hnodup hmem)
      exact absurd (hkey ▸ List.mem_map_of_mem hd) hgone

end Verification
end ReviewSensei.Review
