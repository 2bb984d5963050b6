import ReviewSensei.SelectionRuns
import ReviewSensei.BaselineReading
import ReviewSensei.VerdictRuns

/-! A frozen selection: its document reads back, and the source and the result still fit it. -/
namespace ReviewSensei.Selection
open Session (bind_ok isSha256)
open Review (ReviewComment ReviewVerdict ResultFields ResultRules ReviewResult
  projectReviewComments ConvergencePolicy maxComments unadmitted commentAdmission)
open Convergence (forM_iff)

section Documents
variable {printable : String → Bool} {a : PublicationAction} {h : PublicationSelectionHandoff}

/-- What the constructor of an action has checked. -/
theorem action_ok {built : PublicationAction}
    (hbuilt : PublicationAction.construct printable a = .ok built) :
    built = a ∧ isSha256 a.instanceId = true ∧ isSha256 a.commentSha256 = true := by
  unfold PublicationAction.construct at hbuilt
  obtain ⟨_, hdigests, hbuilt⟩ := bind_ok hbuilt
  obtain ⟨_, _, hbuilt⟩ := bind_ok hbuilt
  obtain ⟨hinstance, hcomment⟩ := ensure_inv hdigests
  exact ⟨(Except.ok.inj hbuilt).symm, hinstance, hcomment⟩

theorem readOptionalText_text (message : String) (text : Option String) :
    readOptionalText message (some ((text.map Json.str).getD .null)) = .ok text := by
  cases text with
  | none => rfl
  | some s => rfl

theorem readState_text (state : Option SlotState) :
    (state.map SlotState.text).mapM SlotState.read = .ok state := by
  cases state with
  | none => rfl
  | some s =>
    cases s with
    | active => rfl
    | contingent => rfl
    | uncertain => rfl
    | released => rfl

theorem readKind_text (kind : ActionKind) :
    ActionKind.read (some (.str kind.text)) = .ok kind := by
  cases kind with
  | create => rfl
  | reuse => rfl
  | reopen => rfl

/-- An action that was built reads back. -/
theorem action_fromDocument (hbuilt : PublicationAction.construct printable a = .ok a) :
    PublicationAction.fromDocument printable a.toDocument = .ok a := by
  obtain ⟨_, hinstance, hcomment⟩ := action_ok hbuilt
  have hkeys : a.toDocument.hasKeys actionKeys = true := rfl
  have hinstanceField : Json.readText isSha256 "publication action is invalid"
      (a.toDocument.get? "instance") = .ok a.instanceId := Json.readText_ok hinstance
  have hcommentField : Json.readText isSha256 "publication action is invalid"
      (a.toDocument.get? "comment_sha256") = .ok a.commentSha256 := Json.readText_ok hcomment
  have hconsumes : readFlag "publication action is invalid" (a.toDocument.get? "consumes_slot") =
      .ok a.consumesSlot := rfl
  have htarget : readOptionalText "published finding slot is invalid"
      (a.toDocument.get? "existing_target") = .ok a.existingTarget :=
    readOptionalText_text _ a.existingTarget
  have hstate : readOptionalText "published finding slot is invalid"
      (a.toDocument.get? "target_state") = .ok (a.targetState.map SlotState.text) := by
    have htext := readOptionalText_text "published finding slot is invalid"
      (a.targetState.map SlotState.text)
    rw [Option.map_map] at htext
    exact htext
  have hproof : readOptionalText "published finding slot is invalid"
      (a.toDocument.get? "target_proof_sha256") = .ok a.targetProofSha256 :=
    readOptionalText_text _ a.targetProofSha256
  have hkind : ActionKind.read (a.toDocument.get? "action") = .ok a.action :=
    readKind_text a.action
  unfold PublicationAction.fromDocument
  rw [ensure_bind hkeys, ok_bind hinstanceField, ok_bind hcommentField, ok_bind hconsumes,
    ok_bind htarget, ok_bind hstate, ok_bind (readState_text a.targetState), ok_bind hproof,
    ok_bind hkind]
  exact hbuilt

theorem actions_fromDocument {actions : List PublicationAction}
    (hbuilt : ∀ a ∈ actions, PublicationAction.construct printable a = .ok a) :
    (actions.map PublicationAction.toDocument).mapM (PublicationAction.fromDocument printable) =
      .ok actions := by
  induction actions with
  | nil => rfl
  | cons a rest ih =>
    have hfirst := action_fromDocument (hbuilt a List.mem_cons_self)
    have hrest := ih fun b hb => hbuilt b (List.mem_cons_of_mem _ hb)
    rw [List.map_cons, List.mapM_cons, ok_bind hfirst, ok_bind hrest]
    rfl

/-- What the constructor of a selection record has checked. -/
theorem handoff_ok {built : PublicationSelectionHandoff} (hbuilt : h.construct = .ok built) :
    built = h ∧ isSha256 h.sourceResultSha256 = true ∧ isSha256 h.selectedResultSha256 = true ∧
      isSha256 h.policyDigest = true ∧ isSha256 h.criteriaSha256 = true ∧
      isSha256 h.occupancySha256 = true ∧ h.actions.length ≤ maxComments := by
  unfold PublicationSelectionHandoff.construct at hbuilt
  obtain ⟨_, hfields, hbuilt⟩ := bind_ok hbuilt
  obtain ⟨_, _, hbuilt⟩ := bind_ok hbuilt
  obtain ⟨_, _, hbuilt⟩ := bind_ok hbuilt
  obtain ⟨hsource, hselected, hpolicy, hcriteria, hoccupancy, _, hfew⟩ := ensure_inv hfields
  exact ⟨(Except.ok.inj hbuilt).symm, hsource, hselected, hpolicy, hcriteria, hoccupancy, hfew⟩

/-- A selection record that was built reads back. -/
theorem handoff_fromDocument (hbuilt : h.construct = .ok h)
    (hactions : ∀ a ∈ h.actions, PublicationAction.construct printable a = .ok a) :
    PublicationSelectionHandoff.fromDocument printable h.toDocument = .ok h := by
  obtain ⟨_, hsource, hselected, hpolicy, hcriteria, hoccupancy, hfew⟩ := handoff_ok hbuilt
  have hshape : h.toDocument.hasKeys handoffKeys = true ∧ h.toDocument.get? "schema_version" =
      some (.str "inactive-publication-selection-v1") := ⟨rfl, rfl⟩
  have hitems : PublicationSelectionHandoff.readActions (h.toDocument.get? "actions") =
      .ok (h.actions.map PublicationAction.toDocument) := by
    have hlength : (h.actions.map PublicationAction.toDocument).length ≤ maxComments := by
      rwa [List.length_map]
    exact ensure_bind hlength _
  have hdigest (name s : String) (hs : isSha256 s = true)
      (hfield : h.toDocument.get? name = some (.str s)) :
      Json.readText isSha256 "publication selection handoff is invalid" (h.toDocument.get? name) =
        .ok s := by
    rw [hfield]
    exact Json.readText_ok hs
  unfold PublicationSelectionHandoff.fromDocument
  rw [ensure_bind hshape, ok_bind hitems, ok_bind (actions_fromDocument hactions)]
  dsimp only
  rw [ok_bind (hdigest "source_result_sha256" _ hsource rfl),
    ok_bind (hdigest "selected_result_sha256" _ hselected rfl),
    ok_bind (hdigest "policy_digest" _ hpolicy rfl),
    ok_bind (hdigest "criteria_sha256" _ hcriteria rfl),
    ok_bind (hdigest "occupancy_sha256" _ hoccupancy rfl)]
  exact hbuilt

end Documents

section Projection
variable {ρ : Type} {rules : ResultRules ρ} {lower : String → String}

/-- The verdict of a projection is valid and binds the selected comments. -/
theorem project_verdict {r r' : ReviewResult rules} {selected : List ReviewComment}
    {policy : ConvergencePolicy} (h : projectReviewComments lower r selected policy = .ok r') :
    ∃ verdict : ReviewVerdict, r'.reviewVerdict = some verdict ∧ verdict.valid = true ∧
      verdict.policyDigest = policy.digest ∧ r'.rest = r.rest ∧
      ∃ given : ResultFields ρ, given.comments = selected ∧
        given.check rules = .ok r'.toResultFields := by
  unfold projectReviewComments at h
  split at h
  · cases h
  obtain ⟨prior, _, h⟩ := bind_ok h
  obtain ⟨_, _, h⟩ := bind_ok h
  obtain ⟨originals, _, h⟩ := bind_ok h
  obtain ⟨instances, _, h⟩ := bind_ok h
  dsimp only at h
  split at h
  · cases h
  obtain ⟨admission, _, h⟩ := bind_ok h
  obtain ⟨verdict, hverdict, h⟩ := bind_ok h
  obtain ⟨_, _, _, hbound, hrest⟩ := Review.check_ok (Review.construct_ok h)
  have hsame := ReviewVerdict.construct_ok hverdict
  refine ⟨verdict, hbound, ?_, by rw [hsame], hrest, _, rfl, Review.construct_ok h⟩
  unfold ReviewVerdict.construct at hverdict
  split at hverdict
  · next hvalid => exact hsame ▸ hvalid
  · cases hverdict

/-- A bound selection restores its comments from their documents. -/
theorem restoredComments_ok {verdict : ReviewVerdict} {comments : List ReviewComment}
    (hvalid : verdict.valid = true)
    (hdigest : verdict.selectedCommentsSha256 = Review.commentSelectionDigest comments)
    (hadmission : commentAdmission comments = .ok verdict.selectedAdmission) :
    Review.restoredComments (some verdict) comments = .ok comments := by
  obtain ⟨htrusted, hletters⟩ := Review.commentAdmission_ok hadmission
  have hbound : verdict.construct = .ok verdict := if_pos hvalid
  have hlength : (comments.map unadmitted).length = verdict.selectedAdmission.toList.length := by
    rw [hletters, String.toList_ofList, List.length_map, List.length_map]
  have hsame : Review.commentSelectionDigest (comments.map unadmitted) =
      verdict.selectedCommentsSha256 := by
    rw [Review.selectionDigest_unadmitted, hdigest]
  unfold Review.restoredComments
  dsimp only
  rw [ok_bind hbound]
  unfold ReviewVerdict.restoreComments
  rw [if_neg (not_or.mpr ⟨not_not.mpr hlength, not_not.mpr hsame⟩), hletters,
    String.toList_ofList, Review.restore_letters htrusted]

/-- A result has no more comments than it may. -/
theorem check_few {given g : ResultFields ρ} (h : given.check rules = .ok g) :
    g.comments.length ≤ maxComments := by
  obtain ⟨_, hunique, _⟩ := Review.check_ok h
  unfold ResultFields.check at h
  obtain ⟨_, _, h⟩ := bind_ok h
  obtain ⟨_, _, h⟩ := bind_ok h
  obtain ⟨_, _, h⟩ := bind_ok h
  obtain ⟨unique, hkept, h⟩ := bind_ok h
  obtain rfl := Except.ok.inj (hkept.symm.trans hunique)
  split at h
  · cases h
  · next hfew => exact Nat.le_of_not_lt hfew

/-- A result whose comments are each kept is built again from its own fields, also with another
rest that passes the checks. -/
theorem check_again {given g : ResultFields ρ} (h : given.check rules = .ok g)
    (hcomments : given.comments = g.comments) {rest : ρ}
    (hhandoff : rules.handoff { g with rest } = .ok ())
    (hfields : rules.fields { g with rest } = .ok ())
    (hbounds : rules.bounds { g with rest } = .ok ()) :
    ResultFields.check rules { g with rest } = .ok { g with rest } := by
  obtain ⟨hverdict, hunique, _, hbound, _⟩ := Review.check_ok h
  have hverdict' : Review.checkVerdict { g with rest } = .ok () := by
    have hsame : Review.checkVerdict { g with rest } = Review.checkVerdict given := by
      unfold Review.checkVerdict
      dsimp only
      rw [hcomments, hbound]
    exact hsame.trans hverdict
  have hfew : ¬ maxComments < g.comments.length := Nat.not_lt.mpr (check_few h)
  rw [hcomments] at hunique
  unfold ResultFields.check
  rw [ok_bind hhandoff, ok_bind hverdict', ok_bind hfields, ok_bind hunique, if_neg hfew,
    ok_bind hbounds]

end Projection

section Frozen
variable {σ : Type} {others : OtherRules σ} {slots : List (PublishedSlot others.printable)}
  {candidates : List PublicationCandidate} {cap : Nat} {policy : ConvergencePolicy}
  {source frozen : ReviewResult (selectionRules others)}

/-- Every action of a plan was built. -/
theorem actions_built {items : List SelectedFinding} {actions : List PublicationAction}
    (h : items.mapM (actionOf others slots) = .ok actions) :
    ∀ a ∈ actions, PublicationAction.construct others.printable a = .ok a := by
  induction items generalizing actions with
  | nil =>
    obtain rfl := Except.ok.inj h
    exact fun a ha => absurd ha List.not_mem_nil
  | cons item rest ih =>
    rw [List.mapM_cons] at h
    obtain ⟨first, hfirst, h⟩ := bind_ok h
    obtain ⟨more, hmore, h⟩ := bind_ok h
    obtain rfl := Except.ok.inj h
    intro a ha
    rcases List.mem_cons.mp ha with rfl | ha
    · obtain ⟨hsame, _⟩ := action_ok hfirst
      unfold actionOf at hfirst
      dsimp only at hfirst
      rw [← hsame] at hfirst
      exact hfirst
    · exact ih hmore a ha

/-- What a freeze returns. -/
structure Freezes (others : OtherRules σ) (slots : List (PublishedSlot others.printable))
    (selected frozen : ReviewResult (selectionRules others))
    (handoff : PublicationSelectionHandoff) (cap : Nat) : Prop where
  cap : handoff.maxActiveFindings = cap
  built : handoff.construct = .ok handoff
  actions : ∀ a ∈ handoff.actions, PublicationAction.construct others.printable a = .ok a
  occupancy : handoff.requireOccupancy slots = .ok ()
  verdict : ∃ verdict : ReviewVerdict, selected.reviewVerdict = some verdict ∧ verdict.valid = true
  check : ResultFields.check (selectionRules others) { selected.toResultFields with
    rest := { selected.rest with publicationSelection := some handoff } } =
      .ok frozen.toResultFields

theorem freeze_ok
    (h : freezePublicationSelection others slots source candidates cap policy = .ok frozen) :
    ∃ selected handoff, Freezes others slots selected frozen handoff cap := by
  unfold freezePublicationSelection at h
  obtain ⟨_, _, h⟩ := bind_ok h
  obtain ⟨_, _, h⟩ := bind_ok h
  obtain ⟨plan, _, h⟩ := bind_ok h
  obtain ⟨_, _, h⟩ := bind_ok h
  obtain ⟨selected, hselected, h⟩ := bind_ok h
  obtain ⟨actions, hactions, h⟩ := bind_ok h
  obtain ⟨handoff, hhandoff, h⟩ := bind_ok h
  obtain ⟨_, hoccupancy, h⟩ := bind_ok h
  obtain ⟨verdict, hverdict, hvalid, _⟩ := project_verdict hselected
  obtain ⟨hsame, _⟩ := handoff_ok hhandoff
  refine ⟨selected, handoff, ?_, ?_, ?_, hoccupancy, ⟨verdict, hverdict, hvalid⟩,
    Review.construct_ok h⟩
  · rw [hsame]
  · rw [← hsame] at hhandoff
    exact hhandoff
  · rw [hsame]
    exact actions_built hactions

/-- The frozen result with other fields of the same content. -/
def withOther (frozen : ReviewResult (selectionRules others))
    (handoff : PublicationSelectionHandoff) (other : σ) : ResultFields (SelectionRest σ) :=
  { frozen.toResultFields with rest := ⟨some handoff, other⟩ }

/-- Who accepts a frozen selection: its source with the same criteria, the occupancy, and the
result as it reads back, wherever the other fields read back to the same content. -/
structure FrozenAccepted (others : OtherRules σ) (slots : List (PublishedSlot others.printable))
    (candidates : List PublicationCandidate) (policy : ConvergencePolicy)
    (source frozen : ReviewResult (selectionRules others))
    (handoff : PublicationSelectionHandoff) : Prop where
  held : frozen.rest.publicationSelection = some handoff
  source : validatePublicationSelectionSource others slots source handoff candidates policy = .ok ()
  occupancy : handoff.requireOccupancy slots = .ok ()
  document : PublicationSelectionHandoff.fromDocument others.printable handoff.toDocument =
    .ok handoff
  result : ∀ other, others.content other = others.content frozen.rest.other →
    handoff.requireResult others (withOther frozen handoff other) = .ok ()
  reread : ∀ other, others.reread frozen.rest.other = .ok other →
    others.content other = others.content frozen.rest.other →
    others.fields (withOther frozen handoff other) = .ok () →
    others.bounds (withOther frozen handoff other) = .ok () →
    ∃ back : ReviewResult (selectionRules others), Review.readBack frozen = .ok back ∧
      back.toResultFields = withOther frozen handoff other ∧
      handoff.requireResult others back.toResultFields = .ok ()

/-- Freezing drops no comment of the projection. -/
theorem Freezes.comments {selected : ReviewResult (selectionRules others)}
    {handoff : PublicationSelectionHandoff} (h : Freezes others slots selected frozen handoff cap) :
    selected.comments = frozen.comments :=
  ((Review.uniqueComments_ok (Review.check_ok h.check).2.1).2.2.2 selected.keys_nodup).symm

/-- The content of a result is all that binds its selection. -/
theorem requireResult_content {handoff : PublicationSelectionHandoff}
    {f g : ResultFields (SelectionRest σ)} (hcomments : f.comments = g.comments)
    (hrecords : f.findingLifecycles = g.findingLifecycles)
    (hverdict : f.reviewVerdict = g.reviewVerdict)
    (hcontent : others.content f.rest.other = others.content g.rest.other) :
    handoff.requireResult others f = handoff.requireResult others g := by
  have hdigest : projectionDigest others f = projectionDigest others g := by
    unfold projectionDigest contentDocument digestFields
    rw [hcontent, hcomments, hrecords, hverdict]
  unfold PublicationSelectionHandoff.requireResult
  rw [hdigest, hcomments, hverdict]

/-- The result was compared with its selection when it was built, and its content is the same. -/
theorem Freezes.result {selected : ReviewResult (selectionRules others)}
    {handoff : PublicationSelectionHandoff} (h : Freezes others slots selected frozen handoff cap)
    {other : σ} (hcontent : others.content other = others.content frozen.rest.other) :
    handoff.requireResult others (withOther frozen handoff other) = .ok () := by
  obtain ⟨_, _, hrecords, hverdict, hrest⟩ := Review.check_ok h.check
  obtain ⟨given, hgiven⟩ : ∃ given : ResultFields (SelectionRest σ),
      given = { selected.toResultFields with
        rest := { selected.rest with publicationSelection := some handoff } } := ⟨_, rfl⟩
  have hbound : handoff.requireResult others given = .ok () := by
    have hcheck := h.check
    rw [← hgiven] at hcheck
    unfold ResultFields.check at hcheck
    obtain ⟨_, hhandoff, _⟩ := bind_ok hcheck
    unfold selectionRules at hhandoff
    dsimp only at hhandoff
    rw [hgiven] at hhandoff ⊢
    exact hhandoff
  have hcomments : (withOther frozen handoff other).comments = given.comments := by
    rw [hgiven]
    exact h.comments.symm
  have hrecords : (withOther frozen handoff other).findingLifecycles = given.findingLifecycles := by
    rw [hgiven]
    exact hrecords
  have hverdict : (withOther frozen handoff other).reviewVerdict = given.reviewVerdict := by
    rw [hgiven]
    exact hverdict
  have hcontent : others.content (withOther frozen handoff other).rest.other =
      others.content given.rest.other := by
    rw [hgiven]
    exact hcontent.trans (congrArg (fun rest => others.content rest.other) hrest)
  exact (requireResult_content hcomments hrecords hverdict hcontent).trans hbound

/-- The frozen result reads back where its other fields do. -/
theorem Freezes.reread {selected : ReviewResult (selectionRules others)}
    {handoff : PublicationSelectionHandoff} (h : Freezes others slots selected frozen handoff cap)
    {other : σ} (hother : others.reread frozen.rest.other = .ok other)
    (hcontent : others.content other = others.content frozen.rest.other)
    (hfields : others.fields (withOther frozen handoff other) = .ok ())
    (hbounds : others.bounds (withOther frozen handoff other) = .ok ()) :
    ∃ back : ReviewResult (selectionRules others), Review.readBack frozen = .ok back ∧
      back.toResultFields = withOther frozen handoff other := by
  obtain ⟨hchecked, _, _, hverdict, hrest⟩ := Review.check_ok h.check
  obtain ⟨verdict, hsome, hvalid⟩ := h.verdict
  obtain ⟨hdigest, hadmission⟩ := Review.checkVerdict_ok hchecked hsome
  have hselection : frozen.rest.publicationSelection.mapM (fun h =>
      PublicationSelectionHandoff.fromDocument others.printable h.toDocument) =
        .ok (some handoff) := by
    rw [hrest]
    exact congrArg (Except.map some) (handoff_fromDocument h.built h.actions)
  have hreread : (selectionRules others).reread frozen.rest = .ok ⟨some handoff, other⟩ :=
    (ok_bind hselection _).trans (ok_bind hother _)
  have hrestored : Review.restoredComments frozen.reviewVerdict frozen.comments =
      .ok frozen.comments := by
    rw [hverdict, hsome, ← h.comments]
    exact restoredComments_ok hvalid hdigest hadmission
  have hcheck : ResultFields.check (selectionRules others) (withOther frozen handoff other) =
      .ok (withOther frozen handoff other) :=
    check_again h.check h.comments (h.result hcontent) hfields hbounds
  let back : ReviewResult (selectionRules others) :=
    ⟨withOther frozen handoff other, withOther frozen handoff other, hcheck⟩
  have hbuilt : ReviewResult.construct (selectionRules others) (withOther frozen handoff other) =
      .ok back := Review.construct_of_check hcheck
  refine ⟨back, ?_, rfl⟩
  unfold Review.readBack
  rw [ok_bind hreread, ok_bind hrestored]
  exact hbuilt

theorem freeze_accepted
    (h : freezePublicationSelection others slots source candidates cap policy = .ok frozen) :
    ∃ handoff, FrozenAccepted others slots candidates policy source frozen handoff := by
  obtain ⟨selected, handoff, hfreezes⟩ := freeze_ok h
  obtain ⟨_, _, _, _, hrest⟩ := Review.check_ok hfreezes.check
  have hheld : frozen.rest.publicationSelection = some handoff := by rw [hrest]
  have hdocument : PublicationSelectionHandoff.fromDocument others.printable handoff.toDocument =
      .ok handoff := handoff_fromDocument hfreezes.built hfreezes.actions
  refine ⟨handoff, hheld, ?_, hfreezes.occupancy, hdocument, fun _ => hfreezes.result, ?_⟩
  · unfold validatePublicationSelectionSource
    rw [hfreezes.cap, ok_bind h]
    exact ensure_ok hheld
  · intro other hother hcontent hfields hbounds
    obtain ⟨back, hback, hsame⟩ := hfreezes.reread hother hcontent hfields hbounds
    exact ⟨back, hback, hsame, hsame ▸ hfreezes.result hcontent⟩

section Total
variable {values : List PublicationCandidate}

/-- The action of a candidate. -/
def actionFor (slots : List (PublishedSlot others.printable)) (c : PublicationCandidate) :
    PublicationAction :=
  let target := c.existingTarget.bind (slotAt slots)
  { instanceId := c.instanceId
    commentSha256 := c.commentSha256
    action := match target with
      | none => .create
      | some slot => if slot.state = .active then .reuse else .reopen
    consumesSlot := consumes slots c
    existingTarget := target.map (·.target)
    targetState := target.map (·.state)
    targetProofSha256 := target.map (·.proofSha256) }

/-- The target of an action is that of its candidate. -/
theorem actionFor_target (h : Admissible slots candidates) {c : PublicationCandidate}
    (hc : c ∈ candidates) : (actionFor slots c).existingTarget = c.existingTarget := by
  unfold actionFor
  dsimp only
  cases htarget : c.existingTarget with
  | none => rfl
  | some target =>
    obtain ⟨slot, hslot, _⟩ := h.known c hc target htarget
    have hsome := List.find?_some hslot
    rw [Option.bind_some, hslot]
    exact congrArg some (of_decide_eq_true hsome)

/-- A target that is not uncertain is reused or reopened, and takes a slot if it has none. -/
theorem expected_of_slot {slot : PublishedSlot others.printable} (h : slot.state ≠ .uncertain) :
    expectedAction slot.state =
      some (if slot.state = .active then .reuse else .reopen, !slot.reserved) := by
  unfold PublishedSlot.reserved
  cases hs : slot.state with
  | active => rfl
  | contingent => rfl
  | uncertain => exact absurd hs h
  | released => rfl

/-- An admissible candidate has an action that passes its checks. -/
theorem actionOf_ok (h : Admissible slots candidates) {c : PublicationCandidate}
    (hc : c ∈ candidates) :
    actionOf others slots ⟨c, consumes slots c⟩ = .ok (actionFor slots c) := by
  have hdigests : isSha256 (actionFor slots c).instanceId = true ∧
      isSha256 (actionFor slots c).commentSha256 = true :=
    ⟨isSha256_sha256 _, isSha256_sha256 _⟩
  have htarget : (actionFor slots c).checkTarget others.printable = .ok () := by
    unfold actionFor consumes
    dsimp only
    cases htarget : c.existingTarget with
    | none => rfl
    | some target =>
      obtain ⟨slot, hslot, hstate⟩ := h.known c hc target htarget
      rw [Option.bind_some, hslot]
      exact (ensure_bind slot.texts _).trans (ensure_ok (expected_of_slot hstate))
  have hbuilt : PublicationAction.construct others.printable (actionFor slots c) =
      .ok (actionFor slots c) := by
    unfold PublicationAction.construct
    rw [ensure_bind hdigests, ok_bind htarget]
    rfl
  exact hbuilt

theorem actions_ok (h : Admissible slots candidates) {cs : List PublicationCandidate}
    (hcs : ∀ c ∈ cs, c ∈ candidates) :
    (cs.map (fun c => (⟨c, consumes slots c⟩ : SelectedFinding))).mapM (actionOf others slots) =
      .ok (cs.map (actionFor slots)) := by
  induction cs with
  | nil => rfl
  | cons c rest ih =>
    have hfirst := actionOf_ok h (hcs c List.mem_cons_self)
    have hrest := ih fun d hd => hcs d (List.mem_cons_of_mem _ hd)
    rw [List.map_cons, List.mapM_cons, ok_bind hfirst, ok_bind hrest]
    rfl

/-- The actions of a plan name each instance and each target once. -/
theorem actions_distinct (h : Admissible slots candidates) {cs : List PublicationCandidate}
    (hcs : ∀ c ∈ cs, c ∈ candidates) (hnodup : cs.Nodup) :
    ((cs.map (actionFor slots)).map (·.instanceId)).Nodup ∧
      ((cs.map (actionFor slots)).filterMap (·.existingTarget)).Nodup := by
  constructor
  · rw [List.map_map]
    apply List.Nodup.map_on _ hnodup
    intro c hc d hd hsame
    exact h.instances c (hcs c hc) d (hcs d hd) hsame
  · rw [List.filterMap_map, List.Nodup, List.pairwise_filterMap]
    apply List.Pairwise.imp_of_mem _ hnodup
    intro c d hc hd hne target htarget target' htarget' hsame
    have hc' := (actionFor_target h (hcs c hc)).symm.trans htarget
    have hd' := (actionFor_target h (hcs d hd)).symm.trans htarget'
    exact hne (h.targets c (hcs c hc) d (hcs d hd) target hc' (hsame ▸ hd'))

theorem actions_count (cs : List PublicationCandidate) :
    (cs.map (actionFor slots)).countP (·.consumesSlot) = cs.countP (consumes slots) :=
  List.countP_map

/-- The occupancy that a plan was made for is the one its record asks for. -/
theorem occupancy_ok (h : Admissible slots candidates)
    {cs : List PublicationCandidate} (hcs : ∀ c ∈ cs, c ∈ candidates)
    (hcount : reservations slots + cs.countP (consumes slots) ≤ cap)
    {handoff : PublicationSelectionHandoff} (hcap : handoff.maxActiveFindings = cap)
    (hactions : handoff.actions = cs.map (actionFor slots))
    (hdigest : occupancyDigest slots = .ok handoff.occupancySha256) :
    handoff.requireOccupancy slots = .ok () := by
  have htargets : (handoff.actions).forM (PublicationSelectionHandoff.targetHolds slots) =
      .ok () := by
    rw [hactions]
    apply forM_iff.mpr
    intro a ha
    obtain ⟨c, hc, rfl⟩ := List.mem_map.mp ha
    unfold PublicationSelectionHandoff.targetHolds
    rw [actionFor_target h (hcs c hc)]
    cases htarget : c.existingTarget with
    | none => rfl
    | some target =>
      obtain ⟨slot, hslot, _⟩ := h.known c (hcs c hc) target htarget
      apply ensure_ok
      unfold actionFor
      dsimp only
      rw [htarget, Option.bind_some, hslot]
      rfl
  have hsum : reservations slots + handoff.actions.countP (·.consumesSlot) ≤
      handoff.maxActiveFindings := by
    rw [hactions, actions_count, hcap]
    exact hcount
  unfold PublicationSelectionHandoff.requireOccupancy
  rw [ok_bind hdigest, ensure_bind rfl, ensure_bind hsum]
  exact htargets

/-- Each comment is bound by its own action. -/
theorem actions_bind (cs : List PublicationCandidate) :
    ((cs.map (·.comment)).zip (cs.map (actionFor slots))).forM actionBinds = .ok () := by
  apply forM_iff.mpr
  intro pair hpair
  rw [List.zip_map', List.mem_map] at hpair
  obtain ⟨c, _, rfl⟩ := hpair
  exact ensure_ok ⟨rfl, rfl⟩

/-- What a freeze asks of its source beside the selection. -/
structure Freezable (others : OtherRules σ) (source : ReviewResult (selectionRules others))
    (candidates : List PublicationCandidate) (policy : ConvergencePolicy) : Prop where
  admitted : source.reviewVerdict.isSome = true ∧ source.rest.publicationSelection = none ∧
    others.sealedResult source.rest.other = false
  policy : source.reviewVerdict.forM (fun verdict => verdict.requirePolicy policy) = .ok ()
  covers : commentDocuments (candidates.map (·.comment)) = commentDocuments source.comments ∧
    ∀ row ∈ candidates, row.comment ∈ source.comments

/-- The checks of the other fields pass with any selection. -/
def Admits (selected : ReviewResult (selectionRules others)) : Prop :=
  ∀ handoff, others.fields (withOther selected handoff selected.rest.other) = .ok () ∧
    others.bounds (withOther selected handoff selected.rest.other) = .ok ()

/-- The record of a plan over `cs`. -/
def recordOf (others : OtherRules σ) (slots : List (PublishedSlot others.printable))
    (source selected : ReviewResult (selectionRules others))
    (candidates : List PublicationCandidate) (policy : ConvergencePolicy) (plan : PublicationSelection) (cs : List PublicationCandidate) :
    PublicationSelectionHandoff where
  sourceResultSha256 := contentDigest others source.toResultFields
  selectedResultSha256 := contentDigest others selected.toResultFields
  policyDigest := policy.digest
  criteriaSha256 := criteriaDigest candidates
  occupancySha256 := plan.occupancySha256
  maxActiveFindings := plan.maxActiveFindings
  actions := cs.map (actionFor slots)

/-- The candidates behind a plan: what was taken, in order. -/
structure Behind (slots : List (PublishedSlot others.printable))
    (candidates : List PublicationCandidate) (plan : PublicationSelection)
    (cs : List PublicationCandidate) : Prop where
  items : plan.selected = cs.map (fun c => ⟨c, consumes slots c⟩)
  among : ∀ c ∈ cs, c ∈ candidates
  once : cs.Nodup
  admissible : Admissible slots candidates
  positive : 1 ≤ plan.maxActiveFindings
  within : reservations slots + cs.countP (consumes slots) ≤ plan.maxActiveFindings
  occupancy : occupancyDigest slots = .ok plan.occupancySha256 ∧
    isSha256 plan.occupancySha256 = true

theorem behind_plan {plan : PublicationSelection}
    (h : selectPublication slots candidates cap = .ok plan) :
    plan.maxActiveFindings = cap ∧ ∃ cs, Behind slots candidates plan cs := by
  have hstrict := (selection_strict h).within
  obtain ⟨⟨hpositive, htargets, _⟩, hadmissible, values, hnodup, hvalues, rfl⟩ :=
    selectPublication_iff.mp h
  have hsub : (chosen slots cap values).Sublist (byPriority values) :=
    CappedChoice.choose_sublist
  have hcount : (planOf slots cap values).selected.countP (·.consumesSlot) =
      (chosen slots cap values).countP (consumes slots) := List.countP_map
  refine ⟨rfl, chosen slots cap values, rfl, fun c hc => ?_, ?_, hadmissible, hpositive,
    hcount ▸ hstrict, ensure_bind htargets _, isSha256_sha256 _⟩
  · exact (hvalues c).mp ((byPriority_perm values).mem_iff.mp (hsub.subset hc))
  · exact ((byPriority_perm values).nodup_iff.mpr hnodup).sublist hsub

section Behind
variable {plan : PublicationSelection} {cs : List PublicationCandidate}
  {selected : ReviewResult (selectionRules others)}

theorem Behind.comments (h : Behind slots candidates plan cs) :
    plan.selected.map (·.candidate.comment) = cs.map (·.comment) := by
  rw [h.items, List.map_map]
  rfl

/-- Different candidates have comments of different keys. -/
theorem Behind.keys (h : Behind slots candidates plan cs) :
    ((cs.map (·.comment)).map (·.key)).Nodup := by
  rw [List.map_map]
  apply List.Nodup.map_on _ h.once
  intro c hc d hd hkey
  apply h.admissible.instances c (h.among c hc) d (h.among d hd)
  exact congrArg (fun key => sha256 ("reviewsensei:finding-instance:v1:" ++
    (Review.instanceJson key).canonical)) hkey

theorem contentDigest_sha (f : ResultFields (SelectionRest σ)) :
    isSha256 (contentDigest others f) = true := by
  unfold contentDigest
  split
  · exact isSha256_sha256 _
  · exact isSha256_sha256 _

theorem Behind.built (h : Behind slots candidates plan cs) (hpolicy : isSha256 policy.digest = true)
    (hfew : cs.length ≤ maxComments) :
    (recordOf others slots source selected candidates policy plan cs).construct =
      .ok (recordOf others slots source selected candidates policy plan cs) := by
  obtain ⟨hinstances, htargets⟩ := actions_distinct h.admissible h.among h.once
  have hlength : (cs.map (actionFor slots)).length ≤ maxComments := by rwa [List.length_map]
  have hcount : (cs.map (actionFor slots)).countP (·.consumesSlot) ≤ plan.maxActiveFindings := by
    have hwithin := h.within
    rw [actions_count]
    omega
  unfold PublicationSelectionHandoff.construct recordOf
  dsimp only
  rw [ensure_bind ⟨contentDigest_sha _, contentDigest_sha _, hpolicy, isSha256_sha256 _,
    h.occupancy.2, h.positive, hlength⟩, ensure_bind ⟨hinstances, htargets⟩, ensure_bind hcount]
  rfl

/-- The projected result fits the record of the plan it was projected for. -/
theorem Behind.result (hnone : selected.rest.publicationSelection = none)
    (hcomments : selected.comments = cs.map (·.comment)) {verdict : ReviewVerdict}
    (hverdict : selected.reviewVerdict = some verdict)
    (hdigest : verdict.policyDigest = policy.digest) :
    (recordOf others slots source selected candidates policy plan cs).requireResult others
      (withOther selected (recordOf others slots source selected candidates policy plan cs)
        selected.rest.other) = .ok () := by
  obtain ⟨record, hrecord⟩ : ∃ record, record =
      recordOf others slots source selected candidates policy plan cs := ⟨_, rfl⟩
  rw [← hrecord]
  have hprojection : projectionDigest others (withOther selected record selected.rest.other) =
      record.selectedResultSha256 := by
    rw [hrecord]
    unfold recordOf contentDigest
    rw [hnone]
    rfl
  have hpolicy : (withOther selected record selected.rest.other).reviewVerdict.map
      (·.policyDigest) = some record.policyDigest := by
    rw [hrecord]
    unfold withOther
    rw [hverdict, Option.map_some, hdigest]
    rfl
  have hlength : (withOther selected record selected.rest.other).comments.length =
      record.actions.length := by
    rw [hrecord]
    unfold withOther recordOf
    rw [hcomments, List.length_map, List.length_map]
  unfold PublicationSelectionHandoff.requireResult
  rw [ensure_bind ⟨hpolicy, hprojection, hlength⟩, hrecord]
  unfold withOther recordOf
  rw [hcomments]
  exact actions_bind cs

end Behind

/-- Once the plan's comments are projected, nothing of the freeze itself fails. -/
theorem freeze_total {plan : PublicationSelection} {selected : ReviewResult (selectionRules others)}
    (hplan : selectPublication slots candidates cap = .ok plan)
    (hsource : Freezable others source candidates policy)
    (hproject : projectReviewComments others.lower source
      (plan.selected.map (·.candidate.comment)) policy = .ok selected)
    (hrest : Admits selected) : ∃ frozen,
      freezePublicationSelection others slots source candidates cap policy = .ok frozen := by
  obtain ⟨rfl, cs, h⟩ := behind_plan hplan
  obtain ⟨verdict, hverdict, hvalid, hdigest, hsame, given, hgiven, hcheck⟩ :=
    project_verdict hproject
  rw [h.comments] at hgiven
  have hcomments : selected.comments = cs.map (·.comment) := by
    have hunique := (Review.check_ok hcheck).2.1
    rw [hgiven] at hunique
    exact (Review.uniqueComments_ok hunique).2.2.2 h.keys
  have hfew : cs.length ≤ maxComments := by
    have hle := check_few hcheck
    rwa [hcomments, List.length_map] at hle
  have hpolicy : isSha256 policy.digest = true := by
    unfold ReviewVerdict.valid at hvalid
    rw [Bool.and_eq_true, Bool.and_eq_true, Bool.and_eq_true, hdigest] at hvalid
    exact hvalid.1.1.1
  have hnone : selected.rest.publicationSelection = none := by
    rw [hsame]
    exact hsource.admitted.2.1
  have hactions : plan.selected.mapM (actionOf others slots) = .ok (cs.map (actionFor slots)) := by
    rw [h.items]
    exact actions_ok h.admissible h.among
  obtain ⟨record, hrecord⟩ : ∃ record, record =
      recordOf others slots source selected candidates policy plan cs := ⟨_, rfl⟩
  have hbuilt : record.construct = .ok record := by
    rw [hrecord]
    exact h.built hpolicy hfew
  have hoccupancy : record.requireOccupancy slots = .ok () := by
    rw [hrecord]
    exact occupancy_ok h.admissible h.among h.within rfl rfl h.occupancy.1
  have hresult : record.requireResult others
      (withOther selected record selected.rest.other) = .ok () := by
    rw [hrecord]
    exact Behind.result hnone hcomments hverdict hdigest
  obtain ⟨hfields, hbounds⟩ := hrest record
  have hfinal : ResultFields.check (selectionRules others)
      (withOther selected record selected.rest.other) =
        .ok (withOther selected record selected.rest.other) :=
    check_again hcheck (hgiven.trans hcomments.symm) hresult hfields hbounds
  let frozen : ReviewResult (selectionRules others) :=
    ⟨withOther selected record selected.rest.other, _, hfinal⟩
  have hconstruct : ReviewResult.construct (selectionRules others)
      (withOther selected record selected.rest.other) = .ok frozen :=
    Review.construct_of_check hfinal
  refine ⟨frozen, ?_⟩
  rw [hrecord] at hbuilt
  unfold freezePublicationSelection
  rw [ensure_bind hsource.admitted, ok_bind hsource.policy, ok_bind hplan,
    ensure_bind hsource.covers, ok_bind hproject, ok_bind hactions]
  refine (ok_bind hbuilt _).trans ?_
  rw [← hrecord]
  exact (ok_bind hoccupancy _).trans hconstruct

end Total

/-- A selection keeps the strict cap whatever the order of its inputs. Once it is frozen it is
accepted with its source, its occupancy and the result as it reads back; and the freeze returns
where the comments of the plan project and the other checks of the result pass. -/
theorem strict_cap_selection {plan : PublicationSelection}
    (h : selectPublication slots candidates cap = .ok plan) :
    StrictCap slots candidates cap plan ∧
      (∀ (policy : ConvergencePolicy) (source frozen : ReviewResult (selectionRules others)),
        freezePublicationSelection others slots source candidates cap policy = .ok frozen →
          ∃ handoff, FrozenAccepted others slots candidates policy source frozen handoff) ∧
      ∀ (policy : ConvergencePolicy) (source selected : ReviewResult (selectionRules others)),
        Freezable others source candidates policy →
        projectReviewComments others.lower source
          (plan.selected.map (·.candidate.comment)) policy = .ok selected → Admits selected →
        ∃ frozen, freezePublicationSelection others slots source candidates cap policy =
          .ok frozen :=
  ⟨selection_strict h, fun _ _ _ => freeze_accepted, fun _ _ _ => freeze_total h⟩

end Frozen

section Sample

/-- Results without other fields to check. -/
def sampleOthers : OtherRules Unit where
  printable := fun _ => true
  lower := id
  content := fun _ =>
    { summary := "s"
      provider := "local"
      model := none
      learningProposals := []
      reviewStatus := "complete"
      sourceContext := none
      evidencePolicy := "legacy"
      coverageMode := "full"
      coverage := none
      persistenceStatus := none
      coverageOnlyPartial := false
      boundedWorkReceipt := none }
  sealedResult := fun _ => false
  fields := fun _ => .ok ()
  bounds := fun _ => .ok ()
  reread := .ok

/-- A thread that is already published. -/
def sampleSlot : PublishedSlot sampleOthers.printable where
  target := "t"
  state := .active
  proofSha256 := Session.repeated 64 'e'
  texts := by decide

def sampleCandidate (body : String) (blocking : Bool) (target : Option String) :
    PublicationCandidate where
  comment := Review.sampleComment body blocking
  required := blocking
  impact := none
  evidence := .supportedSource
  existingTarget := target
  admitted := rfl
  required_exact := by cases blocking <;> rfl
  advisory := nofun

/-- A published blocking finding and a new optional one. -/
def sampleCandidates : List PublicationCandidate :=
  [sampleCandidate "y" false none, sampleCandidate "x" true (some "t")]

/-- The published finding keeps its slot, and there is none for the new one. -/
theorem sample_strict : ∃ plan : PublicationSelection,
    selectPublication [sampleSlot] sampleCandidates 1 = .ok plan ∧
      plan.selected = [⟨sampleCandidate "x" true (some "t"), false⟩] ∧
      StrictCap [sampleSlot] sampleCandidates 1 plan := by
  have hselected : (selectPublication [sampleSlot] sampleCandidates 1).toOption.map
      (fun plan => plan.selected.map (fun s => (s.candidate, s.consumesSlot))) =
        some [(sampleCandidate "x" true (some "t"), false)] := by
    decide +kernel
  cases h : selectPublication [sampleSlot] sampleCandidates 1 with
  | error e =>
    rw [h] at hselected
    cases hselected
  | ok plan =>
    rw [h] at hselected
    have hpairs : plan.selected.map (fun s => (s.candidate, s.consumesSlot)) =
        [(sampleCandidate "x" true (some "t"), false)] := Option.some.inj hselected
    have hone : plan.selected = [⟨sampleCandidate "x" true (some "t"), false⟩] := by
      have hmap := congrArg (List.map fun p => (⟨p.1, p.2⟩ : SelectedFinding)) hpairs
      rw [List.map_map] at hmap
      exact (List.map_id' plan.selected).symm.trans hmap
    exact ⟨plan, rfl, hone, (strict_cap_selection h).1⟩

end Sample
end ReviewSensei.Selection
