import ReviewSensei.BroaderReview
import ReviewSensei.HostFinalize

/-! What a finalization has read of its host when it posts an approval or reports one. -/
namespace ReviewSensei

open Approval (ReviewApprovalEligibility AutoApprovalDecision)

namespace Finalize
open Session (isGitSha)

section Threads

/-- An open root of the App that no decision honors, and that says it blocks this place or says
nothing of it. -/
def Thread.withholds (place : Place) (honored : List String) (t : Thread) : Prop :=
  t.isResolved = some false ∧ ∃ root, t.root = some root ∧ root.ofApp = some true ∧
    root.honoredBy honored = false ∧
    ((∃ scope, root.scope = some scope ∧ scope.toPlace = place ∧ scope.blocking = true) ∨
      (root.scope = none ∧ root.blocksApproval ≠ some false))

/-- A resolved thread of the App for a blocking finding of this place. -/
def Thread.resolves (place : Place) (identity : String) (t : Thread) : Prop :=
  t.isResolved = some true ∧ ∃ root, t.root = some root ∧ root.ofApp = some true ∧
    root.identity = some identity ∧
    ∃ scope, root.scope = some scope ∧ scope.toPlace = place ∧ scope.blocking = true

theorem noteThread_ok {place : Place} {honored : List String} {facts after : RootFacts} {t : Thread}
    (h : noteThread place honored facts t = .ok after) :
    (after.openBlocking = false → facts.openBlocking = false ∧ ¬ t.withholds place honored) ∧
      ∀ i ∈ after.resolvedInstances, i ∈ facts.resolvedInstances ∨ t.resolves place i := by
  unfold noteThread at h
  split at h
  · cases h
  · grind [Thread.withholds]
  · cases h
  · split at h
    · cases h
    · grind [Thread.withholds]
    · next root hresolved hroot _ happ =>
      simp only [Thread.withholds, Thread.resolves, hresolved, hroot]
      obtain rfl := Except.ok.inj h
      unfold noteRoot noteScoped noteUnscoped
      cases hid : root.identity <;> cases hscope : root.scope <;>
        grind [RootFacts.opened, RootFacts.resolve]

variable (rules : BodyRules) (appSlug : String) (place : Place) (honored : List String)

/-- What the facts of a scan say of the nodes that it went through. -/
structure Seen (nodes : List Json) (facts : RootFacts) : Prop where
  quiet : facts.openBlocking = false → ∀ node ∈ nodes, ∃ t,
    readThread rules appSlug node = .ok t ∧ ¬ t.withholds place honored
  resolved : ∀ i ∈ facts.resolvedInstances, ∃ node ∈ nodes, ∃ t,
    readThread rules appSlug node = .ok t ∧ t.resolves place i

variable {rules appSlug place honored}

theorem declare_ok {α : Type} {x : Except String α} {a : α} (h : declare x = .ok a) :
    x = .ok a := by
  cases x <;> simp_all [declare]

theorem Seen.nil : Seen rules appSlug place honored [] {} := ⟨by simp, by simp⟩

theorem Seen.scan {before nodes : List Json} {facts after : RootFacts}
    (seen : Seen rules appSlug place honored before facts)
    (h : nodes.foldlM (noteNode rules appSlug place honored) facts = .ok after) :
    Seen rules appSlug place honored (before ++ nodes) after := by
  induction nodes generalizing before facts with
  | nil =>
    rw [← Except.ok.inj h, List.append_nil]
    exact seen
  | cons node nodes ih =>
    rw [List.foldlM_cons] at h
    obtain ⟨next, hnext, h⟩ := flow_ok h
    obtain ⟨t, ht, hnext⟩ := flow_ok hnext
    obtain ⟨hquiet, hresolved⟩ := noteThread_ok (declare_ok hnext)
    have hstep : Seen rules appSlug place honored (before ++ [node]) next := by
      constructor
      · grind [seen.quiet]
      · grind [seen.resolved]
    have hseen := ih hstep h
    rwa [List.append_assoc] at hseen

theorem Seen.join {nodes page : List Json} {facts found : RootFacts}
    (seen : Seen rules appSlug place honored nodes facts)
    (next : Seen rules appSlug place honored page found) :
    Seen rules appSlug place honored (nodes ++ page) (facts.join found) := by
  constructor
  · grind [RootFacts.join, seen.quiet, next.quiet]
  · grind [RootFacts.join, seen.resolved, next.resolved]

/-- The nodes of the pages from one on, down to the page that says it is the last. -/
inductive PagesFrom (pages : Nat → PageAnswer) : Nat → List Json → Prop
  | last {first : Nat} {page : Page} (hread : readPage (pages first) = .ok page)
      (hnext : hasNextPage page.info = .ok false) : PagesFrom pages first page.nodes
  | more {first : Nat} {page : Page} {rest : List Json} (hread : readPage (pages first) = .ok page)
      (hnext : hasNextPage page.info = .ok true) (hrest : PagesFrom pages (first + 1) rest) :
      PagesFrom pages first (page.nodes ++ rest)

/-- All nodes of a source of threads. -/
def ThreadSource.Complete (nodes : List Json) : ThreadSource → Prop
  | .native read => read = .ok nodes
  | .paged pages => PagesFrom pages 0 nodes

theorem scanPages_seen {pages : Nat → PageAnswer} {left first : Nat} {before : List Json}
    {facts after : RootFacts} (seen : Seen rules appSlug place honored before facts)
    (h : scanPages rules appSlug place honored pages left first facts = .ok after) :
    ∃ nodes, PagesFrom pages first nodes ∧
      Seen rules appSlug place honored (before ++ nodes) after := by
  induction left generalizing first before facts with
  | zero => cases h
  | succ left ih =>
    obtain ⟨page, hpage, h⟩ := flow_ok h
    obtain ⟨found, hfound, h⟩ := flow_ok h
    obtain ⟨next, hnext, h⟩ := flow_ok h
    have hpage := declare_ok hpage
    have hjoined := seen.join (Seen.nil.scan hfound)
    cases next with
    | true =>
      obtain ⟨rest, hrest, hseen⟩ := ih hjoined h
      rw [List.append_assoc] at hseen
      exact ⟨page.nodes ++ rest, .more hpage (declare_ok hnext) hrest, hseen⟩
    | false =>
      rw [← Except.ok.inj h]
      exact ⟨page.nodes, .last hpage (declare_ok hnext), hjoined⟩

theorem scanBlockingThreads_seen {source : ThreadSource} {facts : RootFacts}
    (h : scanBlockingThreads rules appSlug place honored source = .ok facts) :
    ∃ nodes, source.Complete nodes ∧ Seen rules appSlug place honored nodes facts := by
  cases source with
  | native read =>
    obtain ⟨nodes, hnodes, h⟩ := flow_ok h
    exact ⟨nodes, declare_ok hnodes, Seen.nil.scan h⟩
  | paged pages => exact scanPages_seen Seen.nil h

end Threads

section Cleared
variable {rules : Human.Rules} (host : Host rules) (call : Call rules)

/-- An inline blocker that no decision honors. -/
def Call.owes (entry : IndexedFinding) : Prop :=
  entry.blocking = true ∧ entry.bodyPlaced = false ∧ entry.identity ∉ call.honoredInstances

/-- What stands when the write is due. -/
structure Cleared (ready : Ready rules) : Prop where
  head : isGitSha call.headSha = true ∧ call.eligibility.headSha = call.headSha
  carried : confirmCarried host.readers call.eligibility = .ok ready.eligibility
  partition : partitionGate host.partition ready.eligibility = .ok ()
  /-- Both looks went on: the pull request is open on the head, no draft, no fork and not the App's. -/
  looks : see (host.look call host.preflightAnswer) = .ok ready.approval.preflight ∧
    ∃ again, see (host.look call host.writePreflightAnswer) = .ok again ∧
      again.repositoryId = ready.approval.preflight.repositoryId ∧
      again.baseSha = ready.approval.preflight.baseSha
  base : ∀ inventory ∈ ready.eligibility.humanReview,
    inventory.baseSha = ready.approval.preflight.baseSha
  reviews : loadHeadReviews host = .ok ready.reviews
  /-- Every page of the threads was read, no open root withholds, and each inline blocker of the
  index has a resolved thread. -/
  threads : ∃ index nodes facts, host.threads.Complete nodes ∧
    Seen host.toBodyRules host.appSlug (ready.approval.preflight.place call) call.honoredInstances
      nodes facts ∧ facts.openBlocking = false ∧
    findingIndexFromReviews host.toReviewRules host.appSlug (ready.approval.preflight.place call)
      ready.eligibility.resultDigest ready.reviews = .ok index ∧
    ∀ found ∈ index, ∀ entry ∈ found.entries, call.owes entry →
      entry.identity ∈ facts.resolvedInstances
  approves : ready.eligibility.Approves false (some false) call.coverageUncertaintyAccepted
  persisted : readPersisted host call ready.eligibility ready.reviews = .ok true
  guarded : guardReviews host ready.reviews = .ok ()
  qualified : qualificationAuthorizes host.authority ready.eligibility
    ready.approval.preflight.baseSha = true

variable {host call} {e : ReviewApprovalEligibility rules}

theorem flow_iff {ε α β : Type} {x : Except ε α} {f : α → Except ε β} {b : β} :
    (x >>= f) = .ok b ↔ ∃ a, x = .ok a ∧ f a = .ok b := by
  cases x <;> simp [bind, Except.bind]

theorem ask_iff {α : Type} {x : Except Exit α} {a : α} : ask x = .ok a ↔ x = .ok a := by
  rcases x with (_ | _) | _ <;> simp [ask]

theorem read_iff {α : Type} {x : Except Failure α} {a : α} : read x = .ok a ↔ x = .ok a := by
  cases x <;> simp [read]

theorem attempt_iff {α : Type} {x : Except String α} {a : α} : attempt x = .ok a ↔ x = .ok a := by
  cases x <;> simp [attempt]

theorem leave_iff {p : Prop} [Decidable p] {result : PublicationResult} {u : Unit} :
    leave p result = .ok u ↔ ¬ p := by
  unfold leave
  split <;> simp_all

theorem see_foreign {look : Except String Look} {p : Preflight} (h : see look = .ok p) :
    p.appAuthored = false := by
  simp only [see_ok h, see, flow_iff, leave_iff, Bool.not_eq_true] at h
  obtain ⟨_, hforeign, _⟩ := h
  exact hforeign

/-- The decision rests on threads of which none is open and blocking. -/
theorem secondLook_ok {look : Except String Look} {p : Preflight} {facts : RootFacts}
    {decision : AutoApprovalDecision} (h : secondLook call look e p facts = .ok decision) :
    (∃ again, see look = .ok again ∧ again.repositoryId = p.repositoryId ∧
        again.baseSha = p.baseSha) ∧
      facts.openBlocking = false ∧
      e.Approves false (some false) call.coverageUncertaintyAccepted := by
  simp only [secondLook, flow_iff, attempt_iff, leave_iff, not_or, not_not, ne_eq,
    Bool.not_eq_false] at h
  obtain ⟨again, hsee, _, hsame, decision, hevaluate, _, happroved, _⟩ := h
  have happroves : e.Approves again.appAuthored (some facts.openBlocking)
      call.coverageUncertaintyAccepted := ⟨decision, hevaluate, happroved⟩
  have hclear := (ReviewApprovalEligibility.approves_iff e _ _ _).mp happroves
  have hopen : facts.openBlocking = false := Option.some.inj hclear.2.1.threads
  rw [see_foreign hsee, hopen] at happroves
  exact ⟨⟨again, hsee, hsame⟩, hopen, happroves⟩

/-- The obligations that an accepted reading of the index leaves are resolved in its threads. -/
theorem obligations_ok {found : Except Failure (Option FindingIndex)} {resolved : List String}
    {kept : Except String (Option FindingIndex)} (h : keepDeclared found = .ok kept)
    (hresolved : inlineObligationsResolved kept resolved call.honoredInstances = true) :
    ∃ index, found = .ok index ∧ ∀ i ∈ index, ∀ entry ∈ i.entries, call.owes entry →
      entry.identity ∈ resolved := by
  unfold keepDeclared at h
  split at h
  · next index =>
    rw [← Except.ok.inj h] at hresolved
    refine ⟨index, rfl, fun i hi entry hentry howes => ?_⟩
    rw [Option.mem_def.mp hi] at hresolved
    have hall := List.all_eq_true.mp hresolved entry hentry
    simpa [howes.1, howes.2.1, howes.2.2] using hall
  · rw [← Except.ok.inj h] at hresolved
    cases hresolved
  · cases h

theorem prepareHost_cleared {ready : Ready rules} (h : prepareHost host call = .ok ready) :
    Cleared host call ready := by
  simp only [prepareHost, scanHost, readBackHost, firstLook, flow_iff, ask_iff, read_iff,
    attempt_iff, leave_iff, Prod.exists, not_not, ne_eq, Bool.not_eq_false, pure, Except.pure,
    Except.ok.injEq, Prod.mk.injEq] at h
  -- the head, the carried views, the gates, the first look, the threads and the reviews
  obtain ⟨_, hsha, _, hhead, e, hcarried, _, _, _, hpartition, p,
    ⟨_, hsee, _, hbase, _, _, rfl⟩, facts, decision, ⟨_, hfound, _, hsecond, rfl, rfl⟩, reviews,
    ⟨_, hloaded, _, hkept, _, hresolved, _, hpersisted, _, rfl, _, hguard, _, hqualified, rfl⟩,
    rfl⟩ := h
  obtain ⟨nodes, hcomplete, hseen⟩ := scanBlockingThreads_seen hfound
  obtain ⟨hlooks, hopen, happroves⟩ := secondLook_ok hsecond
  obtain ⟨index, hindex, howed⟩ := obligations_ok hkept hresolved
  exact ⟨⟨ensure_inv hsha, hhead⟩, hcarried, hpartition, ⟨hsee, hlooks⟩, by simpa using hbase,
    hloaded, ⟨index, nodes, _, hcomplete, hseen, hopen, hindex, howed⟩, happroves, hpersisted,
    hguard, hqualified⟩

end Cleared

section Exits
variable {rules : Human.Rules} {host : Host rules} {call : Call rules}

/-- The head is reported approved. -/
def PublicationResult.approves (r : PublicationResult) : Bool :=
  r.status = .approved || r.status = .alreadyApproved

def Stop.approves : Stop → Bool
  | .returned r => r.approves
  | .failed _ => false

/-- An end before the value reports no approval. -/
def Quiet {α : Type} (x : Except Stop α) : Prop := ∀ stop, x = .error stop → stop.approves = false

theorem Quiet.pure {α : Type} (a : α) : Quiet (.ok a : Except Stop α) := by simp [Quiet]

theorem Quiet.stop {α : Type} {stop : Stop} (h : stop.approves = false) :
    Quiet (.error stop : Except Stop α) := by
  intro other hother
  rwa [← Except.error.inj hother]

theorem Quiet.bind {α β : Type} {x : Except Stop α} {f : α → Except Stop β} (hx : Quiet x)
    (hf : ∀ a, Quiet (f a)) : Quiet (x >>= f) := by
  intro stop h
  rcases flow_error h with h | ⟨a, _, h⟩
  · exact hx stop h
  · exact hf a stop h

theorem ask_bind {α β : Type} (x : Except Exit α) (f : α → Except Exit β) :
    ask (x >>= f) = ask x >>= fun a => ask (f a) := by
  rcases x with (_ | _) | _ <;> rfl

theorem guardReviews_quiet (reviews : List Json) : Quiet (ask (guardReviews host reviews)) := by
  unfold guardReviews
  split
  · exact .pure ()
  · next guard _ =>
    cases hcheck : guard.check reviews with
    | error message => exact .stop rfl
    | ok found =>
      cases found with
      | none => exact .pure ()
      | some result =>
        have hguard := guard.withholds reviews result hcheck
        exact .stop (by simp [Stop.approves, PublicationResult.approves, hguard])

/-- Every end before the write withholds, whatever the host answers. -/
theorem prepareHost_quiet : Quiet (prepareHost host call) := by
  unfold prepareHost scanHost readBackHost confirmCarried staticGates partitionGate firstLook
    secondLook see leave attempt read keepDeclared
  simp only [ask_bind]
  repeat' first
    | refine Quiet.bind ?_ fun _ => ?_
    | exact guardReviews_quiet _
    | split
    | exact .pure _
    | exact .stop rfl
    | rw [ask_bind]

end Exits

section Sound
variable {rules : Human.Rules} (host : Host rules) (call : Call rules)

/-- The body of the approval that a call may post. -/
def Ready.body (ready : Ready rules) : String :=
  approvalBody (ready.approval.preflight.place call) ready.eligibility.resultDigest
    ready.approval.decision

/-- How a call that posted ended, where it reports a result: its response has the review, or the same
approval of the App is on the head in the reviews that were read again. -/
def Posted (body : String) (r : PublicationResult) : Prop :=
  (r.status = .approved ∧ ∃ reply, host.post = .reply reply ∧ reply.status = 200 ∧
      hasReviewId reply.payload = true) ∨
    (r.status = .alreadyApproved ∧ ∃ reviews, host.readback = .ok reviews ∧
      haveAppHeadState host.appSlug call.headSha "APPROVED" body reviews = true)

/-- Nothing is posted where the approval already stands in the reviews that were read before. -/
def Evidence (ready : Ready rules) (o : Outcome) : Prop :=
  (o.posts = [] ∧ haveAppHeadState host.appSlug call.headSha "APPROVED" (ready.body call)
      ready.reviews = true) ∨
    (o.posts = [⟨ready.body call, "APPROVE", call.headSha⟩] ∧
      ∀ r, o.result = .ok r → Posted host call (ready.body call) r)

variable {host call} {ready : Ready rules} {body : String} {r : PublicationResult}

theorem reconcile_ok {message : String} (h : reconcile host call ready body message = .ok r) :
    Posted host call body r := by
  obtain ⟨found, hfound, h⟩ := flow_ok h
  obtain ⟨reviews, hreviews, hfound⟩ := flow_ok hfound
  split at h
  · next htrue =>
    obtain rfl := Except.ok.inj h
    split at hfound
    · next hstate => exact .inr ⟨rfl, reviews, declare_ok hreviews, hstate⟩
    · rw [← Except.ok.inj hfound] at htrue
      cases htrue
  · cases h

theorem postHeadReview_ok (h : postHeadReview host call ready body = .ok r) :
    Posted host call body r := by
  unfold postHeadReview at h
  repeat' split at h
  all_goals try cases h
  · exact reconcile_ok h
  · next reply hpost hcreated => exact .inl ⟨rfl, reply, hpost, hcreated⟩
  · exact reconcile_ok h
  · exact reconcile_ok h

/-- One call posts at most one approval, and it posts one or reports the head approved only where
everything that an approval needs has been read. -/
theorem finalizeHost_sound (host : Host rules) (call : Call rules) :
    ((finalizeHost host call).posts = [] ∧
      ∀ r, (finalizeHost host call).result = .ok r → r.approves = false) ∨
    ∃ ready, Cleared host call ready ∧ Evidence host call ready (finalizeHost host call) := by
  unfold finalizeHost
  cases hprepare : prepareHost host call with
  | error stop =>
    have hquiet : stop.approves = false := prepareHost_quiet stop hprepare
    cases stop with
    | returned result =>
      refine .inl ⟨rfl, fun r hr => ?_⟩
      rw [← Except.ok.inj hr]
      exact hquiet
    | failed f =>
      refine .inl ⟨rfl, fun r hr => ?_⟩
      cases hr
  | ok ready =>
    refine .inr ⟨ready, prepareHost_cleared hprepare, ?_⟩
    dsimp only
    split
    · next hstate => exact .inl ⟨rfl, hstate⟩
    · exact .inr ⟨rfl, fun r hr => postHeadReview_ok hr⟩

end Sound
end Finalize
end ReviewSensei
