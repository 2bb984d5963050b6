import ReviewSensei.RemainingProgress

/-! What any run of rescan requests keeps, and how far remaining work can go. -/
namespace ReviewSensei.Session
open Schema (wholeLine wholeLine_of)
open Review (ResultFields)
open Progress (WorkRest Links Extends inventoryOf reviewedOf publishedComments commentDigest
  proposalDigest lifecycleDigest)

variable {rules : SessionRules}

theorem consumeCalls_append (r : SessionRecord (rescanRules rules)) (calls more : List RescanCall) :
    consumeCalls r (calls ++ more) = consumeCalls (consumeCalls r calls) more := by
  induction calls generalizing r with
  | nil => rfl
  | cons c calls ih =>
    rw [List.cons_append, consumeCalls, consumeCalls]
    split
    · exact ih _
    · exact ih _

/-- What a run of requests keeps. -/
structure RescanSafe (r : SessionRecord (rescanRules rules)) (calls : List RescanCall) : Prop where
  watermarks : ∀ earlier later, calls = earlier ++ later → ∀ kind,
    watermark (consumeCalls r earlier).toSessionFields kind ≤
      watermark (consumeCalls r calls).toSessionFields kind
  refused : ∀ entry ∈ acceptedCalls r calls, ∀ q : AuthorizedRescan,
    q.kind = entry.2.request.kind → q.requestId ≤ entry.2.request.requestId → ∀ i wall,
      consumeRescanRequest (consumeCalls r calls) q i wall =
        .error "explicit rescan request was already consumed"
  reservation : ∀ entry ∈ acceptedCalls r calls,
    rescanReservation entry.1.toSessionFields entry.2.request entry.2.head =
      .ok (sha256 (reservationText entry.1.toSessionFields entry.2.request entry.2.head))
  distinct : (acceptedCalls r calls).Pairwise (fun earlier later =>
    reservationText earlier.1.toSessionFields earlier.2.request earlier.2.head ≠
      reservationText later.1.toSessionFields later.2.request later.2.head)
  retained : retainedReceipts (consumeCalls r calls).toSessionFields =
    (retainedReceipts r.toSessionFields ++
      (acceptedCalls r calls).map (fun entry => entry.2.receipt)).rtake maxRescanReceipts
  valid : ∀ s, (consumeCalls r calls).rescanState = some s → validateRescanState s = .ok s
  source : r.transaction = none → ∀ head,
    rescanSource (consumeCalls r calls).toSessionFields (some head) =
      ((retainedReceipts (consumeCalls r calls).toSessionFields).reverse.find?
        (fun receipt => receipt.source.headSha = head)).map RescanReceipt.source
  recent : r.transaction = none → ∀ before entry after,
    acceptedCalls r calls = before ++ entry :: after → after.length < maxRescanReceipts →
    (∀ later ∈ after, later.2.request.source.headSha ≠ entry.2.request.source.headSha) →
    rescanSource (consumeCalls r calls).toSessionFields entry.2.head =
      some entry.2.request.source

theorem rescan_safe (r : SessionRecord (rescanRules rules)) (calls : List RescanCall) :
    RescanSafe r calls where
  watermarks := by
    intro earlier later hcalls kind
    rw [hcalls, consumeCalls_append]
    exact (consumeCalls_frame (consumeCalls r earlier) later).1.watermark_le kind
  refused := by
    intro entry hentry q hkind hid i wall
    obtain ⟨s, hs, hle⟩ := replayedRescan_iff.mp (accepted_replayed r calls entry hentry)
    have hreplayed : replayedRescan (consumeCalls r calls).toSessionFields q = true :=
      replayedRescan_iff.mpr ⟨s, hs, hkind ▸ hid.trans hle⟩
    exact consume_refused hreplayed i wall
  reservation := by
    intro entry hentry
    obtain ⟨_, _, ⟨r', hrun⟩, _⟩ := accepted_new r calls entry hentry
    obtain ⟨i, hi⟩ := consume_reserves hrun
    have htext := rescanReservation_ok hi
    rw [htext] at hi
    exact hi
  distinct := by
    refine (accepted_pairwise r calls).imp ?_
    intro earlier later hdiffer htext
    exact hdiffer (reservationText_inj htext)
  retained := retained_run r calls
  valid := fun s hs => (consumeCalls r calls).rescan_valid hs
  source := by
    intro hlive head
    exact rescanSource_retained ((consumeCalls_frame r calls).2.1.trans hlive) head
  recent := by
    intro hlive before entry after hsplit hrecent hlast
    exact source_of_accepted r calls hlive hsplit hrecent hlast

/-- How far a chain of proofs goes. -/
structure ChainBounded {unicode : Diff.UnicodeRules} (first : ResultFields (WorkRest unicode))
    (rest : List (ResultFields (WorkRest unicode))) : Prop where
  extends_first : ∀ result ∈ rest, Extends first result
  grows : (reviewedOf first).card + rest.length ≤
    (reviewedOf (rest.getLastD first)).card
  bounded : (reviewedOf first).card + rest.length ≤ (inventoryOf first).card
  comments : ∀ c, (∀ d ∈ publishedComments first ++ publishedComments (rest.getLastD first),
      commentDigest d = commentDigest c → d = c) →
    (publishedComments first).count c ≤ (publishedComments (rest.getLastD first)).count c
  proposals : ∀ p, (∀ d ∈ first.rest.learningProposals ++
        (rest.getLastD first).rest.learningProposals,
      proposalDigest d = proposalDigest p → d = p) →
    first.rest.learningProposals.count p ≤ (rest.getLastD first).rest.learningProposals.count p
  lifecycles : ∀ l, (∀ d ∈ first.findingLifecycles ++ (rest.getLastD first).findingLifecycles,
      lifecycleDigest d = lifecycleDigest l → d = l) →
    first.findingLifecycles.count l ≤ (rest.getLastD first).findingLifecycles.count l

/-- Counting by digests counts the items that no other item shares a digest with. -/
theorem count_le_of_digests {α : Type} [DecidableEq α] (digest : α → String) {old new : List α}
    (h : ∀ d, (old.map digest).count d ≤ (new.map digest).count d) {x : α}
    (hx : ∀ y ∈ old ++ new, digest y = digest x → y = x) : old.count x ≤ new.count x := by
  have hcount (l : List α) (hl : ∀ y ∈ l, y ∈ old ++ new) :
      (l.map digest).count (digest x) = l.count x := by
    rw [List.count, List.countP_map, List.count]
    apply List.countP_congr
    intro y hy
    simp only [Function.comp, beq_iff_eq]
    exact ⟨hx y (hl y hy), fun heq => heq ▸ rfl⟩
  have hle := h (digest x)
  rwa [hcount old (fun y hy => List.mem_append_left _ hy),
    hcount new (fun y hy => List.mem_append_right _ hy)] at hle

theorem chain_bounded {unicode : Diff.UnicodeRules} {first : ResultFields (WorkRest unicode)}
    {rest : List (ResultFields (WorkRest unicode))} (h : (first :: rest).IsChain Links) :
    ChainBounded first rest := by
  obtain ⟨hall, hgrows⟩ := Progress.chain_extends h
  have hlast := Progress.chain_last h
  have hinventory : (reviewedOf (rest.getLastD first)).card ≤
      (inventoryOf first).card := by
    rw [hlast.inventory]
    exact Finset.card_le_card (Progress.reviewedOf_subset _)
  exact ⟨hall, hgrows, hgrows.trans hinventory,
    fun _ hc => count_le_of_digests commentDigest hlast.comments hc,
    fun _ hp => count_le_of_digests proposalDigest hlast.proposals hp,
    fun _ hl => count_le_of_digests lifecycleDigest hlast.lifecycles hl⟩

section Sample

/-- A published source on the head made of one repeated digit. -/
def sampleSource (head : Char) : ReviewTransaction where
  transactionId := ReviewTransaction.deriveId "octo/demo" 7 (repeated 40 'b') (repeated 40 head)
    (repeated 64 'a') (repeated 64 'c') (repeated 64 'e') (repeated 64 '1')
  repository := "octo/demo"
  pullRequest := 7
  baseSha := repeated 40 'b'
  headSha := repeated 40 head
  policyDigest := repeated 64 'a'
  configurationDigest := repeated 64 'c'
  evidenceDigest := repeated 64 'e'
  reservationId := repeated 64 '1'
  generation := 2
  phase := .publicationSucceeded
  resultSha256 := some (repeated 64 'd')


theorem repeated_hex {n lo hi : Nat} {c : Char} (hc : c ∈ "0123456789abcdef".toList)
    (hlo : lo ≤ n) (hhi : n ≤ hi) : isHexText lo hi (repeated n c) = true := by
  refine isHexText_ofList ?_ (by simpa using hlo) (by simpa using hhi)
  intro d hd
  rw [List.eq_of_mem_replicate hd]
  exact hc

theorem sampleSource_ok {head : Char} (h : head ∈ "0123456789abcdef".toList) :
    ReviewTransaction.construct (sampleSource head) = .ok (sampleSource head) := by
  have hchecks : firstFailure (sampleSource head).checks = none := by
    have hrepository : isRepository "octo/demo" = true := by decide
    have hresult : isSha256 (repeated 64 'd') = true :=
      repeated_hex (by decide) le_rfl le_rfl
    rw [firstFailure_eq_none]
    simp only [ReviewTransaction.checks, List.forall_mem_cons, List.not_mem_nil, false_imp_iff,
      implies_true, and_true]
    refine ⟨isSha256_sha256 _, hrepository, decide_eq_true (by decide : 1 ≤ 7 ∧ 7 ≤ 2147483647),
      repeated_hex (by decide) le_rfl le_rfl, repeated_hex h le_rfl le_rfl, ?_⟩
    refine ⟨repeated_hex (by decide) le_rfl le_rfl, repeated_hex (by decide) le_rfl le_rfl,
      repeated_hex (by decide) le_rfl le_rfl, repeated_hex (by decide) le_rfl le_rfl,
      decide_eq_true (by decide : 1 ≤ 2 ∧ 2 ≤ 2147483647), ?_⟩
    exact ⟨hresult, rfl, rfl, rfl, decide_eq_true rfl⟩
  rw [ReviewTransaction.construct, hchecks]

def sampleCall (head : Char) (requestId : Nat) : RescanCall where
  request := ⟨.issueComment, requestId, sampleSource head, 5, none, .full⟩
  reservation := repeated 64 '9'
  wall := 1800000000000000

/-- The receipts of issue comments on some heads. -/
def sampleState (watermark : Nat) (consumed : List (Char × Nat)) : RescanState :=
  ⟨watermark, 0, consumed.map (fun p => (sampleCall p.1 p.2).receipt)⟩

/-- Heads that are hexadecimal, and ids up to the watermark. -/
def SampleConsumed (watermark : Nat) (consumed : List (Char × Nat)) : Prop :=
  watermark ≤ maxWatermark ∧ consumed ≠ [] ∧ consumed.length ≤ maxRescanReceipts ∧
    ∀ p ∈ consumed, p.1 ∈ "0123456789abcdef".toList ∧ 1 ≤ p.2 ∧ p.2 ≤ watermark

theorem sampleReceipt_ok {head : Char} {requestId : Nat} {s : RescanState}
    (h : head ∈ "0123456789abcdef".toList) (hid : requestId ≤ s.issueComment) :
    ((sampleCall head requestId).receipt).check s = .ok () := by
  have hprogress : ∀ p ∈ (sampleCall head requestId).receipt.progress,
      (sampleCall head requestId).receipt.mode = .remaining ∧
        some p.parentDigest = (sampleSource head).resultSha256 ∧
        p.reviewedBefore < p.reviewedAfter := fun p hp => absurd hp (Option.not_mem_none p)
  exact (ok_bind (sampleSource_ok h) _).trans ((ensure_bind rfl _).trans
    ((ensure_bind hid _).trans (ensure_ok hprogress)))

theorem forM_ok {α : Type} {f : α → Except String Unit} {l : List α}
    (h : ∀ a ∈ l, f a = .ok ()) : l.forM f = .ok () := by
  induction l with
  | nil => rfl
  | cons a l ih =>
    exact (ok_bind (h a List.mem_cons_self) _).trans
      (ih (fun b hb => h b (List.mem_cons_of_mem a hb)))

theorem sampleState_valid {watermark : Nat} {consumed : List (Char × Nat)}
    (h : SampleConsumed watermark consumed) :
    validateRescanState (sampleState watermark consumed) = .ok (sampleState watermark consumed) := by
  obtain ⟨hwatermark, hsome, hlength, hall⟩ := h
  have hschema : (sampleState watermark consumed).schemaOk = true := by
    simp only [RescanState.schemaOk, sampleState, List.all_map, List.isEmpty_map, Bool.and_eq_true,
      List.all_eq_true, Bool.not_eq_true', List.isEmpty_eq_false_iff]
    refine ⟨⟨⟨decide_eq_true hwatermark, rfl⟩, hsome⟩, ?_⟩
    intro p hp
    obtain ⟨_, hone, hle⟩ := hall p hp
    have hid : 1 ≤ p.2 ∧ p.2 ≤ maxWatermark := ⟨hone, hle.trans hwatermark⟩
    have hreview : 1 ≤ 5 ∧ 5 ≤ maxWatermark := by decide
    have hordinary : wholeLine isReservationId (repeated 64 '1') = true :=
      wholeLine_of (repeated_hex (by decide) (by decide) le_rfl)
    have hreservation : wholeLine isReservationId (repeated 64 '9') = true :=
      wholeLine_of (repeated_hex (by decide) (by decide) le_rfl)
    simp only [Function.comp, RescanReceipt.schemaOk, Bool.and_eq_true, decide_eq_true_eq]
    exact ⟨⟨⟨⟨hid, hreview⟩, hordinary⟩, hreservation⟩, rfl⟩
  have hreceipts : (sampleState watermark consumed).receipts.forM
      (RescanReceipt.check (sampleState watermark consumed)) = .ok () := by
    apply forM_ok
    intro receipt hreceipt
    obtain ⟨p, hp, rfl⟩ := List.mem_map.mp hreceipt
    obtain ⟨hhead, _, hle⟩ := hall p hp
    exact sampleReceipt_ok hhead hle
  have hlength' : (sampleState watermark consumed).receipts.length ≤ maxRescanReceipts := by
    rw [sampleState, List.length_map]
    exact hlength
  exact (ensure_bind hlength' _).trans ((ensure_bind hschema _).trans
    (ok_bind hreceipts _))

/-- A session that no round has touched. -/
def sampleSession : SessionFields :=
  { emptyFields with
    repository := "octo/demo"
    pullRequest := 7
    createdAt := 1800000000000000
    updatedAt := 1800000000000000
    expiresAt := 1800000000000000 + defaultSessionTtl }

theorem sampleSession_checks :
    firstFailure (sampleSession.documentChecks ++ sampleSession.fieldChecks) = none := by
  decide

def sampleFields (watermark : Nat) (consumed : List (Char × Nat)) : SessionFields :=
  { sampleSession with rescanState := some (sampleState watermark consumed) }

theorem sampleFields_accepted {watermark : Nat} {consumed : List (Char × Nat)}
    (h : SampleConsumed watermark consumed) :
    (sampleFields watermark consumed).rejection (rescanRules sampleRules) = none := by
  have hfields : firstFailure ((sampleFields watermark consumed).documentChecks ++
      (sampleFields watermark consumed).fieldChecks) = none :=
    sampleSession_checks
  have hstate : rescanRejection (sampleFields watermark consumed) = none := by
    rw [rescanRejection, show (sampleFields watermark consumed).rescanState =
      some (sampleState watermark consumed) from rfl, Option.bind_some, sampleState_valid h]
    refine if_pos ?_
    rw [sampleState, List.all_map, List.all_eq_true]
    intro p hp
    rfl
  rw [SessionFields.rejection, hfields, Option.none_or]
  exact Option.or_eq_none_iff.mpr ⟨hstate, rfl⟩

/-- A record with the receipts of some issue comments. -/
def sampleRecord {watermark : Nat} {consumed : List (Char × Nat)}
    (h : SampleConsumed watermark consumed) : SessionRecord (rescanRules sampleRules) :=
  ⟨sampleFields watermark consumed, sampleFields_accepted h⟩
theorem sampleFields_source (watermark : Nat) {consumed : List (Char × Nat)} (head : Char)
    (requestId : Nat) (hlast : consumed.getLast? = some (head, requestId)) :
    rescanSource (sampleFields watermark consumed) (some (repeated 40 head)) =
      some (sampleSource head) := by
  obtain ⟨front, rfl⟩ := List.getLast?_eq_some_iff.mp hlast
  have hfind := find_recent
    (fun receipt : RescanReceipt => decide (receipt.source.headSha = repeated 40 head))
    (front.map (fun p => (sampleCall p.1 p.2).receipt)) [] (sampleCall head requestId).receipt
    (decide_eq_true rfl) (fun _ h => absurd h List.not_mem_nil)
  rw [rescanSource_retained (by rfl)]
  show ((((front ++ [(head, requestId)]).map _).reverse.find? _).map _) = _
  rw [List.map_append]
  exact congrArg (Option.map RescanReceipt.source) hfind

/-- A new id on the head of the newest receipt is accepted. -/
theorem sampleCall_accepted {watermark : Nat} {consumed : List (Char × Nat)} {head : Char}
    {requestId last : Nat} (h : SampleConsumed watermark consumed)
    (hlast : consumed.getLast? = some (head, last)) (hnew : watermark < requestId)
    (h' : SampleConsumed requestId ((consumed ++ [(head, requestId)]).rtake maxRescanReceipts)) :
    (sampleCall head requestId).run (sampleRecord h) = .ok (sampleRecord h') := by
  have hfresh : replayedRescan (sampleFields watermark consumed) (sampleCall head requestId).request =
      false := decide_eq_false (Nat.not_le.mpr hnew)
  have hsource := sampleFields_source watermark head last hlast
  have hchanged : (rescanSource (sampleFields watermark consumed) (some (repeated 40 head))).all
      (fun source => source.transactionId != (sampleSource head).transactionId ||
        some source.headSha != some (repeated 40 head) || source.repository != "octo/demo" ||
        source.pullRequest != 7) = false := by
    simp [hsource, sampleSource]
  have hreservation : ∃ i, rescanReservation (sampleFields watermark consumed)
      (sampleCall head requestId).request (some (repeated 40 head)) = .ok i := by
    refine ⟨_, if_neg ?_⟩
    rw [Bool.and_eq_true, not_and]
    exact fun _ => Bool.eq_false_iff.mp hchanged
  obtain ⟨i, hreservation⟩ := hreservation
  have hstate : ((sampleState watermark consumed).withRequest (sampleCall head requestId).request
      (repeated 64 '9')) =
      sampleState requestId ((consumed ++ [(head, requestId)]).rtake maxRescanReceipts) := by
    have hreceipts := withRequest_receipts (sampleState watermark consumed)
      (sampleCall head requestId).request (repeated 64 '9')
    have hwindow : (sampleState requestId
        ((consumed ++ [(head, requestId)]).rtake maxRescanReceipts)).receipts =
        ((sampleState watermark consumed).receipts ++
          [(sampleCall head requestId).receipt]).rtake maxRescanReceipts := by
      simp only [sampleState, List.rtake, List.map_drop, List.map_append, List.length_append,
        List.length_map, List.map_cons, List.map_nil, List.length_singleton]
    have hparts (s t : RescanState) (hissue : s.issueComment = t.issueComment)
        (hdispatch : s.workflowDispatch = t.workflowDispatch)
        (hsame : s.receipts = t.receipts) : s = t := by
      cases s; cases t; simp_all
    exact hparts _ _ rfl rfl (hreceipts.trans hwindow.symm)
  have hevolved : (sampleRecord h).evolved
      { rescanState := some (some ((sampleState watermark consumed).withRequest
          (sampleCall head requestId).request (repeated 64 '9'))) }
      ⟨none, 1800000000000000⟩ =
      sampleFields requestId ((consumed ++ [(head, requestId)]).rtake maxRescanReceipts) := by
    rw [hstate]
    rfl
  have hconstruct : SessionRecord.construct (rescanRules sampleRules)
      (sampleFields requestId ((consumed ++ [(head, requestId)]).rtake maxRescanReceipts)) =
      .ok (sampleRecord h') := by
    unfold SessionRecord.construct
    split
    · rfl
    · next e he =>
      rw [sampleFields_accepted h'] at he
      cases he
  rw [← hevolved] at hconstruct
  rw [RescanCall.run, consumeRescanRequest, if_neg (by rw [show replayedRescan (sampleRecord h).toSessionFields (sampleCall head requestId).request = false from hfresh]; decide)]
  exact (ok_bind hreservation _).trans hconstruct

section Window

theorem consumeCalls_ok {r r' : SessionRecord (rescanRules rules)} {c : RescanCall}
    (h : c.run r = .ok r') (calls : List RescanCall) :
    consumeCalls r (c :: calls) = consumeCalls r' calls ∧
      acceptedCalls r (c :: calls) = (r, c) :: acceptedCalls r' calls := by
  constructor
  · rw [consumeCalls, h]
  · rw [acceptedCalls, h]

instance (watermark : Nat) (consumed : List (Char × Nat)) :
    Decidable (SampleConsumed watermark consumed) :=
  inferInstanceAs (Decidable (_ ∧ _ ∧ _ ∧ _))

/-- Six receipts, the oldest of them on a head of its own. -/
def sampleWindow : List (Char × Nat) :=
  [('f', 1), ('a', 2), ('a', 3), ('a', 4), ('a', 5), ('a', 6)]

theorem sampleWindow_ok : SampleConsumed 6 sampleWindow := by decide

theorem sampleWindow_next : SampleConsumed 7
    [('a', 2), ('a', 3), ('a', 4), ('a', 5), ('a', 6), ('a', 7)] := by decide

theorem sampleWindow_last : SampleConsumed 8
    [('a', 3), ('a', 4), ('a', 5), ('a', 6), ('a', 7), ('a', 8)] := by decide

def sampleCalls : List RescanCall := [sampleCall 'a' 7, sampleCall 'a' 8]

theorem sampleCalls_run :
    consumeCalls (sampleRecord sampleWindow_ok) sampleCalls = sampleRecord sampleWindow_last ∧
      (acceptedCalls (sampleRecord sampleWindow_ok) sampleCalls).map Prod.snd = sampleCalls := by
  have hfirst : (sampleCall 'a' 7).run (sampleRecord sampleWindow_ok) =
      .ok (sampleRecord sampleWindow_next) :=
    sampleCall_accepted sampleWindow_ok rfl (by decide) sampleWindow_next
  have hsecond : (sampleCall 'a' 8).run (sampleRecord sampleWindow_next) =
      .ok (sampleRecord sampleWindow_last) :=
    sampleCall_accepted sampleWindow_next rfl (by decide) sampleWindow_last
  rw [sampleCalls, (consumeCalls_ok hfirst _).1, (consumeCalls_ok hfirst _).2, List.map_cons,
    (consumeCalls_ok hsecond _).1, (consumeCalls_ok hsecond _).2]
  exact ⟨rfl, rfl⟩

end Window

section Work
open Progress (WorkRest CoverageUnit executionReceipt workRules remainingProgressProof)
open Coverage (CoverageManifest CoverageOutcome)
open Review (ReviewResult ResultRules)

def sampleUnicode : Diff.UnicodeRules := { nfc := fun _ => true, forbidden := fun _ => false }

def sampleWorkRules : ResultRules (WorkRest sampleUnicode) where
  handoff := fun _ => .ok ()
  fields := fun _ => .ok ()
  bounds := fun _ => .ok ()
  reread := .ok

/-- A coverage of one file without hunks. -/
def sampleCoverage (outcome : CoverageOutcome) : CoverageManifest sampleUnicode where
  files := [⟨['a'], outcome, none⟩]
  enumeratedPaths := [['a']]
  accepted := by rfl

def sampleRest (outcome : CoverageOutcome) : WorkRest sampleUnicode where
  provider := "local"
  reviewStatus := .partialReview
  coverage := some (sampleCoverage outcome)
  continuationScopeDigest := some (repeated 64 'a')
  contentDigest := repeated 64 'd'

/-- The rest of a result with the receipt of its execution. -/
def sampleStopped (outcome : CoverageOutcome) : WorkRest sampleUnicode :=
  { sampleRest outcome with
    boundedWorkReceipt := some (executionReceipt (sampleRest outcome)
      (sampleCoverage outcome).toManifestFields (repeated 32 '0') 1) }

def sampleWork (rest : WorkRest sampleUnicode) : ResultFields (WorkRest sampleUnicode) where
  comments := []
  findingLifecycles := []
  reviewVerdict := none
  rest := rest

theorem sampleStopped_valid (outcome : CoverageOutcome) :
    Progress.checkReceipt (sampleStopped outcome) = .ok () := by
  have hidentity : isHexText 32 32 (repeated 32 '0') = true :=
    repeated_hex (by decide) le_rfl le_rfl
  have hcalls : 0 < 1 ∧ 1 ≤ Progress.maxProviderCalls := by decide
  exact (ensure_bind ⟨rfl, rfl, hidentity, hcalls, rfl, rfl, rfl, rfl⟩ _).trans (ensure_ok rfl)

/-- Nothing of the one file is reviewed. -/
def sampleParent : ReviewResult (workRules sampleWorkRules) where
  toResultFields := sampleWork (sampleRest .budgetExhausted)
  accepted := ⟨sampleWork (sampleRest .budgetExhausted), by rfl⟩

/-- The file is reviewed, in an execution that stopped. -/
def sampleChild : ReviewResult (workRules sampleWorkRules) where
  toResultFields := sampleWork (sampleStopped .reviewed)
  accepted := by
    refine ⟨sampleWork (sampleStopped .reviewed), ?_⟩
    have hfields : (workRules sampleWorkRules).fields (sampleWork (sampleStopped .reviewed)) =
        .ok () := (ok_bind (sampleStopped_valid .reviewed) _)
    exact (ok_bind hfields _)

theorem sampleWork_links : Links sampleParent.toResultFields sampleChild.toResultFields := by
  have hcomparable : Progress.comparable (sampleRest .budgetExhausted) (sampleStopped .reviewed)
      (sampleCoverage .budgetExhausted).toManifestFields
      (sampleCoverage .reviewed).toManifestFields = true := by rfl
  have hextends : (Progress.extendsCoverage (sampleCoverage .budgetExhausted).toManifestFields
      (sampleCoverage .reviewed).toManifestFields && Progress.keepsObligations
        sampleParent.toResultFields sampleChild.toResultFields) = true := by rfl
  exact ⟨_, Progress.remainingProgressProof_some rfl rfl rfl hcomparable
    (sampleStopped_valid .reviewed) hextends⟩

end Work

end Sample

/-- Rescans are replay-safe, and remaining work ends. -/
theorem rescans_and_remaining_work (r : SessionRecord (rescanRules rules))
    (calls : List RescanCall) {unicode : Diff.UnicodeRules}
    {first : ResultFields (WorkRest unicode)} {rest : List (ResultFields (WorkRest unicode))}
    (h : (first :: rest).IsChain Links) :
    RescanSafe r calls ∧ ChainBounded first rest :=
  ⟨rescan_safe r calls, chain_bounded h⟩

/-- The newest receipts push out the source of another head, one reservation is given twice, and a
chain has as many links as its inventory has units. -/
theorem rescans_and_remaining_work_fails :
    ((sampleCall 'f' 1).receipt ∈ retainedReceipts (sampleRecord sampleWindow_ok).toSessionFields ∧
      rescanSource (sampleRecord sampleWindow_ok).toSessionFields (some (repeated 40 'f')) =
        some (sampleSource 'f') ∧
      rescanSource (consumeCalls (sampleRecord sampleWindow_ok) sampleCalls).toSessionFields
        (some (repeated 40 'f')) = none) ∧
    (acceptedCalls (sampleRecord sampleWindow_ok) sampleCalls).map
        (fun entry => entry.2.reservation) = [repeated 64 '9', repeated 64 '9'] ∧
    [sampleParent.toResultFields, sampleChild.toResultFields].IsChain Links ∧
      (inventoryOf sampleParent.toResultFields).card = 1 := by
  have hlost : rescanSource (sampleRecord sampleWindow_last).toSessionFields
      (some (repeated 40 'f')) = none := by
    rw [rescanSource_retained rfl]
    exact Option.map_eq_none_iff.mpr (List.find?_eq_none.mpr (by
      intro receipt hreceipt
      obtain ⟨p, hp, rfl⟩ := List.mem_map.mp (List.mem_reverse.mp hreceipt)
      have hhead : ∀ p ∈ [('a', 3), ('a', 4), ('a', 5), ('a', 6), ('a', 7), ('a', 8)],
          repeated 40 (Prod.fst p) ≠ repeated 40 'f' := by decide
      exact Bool.eq_false_iff.mp (decide_eq_false (hhead p hp))))
  have hfirst : rescanSource (sampleRecord sampleWindow_ok).toSessionFields
      (some (repeated 40 'f')) = some (sampleSource 'f') := by
    have hafter : ∀ p ∈ [('a', 2), ('a', 3), ('a', 4), ('a', 5), ('a', 6)],
        repeated 40 (Prod.fst p) ≠ repeated 40 'f' := by decide
    have hfind := find_recent
      (fun receipt : RescanReceipt => decide (receipt.source.headSha = repeated 40 'f')) []
      ([('a', 2), ('a', 3), ('a', 4), ('a', 5), ('a', 6)].map
        (fun p => (sampleCall p.1 p.2).receipt)) (sampleCall 'f' 1).receipt (decide_eq_true rfl)
      (by
        intro receipt hreceipt
        obtain ⟨p, hp, rfl⟩ := List.mem_map.mp hreceipt
        exact decide_eq_false (hafter p hp))
    rw [rescanSource_retained rfl]
    exact congrArg (Option.map RescanReceipt.source) hfind
  obtain ⟨hrun, haccepted⟩ := sampleCalls_run
  refine ⟨⟨List.mem_cons_self, hfirst, hrun ▸ hlost⟩, ?_, ?_, by rfl⟩
  · have hreservations := congrArg (List.map RescanCall.reservation) haccepted
    rwa [List.map_map] at hreservations
  · exact List.isChain_cons_cons.mpr ⟨sampleWork_links, List.isChain_singleton _⟩

theorem sample_rescans_and_remaining_work :
    RescanSafe (sampleRecord sampleWindow_ok) sampleCalls ∧
      ChainBounded sampleParent.toResultFields [sampleChild.toResultFields] :=
  rescans_and_remaining_work _ _
    (List.isChain_cons_cons.mpr ⟨sampleWork_links, List.isChain_singleton _⟩)

end ReviewSensei.Session
