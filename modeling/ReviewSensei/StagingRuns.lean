import ReviewSensei.StagingSteps
import ReviewSensei.SessionData

/-! Chains of publication frontiers: every operation's result is accepted, nothing that was
attempted or settled ever changes, and every stored frontier of a session lies on a chain. -/
namespace ReviewSensei.Staging
open Session (bind_ok ReviewTransaction)
open PublicationStaging

variable {s s' : PublicationStaging}

/-- The operations that claim or settle an effect. -/
inductive Operation
  | attemptPart (ordinal : Nat) (token : String)
  | confirmPart (ordinal : Nat) (nativeId contentSha256 : String)
  | attemptManifest (token : String)
  | confirmManifest (nativeId contentSha256 : String)
  | attemptFinal (token : String)
  | confirmFinal (nativeId contentSha256 : String)

def Operation.apply (s : PublicationStaging) : Operation → Except String PublicationStaging
  | .attemptPart ordinal token => s.attemptPart ordinal token
  | .confirmPart ordinal nativeId contentSha256 => s.confirmPart ordinal nativeId contentSha256
  | .attemptManifest token => s.attemptManifest token
  | .confirmManifest nativeId contentSha256 => s.confirmManifest nativeId contentSha256
  | .attemptFinal token => s.attemptFinal token
  | .confirmFinal nativeId contentSha256 => s.confirmFinal nativeId contentSha256

section Accepted

theorem requireSuccessor_self (s : PublicationStaging) : requireSuccessor s s = .ok () := by
  rw [requireSuccessor, if_pos rfl]

/-- The only candidate is the successor, and it is joined to no further claim. -/
theorem requireSuccessor_single (h : singleCandidates s s' = .ok [s'])
    (hclaim : settleAndClaim s s' s' = .ok []) : requireSuccessor s s' = .ok () := by
  unfold requireSuccessor
  split
  · rfl
  · simp only [h, combinedCandidates, List.mapM_cons, List.mapM_nil, hclaim, bind, Except.bind,
      pure, Except.pure]
    rw [if_pos (by simp)]

theorem singleCandidates_eq {a b c d e f : List PublicationStaging}
    (h₁ : partCandidate s s' = .ok a) (h₂ : receiptCandidate s s' = .ok b)
    (h₃ : manifestCandidate s s' = .ok c) (h₄ : manifestReceiptCandidate s s' = .ok d)
    (h₅ : finalCandidate s s' = .ok e) (h₆ : finalReceiptCandidate s s' = .ok f) :
    singleCandidates s s' = .ok (a ++ b ++ c ++ d ++ e ++ f) := by
  simp only [singleCandidates, h₁, h₂, h₃, h₄, h₅, h₆, bind, Except.bind]
  rfl

theorem receiptCandidate_none (h : s.receipts.length = s.attemptedParts) :
    receiptCandidate s s' = .ok [] := by
  rw [receiptCandidate, s.outstandingPart_none_iff.mpr h]

theorem attemptPart_accepted {ordinal : Nat} {token : String}
    (h : s.attemptPart ordinal token = .ok s') : requireSuccessor s s' = .ok () := by
  obtain ⟨rfl, hlt, hout, hfinal, hmanifest, hfields⟩ := attemptPart_ok h
  have htokens : s'.attemptTokens = s.attemptTokens ++ [token] := by
    rw [hfields]
  have hreceipts : s'.receipts = s.receipts := by
    rw [hfields]
  have hstored : s'.manifestReceipt = s.manifestReceipt := by
    rw [hfields]
  have hlength := s.frontier.tokens
  have hpart : partCandidate s s' = .ok [s'] :=
    offer_guarded_pos ⟨s.outstandingPart_none_iff.mpr hout, hfinal, hmanifest, hlt,
      by simp [htokens, hlength]⟩ (by simp [htokens]) h
  apply requireSuccessor_single
  · refine singleCandidates_eq (a := [s']) (b := []) (c := []) (d := []) (e := []) (f := [])
      hpart (receiptCandidate_none hout) ?_ ?_ ?_ ?_
    · exact offer_guarded_neg (by omega)
    · exact offer_guarded_neg (by simp [hmanifest])
    · exact offer_guarded_neg (by omega)
    · exact offer_guarded_neg (by simp [hfinal])
  · simp [settleAndClaim, hreceipts, hstored]

theorem storePart_accepted {ordinal : Nat} {r : PublicationReceipt}
    (h : s.storePart ordinal r = .ok s') : requireSuccessor s s' = .ok () := by
  rcases storePart_ok h with rfl | ⟨rfl, hout, hfields⟩
  · exact requireSuccessor_self _
  have hreceipts : s'.receipts = s.receipts ++ [r] := by
    rw [hfields]
  have hattempted : s'.attemptedParts = s.attemptedParts := by
    rw [hfields]
  have htokens : s'.attemptTokens = s.attemptTokens := by
    rw [hfields]
  have hlength := s.frontier.tokens
  have hparts := s.frontier.attempted
  -- with a part outstanding neither the manifest nor the final frame has been claimed
  have hmanifest : s.manifestAttempted = false := by
    by_contra hne
    have hlast := (s.frontier.manifestLast (by simpa using hne)).2
    omega
  have hfinal : s.finalAttempted = false := by
    by_contra hne
    have hlast := s.frontier.finalLast (by simpa using hne)
    omega
  have hmanifestToken : s'.manifestToken = none := by
    rw [hfields]
    exact manifestToken_none hmanifest
  have hfinalToken : s'.finalToken = none := by
    rw [hfields]
    exact finalToken_none hfinal
  have hordinal : s.outstandingPart = some s.receipts.length := by
    rw [outstandingPart, if_pos hout]
  have hreceipt : receiptCandidate s s' = .ok [s'] := by
    rw [receiptCandidate, hordinal]
    exact offer_guarded_pos (by simp [hreceipts]) (by simp [hreceipts])
      ((confirmPart_receipt _ _ _).trans h)
  apply requireSuccessor_single
  · refine singleCandidates_eq (a := []) (b := [s']) (c := []) (d := []) (e := []) (f := [])
      ?_ hreceipt ?_ ?_ ?_ ?_
    · exact offer_guarded_neg (by simp [hordinal])
    · exact offer_guarded_neg (by omega)
    · exact offer_guarded_neg (by simp [hmanifest])
    · exact offer_guarded_neg (by omega)
    · exact offer_guarded_neg (by simp [hfinal])
  · unfold settleAndClaim
    rw [if_pos (by simp [hreceipts])]
    split
    · exact offer_guarded_neg (by rw [htokens]; omega)
    · split
      · rw [hmanifestToken]
        rfl
      · rw [hfinalToken]
        rfl

theorem attemptManifest_accepted {token : String} (h : s.attemptManifest token = .ok s') :
    requireSuccessor s s' = .ok () := by
  obtain ⟨hrequired, hmanifest, hfinal, hparts, hfields⟩ := attemptManifest_ok h
  have hreceipts : s'.receipts = s.receipts := by
    rw [hfields]
  have hstored : s'.manifestReceipt = s.manifestReceipt := by
    rw [hfields]
  have htoken : s'.manifestToken = some token := by
    rw [hfields]
  have hnone : s.manifestReceipt = none := by
    by_contra hne
    have hattempted := s.frontier.manifestReceipt (Option.isSome_iff_ne_none.mpr hne)
    rw [hmanifest] at hattempted
    cases hattempted
  have hsettled := s.frontier.settled.2
  have hattempted := s.frontier.attempted
  apply requireSuccessor_single
  · refine singleCandidates_eq (a := []) (b := []) (c := [s']) (d := []) (e := []) (f := [])
      ?_ (receiptCandidate_none (by omega)) ?_ ?_ ?_ ?_
    · exact offer_guarded_neg (by omega)
    · exact offer_guarded_pos ⟨hrequired, hmanifest, hparts⟩ htoken h
    · exact offer_guarded_neg (by simp [hmanifest])
    · exact offer_guarded_neg (by simp [hrequired, hnone])
    · exact offer_guarded_neg (by simp [hfinal])
  · simp [settleAndClaim, hreceipts, hstored, hnone]

theorem storeManifest_accepted {r : PublicationReceipt} (h : s.storeManifest r = .ok s') :
    requireSuccessor s s' = .ok () := by
  rcases storeManifest_ok h with rfl | ⟨hmanifest, hnone, hfields⟩
  · exact requireSuccessor_self _
  obtain ⟨hrequired, hparts⟩ := s.frontier.manifestLast hmanifest
  have hreceipts : s'.receipts = s.receipts := by
    rw [hfields]
  have hstored : s'.manifestReceipt = some r := by
    rw [hfields]
  have hfinal : s.finalAttempted = false := by
    by_contra hne
    have hfirst := s.frontier.manifestFirst (by simpa using hne) hrequired
    rw [hnone] at hfirst
    cases hfirst
  have hfinalToken : s'.finalToken = none := by
    rw [hfields]
    exact finalToken_none hfinal
  have hsettled := s.frontier.settled.2
  have hattempted := s.frontier.attempted
  apply requireSuccessor_single
  · refine singleCandidates_eq (a := []) (b := []) (c := []) (d := [s']) (e := []) (f := [])
      ?_ (receiptCandidate_none (by omega)) ?_ ?_ ?_ ?_
    · exact offer_guarded_neg (by simp [hmanifest])
    · exact offer_guarded_neg (by simp [hmanifest])
    · exact offer_guarded_pos ⟨hmanifest, hnone⟩ hstored ((confirmManifest_receipt _ _).trans h)
    · exact offer_guarded_neg (by simp [hrequired, hnone])
    · exact offer_guarded_neg (by simp [hfinal])
  · unfold settleAndClaim
    rw [if_neg (by simp [hreceipts]), if_pos ⟨by simp [hstored], hnone⟩, hfinalToken]
    rfl

theorem attemptFinal_accepted {token : String} (h : s.attemptFinal token = .ok s') :
    requireSuccessor s s' = .ok () := by
  obtain ⟨hfinal, hparts, hfirst, hfields⟩ := attemptFinal_ok h
  have hreceipts : s'.receipts = s.receipts := by
    rw [hfields]
  have hstored : s'.manifestReceipt = s.manifestReceipt := by
    rw [hfields]
  have htoken : s'.finalToken = some token := by
    rw [hfields]
  have hsettled := s.frontier.settled.2
  have hattempted := s.frontier.attempted
  -- a required manifest is settled, so it has been claimed
  have hclaimed : s.manifestRequired = true → s.manifestAttempted = true := fun hrequired =>
    s.frontier.manifestReceipt (Option.isSome_iff_ne_none.mpr (hfirst hrequired))
  have hmanifest : ¬ (s.manifestAttempted = true ∧ s.manifestReceipt = none) := fun hpending =>
    hfirst (s.frontier.manifestLast hpending.1).1 hpending.2
  apply requireSuccessor_single
  · refine singleCandidates_eq (a := []) (b := []) (c := []) (d := []) (e := [s']) (f := [])
      ?_ (receiptCandidate_none (by omega)) ?_ ?_ ?_ ?_
    · exact offer_guarded_neg (by omega)
    · refine offer_guarded_neg ?_
      rintro ⟨hrequired, hunclaimed, _⟩
      rw [hclaimed hrequired] at hunclaimed
      cases hunclaimed
    · exact offer_guarded_neg hmanifest
    · refine offer_guarded_pos ⟨hparts, hfinal, ?_⟩ htoken h
      cases hrequired : s.manifestRequired with
      | false => exact .inl rfl
      | true => exact .inr (hfirst hrequired)
    · exact offer_guarded_neg (by simp [hfinal])
  · simp [settleAndClaim, hreceipts, hstored]

theorem storeFinal_accepted {r : PublicationReceipt} (h : s.storeFinal r = .ok s') :
    requireSuccessor s s' = .ok () := by
  rcases storeFinal_ok h with rfl | ⟨hfinal, hnone, hfields⟩
  · exact requireSuccessor_self _
  have hparts := s.frontier.finalLast hfinal
  have hreceipts : s'.receipts = s.receipts := by
    rw [hfields]
  have hstored : s'.manifestReceipt = s.manifestReceipt := by
    rw [hfields]
  have hreceipt : s'.finalReceipt = some r := by
    rw [hfields]
  have hsettled := s.frontier.settled.2
  have hattempted := s.frontier.attempted
  have hfirst := s.frontier.manifestFirst hfinal
  apply requireSuccessor_single
  · refine singleCandidates_eq (a := []) (b := []) (c := []) (d := []) (e := []) (f := [s'])
      ?_ (receiptCandidate_none (by omega)) ?_ ?_ ?_ ?_
    · exact offer_guarded_neg (by simp [hfinal])
    · refine offer_guarded_neg ?_
      rintro ⟨hrequired, hunclaimed, _⟩
      rw [s.frontier.manifestReceipt (hfirst hrequired)] at hunclaimed
      cases hunclaimed
    · refine offer_guarded_neg ?_
      rintro ⟨hmanifest, hmissing⟩
      have hsome := hfirst (s.frontier.manifestLast hmanifest).1
      rw [hmissing] at hsome
      cases hsome
    · exact offer_guarded_neg (by simp [hfinal])
    · exact offer_guarded_pos ⟨hfinal, hnone⟩ hreceipt ((confirmFinal_receipt _ _).trans h)
  · simp [settleAndClaim, hreceipts, hstored]

/-- Whatever an operation makes of a frontier is an accepted successor of it. -/
theorem apply_accepted {op : Operation} (h : op.apply s = .ok s') :
    requireSuccessor s s' = .ok () := by
  cases op with
  | attemptPart ordinal token => exact attemptPart_accepted h
  | confirmPart ordinal nativeId contentSha256 =>
    obtain ⟨r, _, h⟩ := bind_ok h
    exact storePart_accepted h
  | attemptManifest token => exact attemptManifest_accepted h
  | confirmManifest nativeId contentSha256 =>
    obtain ⟨r, _, h⟩ := bind_ok h
    exact storeManifest_accepted h
  | attemptFinal token => exact attemptFinal_accepted h
  | confirmFinal nativeId contentSha256 =>
    obtain ⟨r, _, h⟩ := bind_ok h
    exact storeFinal_accepted h

end Accepted

section Chains

/-- A frontier with at most its first claim. -/
structure Fresh (s : PublicationStaging) : Prop where
  attempts : s.attempts ≤ 1
  receipts : s.receipts = []
  finalToken : s.finalToken = none
  finalReceipt : s.finalReceipt = none
  manifestReceipt : s.manifestReceipt = none

theorem requireOpening_ok (h : requireOpening s = .ok ()) : Fresh s := by
  obtain ⟨candidates, hcandidates, h⟩ := bind_ok h
  split at h
  swap
  · cases h
  next hmem =>
  obtain ⟨prepared, hprepare, hcandidates⟩ := bind_ok hcandidates
  obtain ⟨claimed, hclaimed, hcandidates⟩ := bind_ok hcandidates
  obtain rfl := Except.ok.inj hcandidates
  have hfields := make_ok hprepare
  have hfresh : prepared.attempts = 0 ∧ prepared.receipts = [] ∧ prepared.finalToken = none ∧
      prepared.finalReceipt = none ∧ prepared.manifestReceipt = none := by
    unfold PublicationStaging.attempts
    rw [hfields]
    exact ⟨rfl, rfl, rfl, rfl, rfl⟩
  obtain ⟨hattempts, hreceipts, hfinalToken, hfinalReceipt, hmanifestReceipt⟩ := hfresh
  rcases List.mem_cons.mp hmem with rfl | hmem
  · exact ⟨hattempts.le.trans zero_le_one, hreceipts, hfinalToken, hfinalReceipt,
      hmanifestReceipt⟩
  -- the first claim is one of a part or, without parts, of the manifest
  unfold openingClaim at hclaimed
  split at hclaimed
  · obtain ⟨token, hop⟩ := offer_ok hclaimed hmem
    obtain ⟨_, _, _, _, _, hpart⟩ := attemptPart_ok hop
    have hclaims := attemptPart_claims hop
    exact ⟨by rw [hclaims.attempts, hattempts], hclaims.receipts.trans hreceipts,
      by rw [hpart]; exact hfinalToken, by rw [hpart]; exact hfinalReceipt,
      hclaims.manifestReceipt.trans hmanifestReceipt⟩
  · obtain ⟨token, hop⟩ := offer_ok hclaimed hmem
    obtain ⟨_, _, _, _, hmanifest⟩ := attemptManifest_ok hop
    have hclaims := attemptManifest_claims hop
    exact ⟨by rw [hclaims.attempts, hattempts], hclaims.receipts.trans hreceipts,
      by rw [hmanifest]; exact hfinalToken, by rw [hmanifest]; exact hfinalReceipt,
      hclaims.manifestReceipt.trans hmanifestReceipt⟩

/-- One accepted step: the frontier moves on by at most one attempt, or a complete one gives way
to the first frontier of another transaction. -/
def Follows (s s' : PublicationStaging) : Prop :=
  (Extends s s' ∧ s'.attempts ≤ s.attempts + 1) ∨
    (s.complete = true ∧ s'.transactionId ≠ s.transactionId ∧ Fresh s')

theorem requireStaging_ok {new : Option PublicationStaging}
    (h : requireStaging (some s) new = .ok ()) : ∃ s', new = some s' ∧ Follows s s' := by
  unfold requireStaging at h
  split at h
  · next heq => exact ⟨s, heq.symm, .inl ⟨.refl s, Nat.le_succ _⟩⟩
  split at h
  · cases h
  · contradiction
  · next o n hold _ =>
    obtain rfl := Option.some.inj hold
    split at h
    · next hreplaceable =>
      simp only [replaceable, Option.all_some, Bool.and_eq_true, decide_eq_true_eq]
        at hreplaceable
      exact ⟨n, rfl, .inr ⟨hreplaceable.1, hreplaceable.2.symm, requireOpening_ok h⟩⟩
    · exact ⟨n, rfl, .inl (requireSuccessor_ok h)⟩

/-- The frontier a stored document holds; `None` stays `None`. -/
def readStaging : Option Json → Except String (Option PublicationStaging)
  | none => .ok none
  | some d => (fromDocument d).map some

def requireStagingSuccessor (before after : Option Json) : Except String Unit := do
  let old ← readStaging before
  let new ← readStaging after
  requireStaging old new

/-- Stored documents each of which is accepted after the one before it. -/
def AcceptedChain (docs : List (Option Json)) : Prop :=
  List.IsChain (fun before after => requireStagingSuccessor before after = .ok ()) docs

/-- A frontier somewhere on the chain. -/
def frontierAt (docs : List (Option Json)) (i : Nat) : Option PublicationStaging :=
  docs[i]?.bind (fun d => (readStaging d).toOption.join)

theorem readStaging_document (s : PublicationStaging) :
    readStaging (some s.toDocument) = .ok (some s) := by
  simp only [readStaging, fromDocument_toDocument]
  rfl

theorem chain_step {docs : List (Option Json)} (h : AcceptedChain docs) {i : Nat}
    (hi : i + 1 < docs.length) (hs : frontierAt docs i = some s) :
    ∃ s', frontierAt docs (i + 1) = some s' ∧ Follows s s' := by
  have hlink := List.isChain_iff_getElem.mp h i hi
  obtain ⟨old, hold, hlink⟩ := bind_ok hlink
  obtain ⟨new, hnew, hlink⟩ := bind_ok hlink
  have holds : old = some s := by
    simpa [frontierAt, List.getElem?_eq_getElem (Nat.lt_of_succ_lt hi), hold, Except.toOption]
      using hs
  subst holds
  obtain ⟨s', rfl, hfollows⟩ := requireStaging_ok hlink
  refine ⟨s', ?_, hfollows⟩
  simp [frontierAt, List.getElem?_eq_getElem hi, hnew, Except.toOption]

/-- Between two positions a complete frontier has given way to another transaction's. -/
def Replaced (docs : List (Option Json)) (i j : Nat) : Prop :=
  ∃ k o n, i ≤ k ∧ k < j ∧ frontierAt docs k = some o ∧ frontierAt docs (k + 1) = some n ∧
    o.complete = true ∧ n.transactionId ≠ o.transactionId ∧ Fresh n

theorem Replaced.mono {docs : List (Option Json)} {i j : Nat} (h : Replaced docs i j) :
    Replaced docs i (j + 1) := by
  obtain ⟨k, o, n, hi, hj, hrest⟩ := h
  exact ⟨k, o, n, hi, Nat.lt_succ_of_lt hj, hrest⟩

/-- From one position of a chain to any later one. -/
theorem chain_carries {docs : List (Option Json)} (h : AcceptedChain docs) {i j : Nat}
    (hij : i ≤ j) (hj : j < docs.length) (hs : frontierAt docs i = some s) :
    ∃ s', frontierAt docs j = some s' ∧ (Extends s s' ∨ Replaced docs i j) := by
  induction j, hij using Nat.le_induction with
  | base => exact ⟨s, hs, .inl (.refl s)⟩
  | succ j hij ih =>
    obtain ⟨c, hc, hcarried⟩ := ih (Nat.lt_of_succ_lt hj)
    obtain ⟨s', hs', hfollows⟩ := chain_step h hj hc
    refine ⟨s', hs', ?_⟩
    rcases hfollows with ⟨hextends, _⟩ | ⟨hcomplete, hother, hfresh⟩
    · rcases hcarried with hcarried | hreplaced
      · exact .inl (hcarried.trans hextends)
      · exact .inr hreplaced.mono
    · exact .inr ⟨j, c, s', hij, Nat.lt_succ_self j, hc, hs', hcomplete, hother, hfresh⟩

/-- Every frontier attempts its effects in order, each under a token of its own. -/
structure Ordered (s : PublicationStaging) : Prop where
  counted : s.attemptTokens.length = s.attemptedParts ∧ s.attemptedParts ≤ s.partCount
  afterReceipt : s.attemptedParts ≤ s.receipts.length + 1
  attempted : s.receipts.length ≤ s.attemptedParts
  finalAfter : s.finalToken ≠ none → s.receipts.length = s.partCount ∧
    (s.manifestRequired = true → s.manifestReceipt ≠ none)
  manifestAfter : s.manifestToken ≠ none → s.manifestRequired = true ∧
    s.receipts.length = s.partCount
  distinct : (s.attemptTokens ++ s.manifestToken.toList ++ s.finalToken.toList).Nodup

theorem nodup_toList {α : Type} (o : Option α) : o.toList.Nodup := by
  cases o with
  | none => exact List.nodup_nil
  | some a => exact List.nodup_singleton a

theorem ordered (s : PublicationStaging) : Ordered s := by
  have hs := s.frontier
  refine ⟨⟨hs.tokens, hs.attempted⟩, hs.settled.1, hs.settled.2, fun hne => ?_, fun hne => ?_, ?_⟩
  · have hfinal : s.finalAttempted = true :=
      hs.finalToken.trans (Option.isSome_iff_ne_none.mpr hne)
    exact ⟨hs.finalLast hfinal,
      fun hrequired => Option.isSome_iff_ne_none.mp (hs.manifestFirst hfinal hrequired)⟩
  · exact hs.manifestLast (hs.manifestToken.trans (Option.isSome_iff_ne_none.mpr hne))
  · have hparts (t : String) (ht : t ∈ s.manifestToken) : t ∉ s.attemptTokens :=
      (hs.manifestClaim t ht).2.1
    rw [List.nodup_append, List.nodup_append]
    refine ⟨⟨hs.distinct, nodup_toList _, ?_⟩, nodup_toList _, ?_⟩
    · rintro a ha b hb rfl
      exact hparts a (Option.mem_toList.mp hb) ha
    · rintro a ha b hb rfl
      have hlast := Option.mem_toList.mp hb
      rcases List.mem_append.mp ha with ha | ha
      · exact (hs.finalClaim a hlast).2 ha
      · exact (hs.manifestClaim a (Option.mem_toList.mp ha)).2.2 hlast

end Chains

section Writers

/-- What a session record holds of its publication. -/
def stagingRetained (transaction : Option ReviewTransaction)
    (staging : Option PublicationStaging) : Bool :=
  staging.all (fun s => s.complete || transaction.any (fun t =>
    decide (t.transactionId = s.transactionId) &&
      decide (t.resultSha256 = some s.resultSha256) &&
      (decide (t.phase = .publicationPending) || decide (t.phase = .publicationFailed))))

structure StagedRecord where
  transaction : Option ReviewTransaction
  generation : Nat
  staging : Option PublicationStaging
  retained : stagingRetained transaction staging = true

namespace StagedRecord

def construct (transaction : Option ReviewTransaction) (generation : Nat)
    (staging : Option PublicationStaging) : Except String StagedRecord :=
  if h : stagingRetained transaction staging = true then .ok ⟨transaction, generation, staging, h⟩
  else .error "unconfirmed publication staging must retain its exact transaction"

/-- `publication_staging` of the record. -/
def document (r : StagedRecord) : Option Json :=
  r.staging.map (fun s => s.toDocument)

/-- `SessionRecord.evolve`, as far as it reads and writes these fields. -/
def evolve (r : StagedRecord) (transaction : Option ReviewTransaction) (generation : Nat)
    (staging : Option PublicationStaging) : Except String StagedRecord := do
  requireStaging r.staging staging
  construct transaction generation staging

def checkpointPublicationStaging (r : StagedRecord) (transaction : ReviewTransaction)
    (expected : Option PublicationStaging) (after : PublicationStaging) :
    Except String StagedRecord :=
  if r.transaction.all (fun current => !current.logicalIdentityMatches transaction ||
      !(decide (current.phase = .publicationPending) ||
        decide (current.phase = .publicationFailed)) ||
      decide (after.transactionId ≠ current.transactionId) ||
      decide (some after.resultSha256 ≠ current.resultSha256) ||
      decide (Session.maxGeneration ≤ r.generation)) then
    .error "publication staging transaction is stale or conflicting"
  else if r.staging = some after then .ok r
  else if r.staging ≠ expected then .error "publication staging expected frontier changed"
  else do
    requireStaging r.staging (some after)
    r.evolve r.transaction (r.generation + 1) (some after)

end StagedRecord

/-- A write that some host asks the session for. -/
inductive Write
  | evolve (transaction : Option ReviewTransaction) (generation : Nat)
    (staging : Option PublicationStaging)
  | checkpoint (transaction : ReviewTransaction) (expected : Option PublicationStaging)
    (after : PublicationStaging)

def Write.apply (r : StagedRecord) : Write → Except String StagedRecord
  | .evolve transaction generation staging => r.evolve transaction generation staging
  | .checkpoint transaction expected after =>
    r.checkpointPublicationStaging transaction expected after

/-- The record after a write; a refused one leaves it as it is. -/
def Write.next (r : StagedRecord) (w : Write) : StagedRecord := (w.apply r).toOption.getD r

/-- The documents the session stores while writers take turns in any order. -/
def history (r : StagedRecord) : List Write → List (Option Json)
  | [] => [r.document]
  | w :: ws => r.document :: history (w.next r) ws

variable {r r' : StagedRecord}

theorem evolve_ok {transaction : Option ReviewTransaction} {generation : Nat}
    {staging : Option PublicationStaging} (h : r.evolve transaction generation staging = .ok r') :
    requireStaging r.staging r'.staging = .ok () := by
  obtain ⟨_, hrequire, h⟩ := bind_ok h
  unfold StagedRecord.construct at h
  split at h
  · obtain rfl := Except.ok.inj h
    exact hrequire
  · cases h

theorem requireStaging_self (staging : Option PublicationStaging) :
    requireStaging staging staging = .ok () := by
  unfold requireStaging
  rw [if_pos rfl]

theorem checkpoint_ok {transaction : ReviewTransaction} {expected : Option PublicationStaging}
    {after : PublicationStaging}
    (h : r.checkpointPublicationStaging transaction expected after = .ok r') :
    requireStaging r.staging r'.staging = .ok () ∧
      (r' = r ∧ r.staging = some after ∨ r.staging = expected) := by
  unfold StagedRecord.checkpointPublicationStaging at h
  split at h
  · cases h
  split at h
  · next hsame =>
    obtain rfl := Except.ok.inj h
    exact ⟨requireStaging_self _, .inl ⟨rfl, hsame⟩⟩
  split at h
  · cases h
  · next hexpected =>
    obtain ⟨_, _, h⟩ := bind_ok h
    exact ⟨evolve_ok h, .inr (not_not.mp hexpected)⟩

theorem next_accepted (r : StagedRecord) (w : Write) :
    requireStaging r.staging (w.next r).staging = .ok () := by
  unfold Write.next
  cases happly : w.apply r with
  | error e => exact requireStaging_self _
  | ok r' =>
    cases w with
    | evolve transaction generation staging => exact evolve_ok happly
    | checkpoint transaction expected after => exact (checkpoint_ok happly).1

theorem readStaging_document_of (r : StagedRecord) : readStaging r.document = .ok r.staging := by
  unfold StagedRecord.document
  cases r.staging with
  | none => rfl
  | some s => exact readStaging_document s

theorem requireStagingSuccessor_documents (r r' : StagedRecord) :
    requireStagingSuccessor r.document r'.document = requireStaging r.staging r'.staging := by
  unfold requireStagingSuccessor
  rw [readStaging_document_of, readStaging_document_of]
  rfl

theorem history_head (r : StagedRecord) (ws : List Write) :
    ∃ later, history r ws = r.document :: later := by
  cases ws with
  | nil => exact ⟨[], rfl⟩
  | cons w ws => exact ⟨_, rfl⟩

/-- However the writers interleave, what the session stores is an accepted chain. -/
theorem history_accepted (r : StagedRecord) (ws : List Write) : AcceptedChain (history r ws) := by
  induction ws generalizing r with
  | nil => exact .singleton _
  | cons w ws ih =>
    have hnext := ih (w.next r)
    obtain ⟨later, hlater⟩ := history_head (w.next r) ws
    unfold history
    unfold AcceptedChain at hnext ⊢
    rw [hlater] at hnext ⊢
    refine List.isChain_cons_cons.mpr ⟨?_, hnext⟩
    rw [requireStagingSuccessor_documents]
    exact next_accepted r w

end Writers

theorem requireStaging_same (hsame : s'.transactionId = s.transactionId)
    (h : requireSuccessor s s' = .ok ()) : requireStaging (some s) (some s') = .ok () := by
  unfold requireStaging
  split
  · rfl
  · dsimp only
    rw [if_neg (by simp [replaceable, hsame])]
    exact h

theorem requireStagingSuccessor_frontiers (s s' : PublicationStaging) :
    requireStagingSuccessor (some s.toDocument) (some s'.toDocument) =
      requireStaging (some s) (some s') := by
  unfold requireStagingSuccessor
  rw [readStaging_document, readStaging_document]
  rfl

/-- What holds along a chain of stored frontiers. -/
structure ChainSafe (docs : List (Option Json)) : Prop where
  /-- Until a complete frontier gives way to another transaction's, plan, tokens and receipts
  stay. -/
  carried : ∀ i j s, i ≤ j → j < docs.length → frontierAt docs i = some s →
    ∃ s', frontierAt docs j = some s' ∧ (Extends s s' ∨ Replaced docs i j)
  step : ∀ i s, i + 1 < docs.length → frontierAt docs i = some s →
    ∃ s', frontierAt docs (i + 1) = some s' ∧ Follows s s'
  ordered : ∀ i s, frontierAt docs i = some s → Ordered s

theorem publication_frontier_safe :
    (∀ docs, AcceptedChain docs → ChainSafe docs) ∧
    (∀ (r : StagedRecord) (ws : List Write), AcceptedChain (history r ws)) ∧
    (∀ (r r' : StagedRecord) transaction expected after,
      r.checkpointPublicationStaging transaction expected after = .ok r' →
      r' = r ∧ r.staging = some after ∨ r.staging = expected) ∧
    (∀ (s s' : PublicationStaging) (op : Operation), op.apply s = .ok s' →
      requireStagingSuccessor (some s.toDocument) (some s'.toDocument) = .ok ()) ∧
    ∀ s : PublicationStaging, fromDocument s.toDocument = .ok s := by
  refine ⟨fun docs h => ?_, history_accepted, fun r r' transaction expected after h => ?_,
    fun s s' op h => ?_, fromDocument_toDocument⟩
  · exact ⟨fun i j s hij hj hs => chain_carries h hij hj hs, fun i s hi hs => chain_step h hi hs,
      fun _ s _ => ordered s⟩
  · exact (checkpoint_ok h).2
  · have haccepted := apply_accepted h
    rw [requireStagingSuccessor_frontiers]
    exact requireStaging_same (requireSuccessor_ok haccepted).1.transaction haccepted

section Repeated

def digestOf (c : Char) : String := "".pushn c 64
def tokenOf (c : Char) : String := "".pushn c 32

def publishedReceipt (nativeId : String) (h : isNativeId nativeId = true) : PublicationReceipt where
  nativeId := nativeId
  contentSha256 := digestOf 'd'
  accepted := by
    rw [h]
    decide

/-- The frontiers of one transaction of a single part, the last of them complete. -/
def firstFields : StagingFields where
  transactionId := digestOf 'a'
  resultSha256 := digestOf 'c'
  planSha256 := digestOf 'c'
  partCount := 1

def firstPrepared : PublicationStaging where
  toStagingFields := firstFields
  accepted := StagingFields.check_plain (by decide) (by decide)
    (by decide) (by decide)

def firstPublished : PublicationStaging where
  toStagingFields := { firstFields with
    attemptedParts := 1
    attemptTokens := [tokenOf '1']
    receipts := [publishedReceipt "part-1" (by decide)]
    finalAttempted := true
    finalToken := some (tokenOf '2')
    finalReceipt := some (publishedReceipt "final-1" (by decide)) }
  accepted := StagingFields.check_plain (by decide) (by decide)
    (by decide) (by decide)

def firstAgain : PublicationStaging where
  toStagingFields := { firstFields with
    attemptedParts := 1
    attemptTokens := [tokenOf '3'] }
  accepted := StagingFields.check_plain (by decide) (by decide)
    (by decide) (by decide)

/-- The frontiers of another transaction, which has no parts. -/
def otherFields : StagingFields := { firstFields with transactionId := digestOf 'b', partCount := 0 }

def otherPrepared : PublicationStaging where
  toStagingFields := otherFields
  accepted := StagingFields.check_plain (by decide) (by decide)
    (by decide) (by decide)

def otherAttempted : PublicationStaging where
  toStagingFields := { otherFields with
    finalAttempted := true
    finalToken := some (tokenOf '4') }
  accepted := StagingFields.check_plain (by decide) (by decide)
    (by decide) (by decide)

def otherPublished : PublicationStaging where
  toStagingFields := { otherAttempted.toStagingFields with
    finalReceipt := some (publishedReceipt "final-2" (by decide)) }
  accepted := StagingFields.check_plain (by decide) (by decide)
    (by decide) (by decide)

def repeatedFrontiers : List PublicationStaging :=
  [firstPublished, otherPrepared, otherAttempted, otherPublished, firstAgain]

/-- One transaction, another one, and the first once more. -/
def repeatedPublication : List (Option Json) :=
  repeatedFrontiers.map (fun s => some s.toDocument)

theorem frontierAt_documents (frontiers : List PublicationStaging) (i : Nat) :
    frontierAt (frontiers.map (fun s => some s.toDocument)) i = frontiers[i]? := by
  unfold frontierAt
  rw [List.getElem?_map]
  cases frontiers[i]? with
  | none => rfl
  | some s =>
    simp only [Option.map_some, Option.bind_some, readStaging_document]
    rfl

theorem requireStaging_opening {p : PublicationStaging} {c : List PublicationStaging}
    (hcomplete : s.complete = true)
    (hother : s.transactionId ≠ s'.transactionId)
    (hprepared : prepare s'.transactionId s'.resultSha256 s'.planSha256 s'.partCount
      s'.manifestRequired = .ok p)
    (hclaimed : openingClaim p s' = .ok c) (hmem : s' ∈ p :: c) :
    requireStaging (some s) (some s') = .ok () := by
  unfold requireStaging
  split
  · rfl
  · dsimp only
    rw [if_pos (by simp [replaceable, hcomplete, hother])]
    simp only [requireOpening, openingCandidates, hprepared, hclaimed, bind, Except.bind, pure,
      Except.pure]
    rw [if_pos hmem]

theorem repeated_accepted : AcceptedChain repeatedPublication := by
  have hcomplete : firstPublished.complete = true := rfl
  have hother : requireStaging (some firstPublished) (some otherPrepared) = .ok () :=
    requireStaging_opening (p := otherPrepared) (c := []) hcomplete (by decide)
      (make_of_fields rfl) rfl List.mem_cons_self
  have hattempt : otherPrepared.attemptFinal (tokenOf '4') = .ok otherAttempted := by
    unfold attemptFinal
    rw [if_neg (by decide)]
    exact make_of_fields rfl
  have hconfirm : otherAttempted.storeFinal (publishedReceipt "final-2" (by decide)) =
      .ok otherPublished := by
    unfold storeFinal
    rw [if_neg (by decide)]
    exact make_of_fields rfl
  have hclaim : firstPrepared.attemptPart 0 (tokenOf '3') = .ok firstAgain := by
    unfold attemptPart
    rw [if_neg (by decide)]
    exact make_of_fields rfl
  have hagain : requireStaging (some otherPublished) (some firstAgain) = .ok () := by
    refine requireStaging_opening (p := firstPrepared) (c := [firstAgain]) rfl
      (by decide) (make_of_fields rfl) ?_ (List.mem_cons_of_mem _ List.mem_cons_self)
    change (firstPrepared.attemptPart 0 (tokenOf '3')).map (fun s => [s]) = _
    rw [hclaim]
    rfl
  unfold AcceptedChain repeatedPublication repeatedFrontiers
  simp only [List.map_cons, List.map_nil, List.isChain_cons_cons,
    requireStagingSuccessor_frontiers]
  exact ⟨hother, requireStaging_same rfl (attemptFinal_accepted hattempt),
    requireStaging_same rfl (storeFinal_accepted hconfirm), hagain, .singleton _⟩

/-- After a complete frontier of another transaction a transaction may be published again. -/
theorem repeated_transaction_counterexample :
    ¬ ∀ docs, AcceptedChain docs → ∀ i j s s', frontierAt docs i = some s →
      frontierAt docs j = some s' → s.transactionId = s'.transactionId →
      ∀ t ∈ s.attemptTokens.head?, ∀ t' ∈ s'.attemptTokens.head?, t = t' := by
  intro h
  have hfirst : frontierAt repeatedPublication 0 = some firstPublished := frontierAt_documents _ 0
  have hagain : frontierAt repeatedPublication 4 = some firstAgain := frontierAt_documents _ 4
  have hsame : tokenOf '1' = tokenOf '3' :=
    h _ repeated_accepted 0 4 _ _ hfirst hagain rfl _ rfl _ rfl
  exact absurd hsame (by decide)

theorem repeated_publication_safe : ChainSafe repeatedPublication :=
  publication_frontier_safe.1 _ repeated_accepted

end Repeated
end ReviewSensei.Staging
