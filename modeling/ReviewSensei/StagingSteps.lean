import ReviewSensei.StagingData

/-! What each operation on a frontier changes, and what an accepted successor may add. -/
namespace ReviewSensei.Staging
open Session (bind_ok)

variable {s s' c : PublicationStaging}

/-- The attempts a frontier has recorded. -/
def PublicationStaging.attempts (s : PublicationStaging) : Nat :=
  s.attemptTokens.length + s.manifestToken.toList.length + s.finalToken.toList.length

/-- Nothing that was planned, attempted or settled has changed. -/
structure Extends (s s' : PublicationStaging) : Prop where
  transaction : s'.transactionId = s.transactionId
  result : s'.resultSha256 = s.resultSha256
  plan : s'.planSha256 = s.planSha256
  parts : s'.partCount = s.partCount
  manifest : s'.manifestRequired = s.manifestRequired
  tokens : s.attemptTokens <+: s'.attemptTokens
  receipts : s.receipts <+: s'.receipts
  finalToken : ∀ t ∈ s.finalToken, t ∈ s'.finalToken
  finalReceipt : ∀ r ∈ s.finalReceipt, r ∈ s'.finalReceipt
  manifestToken : ∀ t ∈ s.manifestToken, t ∈ s'.manifestToken
  manifestReceipt : ∀ r ∈ s.manifestReceipt, r ∈ s'.manifestReceipt

theorem Extends.refl (s : PublicationStaging) : Extends s s :=
  ⟨rfl, rfl, rfl, rfl, rfl, List.prefix_refl _, List.prefix_refl _, fun _ h => h, fun _ h => h,
    fun _ h => h, fun _ h => h⟩

theorem Extends.trans (h : Extends s c) (h' : Extends c s') : Extends s s' where
  transaction := h'.transaction.trans h.transaction
  result := h'.result.trans h.result
  plan := h'.plan.trans h.plan
  parts := h'.parts.trans h.parts
  manifest := h'.manifest.trans h.manifest
  tokens := h.tokens.trans h'.tokens
  receipts := h.receipts.trans h'.receipts
  finalToken t ht := h'.finalToken t (h.finalToken t ht)
  finalReceipt r hr := h'.finalReceipt r (h.finalReceipt r hr)
  manifestToken t ht := h'.manifestToken t (h.manifestToken t ht)
  manifestReceipt r hr := h'.manifestReceipt r (h.manifestReceipt r hr)

namespace PublicationStaging

theorem outstandingPart_none_iff (s : PublicationStaging) :
    s.outstandingPart = none ↔ s.receipts.length = s.attemptedParts := by
  have hle := s.frontier.settled.2
  unfold outstandingPart
  split <;> simp <;> omega

theorem finalToken_none (h : s.finalAttempted = false) : s.finalToken = none := by
  have hsome := s.frontier.finalToken
  rw [h] at hsome
  exact Option.isSome_eq_false_iff.mp hsome.symm |> Option.isNone_iff_eq_none.mp

theorem manifestToken_none (h : s.manifestAttempted = false) : s.manifestToken = none := by
  have hsome := s.frontier.manifestToken
  rw [h] at hsome
  exact Option.isSome_eq_false_iff.mp hsome.symm |> Option.isNone_iff_eq_none.mp

theorem attemptPart_ok {ordinal : Nat} {token : String} (h : s.attemptPart ordinal token = .ok s') :
    ordinal = s.attemptedParts ∧ s.attemptedParts < s.partCount ∧
      s.receipts.length = s.attemptedParts ∧ s.finalAttempted = false ∧
      s.manifestAttempted = false ∧
      s'.toStagingFields = { s.toStagingFields with
        attemptedParts := s.attemptedParts + 1
        attemptTokens := s.attemptTokens ++ [token] } := by
  unfold attemptPart at h
  split at h
  · cases h
  next hguard =>
  simp only [not_or, not_not, Nat.not_le, Bool.not_eq_true] at hguard
  obtain ⟨rfl, hlt, hout, hfinal, hmanifest⟩ := hguard
  exact ⟨rfl, hlt, s.outstandingPart_none_iff.mp hout, hfinal, hmanifest, make_ok h⟩

theorem storePart_ok {ordinal : Nat} {r : PublicationReceipt} (h : s.storePart ordinal r = .ok s') :
    s' = s ∨ (ordinal = s.receipts.length ∧ s.receipts.length < s.attemptedParts ∧
      s'.toStagingFields = { s.toStagingFields with receipts := s.receipts ++ [r] }) := by
  unfold storePart at h
  split at h
  · cases h
  next hattempted =>
  split at h
  · split at h
    · cases h
    · exact .inl (Except.ok.inj h).symm
  · next hnone =>
    have hlen := List.getElem?_eq_none_iff.mp hnone
    have hsettled := s.frontier.settled
    exact .inr ⟨by omega, by omega, make_ok h⟩

theorem attemptManifest_ok {token : String} (h : s.attemptManifest token = .ok s') :
    s.manifestRequired = true ∧ s.manifestAttempted = false ∧ s.finalAttempted = false ∧
      s.receipts.length = s.partCount ∧
      s'.toStagingFields = { s.toStagingFields with
        manifestAttempted := true
        manifestToken := some token } := by
  unfold attemptManifest at h
  split at h
  · cases h
  next hguard =>
  simp only [not_or, not_not, Bool.not_eq_true, Bool.not_eq_false] at hguard
  obtain ⟨hrequired, hmanifest, hfinal, hparts⟩ := hguard
  exact ⟨hrequired, hmanifest, hfinal, hparts, make_ok h⟩

theorem storeManifest_ok {r : PublicationReceipt} (h : s.storeManifest r = .ok s') :
    s' = s ∨ (s.manifestAttempted = true ∧ s.manifestReceipt = none ∧
      s'.toStagingFields = { s.toStagingFields with manifestReceipt := some r }) := by
  unfold storeManifest at h
  split at h
  · cases h
  next hattempted =>
  split at h
  · split at h
    · cases h
    · exact .inl (Except.ok.inj h).symm
  · next hnone => exact .inr ⟨by simpa using hattempted, hnone, make_ok h⟩

theorem attemptFinal_ok {token : String} (h : s.attemptFinal token = .ok s') :
    s.finalAttempted = false ∧ s.receipts.length = s.partCount ∧
      (s.manifestRequired = true → s.manifestReceipt ≠ none) ∧
      s'.toStagingFields = { s.toStagingFields with
        finalAttempted := true
        finalToken := some token } := by
  unfold attemptFinal at h
  split at h
  · cases h
  next hguard =>
  simp only [not_or, not_not, not_and, Bool.not_eq_true] at hguard
  exact ⟨hguard.1, hguard.2.1, hguard.2.2, make_ok h⟩

theorem storeFinal_ok {r : PublicationReceipt} (h : s.storeFinal r = .ok s') :
    s' = s ∨ (s.finalAttempted = true ∧ s.finalReceipt = none ∧
      s'.toStagingFields = { s.toStagingFields with finalReceipt := some r }) := by
  unfold storeFinal at h
  split at h
  · cases h
  next hattempted =>
  split at h
  · split at h
    · cases h
    · exact .inl (Except.ok.inj h).symm
  · next hnone => exact .inr ⟨by simpa using hattempted, hnone, make_ok h⟩

end PublicationStaging
open PublicationStaging

/-- A claim records one more attempt and settles nothing. -/
structure Claims (s s' : PublicationStaging) : Prop where
  keeps : Extends s s'
  attempts : s'.attempts = s.attempts + 1
  receipts : s'.receipts = s.receipts
  manifestReceipt : s'.manifestReceipt = s.manifestReceipt

/-- A settlement stores what was attempted and attempts nothing. -/
structure Settles (s s' : PublicationStaging) : Prop where
  keeps : Extends s s'
  attempts : s'.attempts = s.attempts

theorem Settles.refl (s : PublicationStaging) : Settles s s := ⟨.refl s, rfl⟩

theorem attemptPart_claims {ordinal : Nat} {token : String}
    (h : s.attemptPart ordinal token = .ok s') : Claims s s' := by
  obtain ⟨_, _, _, _, _, hfields⟩ := attemptPart_ok h
  obtain ⟨f', _⟩ := s'
  obtain rfl : f' = _ := hfields
  refine ⟨⟨rfl, rfl, rfl, rfl, rfl, List.prefix_append _ _, List.prefix_refl _, fun _ h => h,
    fun _ h => h, fun _ h => h, fun _ h => h⟩, ?_, rfl, rfl⟩
  simp only [PublicationStaging.attempts, List.length_append, List.length_singleton]
  omega

theorem attemptManifest_claims {token : String} (h : s.attemptManifest token = .ok s') :
    Claims s s' := by
  obtain ⟨_, hmanifest, _, _, hfields⟩ := attemptManifest_ok h
  have hnone := manifestToken_none hmanifest
  obtain ⟨f', _⟩ := s'
  obtain rfl : f' = _ := hfields
  refine ⟨⟨rfl, rfl, rfl, rfl, rfl, List.prefix_refl _, List.prefix_refl _, fun _ h => h,
    fun _ h => h, fun t ht => ?_, fun _ h => h⟩, ?_, rfl, rfl⟩
  · rw [hnone] at ht
    cases ht
  · simp only [PublicationStaging.attempts, hnone, Option.toList_some, Option.toList_none,
      List.length_singleton, List.length_nil]
    omega

theorem attemptFinal_claims {token : String} (h : s.attemptFinal token = .ok s') :
    Claims s s' := by
  obtain ⟨hfinal, _, _, hfields⟩ := attemptFinal_ok h
  have hnone := finalToken_none hfinal
  obtain ⟨f', _⟩ := s'
  obtain rfl : f' = _ := hfields
  refine ⟨⟨rfl, rfl, rfl, rfl, rfl, List.prefix_refl _, List.prefix_refl _, fun t ht => ?_,
    fun _ h => h, fun _ h => h, fun _ h => h⟩, ?_, rfl, rfl⟩
  · rw [hnone] at ht
    cases ht
  · simp only [PublicationStaging.attempts, hnone, Option.toList_some, Option.toList_none,
      List.length_singleton, List.length_nil]

theorem storePart_settles {ordinal : Nat} {r : PublicationReceipt}
    (h : s.storePart ordinal r = .ok s') : Settles s s' := by
  rcases storePart_ok h with rfl | ⟨_, _, hfields⟩
  · exact .refl _
  obtain ⟨f', _⟩ := s'
  obtain rfl : f' = _ := hfields
  exact ⟨⟨rfl, rfl, rfl, rfl, rfl, List.prefix_refl _, List.prefix_append _ _, fun _ h => h,
    fun _ h => h, fun _ h => h, fun _ h => h⟩, rfl⟩

theorem storeManifest_settles {r : PublicationReceipt} (h : s.storeManifest r = .ok s') :
    Settles s s' := by
  rcases storeManifest_ok h with rfl | ⟨_, hnone, hfields⟩
  · exact .refl _
  obtain ⟨f', _⟩ := s'
  obtain rfl : f' = _ := hfields
  refine ⟨⟨rfl, rfl, rfl, rfl, rfl, List.prefix_refl _, List.prefix_refl _, fun _ h => h,
    fun _ h => h, fun _ h => h, fun r hr => ?_⟩, rfl⟩
  rw [hnone] at hr
  cases hr

theorem storeFinal_settles {r : PublicationReceipt} (h : s.storeFinal r = .ok s') :
    Settles s s' := by
  rcases storeFinal_ok h with rfl | ⟨_, hnone, hfields⟩
  · exact .refl _
  obtain ⟨f', _⟩ := s'
  obtain rfl : f' = _ := hfields
  refine ⟨⟨rfl, rfl, rfl, rfl, rfl, List.prefix_refl _, List.prefix_refl _, fun _ h => h,
    fun r hr => ?_, fun _ h => h, fun _ h => h⟩, rfl⟩
  rw [hnone] at hr
  cases hr

@[simp] theorem confirmPart_receipt (s : PublicationStaging) (ordinal : Nat)
    (r : PublicationReceipt) :
    s.confirmPart ordinal r.nativeId r.contentSha256 = s.storePart ordinal r := by
  simp only [confirmPart, PublicationReceipt.make_self, bind, Except.bind]

@[simp] theorem confirmManifest_receipt (s : PublicationStaging) (r : PublicationReceipt) :
    s.confirmManifest r.nativeId r.contentSha256 = s.storeManifest r := by
  simp only [confirmManifest, PublicationReceipt.make_self, bind, Except.bind]

@[simp] theorem confirmFinal_receipt (s : PublicationStaging) (r : PublicationReceipt) :
    s.confirmFinal r.nativeId r.contentSha256 = s.storeFinal r := by
  simp only [confirmFinal, PublicationReceipt.make_self, bind, Except.bind]

section Offers
variable {α : Type} {value : Option α} {op : α → Except String PublicationStaging}
  {cs : List PublicationStaging}

theorem offer_ok (h : offer value op = .ok cs) (hc : c ∈ cs) : ∃ a, op a = .ok c := by
  unfold offer at h
  split at h
  · obtain rfl := Except.ok.inj h
    cases hc
  · next a =>
    cases hop : op a with
    | error e =>
      rw [hop] at h
      cases h
    | ok c' =>
      rw [hop] at h
      obtain rfl := Except.ok.inj h
      obtain rfl := List.mem_singleton.mp hc
      exact ⟨a, hop⟩

theorem offer_guarded_neg {guard : Prop} [Decidable guard] (h : ¬ guard) :
    offer (guarded guard value) op = .ok [] := by
  rw [guarded, if_neg h]
  rfl

theorem offer_guarded_pos {guard : Prop} [Decidable guard] {a : α} (h : guard)
    (hvalue : value = some a) (hop : op a = .ok c) :
    offer (guarded guard value) op = .ok [c] := by
  rw [guarded, if_pos h, hvalue]
  simp only [offer, hop]
  rfl

end Offers

section Successor
variable {after : PublicationStaging} {cs : List PublicationStaging}

/-- A candidate that crosses one frontier claims or settles. -/
theorem singleCandidates_ok (h : singleCandidates s after = .ok cs) (hc : c ∈ cs) :
    Claims s c ∨ Settles s c := by
  obtain ⟨part, hpart, h⟩ := bind_ok h
  obtain ⟨receipt, hreceipt, h⟩ := bind_ok h
  obtain ⟨manifest, hmanifest, h⟩ := bind_ok h
  obtain ⟨manifestReceipt, hmanifestReceipt, h⟩ := bind_ok h
  obtain ⟨final, hfinal, h⟩ := bind_ok h
  obtain ⟨finalReceipt, hfinalReceipt, h⟩ := bind_ok h
  obtain rfl := Except.ok.inj h
  simp only [List.mem_append] at hc
  rcases hc with ((((hc | hc) | hc) | hc) | hc) | hc
  · obtain ⟨token, hop⟩ := offer_ok hpart hc
    exact .inl (attemptPart_claims hop)
  · unfold receiptCandidate at hreceipt
    split at hreceipt
    · obtain rfl := Except.ok.inj hreceipt
      cases hc
    · obtain ⟨r, hop⟩ := offer_ok hreceipt hc
      rw [confirmPart_receipt] at hop
      exact .inr (storePart_settles hop)
  · obtain ⟨token, hop⟩ := offer_ok hmanifest hc
    exact .inl (attemptManifest_claims hop)
  · obtain ⟨r, hop⟩ := offer_ok hmanifestReceipt hc
    rw [confirmManifest_receipt] at hop
    exact .inr (storeManifest_settles hop)
  · obtain ⟨token, hop⟩ := offer_ok hfinal hc
    exact .inl (attemptFinal_claims hop)
  · obtain ⟨r, hop⟩ := offer_ok hfinalReceipt hc
    rw [confirmFinal_receipt] at hop
    exact .inr (storeFinal_settles hop)

/-- A claim joined to a candidate follows a settlement only. -/
theorem settleAndClaim_ok {d : PublicationStaging} (hsingle : Claims s c ∨ Settles s c)
    (h : settleAndClaim s after c = .ok cs) (hd : d ∈ cs) : Settles s c ∧ Claims c d := by
  have hsettles (hne : c.receipts ≠ s.receipts ∨ c.manifestReceipt ≠ s.manifestReceipt) :
      Settles s c := by
    rcases hsingle with hclaims | hsettles
    · rcases hne with hne | hne
      · exact absurd hclaims.receipts hne
      · exact absurd hclaims.manifestReceipt hne
    · exact hsettles
  unfold settleAndClaim at h
  split at h
  · next hlonger =>
    have hsettled : Settles s c := by
      apply hsettles
      left
      intro heq
      rw [heq] at hlonger
      exact absurd hlonger (lt_irrefl _)
    split at h
    · obtain ⟨token, hop⟩ := offer_ok h hd
      exact ⟨hsettled, attemptPart_claims hop⟩
    · split at h
      · obtain ⟨token, hop⟩ := offer_ok h hd
        exact ⟨hsettled, attemptManifest_claims hop⟩
      · obtain ⟨token, hop⟩ := offer_ok h hd
        exact ⟨hsettled, attemptFinal_claims hop⟩
  · split at h
    · next hstored =>
      have hsettled : Settles s c := by
        apply hsettles
        right
        rw [hstored.2]
        exact hstored.1
      obtain ⟨token, hop⟩ := offer_ok h hd
      exact ⟨hsettled, attemptFinal_claims hop⟩
    · obtain rfl := Except.ok.inj h
      cases hd

theorem mapM_mem {α β : Type} {f : α → Except String β} {xs : List α} {ys : List β} {y : β}
    (h : xs.mapM f = .ok ys) (hy : y ∈ ys) : ∃ x ∈ xs, f x = .ok y := by
  induction xs generalizing ys with
  | nil =>
    obtain rfl := Except.ok.inj h
    cases hy
  | cons x xs ih =>
    rw [List.mapM_cons] at h
    obtain ⟨z, hz, h⟩ := bind_ok h
    obtain ⟨zs, hzs, h⟩ := bind_ok h
    obtain rfl := Except.ok.inj h
    rcases List.mem_cons.mp hy with rfl | hy
    · exact ⟨x, List.mem_cons_self, hz⟩
    · obtain ⟨x', hx', hf⟩ := ih hzs hy
      exact ⟨x', List.mem_cons_of_mem _ hx', hf⟩

/-- An accepted successor keeps everything and records at most one more attempt. -/
theorem requireSuccessor_ok (h : requireSuccessor s after = .ok ()) :
    Extends s after ∧ after.attempts ≤ s.attempts + 1 := by
  unfold requireSuccessor at h
  split at h
  · next heq =>
    subst heq
    exact ⟨.refl s, Nat.le_succ _⟩
  obtain ⟨settled, hsettled, h⟩ := bind_ok h
  obtain ⟨combined, hcombined, h⟩ := bind_ok h
  split at h
  · next hmem =>
    rcases List.mem_append.mp hmem with hmem | hmem
    · rcases singleCandidates_ok hsettled hmem with hclaims | hsettles
      · exact ⟨hclaims.keeps, hclaims.attempts.le⟩
      · exact ⟨hsettles.keeps, hsettles.attempts.le.trans (Nat.le_succ _)⟩
    · obtain ⟨claims, hclaims, hcombined⟩ := bind_ok hcombined
      obtain rfl := Except.ok.inj hcombined
      obtain ⟨ds, hds, hmem⟩ := List.mem_flatten.mp hmem
      obtain ⟨confirmed, hconfirmed, hjoined⟩ := mapM_mem hclaims hds
      obtain ⟨hsettles, hclaim⟩ :=
        settleAndClaim_ok (singleCandidates_ok hsettled hconfirmed) hjoined hmem
      exact ⟨hsettles.keeps.trans hclaim.keeps,
        (hclaim.attempts.trans (congrArg (· + 1) hsettles.attempts)).le⟩
  · cases h

end Successor
end ReviewSensei.Staging
