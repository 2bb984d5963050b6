import ReviewSensei.Eligibility

/-! A broader review over a retained one: what the combined eligibility may approve. -/
namespace ReviewSensei.Approval
open Session (bind_ok)
open Review (ReviewComment ReviewVerdict ResultFields ResultRules ReviewResult
  findingInstanceFingerprint)
open Human (PendingHumanReview InventoryFields HumanReviewFinding FindingFields)

variable {rules : Human.Rules}

section Findings

/-- A table of findings under their identities. -/
structure Table (table : Dict String (HumanReviewFinding rules)) : Prop where
  own_keys : ∀ p ∈ table, p.1 = p.2.fingerprint
  nodup : table.keys.Nodup

theorem Table.nil : Table ([] : Dict String (HumanReviewFinding rules)) where
  own_keys := by simp
  nodup := List.nodup_nil

theorem Table.set {table : Dict String (HumanReviewFinding rules)} (h : Table table)
    {item : HumanReviewFinding rules} {key : String} (hkey : key = item.fingerprint) :
    Table (table.set key item) where
  own_keys := by
    intro p hp
    rcases Dict.mem_set hp with rfl | hp
    · exact hkey
    · exact h.own_keys p hp
  nodup := Dict.nodup_set h.nodup key item

theorem Table.fingerprint {table : Dict String (HumanReviewFinding rules)} (h : Table table)
    {key : String} {f : HumanReviewFinding rules} (hget : table.get? key = some f) :
    f.fingerprint = key :=
  (h.own_keys _ (Dict.mem_of_get? hget)).symm

/-- The identities of a table's findings are its keys. -/
theorem Table.identities {table : Dict String (HumanReviewFinding rules)} (h : Table table) :
    (table.map Prod.snd).map (fun f => f.fingerprint) = table.keys := by
  rw [List.map_map]
  apply List.map_congr_left
  intro p hp
  exact (h.own_keys p hp).symm

theorem findingsTable_spec (inventory : PendingHumanReview rules) :
    Table (findingsTable inventory.toInventoryFields) ∧
      (∀ f ∈ inventory.findings,
        (findingsTable inventory.toInventoryFields).get? f.fingerprint = some f) ∧
      ∀ key, key ∈ (findingsTable inventory.toInventoryFields).keys ↔
        key ∈ inventory.identities := by
  have hfst : (inventory.findings.map (fun f => (f.fingerprint, f))).map Prod.fst =
      inventory.identities := by
    rw [List.map_map]
    rfl
  have hnodup : inventory.identities.Nodup := by
    have hcheck := inventory.accepted
    unfold InventoryFields.check at hcheck
    obtain ⟨_, _, h1⟩ := bind_ok hcheck
    obtain ⟨_, _, h2⟩ := bind_ok h1
    obtain ⟨_, _, h3⟩ := bind_ok h2
    obtain ⟨_, hids, _⟩ := bind_ok h3
    exact ensure_inv hids
  refine ⟨⟨?_, Dict.nodup_ofPairs _⟩, ?_, ?_⟩
  · intro p hp
    have hget := Dict.get?_of_mem (Dict.nodup_ofPairs _) (show (p.1, p.2) ∈ _ from hp)
    obtain ⟨f, _, hpair⟩ := List.mem_map.mp (Dict.mem_of_get?_ofPairs hget)
    rw [Prod.mk.injEq] at hpair
    rw [← hpair.1, ← hpair.2]
  · intro f hf
    apply Dict.get?_ofPairs_of_mem
    · exact List.mem_map.mpr ⟨f, hf, rfl⟩
    · rw [hfst]
      exact hnodup
  · intro key
    rw [Dict.mem_keys_iff, findingsTable, Dict.isSome_get?_ofPairs, hfst]

/-- What the new findings leave of a table: the findings it had, in place and unchanged, and one
finding for each new identity. -/
theorem mergeFinding_fold {items : List (HumanReviewFinding rules)}
    {table table' : Dict String (HumanReviewFinding rules)}
    (h : items.foldlM mergeFinding table = .ok table') (htable : Table table) :
    Table table' ∧ (∀ key f, table.get? key = some f → table'.get? key = some f) ∧
      ∀ key, key ∈ table'.keys ↔ key ∈ table.keys ∨ ∃ item ∈ items, item.fingerprint = key := by
  induction items generalizing table with
  | nil =>
    obtain rfl : table = table' := Except.ok.inj h
    exact ⟨htable, fun _ _ hget => hget, by simp⟩
  | cons item items ih =>
    rw [List.foldlM_cons] at h
    obtain ⟨middle, hstep, hrest⟩ := bind_ok h
    -- one finding: a known identity keeps its finding, a new one goes last
    have hmiddle : Table middle ∧ (∀ key f, table.get? key = some f → middle.get? key = some f) ∧
        ∀ key, key ∈ middle.keys ↔ key ∈ table.keys ∨ item.fingerprint = key := by
      unfold mergeFinding at hstep
      split at hstep
      · next hnone =>
        obtain rfl := Except.ok.inj hstep
        refine ⟨htable.set rfl, ?_, ?_⟩
        · intro key f hget
          have hne : item.fingerprint ≠ key := by
            rintro rfl
            rw [hnone] at hget
            cases hget
          rw [Dict.get?_set, if_neg hne]
          exact hget
        · intro key
          have hfresh : item.fingerprint ∉ table.keys := by
            rw [Dict.mem_keys_iff, hnone]
            simp
          rw [Dict.keys_set, if_neg hfresh, List.mem_append, List.mem_singleton]
          exact or_congr_right eq_comm
      · next previous hsome =>
        obtain ⟨_, _, hset⟩ := bind_ok hstep
        obtain rfl := Except.ok.inj hset
        have hkey := htable.fingerprint hsome
        have hpresent : item.fingerprint ∈ table.keys := by
          rw [Dict.mem_keys_iff, hsome]
          rfl
        refine ⟨htable.set hkey.symm, ?_, ?_⟩
        · intro key f hget
          rw [Dict.get?_set]
          split
          · next heq =>
            rw [← heq, hsome] at hget
            exact hget
          · exact hget
        · intro key
          rw [Dict.keys_set, if_pos hpresent]
          constructor
          · exact .inl
          · rintro (hkeys | rfl)
            · exact hkeys
            · exact hpresent
    obtain ⟨hmid_table, hmid_get, hmid_keys⟩ := hmiddle
    obtain ⟨hlast_table, hlast_get, hlast_keys⟩ := ih hrest hmid_table
    refine ⟨hlast_table, fun key f hget => hlast_get key f (hmid_get key f hget), ?_⟩
    intro key
    rw [hlast_keys, hmid_keys, or_assoc]
    simp only [List.mem_cons, or_and_right, exists_or, exists_eq_left]

/-- The findings of a new inventory are the comments that need a decision. -/
theorem fromResult_identities {comments : List ReviewComment} {base : Option String}
    {inventory : Option (PendingHumanReview rules)}
    (h : Human.fromResult rules comments base = .ok inventory) (key : String) :
    (∃ item ∈ (inventory.map (fun i => i.findings)).getD [], item.fingerprint = key) ↔
      ∃ c ∈ comments, c.needsHuman = true ∧
        findingInstanceFingerprint c.toCommentFields = key := by
  have hfold : ∀ (needing : List ReviewComment) (seen seen' : Dict String (HumanReviewFinding rules)),
      needing.foldlM (Human.addInstance rules) seen = .ok seen' → Table seen →
        Table seen' ∧ ∀ key, key ∈ seen'.keys ↔ key ∈ seen.keys ∨
          ∃ c ∈ needing, findingInstanceFingerprint c.toCommentFields = key := by
    intro needing
    induction needing with
    | nil =>
      intro seen seen' hok hseen
      obtain rfl : seen = seen' := Except.ok.inj hok
      exact ⟨hseen, by simp⟩
    | cons c needing ih =>
      intro seen seen' hok hseen
      rw [List.foldlM_cons] at hok
      obtain ⟨middle, hstep, hrest⟩ := bind_ok hok
      unfold Human.addInstance at hstep
      obtain ⟨finding, hfinding, h1⟩ := bind_ok hstep
      obtain ⟨_, _, h2⟩ := bind_ok h1
      obtain rfl := Except.ok.inj h2
      have hkey : findingInstanceFingerprint c.toCommentFields = finding.fingerprint := by
        rw [HumanReviewFinding.construct_ok hfinding]
      obtain ⟨htable, hkeys⟩ := ih _ _ hrest (hseen.set hkey)
      refine ⟨htable, ?_⟩
      intro key
      have hset : key ∈ (seen.set (findingInstanceFingerprint c.toCommentFields) finding).keys ↔
          key ∈ seen.keys ∨ findingInstanceFingerprint c.toCommentFields = key := by
        rw [Dict.mem_keys_iff, Dict.get?_set]
        split
        · next heq => simp [heq]
        · next hne => simp [hne, Dict.mem_keys_iff]
      rw [hkeys, hset, or_assoc]
      simp only [List.mem_cons, or_and_right, exists_or, exists_eq_left]
  unfold Human.fromResult at h
  split at h
  · next hnone =>
    obtain rfl := Except.ok.inj h
    simp only [Option.map_none, Option.getD_none, List.not_mem_nil, false_and, exists_false,
      false_iff]
    rintro ⟨c, hc, hneeds, _⟩
    have hmem : c ∈ comments.filter (fun c => c.needsHuman) := List.mem_filter.mpr ⟨hc, hneeds⟩
    rw [hnone] at hmem
    exact List.not_mem_nil hmem
  · cases h
  · next base' _ =>
    obtain ⟨seen, hseen, h1⟩ := bind_ok h
    obtain ⟨built, hbuilt, h2⟩ := bind_ok h1
    obtain rfl := Except.ok.inj h2
    obtain ⟨htable, hkeys⟩ := hfold _ _ _ hseen Table.nil
    have hfindings : built.findings = (seen.insertionSort (fun a b => a.1 ≤ b.1)).map Prod.snd := by
      rw [PendingHumanReview.construct_ok hbuilt]
    have hiff : (∃ item ∈ built.findings, item.fingerprint = key) ↔ key ∈ seen.keys := by
      rw [hfindings, ← htable.identities]
      simp only [List.mem_map, List.mem_insertionSort, exists_exists_and_eq_and]
    rw [Option.map_some, Option.getD_some, hiff, hkeys]
    simp only [Dict.keys, List.map_nil, List.not_mem_nil, false_or, List.mem_filter, and_assoc]

end Findings

section Facts
variable {old new : FactFields}

/-- The retained review was confirmed by evidence and the new one is not. -/
def Downgraded (old new : FactFields) : Prop :=
  old.evidencePolicy = .confirmed ∧ new.evidencePolicy ≠ .confirmed

/-- Beside status, coverage and human decisions, neither review withholds approval. -/
structure Unheld (old new : FactFields) : Prop where
  enabled : old.enabled = true ∧ new.enabled = true
  not_blocking : old.hasBlockingFindings = false ∧ new.hasBlockingFindings = false
  verdict_blocking : old.reviewVerdict.any (·.unselectedBlockingDefect) = false ∧
    new.reviewVerdict.any (·.unselectedBlockingDefect) = false
  verdict_human : old.reviewVerdict.any (·.unselectedHumanDecision) = false ∧
    new.reviewVerdict.any (·.unselectedHumanDecision) = false
  qualified : old.qualification.accepted = true ∧ new.qualification.accepted = true

/-- The statuses and the coverages of the two reviews that fall together under the maintainer's
exception. -/
def Excusable (old new : FactFields) : Prop :=
  (old.persistenceStatus = none ∧ new.persistenceStatus = none) ∧
    (Downgraded old new ∨ old.reviewStatus = .partialReview ∨
      (old.reviewStatus = .complete ∧ new.reviewStatus = .partialReview)) ∧
    (old.coverageBlocker = some .partialCoverage ∨
      ((old.coverageBlocker = none ∨ old.coverageBlocker = some .reviewed) ∧
        (new.coverageBlocker = none ∨ new.coverageBlocker = some .reviewed ∨
          new.coverageBlocker = some .partialCoverage)))

theorem mergeVerdict_ok {old new verdict : Option ReviewVerdict}
    (h : mergeVerdict old new = .ok verdict) :
    verdict.any (·.unselectedBlockingDefect) =
        (new.any (·.unselectedBlockingDefect) || old.any (·.unselectedBlockingDefect)) ∧
      verdict.any (·.unselectedHumanDecision) =
        (new.any (·.unselectedHumanDecision) || old.any (·.unselectedHumanDecision)) := by
  cases old with
  | none =>
    obtain rfl := Except.ok.inj h
    simp
  | some old =>
    cases new with
    | none =>
      obtain rfl := Except.ok.inj h
      simp
    | some new =>
      obtain ⟨_, _, h1⟩ := bind_ok h
      obtain ⟨merged, hmerged, h2⟩ := bind_ok h1
      obtain rfl := Except.ok.inj h2
      obtain rfl := ReviewVerdict.construct_ok hmerged
      exact ⟨rfl, rfl⟩

theorem mergeFacts_settled {verdict : Option ReviewVerdict} {pending : Bool} :
    (mergeFacts old new verdict pending).Settled ↔
      old.Settled ∧ new.Settled ∧ ¬ Downgraded old new := by
  unfold FactFields.Settled mergeFacts Downgraded
  by_cases hdown : old.evidencePolicy = .confirmed ∧ new.evidencePolicy ≠ .confirmed
  · simp [hdown]
  by_cases hstatus : old.reviewStatus = .complete
  · rcases hold : old.coverageBlocker with _ | _ | _ | _ | _ <;> simp [hdown, hstatus]
  · simp [hdown, hstatus]

theorem mergeFacts_eligible {verdict : Option ReviewVerdict} {pending : Bool} :
    (mergeFacts old new verdict pending).exceptionEligible ↔ Excusable old new := by
  unfold FactFields.exceptionEligible mergeFacts Excusable Downgraded
  have hpersistence : new.persistenceStatus.or old.persistenceStatus = none ↔
      old.persistenceStatus = none ∧ new.persistenceStatus = none := by
    rw [Option.or_eq_none_iff, and_comm]
  have hcoverage : (∀ b : Option CoverageBlocker, b =
      (if old.coverageBlocker ≠ none ∧ old.coverageBlocker ≠ some .reviewed then
        old.coverageBlocker else new.coverageBlocker) →
      ((b = none ∨ b = some .reviewed ∨ b = some .partialCoverage) ↔
        (old.coverageBlocker = some .partialCoverage ∨
          ((old.coverageBlocker = none ∨ old.coverageBlocker = some .reviewed) ∧
            (new.coverageBlocker = none ∨ new.coverageBlocker = some .reviewed ∨
              new.coverageBlocker = some .partialCoverage))))) := by
    intro b hb
    rcases hold : old.coverageBlocker with _ | _ | _ | _ | _ <;> rw [hold] at hb <;> simp [hb]
  rw [and_left_comm, hpersistence, hcoverage _ rfl]
  by_cases hdown : old.evidencePolicy = .confirmed ∧ new.evidencePolicy ≠ .confirmed
  · simp [hdown]
  by_cases hstatus : old.reviewStatus = .complete
  · simp [hdown, hstatus]
  · simp [hdown, hstatus]

/-- The facts of a broader review are clear where both are, apart from the human decisions. -/
theorem mergeFacts_clear {verdict : Option ReviewVerdict} {pending appAuthored : Bool}
    {threads : Option Bool} (h : mergeVerdict old.reviewVerdict new.reviewVerdict = .ok verdict) :
    FactFields.Clear { mergeFacts old new verdict pending with
        appAuthored := appAuthored
        hasOpenReviewThreads := threads } ↔
      Unheld old new ∧ pending = false ∧ appAuthored = false ∧ threads = some false := by
  obtain ⟨hblocking, hhuman⟩ := mergeVerdict_ok h
  have hqualified : (if old.qualification.accepted then new.qualification
      else old.qualification).accepted = true ↔
      old.qualification.accepted = true ∧ new.qualification.accepted = true := by
    cases hold : old.qualification.accepted <;> simp [hold]
  constructor
  · intro hclear
    have henabled := hclear.enabled
    have hfindings := hclear.not_blocking
    have hv1 := hblocking.symm.trans hclear.verdict_blocking
    have hv2 := hhuman.symm.trans hclear.verdict_human
    have hq := hqualified.mp hclear.qualified
    simp only [mergeFacts, Bool.and_eq_true] at henabled
    simp only [mergeFacts, Bool.or_eq_false_iff] at hfindings
    rw [Bool.or_eq_false_iff] at hv1 hv2
    exact ⟨⟨henabled.symm, hfindings.symm, hv1.symm, hv2.symm, hq⟩, hclear.no_human,
      hclear.not_app_authored, hclear.threads⟩
  · rintro ⟨hunheld, hpending, happ, hthreads⟩
    refine ⟨?_, happ, ?_, ?_, ?_, hpending, hthreads, hqualified.mpr hunheld.qualified⟩
    · simp [mergeFacts, hunheld.enabled.1, hunheld.enabled.2]
    · refine hblocking.trans ?_
      simp [hunheld.verdict_blocking.1, hunheld.verdict_blocking.2]
    · refine hhuman.trans ?_
      simp [hunheld.verdict_human.1, hunheld.verdict_human.2]
    · simp [mergeFacts, hunheld.not_blocking.1, hunheld.not_blocking.2]

end Facts

namespace ReviewApprovalEligibility

/-- `evaluate` returns an approval. -/
def Approves (e : ReviewApprovalEligibility rules) (appAuthored : Bool)
    (hasOpenReviewThreads : Option Bool) (coverageUncertaintyAccepted : Bool) : Prop :=
  ∃ decision, e.evaluate appAuthored hasOpenReviewThreads coverageUncertaintyAccepted =
    .ok decision ∧ decision.approved = true

theorem approves_iff (e : ReviewApprovalEligibility rules) (appAuthored : Bool)
    (threads : Option Bool) (accepted : Bool) :
    e.Approves appAuthored threads accepted ↔
      e.requireQuarantine = .ok () ∧ (e.liveFacts appAuthored threads).Clear ∧
        (e.facts.Settled ∨ (accepted = true ∧ e.facts.exceptionEligible)) := by
  constructor
  · rintro ⟨decision, hdecision, happroved⟩
    obtain ⟨_, hquarantine, h⟩ := bind_ok hdecision
    obtain rfl := Except.ok.inj h
    exact ⟨hquarantine, (evaluate_approved _ _).mp happroved⟩
  · rintro ⟨hquarantine, hfacts⟩
    refine ⟨_, ?_, (evaluate_approved (e.liveFacts appAuthored threads) accepted).mpr hfacts⟩
    unfold evaluate
    rw [hquarantine]
    rfl

/-- The eligibility without the human findings of some comments that are resolved. -/
def disregarding (e : ReviewApprovalEligibility rules) (comments : List ReviewComment)
    (resolved : List String) : ReviewApprovalEligibility rules :=
  { e with facts := e.facts.withHuman (comments.any (fun c => c.needsHuman &&
      decide (findingInstanceFingerprint c.toCommentFields ∉ resolved))) }

end ReviewApprovalEligibility

section Broader
variable {others : ResultRules (ResultRest rules.unicode)}

/-- The identities that an eligibility's inventory records as resolved. -/
def resolvedOf (e : ReviewApprovalEligibility rules) : List String :=
  (e.humanReview.map (fun i => i.resolved)).getD []

/-- The combined eligibility approves nothing that the new result or the retained eligibility does
not, and it keeps every retained finding with its body and its state. -/
structure NeverRelaxes (comments : List ReviewComment)
    (retained fresh combined : ReviewApprovalEligibility rules) : Prop where
  approvals : ∀ appAuthored threads accepted, combined.Approves appAuthored threads accepted →
    (fresh.disregarding comments (resolvedOf combined)).Approves appAuthored threads accepted ∧
      retained.Approves appAuthored threads accepted
  findings : ∀ earlier ∈ retained.humanReview, ∀ f ∈ earlier.findings,
    ∃ inventory ∈ combined.humanReview, ∃ g ∈ inventory.findings,
      g.fingerprint = f.fingerprint ∧ g.body = f.body ∧
        (g ∈ inventory.pending ↔ f ∈ earlier.pending)

/-- The retained inventory resolves all its findings and all that the new result adds. -/
def AllResolved (retained : ReviewApprovalEligibility rules) (comments : List ReviewComment) :
    Prop :=
  ∀ earlier ∈ retained.humanReview,
    (∀ f ∈ earlier.findings, f.fingerprint ∈ earlier.resolved) ∧
      ∀ c ∈ comments, c.needsHuman = true →
        findingInstanceFingerprint c.toCommentFields ∈ earlier.resolved

/-- Where nothing else withholds approval, the retained facts carry no decision outside their
inventory, and what the two reviews may share under the maintainer's exception each of them may
have on its own. -/
def NothingMasked (retained : ReviewApprovalEligibility rules) (new : FactFields)
    (comments : List ReviewComment) : Prop :=
  Unheld retained.facts.toFactFields new → AllResolved retained comments →
    ((retained.facts.Settled ∧ new.Settled ∧ ¬ Downgraded retained.facts.toFactFields new) ∨
        Excusable retained.facts.toFactFields new →
      retained.facts.hasHumanAdjudicationFindings = false ∧
        retained.requireQuarantine = .ok ()) ∧
      (Excusable retained.facts.toFactFields new →
        (retained.facts.Settled ∨ retained.facts.exceptionEligible) ∧
          (new.Settled ∨ new.exceptionEligible))

/-- The parts that an accepted combination is made of. -/
structure Combined (result : ReviewResult (resultRules others)) (args : EligibilityArguments)
    (retained combined : ReviewApprovalEligibility rules)
    (earlier inventory : PendingHumanReview rules) : Prop where
  earlier_eq : retained.humanReview = some earlier
  inventory_eq : combined.humanReview = some inventory
  resolved_eq : inventory.resolved = earlier.resolved
  identities : ∀ key, key ∈ inventory.identities ↔ key ∈ earlier.identities ∨
    ∃ c ∈ result.comments, c.needsHuman = true ∧
      findingInstanceFingerprint c.toCommentFields = key
  kept : ∀ f ∈ earlier.findings, f ∈ inventory.findings
  unquarantined : combined.quarantineAssessments = none
  facts_eq : ∃ verdict,
    mergeVerdict retained.facts.reviewVerdict result.reviewVerdict = .ok verdict ∧
      combined.facts.toFactFields = mergeFacts retained.facts.toFactFields
        (resultFacts result args.enabled args.appAuthored args.qualification args.checkPublished
          none) verdict (!inventory.pending.isEmpty)

theorem freshEligibility_ok {result : ReviewResult (resultRules others)}
    {args : EligibilityArguments} {fresh : ReviewApprovalEligibility rules}
    (h : freshEligibility result args = .ok fresh) :
    Human.fromResult rules result.comments args.baseSha = .ok fresh.humanReview ∧
      fresh.facts.toFactFields = resultFacts result args.enabled args.appAuthored
        args.qualification args.checkPublished none ∧
      fresh.quarantineAssessments = none := by
  obtain ⟨inventory, hinventory, h1⟩ := bind_ok h
  obtain ⟨facts, hfacts, h2⟩ := bind_ok h1
  obtain rfl := Except.ok.inj h2
  exact ⟨hinventory, ApprovalFacts.construct_ok hfacts, rfl⟩

theorem approvalEligibilityFromResult_combined {result : ReviewResult (resultRules others)}
    {args : EligibilityArguments} {retained combined : ReviewApprovalEligibility rules}
    (h : approvalEligibilityFromResult result args (some retained) = .ok combined) :
    ∃ earlier inventory, Combined result args retained combined earlier inventory := by
  unfold approvalEligibilityFromResult at h
  obtain ⟨fresh, hfresh, h1⟩ := bind_ok h
  obtain ⟨hnew, hfresh_facts, hfresh_quarantine⟩ := freshEligibility_ok hfresh
  dsimp only at h1
  split at h1
  · cases h1
  · next earlier hearlier =>
    obtain ⟨_, _, h2⟩ := bind_ok h1
    obtain ⟨findings, hfindings, h3⟩ := bind_ok h2
    obtain ⟨inventory, hinventory, h4⟩ := bind_ok h3
    obtain ⟨verdict, hverdict, h5⟩ := bind_ok h4
    obtain ⟨facts, hfacts, h6⟩ := bind_ok h5
    obtain rfl := Except.ok.inj h6
    have hfields := PendingHumanReview.construct_ok hinventory
    obtain ⟨htable, hget, hkeys⟩ := findingsTable_spec earlier
    obtain ⟨htable', hget', hkeys'⟩ := mergeFinding_fold hfindings htable
    have hlist : inventory.findings = findings.map Prod.snd := by rw [hfields]
    have hidentities : inventory.identities = findings.keys := by
      rw [InventoryFields.identities, hlist, htable'.identities]
    refine ⟨earlier, inventory, ?_⟩
    constructor
    · exact hearlier
    · rfl
    · rw [hfields]
    · intro key
      rw [hidentities, hkeys', hkeys, fromResult_identities hnew]
    · intro f hf
      have hmem := Dict.mem_of_get? (hget' _ _ (hget f hf))
      rw [hlist]
      exact List.mem_map.mpr ⟨_, hmem, rfl⟩
    · exact hfresh_quarantine
    · rw [hfresh_facts] at hverdict
      refine ⟨verdict, hverdict, ?_⟩
      rw [ApprovalFacts.construct_ok hfacts, hfresh_facts]

namespace Combined
variable {result : ReviewResult (resultRules others)} {args : EligibilityArguments}
variable {retained combined : ReviewApprovalEligibility rules}
variable {earlier inventory : PendingHumanReview rules}

theorem resolvedOf_eq (h : Combined result args retained combined earlier inventory) :
    resolvedOf combined = earlier.resolved := by
  rw [resolvedOf, h.inventory_eq, Option.map_some, Option.getD_some, h.resolved_eq]

theorem allResolved_iff (h : Combined result args retained combined earlier inventory) :
    (!inventory.pending.isEmpty) = false ↔ AllResolved retained result.comments := by
  have hempty : (!inventory.pending.isEmpty) = false ↔
      ∀ key ∈ inventory.identities, key ∈ inventory.resolved := by
    rw [Bool.not_eq_false', List.isEmpty_iff, InventoryFields.pending, List.filter_eq_nil_iff]
    simp [InventoryFields.identities]
  rw [hempty, h.resolved_eq]
  unfold AllResolved
  rw [h.earlier_eq]
  constructor
  · intro hall held hmem
    obtain rfl : earlier = held := Option.some.inj hmem
    refine ⟨?_, ?_⟩
    · intro f hf
      exact hall _ ((h.identities _).mpr (.inl (List.mem_map.mpr ⟨f, hf, rfl⟩)))
    · intro c hc hneeds
      exact hall _ ((h.identities _).mpr (.inr ⟨c, hc, hneeds, rfl⟩))
  · intro hall key hkey
    obtain ⟨hearlier, hcomments⟩ := hall earlier rfl
    rcases (h.identities key).mp hkey with hold | ⟨c, hc, hneeds, rfl⟩
    · obtain ⟨f, hf, rfl⟩ := List.mem_map.mp hold
      exact hearlier f hf
    · exact hcomments c hc hneeds

/-- What the combined eligibility approves, by the two reviews it is made of. -/
theorem approves (h : Combined result args retained combined earlier inventory)
    (appAuthored : Bool) (threads : Option Bool) (accepted : Bool) :
    combined.Approves appAuthored threads accepted ↔
      Unheld retained.facts.toFactFields (resultFacts result args.enabled args.appAuthored
          args.qualification args.checkPublished none) ∧
        AllResolved retained result.comments ∧ appAuthored = false ∧ threads = some false ∧
        ((retained.facts.Settled ∧
            (resultFacts result args.enabled args.appAuthored args.qualification
              args.checkPublished none).Settled ∧
            ¬ Downgraded retained.facts.toFactFields (resultFacts result args.enabled
              args.appAuthored args.qualification args.checkPublished none)) ∨
          (accepted = true ∧ Excusable retained.facts.toFactFields (resultFacts result
            args.enabled args.appAuthored args.qualification args.checkPublished none))) := by
  obtain ⟨verdict, hverdict, hfacts⟩ := h.facts_eq
  have hquarantine : combined.requireQuarantine = .ok () := by
    unfold ReviewApprovalEligibility.requireQuarantine
    rw [h.unquarantined]
  rw [ReviewApprovalEligibility.approves_iff, ReviewApprovalEligibility.liveFacts, hfacts,
    mergeFacts_clear hverdict, mergeFacts_settled, mergeFacts_eligible, h.allResolved_iff]
  constructor
  · rintro ⟨_, ⟨hunheld, hresolved, happ, hthreads⟩, hcoverage⟩
    exact ⟨hunheld, hresolved, happ, hthreads, hcoverage⟩
  · rintro ⟨hunheld, hresolved, happ, hthreads, hcoverage⟩
    exact ⟨hquarantine, ⟨hunheld, hresolved, happ, hthreads⟩, hcoverage⟩

/-- Of clear reviews the retained one approves where its own human decisions, its document and its
coverage let it. -/
theorem retained_approves {new : FactFields} (hunheld : Unheld retained.facts.toFactFields new)
    (accepted : Bool) :
    retained.Approves false (some false) accepted ↔
      (retained.facts.hasHumanAdjudicationFindings = false ∧
          retained.requireQuarantine = .ok ()) ∧
        (retained.facts.Settled ∨ (accepted = true ∧ retained.facts.exceptionEligible)) := by
  rw [ReviewApprovalEligibility.approves_iff]
  constructor
  · rintro ⟨hquarantine, hclear, hcoverage⟩
    exact ⟨⟨hclear.no_human, hquarantine⟩, hcoverage⟩
  · rintro ⟨⟨hhuman, hquarantine⟩, hcoverage⟩
    exact ⟨hquarantine, ⟨hunheld.enabled.1, rfl, hunheld.verdict_blocking.1,
      hunheld.verdict_human.1, hunheld.not_blocking.1, hhuman, rfl, hunheld.qualified.1⟩, hcoverage⟩

theorem fresh_approves (h : Combined result args retained combined earlier inventory)
    {fresh : ReviewApprovalEligibility rules} (hfresh : freshEligibility result args = .ok fresh)
    (hunheld : Unheld retained.facts.toFactFields (resultFacts result args.enabled
      args.appAuthored args.qualification args.checkPublished none))
    (hresolved : AllResolved retained result.comments) (accepted : Bool) :
    (fresh.disregarding result.comments (resolvedOf combined)).Approves false (some false)
        accepted ↔
      (resultFacts result args.enabled args.appAuthored args.qualification args.checkPublished
          none).Settled ∨
        (accepted = true ∧ (resultFacts result args.enabled args.appAuthored args.qualification
          args.checkPublished none).exceptionEligible) := by
  obtain ⟨_, hfacts, hquarantine⟩ := freshEligibility_ok hfresh
  have hnone : result.comments.any (fun c => c.needsHuman &&
      decide (findingInstanceFingerprint c.toCommentFields ∉ resolvedOf combined)) = false := by
    rw [List.any_eq_false, h.resolvedOf_eq]
    intro c hc hneeds
    rw [Bool.and_eq_true, decide_eq_true_eq] at hneeds
    exact hneeds.2 ((hresolved earlier h.earlier_eq).2 c hc hneeds.1)
  have hready : (fresh.disregarding result.comments (resolvedOf combined)).requireQuarantine =
      .ok () := by
    unfold ReviewApprovalEligibility.requireQuarantine ReviewApprovalEligibility.disregarding
    rw [hquarantine]
  have hsettled : (fresh.disregarding result.comments (resolvedOf combined)).facts.Settled ↔
      fresh.facts.toFactFields.Settled := Iff.rfl
  have heligible :
      (fresh.disregarding result.comments (resolvedOf combined)).facts.exceptionEligible ↔
        fresh.facts.toFactFields.exceptionEligible := Iff.rfl
  rw [ReviewApprovalEligibility.approves_iff, hsettled, heligible, hfacts]
  constructor
  · rintro ⟨_, _, hcoverage⟩
    exact hcoverage
  · intro hcoverage
    refine ⟨hready, ?_, hcoverage⟩
    have hlive : (fresh.disregarding result.comments (resolvedOf combined)).liveFacts false
        (some false) = { fresh.facts.toFactFields with
          hasHumanAdjudicationFindings := false
          appAuthored := false
          hasOpenReviewThreads := some false } := by
      unfold ReviewApprovalEligibility.liveFacts ReviewApprovalEligibility.disregarding
        ApprovalFacts.withHuman
      rw [hnone]
    rw [hlive, hfacts]
    exact ⟨hunheld.enabled.2, rfl, hunheld.verdict_blocking.2, hunheld.verdict_human.2,
      hunheld.not_blocking.2, rfl, rfl, hunheld.qualified.2⟩

end Combined

/-- A broader review never relaxes approval exactly where the merge masks nothing. -/
theorem broader_review_never_relaxes_iff {result : ReviewResult (resultRules others)}
    {args : EligibilityArguments} {retained fresh combined : ReviewApprovalEligibility rules}
    (hfresh : approvalEligibilityFromResult result args none = .ok fresh)
    (hcombined : approvalEligibilityFromResult result args (some retained) = .ok combined) :
    NeverRelaxes result.comments retained fresh combined ↔
      NothingMasked retained (resultFacts result args.enabled args.appAuthored args.qualification
        args.checkPublished none) result.comments := by
  obtain ⟨earlier, inventory, h⟩ := approvalEligibilityFromResult_combined hcombined
  have hfresh' : freshEligibility result args = .ok fresh := by
    obtain ⟨eligibility, heligibility, hrest⟩ := bind_ok hfresh
    obtain rfl := Except.ok.inj hrest
    exact heligibility
  constructor
  · intro hnever hunheld hresolved
    -- an approval of the combination, once without and once with the maintainer's exception
    have hsettled (hs : retained.facts.Settled ∧ _ ∧ ¬ _) := hnever.approvals false (some false)
      false ((h.approves _ _ _).mpr ⟨hunheld, hresolved, rfl, rfl, .inl hs⟩)
    have hexcused (he : Excusable _ _) := hnever.approvals false (some false) true
      ((h.approves _ _ _).mpr ⟨hunheld, hresolved, rfl, rfl, .inr ⟨rfl, he⟩⟩)
    refine ⟨?_, ?_⟩
    · rintro (hs | he)
      · exact ((Combined.retained_approves hunheld _).mp (hsettled hs).2).1
      · exact ((Combined.retained_approves hunheld _).mp (hexcused he).2).1
    · intro he
      obtain ⟨hnew, hold⟩ := hexcused he
      have hold' := ((Combined.retained_approves hunheld _).mp hold).2
      have hnew' := (h.fresh_approves hfresh' hunheld hresolved _).mp hnew
      exact ⟨hold'.imp_right And.right, hnew'.imp_right And.right⟩
  · intro hmasked
    refine ⟨?_, ?_⟩
    · intro appAuthored threads accepted happroves
      obtain ⟨hunheld, hresolved, rfl, rfl, hcoverage⟩ := (h.approves _ _ _).mp happroves
      obtain ⟨hcarried, hexcused⟩ := hmasked hunheld hresolved
      have hown := hcarried (hcoverage.imp_right And.right)
      rw [h.fresh_approves hfresh' hunheld hresolved, Combined.retained_approves hunheld]
      rcases hcoverage with ⟨hold, hnew, _⟩ | ⟨haccepted, he⟩
      · exact ⟨.inl hnew, hown, .inl hold⟩
      · obtain ⟨hold, hnew⟩ := hexcused he
        exact ⟨hnew.imp_right (fun hn => ⟨haccepted, hn⟩), hown,
          hold.imp_right (fun ho => ⟨haccepted, ho⟩)⟩
    · intro held hheld f hf
      obtain rfl : earlier = held := Option.some.inj (h.earlier_eq.symm.trans hheld)
      refine ⟨inventory, h.inventory_eq, f, h.kept f hf, rfl, rfl, ?_⟩
      rw [InventoryFields.pending, InventoryFields.pending, List.mem_filter, List.mem_filter,
        h.resolved_eq]
      simp [h.kept f hf, hf]

end Broader

section Sample

/-- Rules for the ASCII texts of the sample reviews. -/
def sampleRules : Human.Rules where
  unicode := { nfc := fun _ => true, forbidden := fun _ => false }
  lower := fun s => String.ofList (s.toList.map Char.toLower)
  codec := { compress := fun _ => [], inflate := fun _ => none, loads := fun _ => none }

def sampleResultRules : ResultRules (ResultRest sampleRules.unicode) where
  handoff := fun _ => .ok ()
  fields := fun _ => .ok ()
  bounds := fun _ => .ok ()
  reread := .ok

def zeros (n : Nat) : String := String.ofList (List.replicate n '0')

def sampleFinding : HumanReviewFinding sampleRules where
  fingerprint := zeros 64
  path := "a.py"
  body := "Decide."
  accepted := by rfl

set_option maxRecDepth 20000 in
def sampleInventory : PendingHumanReview sampleRules where
  baseSha := zeros 40
  findings := [sampleFinding]
  resolved := [zeros 64]
  legacyCapacityError := none
  accepted := by rfl


/-- A broader review that stopped before it was complete. -/
def sampleResultFields : ResultFields (ResultRest sampleRules.unicode) where
  comments := []
  findingLifecycles := []
  reviewVerdict := none
  rest := { provider := "local", contentDigest := zeros 64, publicationDigest := zeros 64 }

def sampleResult : ReviewResult (resultRules sampleResultRules) where
  toResultFields := sampleResultFields
  accepted := ⟨sampleResultFields, by rfl⟩

def sampleArguments : EligibilityArguments where
  headSha := zeros 40
  enabled := true
  appAuthored := false
  baseSha := some (zeros 40)

def sampleFacts (status : ReviewStatus) (coverage : Option CoverageBlocker) : ApprovalFacts where
  enabled := true
  appAuthored := false
  reviewStatus := status
  evidencePolicy := .legacy
  hasBlockingFindings := false
  hasHumanAdjudicationFindings := false
  coverageBlocker := coverage
  provider := some "local"
  accepted := by rfl

/-- A retained review of some of the files, its one decision resolved. -/
def sampleRetained : ReviewApprovalEligibility sampleRules where
  headSha := zeros 40
  resultDigest := zeros 64
  facts := sampleFacts .partialReview (some .partialCoverage)
  humanReview := some sampleInventory

def sampleFresh : ReviewApprovalEligibility sampleRules where
  headSha := zeros 40
  resultDigest := zeros 64
  facts := sampleFacts .incomplete none

def sampleCombined : ReviewApprovalEligibility sampleRules where
  headSha := zeros 40
  resultDigest := zeros 64
  facts := sampleFacts .partialReview (some .partialCoverage)
  humanReview := some sampleInventory

theorem sample_fresh :
    approvalEligibilityFromResult sampleResult sampleArguments none = .ok sampleFresh := by
  rfl

set_option maxRecDepth 20000 in
theorem sample_combined :
    approvalEligibilityFromResult sampleResult sampleArguments (some sampleRetained) =
      .ok sampleCombined := by
  rfl

/-- The retained partial status and coverage stand in for those of a review that ended early: with
the maintainer's exception the combination is approved, and the new result alone is not. -/
theorem masked_status_relaxes :
    approvalEligibilityFromResult sampleResult sampleArguments none = .ok sampleFresh ∧
      approvalEligibilityFromResult sampleResult sampleArguments (some sampleRetained) =
        .ok sampleCombined ∧
      ¬ NeverRelaxes sampleResult.comments sampleRetained sampleFresh sampleCombined := by
  refine ⟨sample_fresh, sample_combined, ?_⟩
  intro hnever
  obtain ⟨⟨decision, hdecision, happroved⟩, _⟩ := hnever.approvals false (some false) true
    ⟨_, rfl, by decide⟩
  obtain rfl := Except.ok.inj hdecision
  exact absurd happroved (by decide)

theorem sample_relaxes_iff :
    NeverRelaxes sampleResult.comments sampleRetained sampleFresh sampleCombined ↔
      NothingMasked sampleRetained (resultFacts sampleResult sampleArguments.enabled
        sampleArguments.appAuthored sampleArguments.qualification sampleArguments.checkPublished
        none) sampleResult.comments :=
  broader_review_never_relaxes_iff sample_fresh sample_combined

end Sample
end ReviewSensei.Approval
