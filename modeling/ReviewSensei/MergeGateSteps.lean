import ReviewSensei.MergeGate
import Mathlib.Data.List.Dedup

/-! What each path to a completed check counts, as a fact about its inputs. -/
namespace ReviewSensei.Gate
open Review (ReviewComment ReviewVerdict ResultRules ReviewResult)
open Approval (FactFields ApprovalFacts ResultRest resultRules hasBlockingFindings HistoricalView
  ReviewApprovalEligibility)
open Human (PendingHumanReview InventoryFields sorted)
open Session (bind_ok)
open Finalize

variable {rules : Human.Rules} {others : ResultRules (ResultRest rules.unicode)}

section Carried

/-- The human fact of an eligibility is what its inventory and its carried views say. -/
structure Agrees (e : ReviewApprovalEligibility rules) (fresh : Bool) : Prop where
  flag : e.freshHumanPending = .ok fresh
  fact : e.facts.hasHumanAdjudicationFindings = (fresh || e.carriedAssessmentPending)

/-- The readers find the views that the eligibility carries, or they fail. -/
structure Report (readers : CarriedReaders) (e : ReviewApprovalEligibility rules) (fresh : Bool) :
    Prop where
  historical : (readers.historical = none ∧ e.historicalAssessments = none) ∨
    (∃ m, readers.historical = some (.error m)) ∨
    ∃ v, readers.historical = some (.ok v) ∧
      e.historicalAssessments = some { v with freshHumanPending := fresh }
  quarantine : (readers.quarantine = none ∧ e.quarantineAssessments = none) ∨
    (∃ m, readers.quarantine = some (.error m)) ∨
    ∃ v, readers.quarantine = some (.ok v) ∧
      e.quarantineAssessments = some { v with freshHumanPending := fresh }

theorem withHuman_self (f : ApprovalFacts) {pending : Bool}
    (h : f.hasHumanAdjudicationFindings = pending) : f.withHuman pending = f := by
  subst h
  rfl

theorem attachHistorical_same {readers : CarriedReaders} {e e' : ReviewApprovalEligibility rules}
    {fresh : Bool} (hagrees : Agrees e fresh) (hreport : Report readers e fresh)
    (h : attachHistorical readers.historical e = .ok e') : e' = e := by
  rcases hreport.historical with ⟨hreader, _⟩ | ⟨m, hreader⟩ | ⟨v, hreader, hview⟩
  · rw [hreader] at h
    obtain ⟨_, _, h⟩ := bind_ok h
    exact (Except.ok.inj h).symm
  · rw [hreader] at h
    cases h
  · rw [hreader] at h
    obtain ⟨v', hv, hrest⟩ := bind_ok h
    obtain rfl := Except.ok.inj hv
    obtain ⟨fresh', hfresh, hattached⟩ := bind_ok hrest
    obtain rfl := Except.ok.inj (hagrees.flag.symm.trans hfresh)
    have hfact : e.facts.hasHumanAdjudicationFindings =
        (fresh || !v.pending.isEmpty || e.quarantinePending) := by
      rw [hagrees.fact, ReviewApprovalEligibility.carriedAssessmentPending,
        ReviewApprovalEligibility.historicalPending, hview, Option.any_some, Bool.or_assoc]
    rw [← Except.ok.inj hattached, withHuman_self _ hfact, ← hview]

theorem attachQuarantine_same {readers : CarriedReaders} {e e' : ReviewApprovalEligibility rules}
    {fresh : Bool} (hagrees : Agrees e fresh) (hreport : Report readers e fresh)
    (h : attachQuarantine readers.quarantine e = .ok e') : e' = e := by
  rcases hreport.quarantine with ⟨hreader, _⟩ | ⟨m, hreader⟩ | ⟨v, hreader, hview⟩
  · rw [hreader] at h
    obtain ⟨_, _, h⟩ := bind_ok h
    exact (Except.ok.inj h).symm
  · rw [hreader] at h
    cases h
  · rw [hreader] at h
    obtain ⟨v', hv, hrest⟩ := bind_ok h
    obtain rfl := Except.ok.inj hv
    obtain ⟨fresh', hfresh, hattached⟩ := bind_ok hrest
    obtain rfl := Except.ok.inj (hagrees.flag.symm.trans hfresh)
    have hfact : e.facts.hasHumanAdjudicationFindings =
        (fresh || !v.pending.isEmpty || e.historicalPending) := by
      rw [hagrees.fact, ReviewApprovalEligibility.carriedAssessmentPending,
        ReviewApprovalEligibility.quarantinePending, hview, Option.any_some, Bool.or_assoc,
        Bool.or_comm (!v.pending.isEmpty)]
    rw [← Except.ok.inj hattached, withHuman_self _ hfact, ← hview]

/-- What is attached again is what was there. -/
theorem attachCarried_same {readers : CarriedReaders} {e e' : ReviewApprovalEligibility rules}
    {fresh : Bool} (hagrees : Agrees e fresh) (hreport : Report readers e fresh)
    (h : attachCarried readers e = .ok e') : e' = e := by
  obtain ⟨middle, hmiddle, hlast⟩ := bind_ok h
  obtain rfl := attachHistorical_same hagrees hreport hmiddle
  exact attachQuarantine_same hagrees hreport hlast

/-- The readers that find exactly what the eligibility carries. -/
def ownReaders (e : ReviewApprovalEligibility rules) : CarriedReaders where
  historical := e.historicalAssessments.map .ok
  quarantine := e.quarantineAssessments.map .ok

theorem attachHistorical_own {e : ReviewApprovalEligibility rules} {fresh : Bool}
    (hfresh : e.freshHumanPending = .ok fresh) (view : Option HistoricalView)
    (hnone : view = none → e.historicalAssessments = none) :
    ∃ e', attachHistorical (view.map .ok) e = .ok e' := by
  cases view with
  | none =>
    refine ⟨e, ?_⟩
    unfold attachHistorical
    exact ensure_bind (by rw [hnone rfl]; rfl) _
  | some v => exact ⟨_, (ok_bind hfresh _).trans rfl⟩

theorem attachQuarantine_own {e : ReviewApprovalEligibility rules} {fresh : Bool}
    (hfresh : e.freshHumanPending = .ok fresh) (view : Option Quarantine.View)
    (hnone : view = none → e.quarantineAssessments = none) :
    ∃ e', attachQuarantine (view.map .ok) e = .ok e' := by
  cases view with
  | none =>
    refine ⟨e, ?_⟩
    unfold attachQuarantine
    exact ensure_bind (by rw [hnone rfl]; rfl) _
  | some v => exact ⟨_, (ok_bind hfresh _).trans rfl⟩

/-- An eligibility whose views are those of `given`, up to their flag, can be attached again. -/
theorem attachCarried_own {e given : ReviewApprovalEligibility rules} {fresh : Bool}
    (hagrees : Agrees e fresh)
    (hhistorical : e.historicalAssessments =
      given.historicalAssessments.map (fun v => { v with freshHumanPending := fresh }))
    (hquarantine : e.quarantineAssessments =
      given.quarantineAssessments.map (fun v => { v with freshHumanPending := fresh })) :
    attachCarried (ownReaders given) e = .ok e := by
  have hreport : Report (ownReaders given) e fresh := by
    constructor
    · unfold ownReaders
      cases hview : given.historicalAssessments with
      | none => exact .inl ⟨rfl, by rw [hhistorical, hview]; rfl⟩
      | some v => exact .inr (.inr ⟨v, rfl, by rw [hhistorical, hview]; rfl⟩)
    · unfold ownReaders
      cases hview : given.quarantineAssessments with
      | none => exact .inl ⟨rfl, by rw [hquarantine, hview]; rfl⟩
      | some v => exact .inr (.inr ⟨v, rfl, by rw [hquarantine, hview]; rfl⟩)
  obtain ⟨middle, hmiddle⟩ := attachHistorical_own hagrees.flag given.historicalAssessments
    (fun hnone => by rw [hhistorical, hnone]; rfl)
  obtain rfl := attachHistorical_same hagrees hreport hmiddle
  obtain ⟨last, hlast⟩ := attachQuarantine_own hagrees.flag given.quarantineAssessments
    (fun hnone => by rw [hquarantine, hnone]; rfl)
  obtain rfl := attachQuarantine_same hagrees hreport hlast
  exact (ok_bind hmiddle _).trans hlast

/-- The flags of the views are the fresh one already. -/
theorem flags_same {e : ReviewApprovalEligibility rules} {fresh : Bool}
    (hfresh : e.freshHumanPending = .ok fresh) : ∀ flag ∈ e.freshFlags, flag = fresh := by
  unfold ReviewApprovalEligibility.freshHumanPending at hfresh
  dsimp only at hfresh
  obtain ⟨_, hflags, hsame⟩ := bind_ok hfresh
  obtain rfl := Except.ok.inj hsame
  exact ensure_inv hflags

theorem views_same {e : ReviewApprovalEligibility rules} {fresh : Bool}
    (hfresh : e.freshHumanPending = .ok fresh) :
    e.historicalAssessments =
        e.historicalAssessments.map (fun v => { v with freshHumanPending := fresh }) ∧
      e.quarantineAssessments =
        e.quarantineAssessments.map (fun v => { v with freshHumanPending := fresh }) := by
  have hflags := flags_same hfresh
  unfold ReviewApprovalEligibility.freshFlags at hflags
  constructor
  · cases hview : e.historicalAssessments with
    | none => rfl
    | some v =>
      have hflag := hflags v.freshHumanPending (by rw [hview]; exact List.mem_cons_self)
      rw [Option.map_some, ← hflag]
  · cases hview : e.quarantineAssessments with
    | none => rfl
    | some v =>
      have hflag := hflags v.freshHumanPending (by
        rw [hview]
        exact List.mem_append_right _ List.mem_cons_self)
      rw [Option.map_some, ← hflag]

end Carried

section Inventory

/-- Every decided finding is one of the inventory, so the inventory with it is still admitted. -/
theorem resolveHonored_ok (human : PendingHumanReview rules) (honored : List IndexedFinding) :
    ∃ resolved, resolveHonored human honored = .ok resolved ∧
      resolved.findings = human.findings ∧
      ∀ identity, identity ∈ resolved.resolved ↔ identity ∈ human.resolved ∨
        ∃ e ∈ honored, e.needsHuman = true ∧ human.identities.contains e.identity = true ∧
          e.identity = identity := by
  let decided := (honored.filter
    (fun e => e.needsHuman && human.identities.contains e.identity)).map IndexedFinding.identity
  let fields : InventoryFields rules :=
    { human.toInventoryFields with resolved := sorted (human.resolved ++ decided).dedup }
  have hdecided : ∀ identity, identity ∈ decided ↔
      ∃ e ∈ honored, e.needsHuman = true ∧ human.identities.contains e.identity = true ∧
        e.identity = identity := by
    intro identity
    simp only [decided, List.mem_map, List.mem_filter, Bool.and_eq_true, and_assoc]
  have hmember : ∀ identity, identity ∈ fields.resolved ↔
      identity ∈ human.resolved ∨ identity ∈ decided := by
    intro identity
    rw [Human.mem_sorted, List.mem_dedup, List.mem_append]
  have haccepted := human.accepted
  unfold InventoryFields.check at haccepted
  obtain ⟨_, h1, haccepted⟩ := bind_ok haccepted
  obtain ⟨_, h2, haccepted⟩ := bind_ok haccepted
  obtain ⟨_, h3, haccepted⟩ := bind_ok haccepted
  obtain ⟨_, h4, haccepted⟩ := bind_ok haccepted
  obtain ⟨_, h5, haccepted⟩ := bind_ok haccepted
  obtain ⟨_, h6, haccepted⟩ := bind_ok haccepted
  obtain ⟨_, h7, haccepted⟩ := bind_ok haccepted
  obtain ⟨hnodup, hsub⟩ := ensure_inv h6
  have hidentity : ∀ identity ∈ fields.resolved, identity ∈ human.identities := by
    intro identity hmem
    rcases (hmember identity).mp hmem with hold | hnew
    · exact hsub identity hold
    · obtain ⟨e, _, _, hcontains, rfl⟩ := (hdecided identity).mp hnew
      exact List.contains_iff_mem.mp hcontains
  have hsha : ∀ identity ∈ fields.resolved, Session.isSha256 identity = true := by
    intro identity hmem
    obtain ⟨finding, _, rfl⟩ := List.mem_map.mp (hidentity identity hmem)
    have hcheck := finding.accepted
    unfold Human.FindingFields.check at hcheck
    obtain ⟨_, hfirst, _⟩ := bind_ok hcheck
    exact ensure_inv hfirst
  have hfields : fields.resolved.Nodup := by
    have hdedup := List.nodup_dedup (human.resolved ++ decided)
    exact (List.perm_insertionSort _ _).nodup_iff.mpr hdedup
  have hcheck : fields.check = human.toInventoryFields.check := by
    rw [human.accepted]
    -- only the two checks on the resolved identities see a difference
    refine (ok_bind h1 _).trans ((ok_bind h2 _).trans ((ok_bind h3 _).trans ((ok_bind h4 _).trans ?_)))
    refine (ensure_bind hsha _).trans ((ensure_bind ⟨hfields, hidentity⟩ _).trans ?_)
    exact (ok_bind h7 _).trans haccepted
  have hconstruct : ∃ resolved : PendingHumanReview rules,
      PendingHumanReview.construct fields = .ok resolved := by
    unfold PendingHumanReview.construct
    split
    · exact ⟨_, rfl⟩
    · next e he =>
      rw [hcheck, human.accepted] at he
      cases he
  obtain ⟨resolved, hresolved⟩ := hconstruct
  have hsame := PendingHumanReview.construct_ok hresolved
  refine ⟨resolved, hresolved, ?_, ?_⟩
  · rw [hsame]
  · intro identity
    rw [hsame, hmember, hdecided]

end Inventory

section Override

/-- A human decision that the honored findings leave open. -/
def Undecided (record : ReviewApprovalEligibility rules) (entries : List IndexedFinding)
    (active : List String) : Prop :=
  (∃ inventory ∈ record.humanReview, ∃ f ∈ inventory.pending, ∀ e ∈ entries,
      entryHonored active e = true → e.needsHuman = true → e.identity ≠ f.fingerprint) ∨
    (record.humanReview = none ∧ record.freshHumanPending = .ok true) ∨
    record.carriedAssessmentPending = true

/-- A blocking finding in the body that no disposition honors. -/
def bodyBlocker (entries : List IndexedFinding) (active : List String) : Bool :=
  entries.any (fun e => e.blocking && e.bodyPlaced &&
    !((entries.filter (entryHonored active)).map IndexedFinding.identity).contains e.identity)

theorem report_flag {readers : CarriedReaders} {record e : ReviewApprovalEligibility rules}
    {fresh fresh' : Bool} (hreport : Report readers record fresh)
    (hhistorical : e.historicalAssessments =
      record.historicalAssessments.map (fun v => { v with freshHumanPending := fresh' }))
    (hquarantine : e.quarantineAssessments =
      record.quarantineAssessments.map (fun v => { v with freshHumanPending := fresh' })) :
    Report readers e fresh' := by
  constructor
  · rcases hreport.historical with ⟨hreader, hview⟩ | hfails | ⟨v, hreader, hview⟩
    · exact .inl ⟨hreader, by rw [hhistorical, hview]; rfl⟩
    · exact .inr (.inl hfails)
    · exact .inr (.inr ⟨v, hreader, by rw [hhistorical, hview]; rfl⟩)
  · rcases hreport.quarantine with ⟨hreader, hview⟩ | hfails | ⟨v, hreader, hview⟩
    · exact .inl ⟨hreader, by rw [hquarantine, hview]; rfl⟩
    · exact .inr (.inl hfails)
    · exact .inr (.inr ⟨v, hreader, by rw [hquarantine, hview]; rfl⟩)

/-- The carried views after the fresh flag is set. -/
theorem carried_flag {record e : ReviewApprovalEligibility rules} {fresh : Bool}
    (hhistorical : e.historicalAssessments =
      record.historicalAssessments.map (fun v => { v with freshHumanPending := fresh }))
    (hquarantine : e.quarantineAssessments =
      record.quarantineAssessments.map (fun v => { v with freshHumanPending := fresh })) :
    e.carriedAssessmentPending = record.carriedAssessmentPending := by
  unfold ReviewApprovalEligibility.carriedAssessmentPending
    ReviewApprovalEligibility.historicalPending ReviewApprovalEligibility.quarantinePending
  rw [hhistorical, hquarantine]
  cases record.historicalAssessments <;> cases record.quarantineAssessments <;> rfl

/-- A flag that every view has is the fresh one of an eligibility without an inventory. -/
theorem freshHumanPending_views {e record : ReviewApprovalEligibility rules} {fresh : Bool}
    (hhistorical : e.historicalAssessments =
      record.historicalAssessments.map (fun v => { v with freshHumanPending := fresh }))
    (hquarantine : e.quarantineAssessments =
      record.quarantineAssessments.map (fun v => { v with freshHumanPending := fresh }))
    (hfact : e.facts.hasHumanAdjudicationFindings = (fresh || record.carriedAssessmentPending))
    (hinventory : ∀ inventory ∈ e.humanReview, fresh = !inventory.pending.isEmpty) :
    Agrees e fresh := by
  have hflags : ∀ flag ∈ e.freshFlags, flag = fresh := by
    intro flag hflag
    unfold ReviewApprovalEligibility.freshFlags at hflag
    rw [hhistorical, hquarantine] at hflag
    cases hh : record.historicalAssessments <;> cases hq : record.quarantineAssessments <;>
      simp [hh, hq] at hflag
    · exact hflag
    · exact hflag
    · exact hflag
  refine ⟨?_, by rw [hfact, carried_flag hhistorical hquarantine]⟩
  have hvalue : ∀ value, value = fresh →
      (ensure (∀ flag ∈ e.freshFlags, flag = value) "carried assessment fresh facts conflict" >>=
        fun _ => Except.ok value) = .ok fresh := by
    intro value hvalue
    subst hvalue
    exact ensure_bind hflags _
  unfold ReviewApprovalEligibility.freshHumanPending
  cases hreview : e.humanReview with
  | some inventory => exact hvalue _ (hinventory inventory hreview).symm
  | none =>
    refine hvalue _ ?_
    cases hhead : e.freshFlags.head? with
    | some flag => exact hflags flag (List.mem_of_head? hhead)
    | none =>
      -- without a view nothing is carried
      have hempty : e.freshFlags = [] := List.head?_eq_none_iff.mp hhead
      unfold ReviewApprovalEligibility.freshFlags at hempty
      rw [hhistorical, hquarantine] at hempty
      have hcarried : record.carriedAssessmentPending = false := by
        unfold ReviewApprovalEligibility.carriedAssessmentPending
          ReviewApprovalEligibility.historicalPending ReviewApprovalEligibility.quarantinePending
        cases hh : record.historicalAssessments <;> cases hq : record.quarantineAssessments <;>
          simp [hh, hq] at hempty ⊢
      rw [Option.getD_none, hfact, hcarried, Bool.or_false]

/-- A finding of the inventory is left exactly where no honored one decides it. -/
theorem pending_left {human resolved : PendingHumanReview rules} {entries : List IndexedFinding}
    {active : List String} (hfindings : resolved.findings = human.findings)
    (hresolved : ∀ identity, identity ∈ resolved.resolved ↔ identity ∈ human.resolved ∨
      ∃ e ∈ entries.filter (entryHonored active), e.needsHuman = true ∧
        human.identities.contains e.identity = true ∧ e.identity = identity) :
    (!resolved.pending.isEmpty) = true ↔ ∃ f ∈ human.pending, ∀ e ∈ entries,
      entryHonored active e = true → e.needsHuman = true → e.identity ≠ f.fingerprint := by
  have hiff : (!resolved.pending.isEmpty) = true ↔
      ∃ f ∈ resolved.findings, f.fingerprint ∉ resolved.resolved := by
    rw [Bool.not_eq_true', List.isEmpty_eq_false_iff_exists_mem]
    unfold InventoryFields.pending
    simp only [List.mem_filter, decide_eq_true_eq]
  rw [hiff, hfindings]
  constructor
  · rintro ⟨f, hf, hnot⟩
    rw [hresolved, not_or] at hnot
    refine ⟨f, List.mem_filter.mpr ⟨hf, decide_eq_true hnot.1⟩, ?_⟩
    intro e he hhonored hneeds heq
    have hcontains : human.identities.contains e.identity = true := by
      rw [heq]
      exact List.contains_iff_mem.mpr (List.mem_map_of_mem hf)
    exact hnot.2 ⟨e, List.mem_filter.mpr ⟨he, hhonored⟩, hneeds, hcontains, heq⟩
  · rintro ⟨f, hf, hall⟩
    obtain ⟨hmem, hpending⟩ := List.mem_filter.mp hf
    refine ⟨f, hmem, ?_⟩
    rw [hresolved, not_or]
    refine ⟨of_decide_eq_true hpending, ?_⟩
    rintro ⟨e, he, hneeds, _, heq⟩
    obtain ⟨hentry, hhonored⟩ := List.mem_filter.mp he
    exact hall e hentry hhonored hneeds heq

/-- The adjusted record of an override: one record, whatever the readers do, that differs from the
given one in what blocks and in what a human has to decide. -/
theorem overrideRecord_spec {record : ReviewApprovalEligibility rules} {fresh : Bool}
    (hagrees : Agrees record fresh) {document : Json} (hdocument : record.toDict = .ok document)
    (entries : List IndexedFinding) (active : List String) :
    ∃ adjusted,
      overrideRecord (ownReaders record) record entries active = .ok adjusted ∧
      (∀ readers, Report readers record fresh → ∀ e,
        overrideRecord readers record entries active = .ok e → e = adjusted) ∧
      adjusted.facts.reviewStatus = record.facts.reviewStatus ∧
      adjusted.facts.reviewVerdict = record.facts.reviewVerdict ∧
      adjusted.facts.hasBlockingFindings = bodyBlocker entries active ∧
      (adjusted.facts.hasHumanAdjudicationFindings = true ↔ Undecided record entries active) := by
  have hhuman : ∃ human fresh', resolveInventory (entries.filter (entryHonored active))
        record.humanReview = .ok human ∧ record.freshWith (human.or record.humanReview) = .ok fresh' ∧
      (∀ inventory ∈ human.or record.humanReview, fresh' = !inventory.pending.isEmpty) ∧
      ((fresh' || record.carriedAssessmentPending) = true ↔ Undecided record entries active) := by
    cases hreview : record.humanReview with
    | none =>
      refine ⟨none, fresh, rfl, hagrees.flag, (fun inventory h => nomatch h), ?_⟩
      unfold Undecided
      rw [hreview, hagrees.flag, Bool.or_eq_true]
      simp
    | some human =>
      obtain ⟨resolved, hresolved, hfindings, hmember⟩ :=
        resolveHonored_ok human (entries.filter (entryHonored active))
      refine ⟨some resolved, !resolved.pending.isEmpty, ?_, rfl, ?_, ?_⟩
      · unfold resolveInventory
        dsimp only
        rw [hresolved]
        rfl
      · intro inventory hinventory
        obtain rfl := Option.some.inj hinventory
        rfl
      · unfold Undecided
        rw [hreview, Bool.or_eq_true, pending_left hfindings hmember]
        simp
  obtain ⟨human, fresh', hhuman, hfresh', hinventory, hundecided⟩ := hhuman
  let fresh : ReviewApprovalEligibility rules :=
    { record with
      humanReview := human.or record.humanReview
      historicalAssessments :=
        record.historicalAssessments.map (fun v => { v with freshHumanPending := fresh' })
      quarantineAssessments :=
        record.quarantineAssessments.map (fun v => { v with freshHumanPending := fresh' })
      facts := record.facts.withHuman (fresh' || record.carriedAssessmentPending) }
  let adjusted : ReviewApprovalEligibility rules :=
    { fresh with facts := withBlocking fresh.facts (bodyBlocker entries active) }
  have hwith : record.withFreshHumanReview human = .ok fresh := by
    unfold ReviewApprovalEligibility.withFreshHumanReview
    rw [ok_bind hdocument]
    exact (ok_bind hfresh' _).trans rfl
  have hrecord : ∀ readers, overrideRecord readers record entries active =
      attachCarried readers adjusted := by
    intro readers
    unfold overrideRecord
    exact (ok_bind hhuman _).trans (ok_bind hwith _)
  have hadjusted : Agrees adjusted fresh' := freshHumanPending_views rfl rfl rfl hinventory
  refine ⟨adjusted, ?_, ?_, rfl, rfl, rfl, hundecided⟩
  · rw [hrecord]
    exact attachCarried_own hadjusted rfl rfl
  · intro readers hreport e he
    rw [hrecord] at he
    exact attachCarried_same hadjusted (report_flag hreport rfl rfl) he

end Override
end ReviewSensei.Gate
