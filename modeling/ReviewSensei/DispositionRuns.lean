import ReviewSensei.DispositionCommands
import ReviewSensei.JsonFields

/-! Runs of decision commands on one head: the first decision on a finding stays as recorded. -/
namespace ReviewSensei.Disposition
open Session (bind_ok)

variable {ρ : Type} {rules : RecordRules ρ} {ledger : DecisionLedger rules}

/-- The decisions of a record, embedded or under its root. -/
def decisionsOf (ledger : DecisionLedger rules) (record : DecisionRecord rules) : List Decision :=
  match record.snapshot with
  | none => record.dispositions
  | some root => (storedDispositions rules.text true (ledger.inventory root)).toOption.getD []

theorem readSessionDispositions_ok {fails : Option String} {record : DecisionRecord rules}
    {read : List Decision} (h : readSessionDispositions ledger fails record = .ok read) :
    read = decisionsOf ledger record := by
  unfold readSessionDispositions at h
  unfold decisionsOf
  cases hsnapshot : record.snapshot with
  | none =>
    rw [hsnapshot] at h
    exact (Except.ok.inj h).symm
  | some root =>
    rw [hsnapshot] at h
    dsimp only at h ⊢
    split at h
    · cases h
    · rw [h]
      rfl

theorem decisionsOf_cases (ledger : DecisionLedger rules) (record : DecisionRecord rules) :
    decisionsOf ledger record = record.dispositions ∨ decisionsOf ledger record = [] ∨
      ∃ root, storedDispositions rules.text true (ledger.inventory root) =
        .ok (decisionsOf ledger record) := by
  unfold decisionsOf
  split
  · exact .inl rfl
  · next root _ =>
    cases hread : storedDispositions rules.text true (ledger.inventory root) with
    | error e => exact .inr (.inl rfl)
    | ok stored => exact .inr (.inr ⟨root, hread⟩)

/-- Stored decisions are in normal form. -/
theorem decisionsOf_normal (ledger : DecisionLedger rules) (record : DecisionRecord rules) :
    (decisionsOf ledger record).map Decision.normalize = decisionsOf ledger record := by
  rcases decisionsOf_cases ledger record with h | h | ⟨root, h⟩
  · rw [h]
    exact record.normal
  · rw [h]
    rfl
  · exact stored_normal h

/-- There is one decision for each finding and head. -/
theorem decisionsOf_keys_nodup (ledger : DecisionLedger rules) (record : DecisionRecord rules) :
    ((decisionsOf ledger record).map Decision.key).Nodup := by
  rcases decisionsOf_cases ledger record with h | h | ⟨root, h⟩
  · rw [h]
    exact record.keys_nodup
  · rw [h]
    exact List.nodup_nil
  · exact (storedDispositions_ok h).2

section Merge

/-- New decisions go behind the kept ones, and only under keys that have none. -/
theorem addDecision_fold (new : List FindingDisposition) (kept : List Decision) :
    ∃ added, new.foldl addDecision kept = kept ++ added ∧
      (∀ d ∈ added, (∃ n ∈ new, n.toDict = d) ∧ d.key ∉ kept.map Decision.key) ∧
      ∀ n ∈ new, n.key ∈ (kept ++ added).map Decision.key := by
  induction new generalizing kept with
  | nil => exact ⟨[], by simp, by simp, by simp⟩
  | cons n rest ih =>
    rw [List.foldl_cons]
    unfold addDecision
    split
    · next hthere =>
      obtain ⟨added, hfold, hadded, hall⟩ := ih kept
      refine ⟨added, hfold, ?_, ?_⟩
      · intro d hd
        obtain ⟨⟨m, hm, heq⟩, hfresh⟩ := hadded d hd
        exact ⟨⟨m, List.mem_cons_of_mem _ hm, heq⟩, hfresh⟩
      · intro m hm
        rcases List.mem_cons.mp hm with rfl | hm
        · rw [List.map_append]
          exact List.mem_append_left _ (List.contains_iff_mem.mp hthere)
        · exact hall m hm
    · next hfree =>
      obtain ⟨added, hfold, hadded, hall⟩ := ih (kept ++ [n.toDict])
      rw [List.append_assoc, List.singleton_append] at hfold hall
      refine ⟨n.toDict :: added, hfold, ?_, ?_⟩
      · intro d hd
        rcases List.mem_cons.mp hd with rfl | hd
        · exact ⟨⟨n, List.mem_cons_self, rfl⟩, fun hmem => hfree (List.contains_iff_mem.mpr hmem)⟩
        · obtain ⟨⟨m, hm, heq⟩, hfresh⟩ := hadded d hd
          refine ⟨⟨m, List.mem_cons_of_mem _ hm, heq⟩, fun hmem => hfresh ?_⟩
          rw [List.map_append]
          exact List.mem_append_left _ hmem
      · intro m hm
        rcases List.mem_cons.mp hm with rfl | hm
        · rw [List.map_append, List.map_cons]
          exact List.mem_append_right _ List.mem_cons_self
        · exact hall m hm

end Merge

section Evolution

theorem construct_of_stored {f : RecordFields ρ} {stored : List Decision}
    (h : storedDispositions rules.text false f.dispositions = .ok stored)
    (hrejects : rules.rejects { f with dispositions := stored } = none) :
    ∃ record, DecisionRecord.construct rules f = .ok record ∧
      record.toRecordFields = { f with dispositions := stored } := by
  unfold DecisionRecord.construct
  split
  next message hstored =>
    rw [h] at hstored
    cases hstored
  next stored' hstored =>
    obtain rfl : stored = stored' := Except.ok.inj (h.symm.trans hstored)
    rw [hrejects]
    exact ⟨_, rfl, rfl⟩

theorem construct_ok {f : RecordFields ρ} {record : DecisionRecord rules}
    (h : DecisionRecord.construct rules f = .ok record) :
    ∃ stored, storedDispositions rules.text false f.dispositions = .ok stored ∧
      record.toRecordFields = { f with dispositions := stored } := by
  unfold DecisionRecord.construct at h
  split at h
  · cases h
  · next stored hstored =>
    split at h
    · cases h
    · rw [← Except.ok.inj h]
      exact ⟨stored, hstored, rfl⟩

theorem stageManifest_paged {record : DecisionRecord rules} {values : List Decision}
    {manifest : String} (h : stageManifest ledger true record values = .ok manifest) :
    ledger.stageBatch record values = .ok manifest := by
  unfold stageManifest at h
  split at h
  · cases h
  split at h
  · cases h
  rwa [if_pos rfl] at h

/-- A staged record reads back as exactly what was staged. -/
theorem stageSessionDispositions_ok {fails : Failures} {record record' : DecisionRecord rules}
    {decisions : List Decision} {head : Option String} {now : Int}
    (h : stageSessionDispositions ledger fails record decisions head now = .ok record') :
    decisionsOf ledger record' = decisions.map Decision.normalize ∧
      record'.generation = record.generation + 1 := by
  unfold stageSessionDispositions at h
  obtain ⟨digest, _, h⟩ := bind_ok h
  obtain ⟨values, hvalues, h⟩ := bind_ok h
  obtain ⟨manifest, hmanifest, h⟩ := bind_ok h
  obtain ⟨updated, hupdated, h⟩ := bind_ok h
  obtain ⟨_, hreadback, h⟩ := bind_ok h
  obtain rfl := Except.ok.inj h
  obtain ⟨stored, _, hfields⟩ := construct_ok hupdated
  have hsnapshot := congrArg RecordFields.snapshot hfields
  have hgeneration := congrArg RecordFields.generation hfields
  refine ⟨?_, hgeneration⟩
  rw [← (storedDispositions_ok hvalues).1]
  cases hpaged : ledger.stagesBatches && ledger.pagedWrites.getD true with
  | true =>
    -- the batch authenticated the inventory
    rw [hpaged] at hmanifest hsnapshot
    have hread := ledger.batch_reads record values manifest digest (stageManifest_paged hmanifest)
    unfold decisionsOf
    rw [hsnapshot]
    dsimp only
    rw [hread]
    rfl
  | false =>
    rw [hpaged] at hreadback
    obtain ⟨read, hread, hsame⟩ := bind_ok hreadback
    split at hsame
    · cases hsame
    · next heq => rw [← readSessionDispositions_ok hread, not_not.mp heq]

/-- An evolved record holds what survives and what is new; without a change it is the same. -/
theorem evolveDispositions_ok {fails : Failures} {record record' : DecisionRecord rules}
    {new : List FindingDisposition} {head : Option String} {now : Int}
    (h : evolveDispositions ledger fails record new head now = .ok record') :
    decisionsOf ledger record' =
        (mergedDecisions rules.text (decisionsOf ledger record) new head now).map
          Decision.normalize ∧
      (mergedDecisions rules.text (decisionsOf ledger record) new head now =
        decisionsOf ledger record → record' = record) := by
  unfold evolveDispositions at h
  obtain ⟨current, hcurrent, h⟩ := bind_ok h
  obtain rfl := readSessionDispositions_ok hcurrent
  dsimp only at h
  split at h
  · next hsame =>
    obtain rfl := Except.ok.inj h
    exact ⟨by rw [hsame, decisionsOf_normal], fun _ => rfl⟩
  next hchanged =>
  refine ⟨?_, fun hsame => absurd hsame hchanged⟩
  split at h
  · cases h
  split at h
  · exact (stageSessionDispositions_ok h).1
  split at h
  · cases h
  split at h
  · cases h
  obtain ⟨stored, hstored, hfields⟩ := construct_ok h
  have hsnapshot := congrArg RecordFields.snapshot hfields
  have hdispositions := congrArg RecordFields.dispositions hfields
  unfold decisionsOf
  rw [hsnapshot]
  dsimp only
  rw [hdispositions]
  exact (storedDispositions_ok hstored).1

end Evolution

/-- What a command that stored its record did to the decisions. -/
structure Recorded (ledger : DecisionLedger rules) (head : Option String) (now : Int)
    (planned : List FindingDisposition) (record record' : DecisionRecord rules) : Prop where
  decisions : ∃ added,
    decisionsOf ledger record' =
      (decisionsOf ledger record).filter (survives rules.text head now) ++ added ∧
    ∀ d ∈ added, (∃ n ∈ planned, n.toDict.normalize = d) ∧
      d.key ∉ ((decisionsOf ledger record).filter (survives rules.text head now)).map Decision.key
  recorded : ∀ n ∈ planned, n.key ∈ (decisionsOf ledger record').map Decision.key
  unchanged : (∀ d ∈ decisionsOf ledger record, survives rules.text head now d = true) →
    (∀ n ∈ planned, n.key ∈ (decisionsOf ledger record).map Decision.key) → record' = record

theorem map_normalize_filter {l : List Decision} (h : l.map Decision.normalize = l)
    (p : Decision → Bool) : (l.filter p).map Decision.normalize = l.filter p := by
  have hall : ∀ d ∈ l, d.normalize = d := by
    intro d hd
    rw [← h] at hd
    obtain ⟨d', _, rfl⟩ := List.mem_map.mp hd
    exact d'.normalize_idempotent
  calc (l.filter p).map Decision.normalize
      = (l.filter p).map id := List.map_congr_left fun d hd => hall d (List.mem_filter.mp hd).1
    _ = l.filter p := List.map_id _

theorem map_key_normalize (l : List Decision) :
    (l.map Decision.normalize).map Decision.key = l.map Decision.key := by
  rw [List.map_map]
  rfl

theorem evolveDispositions_recorded {fails : Failures} {record record' : DecisionRecord rules}
    {new : List FindingDisposition} {head : Option String} {now : Int}
    (h : evolveDispositions ledger fails record new head now = .ok record') :
    Recorded ledger head now new record record' := by
  obtain ⟨hdecisions, hsame⟩ := evolveDispositions_ok h
  obtain ⟨added, hfold, hadded, hall⟩ := addDecision_fold new
    ((decisionsOf ledger record).filter (survives rules.text head now))
  have hmerged : mergedDecisions rules.text (decisionsOf ledger record) new head now =
      (decisionsOf ledger record).filter (survives rules.text head now) ++ added := hfold
  rw [hmerged] at hdecisions hsame
  have hnormal := map_normalize_filter (decisionsOf_normal ledger record)
    (survives rules.text head now)
  refine ⟨⟨added.map Decision.normalize, ?_, ?_⟩, ?_, ?_⟩
  · rw [hdecisions, List.map_append, hnormal]
  · intro d hd
    obtain ⟨d', hd', rfl⟩ := List.mem_map.mp hd
    obtain ⟨⟨n, hn, rfl⟩, hfresh⟩ := hadded d' hd'
    exact ⟨⟨n, hn, rfl⟩, hfresh⟩
  · intro n hn
    rw [hdecisions, map_key_normalize]
    exact hall n hn
  · intro hsurvive hknown
    have hkept : (decisionsOf ledger record).filter (survives rules.text head now) =
        decisionsOf ledger record := List.filter_eq_self.mpr hsurvive
    have hnone : added = [] := by
      rw [List.eq_nil_iff_forall_not_mem]
      intro d hd
      obtain ⟨⟨n, hn, rfl⟩, hfresh⟩ := hadded d hd
      rw [hkept] at hfresh
      exact hfresh (hknown n hn)
    rw [hkept, hnone, List.append_nil] at hsame
    exact hsame rfl

section Planning
variable {text : TextRules} {command : MaintainerCommand} {args : CommandArguments}

theorem plan_bind_ok {α β : Type} {x : Except CommandError α} {f : α → Except CommandError β}
    {b : β} (h : (x >>= f) = .ok b) : ∃ a, x = .ok a ∧ f a = .ok b := by
  cases x with
  | error e => cases h
  | ok a => exact ⟨a, rfl, h⟩

/-- The planned decisions are on the head of the command. -/
def OnHead (command : MaintainerCommand) (planned : List FindingDisposition) : Prop :=
  ∀ n ∈ planned, n.headSha = command.headSha

theorem planOne_ok {s s' : PlanState} {fingerprint : String} {reference : Option String}
    {receipt : OverrideReceipt}
    (h : planOne text command args s fingerprint reference receipt = .ok s') :
    s'.failed = s.failed ∧ (OnHead command s.planned → OnHead command s'.planned) := by
  unfold planOne at h
  split at h
  · cases h
  · next d hd =>
    obtain rfl := FindingDisposition.construct_ok hd
    rw [← Except.ok.inj h]
    refine ⟨rfl, fun hhead n hn => ?_⟩
    rcases List.mem_append.mp hn with hn | hn
    · exact hhead n hn
    · rw [List.mem_singleton.mp hn]
      rfl

theorem planReference_ok {s s' : PlanState} {reference : String}
    (h : planReference text command args s reference = .ok s') :
    (s'.failed = false →
      s.failed = false ∧
        ∃ found, resolveFindingIdentity reference (planInventory command args) = .ok found) ∧
      (OnHead command s.planned → OnHead command s'.planned) := by
  unfold planReference at h
  split at h
  · rw [← Except.ok.inj h]
    exact ⟨fun hf => (by cases hf), id⟩
  · next found hfound =>
    split at h
    · rw [← Except.ok.inj h]
      exact ⟨fun hf => ⟨hf, found, hfound⟩, id⟩
    · obtain ⟨hfailed, hhead⟩ := planOne_ok h
      exact ⟨fun hf => ⟨hfailed ▸ hf, found, hfound⟩, hhead⟩

theorem planReferences_ok {references : List String} {s s' : PlanState}
    (h : references.foldlM (planReference text command args) s = .ok s') :
    (s'.failed = false → s.failed = false ∧ ∀ reference ∈ references,
      ∃ found, resolveFindingIdentity reference (planInventory command args) = .ok found) ∧
      (OnHead command s.planned → OnHead command s'.planned) := by
  induction references generalizing s with
  | nil =>
    obtain rfl : s = s' := Except.ok.inj h
    exact ⟨fun hf => ⟨hf, by simp⟩, id⟩
  | cons reference rest ih =>
    rw [List.foldlM_cons] at h
    obtain ⟨middle, hstep, hrest⟩ := plan_bind_ok h
    obtain ⟨hresolved, hhead⟩ := planReference_ok hstep
    obtain ⟨hresolved', hhead'⟩ := ih hrest
    refine ⟨fun hf => ?_, fun hs => hhead' (hhead hs)⟩
    obtain ⟨hmiddle, hall⟩ := hresolved' hf
    obtain ⟨hs, hfound⟩ := hresolved hmiddle
    exact ⟨hs, List.forall_mem_cons.mpr ⟨hfound, hall⟩⟩

theorem planFingerprints_ok {fingerprints : List String} {s s' : PlanState}
    (h : fingerprints.foldlM (planFingerprint text command args) s = .ok s') :
    s'.failed = s.failed ∧ (OnHead command s.planned → OnHead command s'.planned) := by
  induction fingerprints generalizing s with
  | nil =>
    obtain rfl : s = s' := Except.ok.inj h
    exact ⟨rfl, id⟩
  | cons fingerprint rest ih =>
    rw [List.foldlM_cons] at h
    obtain ⟨middle, hstep, hrest⟩ := plan_bind_ok h
    obtain ⟨hfailed', hhead'⟩ := ih hrest
    unfold planFingerprint at hstep
    split at hstep
    · obtain rfl := Except.ok.inj hstep
      exact ⟨hfailed', hhead'⟩
    · obtain ⟨hfailed, hhead⟩ := planOne_ok hstep
      exact ⟨hfailed'.trans hfailed, fun hs => hhead' (hhead hs)⟩

/-- A plan resolves every id of its command, and decides on its head. -/
theorem planOverride_ok {planned : List FindingDisposition} {receipts : List OverrideReceipt}
    (h : planOverride text command args = .ok (planned, receipts)) :
    OnHead command planned ∧ ∀ reference ∈ command.references,
      ∃ found, resolveFindingIdentity reference (planInventory command args) = .ok found := by
  unfold planOverride at h
  split at h
  · cases h
  obtain ⟨resolved, hresolved, h⟩ := plan_bind_ok h
  obtain ⟨s, hs, h⟩ := plan_bind_ok h
  split at h
  · cases h
  next hfailed =>
  obtain ⟨rfl, _⟩ := Prod.mk.inj (Except.ok.inj h)
  obtain ⟨hall, hhead⟩ := planReferences_ok hresolved
  obtain ⟨hsame, hhead'⟩ := planFingerprints_ok hs
  have hok : resolved.failed = false := hsame ▸ Bool.eq_false_iff.mpr hfailed
  have hempty : OnHead command [] := fun n hn => absurd hn List.not_mem_nil
  exact ⟨hhead' (hhead hempty), (hall hok).2⟩

theorem planCoverage_ok {planned : List FindingDisposition} {receipts : List OverrideReceipt}
    (h : planCoverage text command args = .ok (planned, receipts)) : OnHead command planned := by
  have hempty : OnHead command [] := fun n hn => absurd hn List.not_mem_nil
  unfold planCoverage at h
  split at h
  · cases h
  next head hhead =>
  dsimp only at h
  split at h
  · obtain ⟨rfl, _⟩ := Prod.mk.inj (Except.ok.inj h)
    exact hempty
  · split at h
    · obtain ⟨rfl, _⟩ := Prod.mk.inj (Except.ok.inj h)
      exact hempty
    · split at h
      · cases h
      · next d hd =>
        obtain rfl := FindingDisposition.construct_ok hd
        obtain ⟨rfl, _⟩ := Prod.mk.inj (Except.ok.inj h)
        intro n hn
        rw [List.mem_singleton.mp hn]
        rfl

theorem planCommand_onHead {planned : List FindingDisposition} {receipts : List OverrideReceipt}
    (h : planCommand text command args = .ok (planned, receipts)) : OnHead command planned := by
  unfold planCommand at h
  split at h
  · exact (planOverride_ok h).1
  · exact planCoverage_ok h

/-- An id that does not resolve fails the whole plan. -/
theorem planCommand_unresolved (text : TextRules) {reference message : String}
    (haction : findingActions.contains command.action = true)
    (hreference : reference ∈ command.references)
    (hunresolved : resolveFindingIdentity reference (planInventory command args) =
      .error message) : ∃ e, planCommand text command args = .error e := by
  unfold planCommand
  rw [if_pos haction]
  cases h : planOverride text command args with
  | error e => exact ⟨e, rfl⟩
  | ok plan =>
    obtain ⟨found, hfound⟩ := (planOverride_ok h).2 reference hreference
    rw [hunresolved] at hfound
    cases hfound

end Planning

section Application
variable {fails : Failures} {command : MaintainerCommand} {args : CommandArguments}
  {record : DecisionRecord rules}

/-- What a command does to a stored record. -/
inductive Applied (ledger : DecisionLedger rules) (command : MaintainerCommand)
    (args : CommandArguments) (record : DecisionRecord rules) :
    Option (DecisionRecord rules) × Except CommandFailure CommandResult → Prop
  | refused (e : CommandError) (hplan : planCommand rules.text command args = .error e) :
      Applied ledger command args record (some record, .error (.planning e))
  | failed (message : String) :
      Applied ledger command args record (some record, .error (.storing message))
  | withheld (result : CommandResult) (hresult : result.applied = false) :
      Applied ledger command args record (some record, .ok result)
  | stored (record' : DecisionRecord rules) (planned : List FindingDisposition)
      (receipts : List OverrideReceipt) (outcome : Except CommandFailure CommandResult)
      (hplan : planCommand rules.text command args = .ok (planned, receipts))
      (hrecorded : Recorded ledger command.headSha args.now planned record record')
      (houtcome : (∃ message, outcome = .error (.answering message)) ∨
        ∃ result, outcome = .ok result) :
      Applied ledger command args record (some record', outcome)

theorem applySessionCommand_applied (ledger : DecisionLedger rules) (fails : Failures)
    (record : DecisionRecord rules) (command : MaintainerCommand) (args : CommandArguments) :
    Applied ledger command args record
      (applySessionCommand ledger fails (some record) command args) := by
  unfold applySessionCommand
  split
  · next e hplan => exact .refused e hplan
  next planned receipts hplan =>
  split
  · exact .failed _
  split
  · exact .withheld _ rfl
  split
  · exact .failed _
  next start hstart =>
  have hsame : start = record := by
    unfold startRecord loadSession at hstart
    cases hload : fails.load with
    | some status =>
      rw [hload] at hstart
      cases hstart
    | none =>
      rw [hload] at hstart
      dsimp only at hstart
      split at hstart
      · next hok =>
        split at hok
        · cases hok
        · exact (Except.ok.inj hstart).symm.trans (Loaded.ok.inj hok).symm
      · cases hstart
      · next hmissing =>
        split at hmissing
        · cases hmissing
        · cases hmissing
  subst hsame
  split
  · exact .failed _
  split
  · exact .failed _
  next before record' hstore =>
  unfold storeDecisions at hstore
  obtain ⟨read, _, hstore⟩ := bind_ok hstore
  rw [show ((some start).isNone && ledger.atomicInitialize) = false from rfl] at hstore
  obtain ⟨next, hevolve, hstore⟩ := bind_ok hstore
  obtain ⟨_, rfl⟩ := Prod.mk.inj (Except.ok.inj hstore)
  have hrecorded := evolveDispositions_recorded hevolve
  split
  · next message _ => exact .stored _ planned receipts _ hplan hrecorded (.inl ⟨message, rfl⟩)
  · next result _ => exact .stored _ planned receipts _ hplan hrecorded (.inr ⟨result, rfl⟩)

end Application

/-- One command, and what fails outside while it is applied. -/
structure Invocation where
  command : MaintainerCommand
  args : CommandArguments
  fails : Failures := {}

/-- The record after a command; a command never removes it. -/
def commandStep (ledger : DecisionLedger rules) (record : DecisionRecord rules)
    (i : Invocation) : DecisionRecord rules :=
  (applySessionCommand ledger i.fails (some record) i.command i.args).1.getD record

def commandRun (ledger : DecisionLedger rules) (record : DecisionRecord rules)
    (invocations : List Invocation) : DecisionRecord rules :=
  invocations.foldl (commandStep ledger) record

section Run

/-- The decision is neither expired at any of the commands nor of another head. -/
def survivesAll (text : TextRules) (head : Option String) (invocations : List Invocation)
    (d : Decision) : Bool :=
  invocations.all (fun i => survives text head i.args.now d)

/-- A command keeps the decisions that survive it, in order. -/
theorem commandStep_keeps (ledger : DecisionLedger rules) (record : DecisionRecord rules)
    {head : Option String} {i : Invocation} (hhead : i.command.headSha = head) :
    ((decisionsOf ledger record).filter (survives rules.text head i.args.now)).Sublist
      (decisionsOf ledger (commandStep ledger record i)) := by
  unfold commandStep
  have happlied := applySessionCommand_applied ledger i.fails record i.command i.args
  revert happlied
  generalize applySessionCommand ledger i.fails (some record) i.command i.args = outcome
  intro happlied
  cases happlied with
  | refused e _ => exact List.filter_sublist
  | failed message => exact List.filter_sublist
  | withheld result _ => exact List.filter_sublist
  | stored record' planned receipts outcome _ hrecorded _ =>
    obtain ⟨added, hdecisions, _⟩ := hrecorded.decisions
    rw [hhead] at hdecisions
    rw [Option.getD_some, hdecisions]
    exact List.sublist_append_left _ _

theorem commandRun_keeps (ledger : DecisionLedger rules) (record : DecisionRecord rules)
    {head : Option String} {invocations : List Invocation} (hhead : ∀ i ∈ invocations, i.command.headSha = head) :
    ((decisionsOf ledger record).filter (survivesAll rules.text head invocations)).Sublist
      (decisionsOf ledger (commandRun ledger record invocations)) := by
  induction invocations generalizing record with
  | nil => exact List.filter_sublist
  | cons i rest ih =>
    have hstep := commandStep_keeps ledger record (hhead i List.mem_cons_self)
    have hrest := ih (commandStep ledger record i)
      fun j hj => hhead j (List.mem_cons_of_mem _ hj)
    have hsplit : (decisionsOf ledger record).filter (survivesAll rules.text head (i :: rest)) =
        ((decisionsOf ledger record).filter (survives rules.text head i.args.now)).filter
          (survivesAll rules.text head rest) := by
      rw [List.filter_filter]
      refine List.filter_congr fun d _ => ?_
      rw [survivesAll, List.all_cons, Bool.and_comm]
      rfl
    rw [hsplit]
    exact (hstep.filter _).trans hrest

theorem commandRun_append (record : DecisionRecord rules) (earlier later : List Invocation) :
    commandRun ledger record (earlier ++ later) =
      commandRun ledger (commandRun ledger record earlier) later :=
  List.foldl_append

/-- What one command of a run owes to the record it is applied to. -/
structure CommandKeeps (ledger : DecisionLedger rules) (record : DecisionRecord rules)
    (i : Invocation) : Prop where
  /-- An id that does not resolve records nothing. -/
  unresolved : findingActions.contains i.command.action = true →
    (∃ reference ∈ i.command.references, ∃ message,
      resolveFindingIdentity reference (planInventory i.command i.args) = .error message) →
    commandStep ledger record i = record ∧
      ∃ e, (applySessionCommand ledger i.fails (some record) i.command i.args).2 =
        .error (.planning e)
  /-- A command that raises before its record is stored leaves the record as it was. -/
  raised : (∃ e, (applySessionCommand ledger i.fails (some record) i.command i.args).2 =
      .error (.planning e)) ∨
    (∃ message, (applySessionCommand ledger i.fails (some record) i.command i.args).2 =
      .error (.storing message)) → commandStep ledger record i = record
  /-- Otherwise what survives stays in place, new keys go behind, and nothing new and nothing to
  drop leaves the record as it was. -/
  stored : commandStep ledger record i = record ∨ ∃ planned, OnHead i.command planned ∧
    Recorded ledger i.command.headSha i.args.now planned record (commandStep ledger record i)

theorem command_keeps (ledger : DecisionLedger rules) (record : DecisionRecord rules)
    (i : Invocation) : CommandKeeps ledger record i := by
  have happlied := applySessionCommand_applied ledger i.fails record i.command i.args
  have hstep : commandStep ledger record i =
    (applySessionCommand ledger i.fails (some record) i.command i.args).1.getD record := rfl
  refine ⟨?_, ?_, ?_⟩
  · rintro haction ⟨reference, hreference, message, hunresolved⟩
    obtain ⟨e, he⟩ := planCommand_unresolved rules.text haction hreference hunresolved
    have happly : applySessionCommand ledger i.fails (some record) i.command i.args =
        (some record, .error (.planning e)) := by
      unfold applySessionCommand
      rw [he]
    rw [hstep, happly]
    exact ⟨rfl, e, rfl⟩
  · intro hraised
    rw [hstep]
    revert happlied hraised
    generalize applySessionCommand ledger i.fails (some record) i.command i.args = outcome
    intro happlied hraised
    cases happlied with
    | refused e _ => rfl
    | failed message => rfl
    | withheld result _ => rfl
    | stored record' planned receipts outcome _ _ houtcome =>
      rcases houtcome with ⟨message, rfl⟩ | ⟨result, rfl⟩
      · rcases hraised with ⟨e, he⟩ | ⟨m, hm⟩
        · cases he
        · cases hm
      · rcases hraised with ⟨e, he⟩ | ⟨m, hm⟩
        · cases he
        · cases hm
  · rw [hstep]
    revert happlied
    generalize applySessionCommand ledger i.fails (some record) i.command i.args = outcome
    intro happlied
    cases happlied with
    | refused e _ => exact .inl rfl
    | failed message => exact .inl rfl
    | withheld result _ => exact .inl rfl
    | stored record' planned receipts outcome hplan hrecorded _ =>
      exact .inr ⟨planned, planCommand_onHead hplan, hrecorded⟩

theorem survives_false {text : TextRules} {head : Option String} {now : Int} {d : Decision}
    (h : survives text head now d = false) :
    dispositionExpired text d now = true ∨
      (head ≠ none ∧ d.headSha ≠ none ∧ d.headSha ≠ head) := by
  simp only [survives, Bool.and_eq_false_iff, Bool.not_eq_false', Bool.and_eq_true,
    decide_eq_true_eq, Option.isSome_iff_ne_none] at h
  rcases h with hexpired | ⟨⟨hhead, hd⟩, hother⟩
  · exact .inl hexpired
  · exact .inr ⟨hhead, hd, hother⟩

end Run

section Sample

/-- Records of decisions alone, over printable ASCII. -/
def sampleRecordRules : RecordRules Unit where
  text :=
    { printable := fun c => decide (0x20 ≤ c.toNat ∧ c.toNat ≤ 0x7e)
      awareDatetime := fun _ => false
      instant := fun _ => none
      timestamp := fun _ => "2027-01-15T08:00:00Z" }
  rejects := fun _ => none
  touch := fun _ _ => ()
  expired := fun _ _ => false
  fresh := fun _ => ()

/-- A ledger without snapshot storage. -/
def sampleLedger : DecisionLedger sampleRecordRules where
  brokerBound := false
  atomicInitialize := false
  writesEnabled := false
  stagesBatches := false
  pagedWrites := none
  capacity := fun _ => 0
  inventory := fun _ => []
  stageDocument := fun _ _ => .error "disposition snapshot staging is unavailable"
  stageBatch := fun _ _ => .error "disposition snapshot staging is unavailable"
  batch_reads := by
    intro _ _ _ _ h
    cases h

def sampleDecision (digit : Char) : Decision where
  fingerprint := Session.repeated 16 digit
  action := "dismiss"
  reason := "known"
  actor := "octo"
  headSha := some (Session.repeated 40 digit)
  expiresAt := none

/-- A record with a decision on this head and one on an earlier head. -/
def sampleRecord : Except String (DecisionRecord sampleRecordRules) :=
  DecisionRecord.construct sampleRecordRules
    { generation := 0
      dispositions := [sampleDecision 'a', sampleDecision 'b']
      snapshot := none
      transaction := none
      rest := () }

/-- The command that made the decision on this head, once more. -/
def sampleInvocation : Invocation where
  command :=
    { action := "dismiss"
      actor := "octo"
      reason := some "known"
      findingFingerprint := some (Session.repeated 16 'a')
      headSha := some (Session.repeated 40 'a') }
  args := { now := 0 }

/-- Every run of commands on one head: a decision that was recorded and neither expired nor
belongs to another head stays as the only one of its finding and head, all such decisions stay in
order, only expired decisions and those of other heads disappear, and every command owes the
record what `CommandKeeps` says. -/
theorem session_command_runs (ledger : DecisionLedger rules) (record : DecisionRecord rules)
    (head : Option String) (invocations : List Invocation)
    (hhead : ∀ i ∈ invocations, i.command.headSha = head) :
    let last := decisionsOf ledger (commandRun ledger record invocations)
    (∀ earlier later, invocations = earlier ++ later →
      let before := decisionsOf ledger (commandRun ledger record earlier)
      (before.filter (survivesAll rules.text head later)).Sublist last ∧
      (∀ d ∈ before, survivesAll rules.text head later d = true →
        d ∈ last ∧ ∀ d' ∈ last, d'.key = d.key → d' = d) ∧
      ∀ d ∈ before, d ∉ last → ∃ i ∈ later, dispositionExpired rules.text d i.args.now = true ∨
        (head ≠ none ∧ d.headSha ≠ none ∧ d.headSha ≠ head)) ∧
    ∀ earlier i later, invocations = earlier ++ i :: later →
      CommandKeeps ledger (commandRun ledger record earlier) i := by
  intro last
  refine ⟨?_, fun earlier i _ _ => command_keeps ledger _ i⟩
  intro earlier later hsplit before
  have hlast : last = decisionsOf ledger
      (commandRun ledger (commandRun ledger record earlier) later) := by
    rw [← commandRun_append, ← hsplit]
  have hsub : (before.filter (survivesAll rules.text head later)).Sublist last := by
    rw [hlast]
    refine commandRun_keeps ledger _ fun i hi => hhead i ?_
    rw [hsplit]
    exact List.mem_append_right _ hi
  refine ⟨hsub, ?_, ?_⟩
  · intro d hd hsurvives
    have hmem : d ∈ last := hsub.subset (List.mem_filter.mpr ⟨hd, hsurvives⟩)
    refine ⟨hmem, fun d' hd' hkey => ?_⟩
    exact List.inj_on_of_nodup_map (decisionsOf_keys_nodup ledger _) hd' hmem hkey
  · intro d hd hgone
    have hdropped : survivesAll rules.text head later d = false := by
      by_contra hkept
      rw [Bool.not_eq_false] at hkept
      exact hgone (hsub.subset (List.mem_filter.mpr ⟨hd, hkept⟩))
    obtain ⟨i, hi, hfalse⟩ := List.all_eq_false.mp hdropped
    exact ⟨i, hi, survives_false (Bool.not_eq_true _ ▸ hfalse)⟩

theorem sample_bytes :
    dispositionArrayBytes [sampleDecision 'a', sampleDecision 'b'] ≤ maxDispositionBytes := by
  have hsize (s : String) : s.utf8ByteSize = (Sha256.encode s).length := by
    rw [Sha256.encode, List.length_map]
    rfl
  unfold dispositionArrayBytes
  rw [hsize, Json.encode_canonical, Json.canonicalSize_plain (by decide)]
  decide

theorem sample_stored : storedDispositions sampleRecordRules.text false
    [sampleDecision 'a', sampleDecision 'b'] = .ok [sampleDecision 'a', sampleDecision 'b'] := by
  have hchecked : [sampleDecision 'a', sampleDecision 'b'].mapM
      (checkEntry sampleRecordRules.text) = .ok [sampleDecision 'a', sampleDecision 'b'] := by
    decide
  have hsize : ¬ (!false && decide (maxDispositionBytes <
      dispositionArrayBytes [sampleDecision 'a', sampleDecision 'b'])) = true := by
    rw [Bool.not_false, Bool.true_and, decide_eq_true_eq]
    exact Nat.not_lt.mpr sample_bytes
  unfold storedDispositions
  rw [if_neg (by decide), ok_bind hchecked, if_neg hsize, if_neg (by decide),
    if_neg (by decide)]

/-- The record of the sample, by its fields. -/
def sampleHeld : DecisionRecord sampleRecordRules where
  generation := 0
  dispositions := [sampleDecision 'a', sampleDecision 'b']
  snapshot := none
  transaction := none
  rest := ()
  normal := by decide
  keys_nodup := by decide

theorem sampleRecord_held : sampleRecord = .ok sampleHeld := by
  obtain ⟨record, hrecord, hfields⟩ := @construct_of_stored Unit sampleRecordRules
    sampleHeld.toRecordFields _ sample_stored rfl
  obtain ⟨fields, hnormal, hnodup⟩ := record
  obtain rfl : fields = sampleHeld.toRecordFields := hfields
  exact hrecord

theorem sampleRecord_ok : ∃ record, sampleRecord = .ok record ∧
    record.dispositions = [sampleDecision 'a', sampleDecision 'b'] ∧ record.snapshot = none :=
  ⟨sampleHeld, sampleRecord_held, rfl, rfl⟩

/-- The decision on this head stays through the repeated command. -/
theorem sample_command_run : ∃ record, sampleRecord = .ok record ∧
    sampleDecision 'a' ∈ decisionsOf sampleLedger
      (commandRun sampleLedger record [sampleInvocation]) := by
  obtain ⟨record, hrecord, hdispositions, hsnapshot⟩ := sampleRecord_ok
  have hhead : ∀ i ∈ [sampleInvocation], i.command.headSha = some (Session.repeated 40 'a') := by
    intro i hi
    rw [List.mem_singleton.mp hi]
    rfl
  have hmem : sampleDecision 'a' ∈ decisionsOf sampleLedger record := by
    unfold decisionsOf
    rw [hsnapshot, hdispositions]
    exact List.mem_cons_self
  have hsurvives : survivesAll sampleRecordRules.text (some (Session.repeated 40 'a'))
      [sampleInvocation] (sampleDecision 'a') = true := by
    decide
  have hrun := (session_command_runs sampleLedger record _ [sampleInvocation] hhead).1
    [] [sampleInvocation] rfl
  exact ⟨record, hrecord, (hrun.2.1 _ hmem hsurvives).1⟩

/-- The outcomes of the repeated command's receipts, and the decisions and the generation of the
record before and after it. -/
def repeatedCommand : Option (List String × (List Decision × Nat) × List Decision × Nat) := do
  let record ← sampleRecord.toOption
  let applied := applySessionCommand sampleLedger {} (some record) sampleInvocation.command
    sampleInvocation.args
  let result ← applied.2.toOption
  let record' ← applied.1
  some (result.receipts.map (·.outcome), (decisionsOf sampleLedger record, record.generation),
    decisionsOf sampleLedger record', record'.generation)

/-- A command that adds nothing still drops the decision of the earlier head, and so moves the
generation of the record. -/
theorem repeated_command_evolves : repeatedCommand =
    some (["already-recorded"], ([sampleDecision 'a', sampleDecision 'b'], 0),
      [sampleDecision 'a'], 1) := by
  unfold repeatedCommand
  rw [sampleRecord_held]
  decide +kernel

end Sample
end ReviewSensei.Disposition
