import ReviewSensei.ApiWorkSteps
import ReviewSensei.Fenced
import ReviewSensei.SessionLedger
import Mathlib.Data.List.Chain

/-! Runs of the accounting transitions from an initial record, and chains of records that accept
one another. -/
namespace ReviewSensei.ApiWork
open Fenced ApiRunAccounting

variable {rules : AccountingRules} {r r' s : ApiRunAccounting rules}

/-- One call of a transition, with the arguments its caller holds. -/
inductive Transition
  | reserve (blockId : String) (requests : Nat)
  | dispatch (blockId : String) (request : PendingApiRequest)
  | confirm (request : PendingApiRequest)
  | claimStartup (owner : ApiExecutionOwner)

namespace Transition

def apply : Transition → ApiRunAccounting rules → Except String (ApiRunAccounting rules)
  | reserve blockId requests, r => r.reserve blockId requests
  | dispatch blockId request, r => r.dispatch blockId request
  | confirm request, r => r.confirm request
  | claimStartup owner, r => r.claimStartup owner

def dispatchedId : Transition → Option String
  | dispatch _ request => some request.requestId
  | _ => none

def claimedSlot : Transition → Option SlotKey
  | claimStartup owner => some owner.key
  | _ => none

end Transition

/-- A failed transition leaves the record as it was. -/
def transitioned (r : ApiRunAccounting rules) (t : Transition) : ApiRunAccounting rules :=
  match t.apply r with
  | .ok r' => r'
  | .error _ => r

def accountingRun (r : ApiRunAccounting rules) (ts : List Transition) : ApiRunAccounting rules :=
  run transitioned r ts

/-- The transitions of a run that succeeded, in order. -/
def taken (r : ApiRunAccounting rules) : List Transition → List Transition
  | [] => []
  | t :: ts =>
    match t.apply r with
    | .ok r' => t :: taken r' ts
    | .error _ => taken r ts

/-- The transitions change only the owner, the claimed slots, the blocks and the completed
requests. -/
def SameRun (r r' : ApiRunAccounting rules) : Prop :=
  r'.toAccountingFields =
    { r.toAccountingFields with
      owner := r'.owner, startupUsed := r'.startupUsed, blocks := r'.blocks
      completed := r'.completed }

theorem apply_sameRun {t : Transition} (h : t.apply r = .ok r') : SameRun r r' := by
  unfold SameRun
  cases t with
  | reserve blockId requests =>
    obtain ⟨_, _, _, _, _, hr'⟩ := reserve_ok h
    rw [hr']
  | dispatch blockId request =>
    obtain ⟨_, _, _, _, _, _, _, hr'⟩ := dispatch_ok h
    rw [hr']
  | confirm request => rw [(confirm_ok h).2]
  | claimStartup owner => rw [(claimStartup_ok h).2.2.2]

theorem actionKept_refl (action : Option CallerAction) : ActionKept action action := by
  cases action with
  | none => trivial
  | some a => exact ⟨rfl, id, fun _ => rfl⟩

/-- What is left to check of a transition that keeps the rest of the record. -/
theorem SameRun.successor (hsame : SameRun r r')
    (hremaining : r'.remaining ≤ r.remaining) (hcompleted : r.completed <+: r'.completed)
    (howned : ∃ owned, r.claimed r' = .ok owned ∧ r'.startupUsed = owned.startupUsed)
    (hused : r.startupUsed <+: r'.startupUsed) (hgeneration : r.owner.generation ≤ r'.owner.generation)
    (hfresh : ∀ b ∈ r'.blocks, (∀ p ∈ r.blocks, p.blockId ≠ b.blockId) → b.issuedBy = r'.owner)
    (hkept : ∀ p ∈ r.blocks, Keeps r'.toAccountingFields p) : Successor r r' := by
  have hfields := hsame
  unfold SameRun at hfields
  refine
    { identity := ?_, configuration := ?_, version := ?_, terminal := fun _ => ?_
      abort := fun _ => ?_, previous := ?_, action := ?_, owned := howned, startup := ?_
      startupUsed := hused, completed := hcompleted, prior := ?_, remaining := hremaining
      generation := hgeneration, fresh := hfresh, kept := hkept } <;> rw [hfields]
  exact actionKept_refl _

/-- The owner is the same one, so nothing is claimed. -/
theorem claimed_same (howner : r'.owner = r.owner) (hused : r'.startupUsed = r.startupUsed) :
    ∃ owned, r.claimed r' = .ok owned ∧ r'.startupUsed = owned.startupUsed :=
  ⟨r, if_pos howner, hused⟩

theorem keeps_self {f : AccountingFields} {p : CallerRequestBlock} (hp : p ∈ f.blocks) :
    Keeps f p :=
  ⟨p, hp, rfl, rfl, .inr rfl, fun _ hq => .inl hq⟩

theorem reserve_successor {blockId : String} {requests : Nat}
    (h : r.reserve blockId requests = .ok r') : Successor r r' := by
  have hsame := apply_sameRun (t := .reserve blockId requests) h
  have hremaining := remaining_reserve h
  obtain ⟨block, hid, hissuer, _, _, hr'⟩ := reserve_ok h
  have howner : r'.owner = r.owner := by rw [hr']
  have hused : r'.startupUsed = r.startupUsed := by rw [hr']
  have hblocks : r'.blocks = r.blocks ++ [block] := by rw [hr']
  have hcompleted : r'.completed = r.completed := by rw [hr']
  refine hsame.successor (by omega) (hcompleted ▸ List.prefix_refl _)
    (claimed_same howner hused) (hused ▸ List.prefix_refl _) (by rw [howner]) ?_ ?_
  · intro b hb hnew
    rw [hblocks, List.mem_append, List.mem_singleton] at hb
    rcases hb with hold | rfl
    · exact absurd rfl (hnew b hold)
    · exact hissuer.trans howner.symm
  · intro p hp
    apply keeps_self
    rw [hblocks]
    exact List.mem_append_left _ hp

theorem dispatch_successor {blockId : String} {request : PendingApiRequest}
    (h : r.dispatch blockId request = .ok r') : Successor r r' := by
  have hsame := apply_sameRun (t := .dispatch blockId request) h
  have hremaining := remaining_dispatch h
  obtain ⟨_, before, block, spent, after, hspent, hbefore, hr'⟩ := dispatch_ok h
  have howner : r'.owner = r.owner := by rw [hr']
  have hused : r'.startupUsed = r.startupUsed := by rw [hr']
  have hblocks : r'.blocks = before ++ spent :: after := by rw [hr']
  have hcompleted : r'.completed = r.completed := by rw [hr']
  refine hsame.successor (by omega) (hcompleted ▸ List.prefix_refl _)
    (claimed_same howner hused) (hused ▸ List.prefix_refl _) (by rw [howner]) ?_ ?_
  · intro b hb hnew
    rw [hblocks, List.mem_append, List.mem_cons] at hb
    rw [hbefore] at hnew
    rcases hb with hb | rfl | hb
    · exact absurd rfl (hnew b (by simp [hb]))
    · exact absurd hspent.same_id.symm (hnew block (by simp))
    · exact absurd rfl (hnew b (by simp [hb]))
  · intro p hp
    rw [hbefore, List.mem_append, List.mem_cons] at hp
    rcases hp with hp | rfl | hp
    · exact keeps_self (by rw [hblocks]; simp [hp])
    · refine ⟨spent, by rw [hblocks]; simp, hspent.same_id, hspent.same_issuer,
        .inl (hspent.issued.trans howner.symm), fun q hq => .inl ?_⟩
      rw [hspent.pending]
      exact List.mem_append_left _ hq
    · exact keeps_self (by rw [hblocks]; simp [hp])

theorem confirm_successor {request : PendingApiRequest} (h : r.confirm request = .ok r') :
    Successor r r' := by
  have hsame := apply_sameRun (t := .confirm request) h
  have hremaining := remaining_confirm h
  obtain ⟨_, hr'⟩ := confirm_ok h
  have howner : r'.owner = r.owner := by rw [hr']
  have hused : r'.startupUsed = r.startupUsed := by rw [hr']
  have hblocks : r'.blocks = r.blocks.map (fun b => b.without request) := by rw [hr']
  have hcompleted : r'.completed = r.completed ++ [request] := by rw [hr']
  refine hsame.successor (by omega) (hcompleted ▸ List.prefix_append _ _)
    (claimed_same howner hused) (hused ▸ List.prefix_refl _) (by rw [howner]) ?_ ?_
  · intro b hb hnew
    rw [hblocks] at hb
    obtain ⟨p, hp, rfl⟩ := List.mem_map.mp hb
    exact absurd rfl (hnew p hp)
  · intro p hp
    refine ⟨p.without request, by rw [hblocks]; exact List.mem_map_of_mem hp, rfl, rfl,
      .inr rfl, fun q hq => ?_⟩
    by_cases hsame : q = request
    · right
      rw [hcompleted, hsame]
      exact List.mem_append_right _ List.mem_cons_self
    · left
      exact List.mem_filter.mpr ⟨hq, decide_eq_true hsame⟩

theorem claimStartup_successor {owner : ApiExecutionOwner} (h : r.claimStartup owner = .ok r') :
    Successor r r' := by
  have hsame := apply_sameRun (t := .claimStartup owner) h
  have hremaining := remaining_claimStartup h
  obtain ⟨_, _, hgeneration, hr'⟩ := claimStartup_ok h
  have howner : r'.owner = owner := by rw [hr']
  have hused : r'.startupUsed = r.startupUsed ++ [owner.key] := by rw [hr']
  have hblocks : r'.blocks = r.blocks := by rw [hr']
  have hcompleted : r'.completed = r.completed := by rw [hr']
  have hclaimed : r.claimed r' = .ok r' := by
    unfold claimed
    have hother : owner ≠ r.owner := fun heq => by
      rw [heq] at hgeneration
      omega
    rw [howner, if_neg hother, h]
  refine hsame.successor (by omega) (hcompleted ▸ List.prefix_refl _)
    ⟨r', hclaimed, rfl⟩ (hused ▸ List.prefix_append _ _) (by rw [howner]; omega) ?_ ?_
  · intro b hb hnew
    rw [hblocks] at hb
    exact absurd rfl (hnew b hb)
  · intro p hp
    apply keeps_self
    rw [hblocks]
    exact hp

/-- Every transition is accepted as the successor of the record it was taken on. -/
theorem apply_successor {t : Transition} (h : t.apply r = .ok r') : Successor r r' := by
  cases t with
  | reserve => exact reserve_successor h
  | dispatch => exact dispatch_successor h
  | confirm => exact confirm_successor h
  | claimStartup => exact claimStartup_successor h

/-- The request ids of a record after a transition: a dispatch adds a fresh one. -/
theorem apply_requestIds {t : Transition} (h : t.apply r = .ok r') :
    r'.requestIds.Perm (r.requestIds ++ t.dispatchedId.toList) := by
  cases t with
  | reserve blockId requests =>
    obtain ⟨block, _, _, _, hpending, hr'⟩ := reserve_ok h
    have hids : r'.requestIds = r.requestIds := by
      rw [hr']
      simp [AccountingFields.requestIds, AccountingFields.pendingRequests, hpending]
    rw [hids]
    simp [Transition.dispatchedId]
  | dispatch blockId request =>
    obtain ⟨_, before, block, spent, after, hspent, hbefore, hr'⟩ := dispatch_ok h
    rw [hr']
    simp only [AccountingFields.requestIds, AccountingFields.pendingRequests, hbefore,
      List.flatMap_append, List.flatMap_cons, hspent.pending, List.map_append, List.map_cons,
      List.map_nil, Transition.dispatchedId, Option.toList_some, List.append_assoc]
    refine ((List.Perm.append_left _) ?_).append_left _
    rw [List.singleton_append, ← List.append_assoc]
    exact (List.perm_append_singleton _ _).symm
  | confirm request =>
    obtain ⟨hcount, hr'⟩ := confirm_ok h
    have hpending := (confirm_pending h).1
    -- The request occurs once, so filtering it out is erasing it.
    have herased : (request :: r'.pendingRequests).Perm r.pendingRequests := by
      rw [hpending, List.perm_iff_count]
      intro q
      by_cases hq : q = request
      · subst hq
        rw [List.count_cons_self, List.count_eq_zero_of_not_mem (by simp)]
        omega
      · rw [List.count_cons_of_ne (Ne.symm hq), List.count_filter (by simpa using hq)]
    have hcompleted : r'.completed = r.completed ++ [request] := by rw [hr']
    simp only [AccountingFields.requestIds, hcompleted, List.map_append, List.map_cons,
      List.map_nil, Transition.dispatchedId, Option.toList_none, List.append_nil]
    have hmapped := (herased.map PendingApiRequest.requestId).append_right
      (r.completed.map PendingApiRequest.requestId)
    refine List.Perm.trans ?_ hmapped
    rw [List.map_cons, ← List.append_assoc]
    exact List.perm_append_singleton _ _
  | claimStartup owner =>
    have hids : r'.requestIds = r.requestIds := by
      rw [(claimStartup_ok h).2.2.2]
      rfl
    rw [hids]
    simp [Transition.dispatchedId]

/-- The claimed slots of a record after a transition. -/
theorem apply_startupUsed {t : Transition} (h : t.apply r = .ok r') :
    r'.startupUsed = r.startupUsed ++ t.claimedSlot.toList := by
  cases t with
  | reserve =>
    obtain ⟨_, _, _, _, _, hr'⟩ := reserve_ok h
    rw [hr']
    exact (List.append_nil _).symm
  | dispatch =>
    obtain ⟨_, _, _, _, _, _, _, hr'⟩ := dispatch_ok h
    rw [hr']
    exact (List.append_nil _).symm
  | confirm =>
    rw [(confirm_ok h).2]
    exact (List.append_nil _).symm
  | claimStartup owner =>
    rw [(claimStartup_ok h).2.2.2]
    rfl

/-- A claim hands over to the next generation; no other transition changes the owner. -/
theorem apply_owner {t : Transition} (h : t.apply r = .ok r') :
    r.owner.runAttempt ≤ r'.owner.runAttempt ∧
      (t.claimedSlot = none → r'.owner = r.owner) ∧
      (t.claimedSlot ≠ none → r'.owner.generation = r.owner.generation + 1) := by
  cases t with
  | reserve =>
    obtain ⟨_, _, _, _, _, hr'⟩ := reserve_ok h
    have howner : r'.owner = r.owner := by rw [hr']
    exact ⟨by rw [howner], fun _ => howner, fun hclaim => absurd rfl hclaim⟩
  | dispatch =>
    obtain ⟨_, _, _, _, _, _, _, hr'⟩ := dispatch_ok h
    have howner : r'.owner = r.owner := by rw [hr']
    exact ⟨by rw [howner], fun _ => howner, fun hclaim => absurd rfl hclaim⟩
  | confirm =>
    have howner : r'.owner = r.owner := by rw [(confirm_ok h).2]
    exact ⟨by rw [howner], fun _ => howner, fun hclaim => absurd rfl hclaim⟩
  | claimStartup owner =>
    obtain ⟨hattempt, _, hgeneration, hr'⟩ := claimStartup_ok h
    have howner : r'.owner = owner := by rw [hr']
    rw [howner]
    exact ⟨hattempt, by rintro ⟨⟩, fun _ => hgeneration⟩

theorem transitioned_eq (r : ApiRunAccounting rules) (t : Transition) :
    transitioned r t = r ∨ t.apply r = .ok (transitioned r t) := by
  unfold transitioned
  cases h : t.apply r with
  | ok r' => exact .inr rfl
  | error e => exact .inl rfl

/-- Over a run, the record lists the request ids it started with and those dispatched, and the
slots it started with and those claimed. -/
theorem run_lists (r : ApiRunAccounting rules) (ts : List Transition) :
    (accountingRun r ts).requestIds.Perm
        (r.requestIds ++ (taken r ts).filterMap Transition.dispatchedId) ∧
      (accountingRun r ts).startupUsed =
        r.startupUsed ++ (taken r ts).filterMap Transition.claimedSlot := by
  induction ts generalizing r with
  | nil => simp [accountingRun, taken]
  | cons t ts ih =>
    have hrun : accountingRun r (t :: ts) = accountingRun (transitioned r t) ts := rfl
    rw [hrun]
    unfold transitioned taken
    cases h : t.apply r with
    | error e => exact ih r
    | ok r' =>
      obtain ⟨hids, hslots⟩ := ih r'
      have hsplit {α : Type} (f : Transition → Option α) (us : List Transition) :
          (t :: us).filterMap f = (f t).toList ++ us.filterMap f := by
        rw [List.filterMap_cons]
        cases f t <;> rfl
      simp only [hsplit, ← List.append_assoc]
      exact ⟨hids.trans ((apply_requestIds h).append_right _),
        hslots.trans (by rw [apply_startupUsed h])⟩

theorem run_remaining (r : ApiRunAccounting rules) (ts : List Transition) :
    (accountingRun r ts).remaining ≤ r.remaining ∧
      (accountingRun r ts).configuration = r.configuration := by
  refine run_keeps (P := fun (s : ApiRunAccounting rules) =>
    s.remaining ≤ r.remaining ∧ s.configuration = r.configuration) ?_ ⟨le_refl _, rfl⟩ ts
  intro s t hs
  rcases transitioned_eq s t with heq | happly
  · rw [heq]
    exact hs
  · have hnext := apply_successor happly
    exact ⟨le_trans hnext.remaining hs.1, hnext.configuration.trans hs.2⟩

/-- A block that loses an undispatched request is one the current owner issued. -/
theorem apply_spends {t : Transition} (h : t.apply r = .ok r') {b b' : CallerRequestBlock}
    (hb : b ∈ r.blocks) (hb' : b' ∈ r'.blocks) (hid : b'.blockId = b.blockId)
    (hspent : b'.undispatched ≠ b.undispatched) : b.issuedBy = r.owner := by
  obtain ⟨c, hc, hcid, _, hleft, _⟩ := (apply_successor h).kept b hb
  obtain rfl : b' = c := block_unique hb' hc (hid.trans hcid.symm)
  have hissuer : b.issuedBy = r'.owner := hleft.resolve_right hspent
  cases hslot : t.claimedSlot with
  | none => exact hissuer.trans ((apply_owner h).2.1 hslot)
  | some k =>
    -- The issuer of an old block is not of the generation just claimed.
    have hgeneration := (apply_owner h).2.2 (by simp [hslot])
    have hbefore := r.issued_before hb
    rw [hissuer] at hbefore
    omega

theorem initialAccounting_ok {identity : ApiRunIdentity} {configuration : FrozenApiConfiguration}
    {owner : ApiExecutionOwner} {startup : StartupPlan} {prior : Option Nat}
    (h : initialAccounting rules identity configuration owner startup prior = .ok r) :
    r.blocks = [] ∧ r.completed = [] ∧ r.configuration = configuration := by
  unfold initialAccounting at h
  split at h
  · cases h
  split at h
  · cases h
  split at h
  · cases h
  have hr := construct_ok h
  exact ⟨by rw [hr], by rw [hr], by rw [hr]⟩

/-- Rules that accept every carried document. -/
def sampleRules : AccountingRules where
  readInlineEvidence _ := none
  validateManifest _ := none
  validateReceipt _ := none

def sampleIdentity : ApiRunIdentity := ⟨7, 41, by decide, by decide⟩

def sampleConfiguration : FrozenApiConfiguration where
  commit := Session.repeated 40 'a'
  digest := Session.repeated 64 'd'
  limit := 12
  commit_ok := by decide
  digest_ok := by decide
  limit_ok := by decide

def sampleOwner : ApiExecutionOwner where
  runAttempt := 1
  job := "review"
  generation := 0
  runAttempt_ok := .inl rfl
  job_ok := by decide
  generation_ok := by decide

/-- One job whose envelope is two requests in either attempt. -/
def sampleStartup : StartupPlan where
  slots :=
    [⟨"review", 1, ["load", "persist"], .inl rfl, by decide, by decide⟩,
     ⟨"review", 2, ["load", "persist"], .inr rfl, by decide, by decide⟩]
  nonempty := by simp
  keys_nodup := by decide
  both_attempts := by decide

def sampleRequest : PendingApiRequest := ⟨"q1", 1800000000000, by decide, by decide⟩

/-- The initial record of the sample, with three requests of prior liability. -/
def sampleInitial : Except String (ApiRunAccounting sampleRules) :=
  initialAccounting sampleRules sampleIdentity sampleConfiguration sampleOwner sampleStartup (some 3)

theorem sampleInitial_ok : ∃ r₀, sampleInitial = .ok r₀ := by
  have hok : sampleInitial.toOption.isSome = true := by decide
  cases h : sampleInitial with
  | ok r₀ => exact ⟨r₀, rfl⟩
  | error e =>
    rw [h] at hok
    cases hok

/-- Every run of transitions from an initial record stays within the frozen limit, dispatches no
request id twice, claims no slot twice, and is accepted link by link. -/
theorem accounting_runs {r₀ : ApiRunAccounting rules} {identity : ApiRunIdentity}
    {configuration : FrozenApiConfiguration} {owner : ApiExecutionOwner} {startup : StartupPlan}
    {prior : Option Nat}
    (h : initialAccounting rules identity configuration owner startup prior = .ok r₀)
    (ts : List Transition) :
    let r := accountingRun r₀ ts
    0 ≤ r.remaining ∧
      r.confirmed + r.uncertain + r.reservedUndispatched + r.priorNonstartupLiability +
        r.startup.liability ≤ configuration.limit ∧
      r.requestIds.Perm ((taken r₀ ts).filterMap Transition.dispatchedId) ∧
      ((taken r₀ ts).filterMap Transition.dispatchedId).Nodup ∧
      r.startupUsed = r₀.startupUsed ++ (taken r₀ ts).filterMap Transition.claimedSlot ∧
      r.startupUsed.Nodup ∧
      ∀ (t : Transition) (r' : ApiRunAccounting rules), t.apply r = .ok r' →
        r'.remaining ≤ r.remaining ∧
        (∀ b ∈ r.blocks, ∀ b' ∈ r'.blocks, b'.blockId = b.blockId →
          b'.undispatched ≠ b.undispatched → b.issuedBy = r.owner) ∧
        r.owner.runAttempt ≤ r'.owner.runAttempt ∧
        (t.claimedSlot = none → r'.owner = r.owner) ∧
        (t.claimedSlot ≠ none → r'.owner.generation = r.owner.generation + 1) ∧
        r.requireSuccessor r' = .ok () := by
  intro r
  obtain ⟨hblocks, hcompleted, hconfiguration⟩ := initialAccounting_ok h
  obtain ⟨hids, hslots⟩ := run_lists r₀ ts
  have hempty : r₀.requestIds = [] := by
    simp [AccountingFields.requestIds, AccountingFields.pendingRequests, hblocks, hcompleted]
  rw [hempty, List.nil_append] at hids
  have hlimit : r.configuration = configuration := (run_remaining r₀ ts).2.trans hconfiguration
  refine ⟨r.remaining_nonneg, ?_, hids, hids.nodup r.requestIds_nodup, hslots,
    r.startup_owned.1, fun t r' happly => ?_⟩
  · have hnonneg := r.remaining_nonneg
    unfold AccountingFields.remaining at hnonneg
    rw [hlimit] at hnonneg
    omega
  · obtain ⟨hattempt, hkeep, hclaim⟩ := apply_owner happly
    exact ⟨(apply_successor happly).remaining, fun b hb b' hb' => apply_spends happly hb hb',
      hattempt, hkeep, hclaim, requireSuccessor_iff.mpr (apply_successor happly)⟩

/-- A sample run that reserves, dispatches and confirms. -/
theorem sample_accounting_run : ∃ r₀, sampleInitial = .ok r₀ ∧
    0 ≤ (accountingRun r₀ [.reserve "b1" 2, .dispatch "b1" sampleRequest,
      .confirm sampleRequest]).remaining := by
  obtain ⟨r₀, h⟩ := sampleInitial_ok
  exact ⟨r₀, h, (accounting_runs h _).1⟩

/-- What one record carries over to a later one. -/
structure Carries (r s : ApiRunAccounting rules) : Prop where
  remaining : s.remaining ≤ r.remaining
  completed : r.completed <+: s.completed
  terminal : r.terminalTransaction ≠ none → s.terminalTransaction = r.terminalTransaction
  abort : r.analysisAbort ≠ none → s.analysisAbort = r.analysisAbort
  action : ActionKept r.action s.action
  blocks : ∀ b ∈ r.blocks, ∃ c ∈ s.blocks, c.blockId = b.blockId ∧ c.issuedBy = b.issuedBy ∧
    ∀ q ∈ b.pending, q ∈ c.pending ∨ q ∈ s.completed

theorem Carries.refl (r : ApiRunAccounting rules) : Carries r r where
  remaining := le_refl _
  completed := List.prefix_refl _
  terminal := fun _ => rfl
  abort := fun _ => rfl
  action := actionKept_refl _
  blocks := fun b hb => ⟨b, hb, rfl, rfl, fun _ hq => .inl hq⟩

theorem actionKept_trans {a b c : Option CallerAction} (hab : ActionKept a b)
    (hbc : ActionKept b c) : ActionKept a c := by
  cases a with
  | none => trivial
  | some a =>
    cases b with
    | none => exact hab.elim
    | some b =>
      cases c with
      | none => exact hbc.elim
      | some c =>
        obtain ⟨hintent, hstarted, hterminal⟩ := hab
        obtain ⟨hintent', hstarted', hterminal'⟩ := hbc
        refine ⟨hintent'.trans hintent, fun h => hstarted' (hstarted h), fun h => ?_⟩
        obtain rfl := hterminal h
        exact hterminal' h

theorem Carries.trans (hrs : Carries r r') (hst : Carries r' s) : Carries r s where
  remaining := le_trans hst.remaining hrs.remaining
  completed := hrs.completed.trans hst.completed
  terminal := fun h => by
    have hfirst := hrs.terminal h
    exact (hst.terminal (hfirst ▸ h)).trans hfirst
  abort := fun h => by
    have hfirst := hrs.abort h
    exact (hst.abort (hfirst ▸ h)).trans hfirst
  action := actionKept_trans hrs.action hst.action
  blocks := fun b hb => by
    obtain ⟨c, hc, hid, hissuer, hpending⟩ := hrs.blocks b hb
    obtain ⟨d, hd, hid', hissuer', hpending'⟩ := hst.blocks c hc
    refine ⟨d, hd, hid'.trans hid, hissuer'.trans hissuer, fun q hq => ?_⟩
    rcases hpending q hq with hkept | hdone
    · exact hpending' q hkept
    · exact .inr (hst.completed.subset hdone)

theorem ApiRunAccounting.Successor.carries (h : Successor r s) : Carries r s where
  remaining := h.remaining
  completed := h.completed
  terminal := h.terminal
  abort := h.abort
  action := h.action
  blocks := fun b hb => by
    obtain ⟨c, hc, hid, hissuer, _, hpending⟩ := h.kept b hb
    exact ⟨c, hc, hid, hissuer, hpending⟩

/-- Only records of a block's issuer change what it has left. -/
theorem ApiRunAccounting.Successor.spends (h : Successor r s) {b : CallerRequestBlock} (hb : b ∈ r.blocks) :
    ∃ c ∈ s.blocks, c.blockId = b.blockId ∧
      (c.undispatched ≠ b.undispatched → s.owner = b.issuedBy) := by
  obtain ⟨c, hc, hid, _, hleft, _⟩ := h.kept b hb
  exact ⟨c, hc, hid, fun hne => (hleft.resolve_right hne).symm⟩

/-- The slots claimed along a chain: those of the owners that took over. -/
def handedOver : ApiRunAccounting rules → List (ApiRunAccounting rules) → List SlotKey
  | _, [] => []
  | r, s :: later => (if s.owner = r.owner then [] else [s.owner.key]) ++ handedOver s later

theorem ApiRunAccounting.Successor.startupUsed_eq (h : Successor r s) :
    s.startupUsed = r.startupUsed ++ if s.owner = r.owner then [] else [s.owner.key] := by
  obtain ⟨owned, howned, hused⟩ := h.owned
  unfold claimed at howned
  split at howned
  · rename_i hsame
    rw [if_pos hsame, List.append_nil, hused, Except.ok.inj howned]
  · rename_i hother
    rw [if_neg hother, hused, (claimStartup_ok howned).2.2.2]

/-- The last record of a chain. -/
def lastRecord (r : ApiRunAccounting rules) (later : List (ApiRunAccounting rules)) :
    ApiRunAccounting rules :=
  later.getLast?.getD r

theorem lastRecord_cons (r s : ApiRunAccounting rules) (later : List (ApiRunAccounting rules)) :
    lastRecord r (s :: later) = lastRecord s later := by
  unfold lastRecord
  cases later with
  | nil => rfl
  | cons t later => rfl

/-- Records that accept one another, link by link. -/
def Accepting (records : List (ApiRunAccounting rules)) : Prop :=
  List.IsChain (fun r s => r.requireSuccessor s = .ok ()) records

theorem chain_carries {later : List (ApiRunAccounting rules)} (h : Accepting (r :: later)) :
    Carries r (lastRecord r later) ∧
      (lastRecord r later).startupUsed = r.startupUsed ++ handedOver r later := by
  induction later generalizing r with
  | nil => exact ⟨Carries.refl r, (List.append_nil _).symm⟩
  | cons s later ih =>
    obtain ⟨hlink, hlater⟩ := List.isChain_cons_cons.mp h
    have hnext := requireSuccessor_iff.mp hlink
    obtain ⟨hcarries, hused⟩ := ih hlater
    rw [lastRecord_cons]
    refine ⟨hnext.carries.trans hcarries, ?_⟩
    rw [hused, hnext.startupUsed_eq, List.append_assoc]
    rfl

/-- Along every chain of records that accept one another nothing is refunded or forgotten, and a
block is spent only in records of its issuer. -/
theorem successor_chain {r₀ : ApiRunAccounting rules} {later : List (ApiRunAccounting rules)}
    (h : Accepting (r₀ :: later)) :
    let rₙ := lastRecord r₀ later
    rₙ.remaining ≤ r₀.remaining ∧
      r₀.completed <+: rₙ.completed ∧
      (∀ b ∈ r₀.blocks, ∃ c ∈ rₙ.blocks, c.blockId = b.blockId ∧ c.issuedBy = b.issuedBy ∧
        ∀ q ∈ b.pending, q ∈ c.pending ∨ q ∈ rₙ.completed) ∧
      (∀ r s, [r, s] <:+: r₀ :: later → ∀ b ∈ r.blocks, ∃ c ∈ s.blocks, c.blockId = b.blockId ∧
        (c.undispatched ≠ b.undispatched → s.owner = b.issuedBy)) ∧
      rₙ.startupUsed = r₀.startupUsed ++ handedOver r₀ later ∧
      (r₀.terminalTransaction ≠ none → rₙ.terminalTransaction = r₀.terminalTransaction) ∧
      (r₀.analysisAbort ≠ none → rₙ.analysisAbort = r₀.analysisAbort) ∧
      ActionKept r₀.action rₙ.action := by
  intro rₙ
  obtain ⟨hcarries, hused⟩ := chain_carries h
  refine ⟨hcarries.remaining, hcarries.completed, hcarries.blocks, fun r s hlink b hb => ?_, hused,
    hcarries.terminal, hcarries.abort, hcarries.action⟩
  have hpair : Accepting [r, s] := List.IsChain.infix h hlink
  exact (requireSuccessor_iff.mp (List.isChain_cons_cons.mp hpair).1).spends hb

/-- A reservation is accepted by the sample's initial record, and takes from what remains. -/
theorem sample_chain : ∃ r₀ r₁ : ApiRunAccounting sampleRules, sampleInitial = .ok r₀ ∧
    r₀.reserve "b1" 2 = .ok r₁ ∧ (lastRecord r₀ [r₁]).remaining ≤ r₀.remaining := by
  have hok : (sampleInitial.toOption.bind (fun r => (r.reserve "b1" 2).toOption)).isSome = true := by
    decide
  obtain ⟨r₀, h₀⟩ := sampleInitial_ok
  cases h₁ : r₀.reserve "b1" 2 with
  | error e =>
    rw [h₀] at hok
    simp [Except.toOption, h₁] at hok
  | ok r₁ =>
    have hlink : r₀.requireSuccessor r₁ = .ok () := requireSuccessor_iff.mpr (reserve_successor h₁)
    exact ⟨r₀, r₁, h₀, h₁, (successor_chain (.cons_cons hlink (.singleton _))).1⟩

end ReviewSensei.ApiWork
