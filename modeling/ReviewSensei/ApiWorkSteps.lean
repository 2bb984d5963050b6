import ReviewSensei.ApiWork
import ReviewSensei.SessionSteps
import Mathlib.Data.List.Nodup
import Mathlib.Data.List.Perm.Basic
import Mathlib.Tactic.Linarith

/-! What each transition of the accounting writes, and what a record asks of its successor. -/
namespace ReviewSensei.ApiWork
open Session (bind_ok)

variable {rules : AccountingRules} {r r' : ApiRunAccounting rules}

namespace AccountingFields

theorem uncertain_eq (f : AccountingFields) : f.uncertain = f.pendingRequests.length := by
  unfold uncertain pendingRequests
  rw [List.length_flatMap]

end AccountingFields

namespace ApiRunAccounting

theorem reserve_ok {blockId : String} {requests : Nat} (h : r.reserve blockId requests = .ok r') :
    ∃ block : CallerRequestBlock, block.blockId = blockId ∧ block.issuedBy = r.owner ∧
      block.undispatched = requests ∧ block.pending = [] ∧
      r'.toAccountingFields = { r.toAccountingFields with blocks := r.blocks ++ [block] } := by
  unfold reserve at h
  split at h
  · cases h
  obtain ⟨block, hblock, h⟩ := bind_ok h
  obtain ⟨hid, howner, hundispatched, hpending⟩ := CallerRequestBlock.construct_ok hblock
  exact ⟨block, hid, howner, hundispatched, hpending, construct_ok h⟩

/-- Where no block has the id, nothing is spent. -/
theorem spend_absent {owner : ApiExecutionOwner} {blockId : String} {request : PendingApiRequest}
    {blocks : List CallerRequestBlock} (habsent : ∀ b ∈ blocks, b.blockId ≠ blockId) :
    spend owner blockId request blocks = .ok (blocks, false) := by
  induction blocks with
  | nil => rfl
  | cons b rest ih =>
    have hrest := ih (fun c hc => habsent c (List.mem_cons_of_mem _ hc))
    simp only [spend, if_neg (habsent b List.mem_cons_self), hrest]
    rfl

/-- The block a dispatch spends from, before and after. -/
structure Spent (owner : ApiExecutionOwner) (blockId : String) (request : PendingApiRequest)
    (block spent : CallerRequestBlock) : Prop where
  blockId_eq : block.blockId = blockId
  issued : block.issuedBy = owner
  same_id : spent.blockId = block.blockId
  same_issuer : spent.issuedBy = block.issuedBy
  undispatched : spent.undispatched + 1 = block.undispatched
  pending : spent.pending = block.pending ++ [request]

theorem spend_ok {owner : ApiExecutionOwner} {blockId : String} {request : PendingApiRequest}
    {blocks blocks' : List CallerRequestBlock}
    (hnodup : (blocks.map CallerRequestBlock.blockId).Nodup)
    (h : spend owner blockId request blocks = .ok (blocks', true)) :
    ∃ before block spent after, Spent owner blockId request block spent ∧
      blocks = before ++ block :: after ∧ blocks' = before ++ spent :: after := by
  induction blocks generalizing blocks' with
  | nil => cases h
  | cons b rest ih =>
    rw [List.map_cons, List.nodup_cons] at hnodup
    unfold spend at h
    split at h
    · rename_i hid
      split at h
      · cases h
      rename_i hissued
      split at h
      · cases h
      rename_i hleft
      obtain ⟨spent, hspent, h⟩ := bind_ok h
      obtain ⟨hspentId, hspentIssuer, hspentLeft, hspentPending⟩ :=
        CallerRequestBlock.construct_ok hspent
      -- The ids are distinct, so the loop finds nothing further.
      have habsent : ∀ c ∈ rest, c.blockId ≠ blockId := fun c hc hsame =>
        hnodup.1 (List.mem_map.mpr ⟨c, hc, hsame.trans hid.symm⟩)
      rw [spend_absent habsent] at h
      obtain rfl : spent :: rest = blocks' := by
        have hpair := Except.ok.inj h
        exact (Prod.mk.inj hpair).1
      refine ⟨[], b, spent, rest, ⟨hid, not_not.mp hissued, hspentId, hspentIssuer, ?_,
        hspentPending⟩, rfl, rfl⟩
      omega
    · obtain ⟨⟨later, found⟩, hlater, h⟩ := bind_ok h
      obtain ⟨rfl, rfl⟩ := Prod.mk.inj (Except.ok.inj h)
      obtain ⟨before, block, spent, after, hspent, hrest, hlater'⟩ := ih hnodup.2 hlater
      exact ⟨b :: before, block, spent, after, hspent, by rw [hrest, List.cons_append],
        by rw [hlater', List.cons_append]⟩

theorem dispatch_ok {blockId : String} {request : PendingApiRequest}
    (h : r.dispatch blockId request = .ok r') :
    request.requestId ∉ r.requestIds ∧
      ∃ before block spent after, Spent r.owner blockId request block spent ∧
        r.blocks = before ++ block :: after ∧
        r'.toAccountingFields =
          { r.toAccountingFields with blocks := before ++ spent :: after } := by
  unfold dispatch at h
  split at h
  · cases h
  rename_i hfresh
  obtain ⟨⟨blocks, found⟩, hspend, h⟩ := bind_ok h
  dsimp only at h
  split at h
  · rename_i hfound
    subst hfound
    obtain ⟨before, block, spent, after, hspent, hblocks, hblocks'⟩ :=
      spend_ok r.blockIds_nodup hspend
    refine ⟨hfresh, before, block, spent, after, hspent, hblocks, ?_⟩
    rw [construct_ok h, hblocks']
  · cases h

theorem confirm_ok {request : PendingApiRequest} (h : r.confirm request = .ok r') :
    r.pendingRequests.count request = 1 ∧ r'.toAccountingFields =
      { r.toAccountingFields with
        completed := r.completed ++ [request]
        blocks := r.blocks.map (fun b => b.without request) } := by
  unfold confirm at h
  split at h
  · cases h
  · rename_i hcount
    exact ⟨not_not.mp hcount, construct_ok h⟩

theorem claimStartup_ok {owner : ApiExecutionOwner} (h : r.claimStartup owner = .ok r') :
    r.owner.runAttempt ≤ owner.runAttempt ∧ owner.key ∉ r.startupUsed ∧
      owner.generation = r.owner.generation + 1 ∧ r'.toAccountingFields =
        { r.toAccountingFields with owner, startupUsed := r.startupUsed ++ [owner.key] } := by
  unfold claimStartup at h
  split at h
  · cases h
  rename_i hattempt
  split at h
  · cases h
  rename_i hslot
  split at h
  · cases h
  rename_i hgeneration
  exact ⟨Nat.le_of_not_lt hattempt, fun hused => hslot (.inl hused), not_not.mp hgeneration,
    construct_ok h⟩

/-- A confirmed request leaves exactly its own place among the pending ones. -/
theorem confirm_pending {request : PendingApiRequest} (h : r.confirm request = .ok r') :
    r'.pendingRequests = r.pendingRequests.filter (· ≠ request) ∧
      r'.uncertain + 1 = r.uncertain := by
  obtain ⟨hcount, hr'⟩ := confirm_ok h
  have hpending : r'.pendingRequests = r.pendingRequests.filter (· ≠ request) := by
    rw [hr']
    simp only [AccountingFields.pendingRequests, List.flatMap_map, List.filter_flatMap]
    rfl
  have hsplit := List.length_eq_countP_add_countP (· == request) (l := r.pendingRequests)
  have hrest : r'.pendingRequests.length =
      r.pendingRequests.countP (fun q => ¬(q == request) = true) := by
    rw [hpending, ← List.countP_eq_length_filter]
    exact List.countP_congr (fun q _ => by simp)
  rw [List.count] at hcount
  refine ⟨hpending, ?_⟩
  rw [AccountingFields.uncertain_eq, AccountingFields.uncertain_eq]
  omega

/-- A reservation takes its requests from what remains; no other transition changes it. -/
theorem remaining_reserve {blockId : String} {requests : Nat}
    (h : r.reserve blockId requests = .ok r') : r'.remaining = r.remaining - requests := by
  obtain ⟨block, _, _, hundispatched, hpending, hr'⟩ := reserve_ok h
  rw [hr']
  simp [AccountingFields.remaining, AccountingFields.confirmed,
    AccountingFields.reservedUndispatched, AccountingFields.uncertain, hundispatched, hpending]
  omega

theorem remaining_dispatch {blockId : String} {request : PendingApiRequest}
    (h : r.dispatch blockId request = .ok r') : r'.remaining = r.remaining := by
  obtain ⟨_, before, block, spent, after, hspent, hblocks, hr'⟩ := dispatch_ok h
  have hleft := hspent.undispatched
  have hpending : spent.pending.length = block.pending.length + 1 := by
    rw [hspent.pending, List.length_append, List.length_singleton]
  rw [hr']
  simp [AccountingFields.remaining, AccountingFields.confirmed,
    AccountingFields.reservedUndispatched, AccountingFields.uncertain, hblocks, hpending]
  omega

theorem reservedUndispatched_confirm {request : PendingApiRequest}
    (h : r.confirm request = .ok r') : r'.reservedUndispatched = r.reservedUndispatched := by
  rw [(confirm_ok h).2]
  simp only [AccountingFields.reservedUndispatched, List.map_map]
  rfl

theorem remaining_confirm {request : PendingApiRequest} (h : r.confirm request = .ok r') :
    r'.remaining = r.remaining := by
  have hpending := (confirm_pending h).2
  have hreserved := reservedUndispatched_confirm h
  have hconfirmed : r'.confirmed = r.confirmed + 1 := by
    rw [(confirm_ok h).2]
    simp [AccountingFields.confirmed]
  have hfixed : r'.configuration = r.configuration ∧ r'.startup = r.startup ∧
      r'.priorNonstartupLiability = r.priorNonstartupLiability := by
    rw [(confirm_ok h).2]
    exact ⟨rfl, rfl, rfl⟩
  unfold AccountingFields.remaining
  rw [hfixed.1, hfixed.2.1, hfixed.2.2, hreserved, hconfirmed]
  omega

theorem remaining_claimStartup {owner : ApiExecutionOwner} (h : r.claimStartup owner = .ok r') :
    r'.remaining = r.remaining := by
  rw [(claimStartup_ok h).2.2.2]
  rfl

theorem block_unique {b c : CallerRequestBlock} (hb : b ∈ r.blocks) (hc : c ∈ r.blocks)
    (h : b.blockId = c.blockId) : b = c :=
  List.inj_on_of_nodup_map r.blockIds_nodup hb hc h

theorem blockOf_eq {b : CallerRequestBlock} (hb : b ∈ r.blocks) :
    blockOf r.toAccountingFields b.blockId = some b := by
  have hsome : (blockOf r.toAccountingFields b.blockId).isSome = true := by
    rw [blockOf, List.find?_isSome]
    exact ⟨b, List.mem_reverse.mpr hb, beq_self_eq_true _⟩
  obtain ⟨c, hc⟩ := Option.isSome_iff_exists.mp hsome
  have hmem : c ∈ r.blocks := List.mem_reverse.mp (List.mem_of_find?_eq_some hc)
  have hid : c.blockId = b.blockId := by simpa using List.find?_some hc
  rw [hc, block_unique hmem hb hid]

/-- How a candidate keeps an earlier block. -/
def Keeps (candidate : AccountingFields) (p : CallerRequestBlock) : Prop :=
  ∃ b ∈ candidate.blocks, b.blockId = p.blockId ∧ b.issuedBy = p.issuedBy ∧
    (p.issuedBy = candidate.owner ∨ b.undispatched = p.undispatched) ∧
    ∀ q ∈ p.pending, q ∈ b.pending ∨ q ∈ candidate.completed

theorem keepsBlock_iff {p : CallerRequestBlock} :
    keepsBlock r.toAccountingFields p = true ↔ Keeps r.toAccountingFields p := by
  constructor
  · intro h
    unfold keepsBlock at h
    split at h
    · cases h
    rename_i b hb
    have hmem : b ∈ r.blocks := List.mem_reverse.mp (List.mem_of_find?_eq_some hb)
    have hid : b.blockId = p.blockId := by simpa using List.find?_some hb
    simp only [Bool.and_eq_true, decide_eq_true_eq, List.all_eq_true, Bool.or_eq_true,
      List.contains_iff_mem] at h
    obtain ⟨⟨hissuer, hleft⟩, hpending⟩ := h
    exact ⟨b, hmem, hid, hissuer, hissuer ▸ hleft, hpending⟩
  · rintro ⟨b, hb, hid, hissuer, hleft, hpending⟩
    have hfound := blockOf_eq hb
    rw [hid] at hfound
    unfold keepsBlock
    simp only [hfound, Bool.and_eq_true, decide_eq_true_eq, List.all_eq_true, Bool.or_eq_true,
      List.contains_iff_mem]
    exact ⟨⟨hissuer, hissuer.symm ▸ hleft⟩, hpending⟩

/-- What an action keeps in the next record. -/
def ActionKept : Option CallerAction → Option CallerAction → Prop
  | none, _ => True
  | some _, none => False
  | some own, some other =>
    other.intent = own.intent ∧ (own.executionStarted = true → other.executionStarted = true) ∧
      (own.phase = .terminal → other = own)

theorem requireAction_iff {own other : Option CallerAction} :
    requireAction own other = .ok () ↔ ActionKept own other := by
  cases own with
  | none => simp [requireAction, ActionKept]
  | some own =>
    cases other with
    | none => simp [requireAction, ActionKept]
    | some other =>
      simp only [requireAction, ActionKept]
      split
      · rename_i hintent
        simp [Ne.symm hintent]
      rename_i hintent
      split
      · rename_i hreset
        simp only [Bool.and_eq_true, Bool.not_eq_true'] at hreset
        simp [hreset]
      rename_i hreset
      split
      · rename_i hterminal
        simp [hterminal.1, Ne.symm hterminal.2]
      rename_i hterminal
      simp only [true_iff]
      refine ⟨(not_not.mp hintent).symm, fun hstarted => ?_, fun hphase => ?_⟩
      · simpa [hstarted] using hreset
      · by_contra hne
        exact hterminal ⟨hphase, Ne.symm hne⟩

/-- Everything `require_successor` asks of a candidate. -/
structure Successor (r candidate : ApiRunAccounting rules) : Prop where
  identity : candidate.identity = r.identity
  configuration : candidate.configuration = r.configuration
  version : candidate.version = r.version
  terminal : r.terminalTransaction ≠ none → candidate.terminalTransaction = r.terminalTransaction
  abort : r.analysisAbort ≠ none → candidate.analysisAbort = r.analysisAbort
  previous : candidate.previousRecord = r.previousRecord
  action : ActionKept r.action candidate.action
  owned : ∃ owned, r.claimed candidate = .ok owned ∧ candidate.startupUsed = owned.startupUsed
  startup : candidate.startup = r.startup
  startupUsed : r.startupUsed <+: candidate.startupUsed
  completed : r.completed <+: candidate.completed
  prior : r.priorNonstartupLiability ≤ candidate.priorNonstartupLiability
  remaining : candidate.remaining ≤ r.remaining
  generation : r.owner.generation ≤ candidate.owner.generation
  fresh : ∀ b ∈ candidate.blocks, (∀ p ∈ r.blocks, p.blockId ≠ b.blockId) →
    b.issuedBy = candidate.owner
  kept : ∀ p ∈ r.blocks, Keeps candidate.toAccountingFields p

theorem requireRetained_iff {candidate : ApiRunAccounting rules} :
    r.requireRetained candidate = .ok () ↔
      (candidate.startup = r.startup ∧ r.startupUsed <+: candidate.startupUsed ∧
        r.completed <+: candidate.completed ∧
        r.priorNonstartupLiability ≤ candidate.priorNonstartupLiability ∧
        candidate.remaining ≤ r.remaining ∧ r.owner.generation ≤ candidate.owner.generation) ∧
      (∀ b ∈ candidate.blocks, (∀ p ∈ r.blocks, p.blockId ≠ b.blockId) →
        b.issuedBy = candidate.owner) ∧
      ∀ p ∈ r.blocks, Keeps candidate.toAccountingFields p := by
  have hfresh : (candidate.blocks.any (fun b =>
      !(r.blocks.any (fun p => p.blockId == b.blockId)) && b.issuedBy != candidate.owner)) = true ↔
      ¬∀ b ∈ candidate.blocks, (∀ p ∈ r.blocks, p.blockId ≠ b.blockId) →
        b.issuedBy = candidate.owner := by
    simp only [List.any_eq_true, Bool.and_eq_true, Bool.not_eq_true', bne_iff_ne, ne_eq]
    constructor
    · rintro ⟨b, hb, habsent, hissuer⟩ hall
      refine hissuer (hall b hb (fun p hp hid => ?_))
      rw [List.any_eq_false] at habsent
      exact habsent p hp (beq_iff_eq.mpr hid)
    · intro hnot
      push Not at hnot
      obtain ⟨b, hb, habsent, hissuer⟩ := hnot
      refine ⟨b, hb, ?_, hissuer⟩
      rw [List.any_eq_false]
      exact fun p hp hid => habsent p hp (beq_iff_eq.mp hid)
  have hkept : (r.blocks.all (keepsBlock candidate.toAccountingFields)) = true ↔
      ∀ p ∈ r.blocks, Keeps candidate.toAccountingFields p := by
    simp only [List.all_eq_true, keepsBlock_iff]
  unfold requireRetained
  split
  · rename_i hbad
    simp only [reduceCtorEq, false_iff]
    rintro ⟨⟨hstartup, hused, hcompleted, hprior, hremaining, hgeneration⟩, _⟩
    rcases hbad with h | h | h | h | h | h
    · exact h hstartup
    · exact h (List.prefix_iff_eq_take.mp hused).symm
    · exact h (List.prefix_iff_eq_take.mp hcompleted).symm
    · omega
    · omega
    · omega
  rename_i hgood
  push Not at hgood
  obtain ⟨hstartup, hused, hcompleted, hprior, hremaining, hgeneration⟩ := hgood
  split
  · rename_i hbad
    simp only [reduceCtorEq, false_iff]
    exact fun hall => hfresh.mp hbad hall.2.1
  rename_i hnew
  split
  · rename_i hall
    simp only [true_iff]
    exact ⟨⟨hstartup, List.prefix_iff_eq_take.mpr hused.symm,
      List.prefix_iff_eq_take.mpr hcompleted.symm, hprior, hremaining, hgeneration⟩,
      not_not.mp (fun hne => hnew (hfresh.mpr hne)), hkept.mp hall⟩
  · rename_i hall
    simp only [reduceCtorEq, false_iff]
    exact fun h => hall (hkept.mpr h.2.2)

theorem requireSuccessor_iff {candidate : ApiRunAccounting rules} :
    r.requireSuccessor candidate = .ok () ↔ Successor r candidate := by
  constructor
  · intro h
    unfold requireSuccessor at h
    obtain ⟨_, hbinding, h⟩ := bind_ok h
    unfold requireBinding at hbinding
    split at hbinding
    · cases hbinding
    rename_i hbound
    push Not at hbound
    split at h
    · cases h
    rename_i hversion
    split at h
    · cases h
    rename_i hterminal
    split at h
    · cases h
    rename_i habort
    split at h
    · cases h
    rename_i hprevious
    obtain ⟨_, haction, h⟩ := bind_ok h
    obtain ⟨owned, howned, h⟩ := bind_ok h
    split at h
    · cases h
    rename_i hused
    obtain ⟨⟨hstartup, hprefix, hcompleted, hprior, hremaining, hgeneration⟩, hfresh, hkept⟩ :=
      requireRetained_iff.mp h
    push Not at hterminal habort
    exact
      { identity := hbound.1.symm
        configuration := hbound.2.symm
        version := (not_not.mp hversion).symm
        terminal := fun hne => (hterminal hne).symm
        abort := fun hne => (habort hne).symm
        previous := (not_not.mp hprevious).symm
        action := requireAction_iff.mp haction
        owned := ⟨owned, howned, not_not.mp hused⟩
        startup := hstartup
        startupUsed := hprefix
        completed := hcompleted
        prior := hprior
        remaining := hremaining
        generation := hgeneration
        fresh := hfresh
        kept := hkept }
  · intro h
    obtain ⟨owned, howned, hused⟩ := h.owned
    have hbinding : r.requireBinding candidate.identity candidate.configuration = .ok () := by
      unfold requireBinding
      exact if_neg (by simp [h.identity, h.configuration])
    have hretained : r.requireRetained candidate = .ok () :=
      requireRetained_iff.mpr ⟨⟨h.startup, h.startupUsed, h.completed, h.prior, h.remaining,
        h.generation⟩, h.fresh, h.kept⟩
    unfold requireSuccessor
    rw [hbinding]
    change (if _ then _ else _ : Except String Unit) = _
    rw [if_neg (not_not.mpr h.version.symm),
      if_neg (fun hbad => hbad.2 (h.terminal hbad.1).symm),
      if_neg (fun hbad => hbad.2 (h.abort hbad.1).symm),
      if_neg (not_not.mpr h.previous.symm), requireAction_iff.mpr h.action, howned]
    change (if _ then _ else _ : Except String Unit) = _
    rw [if_neg (not_not.mpr hused)]
    exact hretained

end ApiRunAccounting

end ReviewSensei.ApiWork
