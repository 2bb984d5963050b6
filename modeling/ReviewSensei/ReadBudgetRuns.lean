import ReviewSensei.ReadBudget
import ReviewSensei.SessionSteps
import ReviewSensei.Fenced

/-! Runs of the shared read budget: what is debited covers what is dispatched, in every order of
calls, failed ones included. -/
namespace ReviewSensei.ReadBudget
open Fenced
open Session (bind_ok)

variable {b b' : EvidenceReadBudget} {t : EvidenceTailTicket} {c : Clock} {w : BudgetWorld}

theorem remainingSeconds_ok {remaining : Nat} (h : b.remainingSeconds c = .ok remaining) :
    c.now < b.deadline := by
  unfold EvidenceReadBudget.remainingSeconds at h
  split at h
  · cases h
  · rename_i hnow
    exact Nat.lt_of_not_le hnow

theorem consume_ok {fence : Bool} {remaining : Nat}
    (h : b.consume fence c = .ok (remaining, b')) :
    b.tail = none ∧ b.exhausted fence = false ∧ b' = { b with calls := b.calls + 1 } := by
  unfold EvidenceReadBudget.consume at h
  split at h
  · cases h
  rename_i htail
  obtain ⟨_, _, h⟩ := bind_ok h
  split at h
  · cases h
  rename_i hroom
  exact ⟨not_not.mp htail, by simpa using hroom, (Prod.mk.inj (Except.ok.inj h)).2.symm⟩

/-- An ordinary dispatch is admitted below the reserve and the hold, a fence below the ceiling. -/
theorem not_exhausted {fence : Bool} (h : b.exhausted fence = false) :
    b.calls < maxPartReads ∧ (fence = false → b.calls + b.ordinaryHold < 60) := by
  cases fence with
  | true =>
    have hcalls : ¬maxPartReads ≤ b.calls := of_decide_eq_false h
    exact ⟨Nat.lt_of_not_le hcalls, by rintro ⟨⟩⟩
  | false =>
    have hroom : ¬b.ordinaryRemaining ≤ 0 := of_decide_eq_false h
    unfold EvidenceReadBudget.ordinaryRemaining maxPartReads fenceReserve at hroom
    unfold maxPartReads
    exact ⟨by omega, fun _ => by omega⟩

theorem holdOrdinary_ok {n : Int} (h : b.holdOrdinary n = .ok b') :
    b.tail = none ∧ n.toNat ≤ 60 ∧ b' = { b with ordinaryHold := n.toNat } := by
  unfold EvidenceReadBudget.holdOrdinary at h
  split at h
  · cases h
  rename_i hrange
  split at h
  · cases h
  split at h
  · cases h
  rename_i htail
  unfold maxPartReads fenceReserve at hrange
  exact ⟨not_not.mp htail, by omega, (Except.ok.inj h).symm⟩

theorem releaseOrdinary_ok {n : Int} (h : b.releaseOrdinary n = .ok b') :
    b' = { b with ordinaryHold := 0 } := by
  unfold EvidenceReadBudget.releaseOrdinary at h
  split at h
  · cases h
  · exact (Except.ok.inj h).symm

theorem debit_ok {calls n : Nat} {steps : List TailDispatch}
    (h : EvidenceReadBudget.debit calls steps = .ok n) :
    n = calls + steps.length ∧ (calls ≤ maxPartReads → n ≤ maxPartReads) := by
  induction steps generalizing calls with
  | nil =>
    obtain rfl := Except.ok.inj h
    exact ⟨rfl, id⟩
  | cons step steps ih =>
    unfold EvidenceReadBudget.debit at h
    generalize (if step.fence = true then 0 else fenceReserve) = reserve at h
    split at h
    · cases h
    rename_i hroom
    obtain ⟨hn, hle⟩ := ih h
    have hceiling : calls < maxPartReads := by omega
    exact ⟨by rw [hn, List.length_cons]; omega, fun _ => hle hceiling⟩

theorem reserveTail_ok {k : Nat} {plan : ActivationTailPlan} {witness reservationId : Option String}
    (h : b.reserveTail k plan witness reservationId c = .ok (t, b')) :
    b.tail = none ∧ b.ordinaryHold = 0 ∧ t = ⟨plan, none, false, false, 0, 0⟩ ∧
      (b.calls ≤ maxPartReads → b'.calls ≤ maxPartReads) ∧
      b' = { b with calls := b.calls + plan.steps.length, tail := some k } := by
  unfold EvidenceReadBudget.reserveTail at h
  obtain ⟨_, _, h⟩ := bind_ok h
  split at h
  · cases h
  split at h
  · cases h
  rename_i houtstanding
  obtain ⟨htail, hhold⟩ := not_or.mp houtstanding
  obtain ⟨projected, hprojected, h⟩ := bind_ok h
  obtain ⟨hn, hle⟩ := debit_ok hprojected
  obtain ⟨rfl, rfl⟩ := Prod.mk.inj (Except.ok.inj h)
  exact ⟨not_not.mp htail, not_not.mp hhold, rfl, hle, by rw [hn]⟩

/-- A restored budget holds what its snapshot says, and no more than the rest of its minute. -/
theorem restore_ok {s : BudgetSnapshot} (h : EvidenceReadBudget.restore s c = .ok b) :
    b.calls = s.calls ∧ b.calls ≤ maxPartReads ∧ b.wallDeadlineMs = s.deadlineUnixMs ∧
      b.tail = none ∧ b.ordinaryHold = 0 ∧
      b.deadline + c.wall = c.now + s.deadlineUnixMs * 1000 ∧ b.deadline ≤ c.now + partReadTime := by
  unfold EvidenceReadBudget.restore at h
  split at h
  · cases h
  rename_i hcontract
  split at h
  · cases h
  rename_i hdeadline
  obtain rfl := Except.ok.inj h
  refine ⟨rfl, ?_, rfl, rfl, rfl, ?_, ?_⟩
  · dsimp only
    omega
  · dsimp only
    omega
  · dsimp only
    omega

theorem seek_le (label : String) (fence : Bool) (steps : List TailDispatch) :
    (EvidenceTailTicket.seek label fence steps).1 ≤ steps.length := by
  induction steps with
  | nil => exact Nat.le_refl _
  | cons step steps ih =>
    unfold EvidenceTailTicket.seek
    split
    · simp
    split
    · simp
    · simpa using ih

/-- A match is the first step that is not passed over; only optional steps are. -/
theorem seek_found {label : String} {fence : Bool} {steps : List TailDispatch}
    (h : (EvidenceTailTicket.seek label fence steps).2 = true) :
    ∃ skipped step rest, steps = skipped ++ step :: rest ∧ (∀ s ∈ skipped, s.optional = true) ∧
      step.label = label ∧ step.fence = fence ∧
      (EvidenceTailTicket.seek label fence steps).1 = skipped.length + 1 := by
  induction steps with
  | nil => cases h
  | cons step steps ih =>
    unfold EvidenceTailTicket.seek at h ⊢
    split at h
    · rename_i hmatch
      refine ⟨[], step, steps, rfl, by simp, hmatch.1, hmatch.2, ?_⟩
      rw [if_pos hmatch]
      rfl
    rename_i hother
    split at h
    · cases h
    rename_i hoptional
    obtain ⟨skipped, found, rest, hsteps, hall, hlabel, hfence, hcount⟩ := ih h
    refine ⟨step :: skipped, found, rest, by rw [hsteps, List.cons_append], ?_, hlabel, hfence, ?_⟩
    · intro s hs
      rcases List.mem_cons.mp hs with rfl | hs
      · simpa using hoptional
      · exact hall s hs
    · rw [if_neg hother, if_neg hoptional]
      dsimp only
      rw [hcount, List.length_cons]

/-- What any method of a ticket does: it moves forward in its plan, dispatches at most once, and
either keeps the ticket's place or closes it. -/
structure TicketMove (b : EvidenceReadBudget) (k : Nat) (t : EvidenceTailTicket) (r : TicketCall) :
    Prop where
  budget_eq : r.budget = { b with tail := r.budget.tail }
  plan_eq : r.ticket.plan = t.plan
  index_le : t.index ≤ r.ticket.index
  bounded : t.index ≤ t.plan.steps.length → r.ticket.index ≤ t.plan.steps.length
  dispatched : t.dispatched ≤ r.ticket.dispatched ∧
    r.ticket.dispatched + t.index ≤ t.dispatched + r.ticket.index
  ends : (r.budget.tail = b.tail ∧ r.ticket.closed = t.closed) ∨
    (r.ticket.closed = true ∧ r.budget.tail = if b.tail = some k then none else b.tail)
  stays_closed : t.closed = true → r.ticket.closed = true ∧ r.ticket.dispatched = t.dispatched

theorem TicketMove.unchanged (b : EvidenceReadBudget) (k : Nat) (t : EvidenceTailTicket)
    (e : String) : TicketMove b k t (t.unchanged b e) :=
  ⟨rfl, rfl, Nat.le_refl _, id, ⟨Nat.le_refl _, Nat.le_refl _⟩, .inl ⟨rfl, rfl⟩, fun h => ⟨h, rfl⟩⟩

theorem TicketMove.abort (b : EvidenceReadBudget) (k : Nat) (t : EvidenceTailTicket)
    (outcome : Except String Unit) : TicketMove b k t (t.abort b k outcome) :=
  ⟨rfl, rfl, Nat.le_refl _, id, ⟨Nat.le_refl _, Nat.le_refl _⟩, .inr ⟨rfl, rfl⟩,
    fun _ => ⟨rfl, rfl⟩⟩

theorem ticket_sealRoot (b : EvidenceReadBudget) (k : Nat) (t : EvidenceTailTicket) (root : String)
    (c : Clock) : TicketMove b k t (t.sealRoot b k root c) := by
  unfold EvidenceTailTicket.sealRoot
  split
  · exact .abort ..
  split
  · exact .unchanged ..
  split
  · exact .unchanged ..
  · exact ⟨rfl, rfl, Nat.le_refl _, id, ⟨Nat.le_refl _, Nat.le_refl _⟩, .inl ⟨rfl, rfl⟩,
      fun h => ⟨h, rfl⟩⟩

theorem ticket_start (b : EvidenceReadBudget) (k : Nat) (t : EvidenceTailTicket)
    (scope root : String) (c : Clock) : TicketMove b k t (t.start b k scope root c) := by
  unfold EvidenceTailTicket.start
  split
  · exact .abort ..
  split
  · exact .unchanged ..
  · exact ⟨rfl, rfl, Nat.le_refl _, id, ⟨Nat.le_refl _, Nat.le_refl _⟩, .inl ⟨rfl, rfl⟩,
      fun h => ⟨h, rfl⟩⟩

theorem ticket_finish (b : EvidenceReadBudget) (k : Nat) (t : EvidenceTailTicket) (c : Clock) :
    TicketMove b k t (t.finish b k c) := by
  unfold EvidenceTailTicket.finish
  split
  · exact .unchanged ..
  split
  · exact .unchanged ..
  split <;> exact .abort ..

theorem ticket_consume (b : EvidenceReadBudget) (k : Nat) (t : EvidenceTailTicket) (label : String)
    (fence : Bool) (c : Clock) : TicketMove b k t (t.consume b k label fence c) := by
  unfold EvidenceTailTicket.consume
  split
  · exact .unchanged ..
  rename_i hactive
  have hopen : t.closed ≠ true := fun hclosed => hactive (.inl hclosed)
  split
  · exact .unchanged ..
  have hroom : t.index ≤ t.plan.steps.length → t.index +
      (EvidenceTailTicket.seek label fence (t.plan.steps.drop t.index)).1 ≤ t.plan.steps.length := by
    intro hindex
    have hle := seek_le label fence (t.plan.steps.drop t.index)
    rw [List.length_drop] at hle
    omega
  dsimp only
  split
  · rename_i hfound
    obtain ⟨skipped, _, _, _, _, _, _, hcount⟩ := seek_found hfound
    refine ⟨rfl, rfl, Nat.le_add_right _ _, hroom, ⟨Nat.le_succ _, ?_⟩, .inl ⟨rfl, rfl⟩,
      fun hclosed => absurd hclosed hopen⟩
    dsimp only
    omega
  · refine ⟨rfl, rfl, Nat.le_add_right _ _, hroom, ⟨Nat.le_refl _, ?_⟩, .inr ⟨rfl, rfl⟩,
      fun _ => ⟨rfl, rfl⟩⟩
    dsimp only [EvidenceTailTicket.abort]
    omega

theorem ticket_move (b : EvidenceReadBudget) (k : Nat) (t : EvidenceTailTicket) (c : Clock)
    (method : TicketMethod) : TicketMove b k t (method.call b k t c) := by
  cases method with
  | sealRoot root => exact ticket_sealRoot b k t root c
  | start scope root => exact ticket_start b k t scope root c
  | consume label fence => exact ticket_consume b k t label fence c
  | finish => exact ticket_finish b k t c
  | abort => exact .abort ..

/-- What every order of calls keeps. -/
structure Ledger (w : BudgetWorld) : Prop where
  calls_le : w.budget.calls ≤ maxPartReads
  debited : w.budget.calls =
    w.opened + w.direct + (w.tickets.map (fun t => t.plan.steps.length)).sum
  spent : ∀ t ∈ w.tickets, t.dispatched ≤ t.index ∧ t.index ≤ t.plan.steps.length
  live : ∀ (k : Nat) t, w.tickets[k]? = some t → (t.closed = false ↔ w.budget.tail = some k)
  known : ∀ k, w.budget.tail = some k → k < w.tickets.length
  hold_le : w.budget.ordinaryHold ≤ 60

theorem ledger_initial (c : Clock) : Ledger (.initial c) where
  calls_le := Nat.zero_le _
  debited := rfl
  spent := by simp [BudgetWorld.initial]
  live := by simp [BudgetWorld.initial]
  known := by simp [BudgetWorld.initial, EvidenceReadBudget.fresh]
  hold_le := Nat.zero_le _

/-- A call that touches neither the tickets nor the ticket outstanding. -/
theorem Ledger.direct (h : Ledger w) {budget : EvidenceReadBudget} {n : Nat}
    (htail : budget.tail = w.budget.tail) (hcalls : budget.calls = w.budget.calls + n)
    (hle : budget.calls ≤ maxPartReads) (hhold : budget.ordinaryHold ≤ 60) :
    Ledger { w with budget, direct := w.direct + n } where
  calls_le := hle
  debited := by
    have hdebited := h.debited
    dsimp only
    omega
  spent := h.spent
  live := fun k t hk => by
    dsimp only
    rw [htail]
    exact h.live k t hk
  known := fun k hk => h.known k (htail ▸ hk)
  hold_le := hhold

theorem Ledger.reserved (h : Ledger w) {plan : ActivationTailPlan}
    {witness reservationId : Option String} {ticket : EvidenceTailTicket}
    (hreserve : w.budget.reserveTail w.tickets.length plan witness reservationId c = .ok (ticket, b)) :
    Ledger { w with budget := b, tickets := w.tickets ++ [ticket] } := by
  obtain ⟨htail, hhold, rfl, hle, rfl⟩ := reserveTail_ok hreserve
  refine ⟨hle h.calls_le, ?_, ?_, ?_, ?_, h.hold_le⟩
  · have hdebited := h.debited
    dsimp only
    simp only [List.map_append, List.sum_append, List.map_cons, List.map_nil, List.sum_cons,
      List.sum_nil]
    omega
  · intro u hu
    rcases List.mem_append.mp hu with hu | hu
    · exact h.spent u hu
    · obtain rfl := List.mem_singleton.mp hu
      exact ⟨Nat.le_refl _, Nat.zero_le _⟩
  · intro k u hk
    dsimp only at hk ⊢
    by_cases hlast : k < w.tickets.length
    · rw [List.getElem?_append_left hlast] at hk
      have hclosed : ¬u.closed = false := fun hopen => by
        rw [(h.live k u hk).mp hopen] at htail
        cases htail
      refine ⟨fun hopen => absurd hopen hclosed, fun hsame => ?_⟩
      have hlength : w.tickets.length = k := Option.some.inj hsame
      omega
    · rw [List.getElem?_append_right (Nat.le_of_not_lt hlast)] at hk
      have hzero : k - w.tickets.length = 0 := by
        by_contra hne
        rw [List.getElem?_eq_none (by simp; omega)] at hk
        cases hk
      rw [hzero] at hk
      obtain rfl := Option.some.inj hk
      have hlength : w.tickets.length = k := by omega
      simp [hlength]
  · intro k hk
    obtain rfl := Option.some.inj hk
    simp

theorem map_steps_set {tickets : List EvidenceTailTicket} {k : Nat} {t u : EvidenceTailTicket}
    (ht : tickets[k]? = some t) (hplan : u.plan = t.plan) :
    (tickets.set k u).map (fun t => t.plan.steps.length) =
      tickets.map (fun t => t.plan.steps.length) := by
  rw [List.map_set, hplan]
  apply List.ext_getElem?
  intro i
  rw [List.getElem?_set]
  split
  · rename_i hi
    subst hi
    split
    · rw [List.getElem?_map, ht]
      rfl
    · rename_i hlt
      rw [List.getElem?_eq_none (by omega)]
  · rfl

/-- Any method of any ticket keeps the ledger: its work was debited when it was reserved. -/
theorem Ledger.ticket (h : Ledger w) {k : Nat} (ht : w.tickets[k]? = some t) {r : TicketCall}
    (hmove : TicketMove w.budget k t r) :
    Ledger { w with budget := r.budget, tickets := w.tickets.set k r.ticket } := by
  have hcalls : r.budget.calls = w.budget.calls := by rw [hmove.budget_eq]
  have hhold : r.budget.ordinaryHold = w.budget.ordinaryHold := by rw [hmove.budget_eq]
  have hmem : t ∈ w.tickets := List.mem_of_getElem? ht
  have hlt : k < w.tickets.length := (List.getElem?_eq_some_iff.mp ht).1
  have hlive := h.live k t ht
  have hother {j : Nat} {u : EvidenceTailTicket} (hj : j ≠ k) (hu : w.tickets[j]? = some u) :
      u.closed = false ↔ r.budget.tail = some j := by
    rw [h.live j u hu]
    rcases hmove.ends with ⟨hsame, _⟩ | ⟨_, hclosed⟩
    · rw [hsame]
    · rw [hclosed]
      split
      · rename_i htail
        rw [htail]
        simp [Ne.symm hj]
      · rfl
  have hself : r.ticket.closed = false ↔ r.budget.tail = some k := by
    rcases hmove.ends with ⟨hsame, hclosed⟩ | ⟨hclosed, htail⟩
    · rw [hsame, hclosed]
      exact hlive
    · rw [hclosed, htail]
      split
      · simp
      · rename_i hne
        simp [hne]
  refine ⟨hcalls ▸ h.calls_le, ?_, ?_, ?_, ?_, hhold ▸ h.hold_le⟩
  · dsimp only
    rw [map_steps_set ht hmove.plan_eq, hcalls]
    exact h.debited
  · intro u hu
    rcases List.mem_or_eq_of_mem_set hu with hu | rfl
    · exact h.spent u hu
    · obtain ⟨hdispatched, hindex⟩ := h.spent t hmem
      have hnext := hmove.dispatched
      rw [hmove.plan_eq]
      exact ⟨by omega, hmove.bounded hindex⟩
  · intro j u hj
    dsimp only at hj ⊢
    rw [List.getElem?_set] at hj
    split at hj
    · rename_i hjk
      subst hjk
      obtain rfl := Option.some.inj hj
      exact hself
    · rename_i hjk
      exact hother (Ne.symm hjk) hj
  · intro j hj
    dsimp only at hj ⊢
    rw [List.length_set]
    rcases hmove.ends with ⟨hsame, _⟩ | ⟨_, htail⟩
    · exact h.known j (hsame ▸ hj)
    · rw [htail] at hj
      split at hj
      · cases hj
      · exact h.known j hj

/-- Every call, successful or not, keeps the ledger. -/
theorem Ledger.step (h : Ledger w) (q : Clock × BudgetCall) : Ledger (w.step q) := by
  obtain ⟨c, call⟩ := q
  unfold BudgetWorld.step BudgetWorld.call
  cases call with
  | consume fence =>
    dsimp only
    split
    · rename_i remaining budget hconsume
      obtain ⟨_, hroom, rfl⟩ := consume_ok hconsume
      exact h.direct rfl rfl (not_exhausted hroom).1 h.hold_le
    · exact h
  | holdOrdinary n =>
    dsimp only
    split
    · rename_i budget hheld
      obtain ⟨_, hle, rfl⟩ := holdOrdinary_ok hheld
      exact h.direct (n := 0) rfl rfl h.calls_le hle
    · exact h
  | releaseOrdinary n =>
    dsimp only
    split
    · rename_i budget hreleased
      obtain rfl := releaseOrdinary_ok hreleased
      exact h.direct (n := 0) rfl rfl h.calls_le (Nat.zero_le _)
    · exact h
  | reserveTail plan witness reservationId =>
    dsimp only
    split
    · rename_i ticket budget hreserve
      exact h.reserved hreserve
    · exact h
  | ticket k method =>
    dsimp only
    split
    · exact h
    · rename_i t ht
      exact h.ticket ht (ticket_move w.budget k t c method)
  | snapshot => exact h
  | restore s =>
    dsimp only
    split
    · rename_i budget hrestore
      obtain ⟨hcalls, hle, _, htail, hhold, _⟩ := restore_ok hrestore
      refine ⟨hle, hcalls, by simp, by simp, fun k hk => ?_, by rw [hhold]; exact Nat.zero_le _⟩
      rw [htail] at hk
      cases hk
    · exact h

/-- The world after a run of calls on a fresh budget. -/
def budgetRun (start : Clock) (calls : List (Clock × BudgetCall)) : BudgetWorld :=
  run BudgetWorld.step (.initial start) calls

theorem ledger_run (start : Clock) (calls : List (Clock × BudgetCall)) :
    Ledger (budgetRun start calls) :=
  run_keeps (P := Ledger) (fun _ q h => h.step q) (ledger_initial start) calls

def BudgetCall.isRestore : BudgetCall → Bool
  | restore _ => true
  | _ => false

/-- Within one budget nothing is given back: the calls only grow, the deadlines stay. -/
theorem step_budget (w : BudgetWorld) (q : Clock × BudgetCall) (hq : q.2.isRestore = false) :
    w.budget.calls ≤ (w.step q).budget.calls ∧ (w.step q).budget.deadline = w.budget.deadline ∧
      (w.step q).budget.wallDeadlineMs = w.budget.wallDeadlineMs := by
  obtain ⟨c, call⟩ := q
  unfold BudgetWorld.step BudgetWorld.call
  cases call with
  | consume fence =>
    dsimp only
    split
    · rename_i remaining budget hconsume
      obtain ⟨_, _, rfl⟩ := consume_ok hconsume
      exact ⟨Nat.le_succ _, rfl, rfl⟩
    · exact ⟨Nat.le_refl _, rfl, rfl⟩
  | holdOrdinary n =>
    dsimp only
    split
    · rename_i budget hheld
      obtain ⟨_, _, rfl⟩ := holdOrdinary_ok hheld
      exact ⟨Nat.le_refl _, rfl, rfl⟩
    · exact ⟨Nat.le_refl _, rfl, rfl⟩
  | releaseOrdinary n =>
    dsimp only
    split
    · rename_i budget hreleased
      obtain rfl := releaseOrdinary_ok hreleased
      exact ⟨Nat.le_refl _, rfl, rfl⟩
    · exact ⟨Nat.le_refl _, rfl, rfl⟩
  | reserveTail plan witness reservationId =>
    dsimp only
    split
    · rename_i ticket budget hreserve
      obtain ⟨_, _, _, _, rfl⟩ := reserveTail_ok hreserve
      exact ⟨Nat.le_add_right _ _, rfl, rfl⟩
    · exact ⟨Nat.le_refl _, rfl, rfl⟩
  | ticket k method =>
    dsimp only
    split
    · exact ⟨Nat.le_refl _, rfl, rfl⟩
    · rename_i t ht
      have hbudget := (ticket_move w.budget k t c method).budget_eq
      dsimp only
      rw [hbudget]
      exact ⟨Nat.le_refl _, rfl, rfl⟩
  | snapshot => exact ⟨Nat.le_refl _, rfl, rfl⟩
  | restore s => cases hq

/-- A ticket moves forward; a closed one stays closed and dispatches nothing. -/
theorem step_ticket (w : BudgetWorld) (q : Clock × BudgetCall) (hq : q.2.isRestore = false)
    {k : Nat} (ht : w.tickets[k]? = some t) :
    ∃ t', (w.step q).tickets[k]? = some t' ∧ t'.plan = t.plan ∧ t.index ≤ t'.index ∧
      (t.closed = true → t'.closed = true ∧ t'.dispatched = t.dispatched) := by
  have hsame : ∃ t', w.tickets[k]? = some t' ∧ t'.plan = t.plan ∧ t.index ≤ t'.index ∧
      (t.closed = true → t'.closed = true ∧ t'.dispatched = t.dispatched) :=
    ⟨t, ht, rfl, Nat.le_refl _, fun h => ⟨h, rfl⟩⟩
  have hlt : k < w.tickets.length := (List.getElem?_eq_some_iff.mp ht).1
  obtain ⟨c, call⟩ := q
  unfold BudgetWorld.step BudgetWorld.call
  cases call with
  | consume fence => dsimp only; split <;> exact hsame
  | holdOrdinary n => dsimp only; split <;> exact hsame
  | releaseOrdinary n => dsimp only; split <;> exact hsame
  | snapshot => exact hsame
  | restore s => cases hq
  | reserveTail plan witness reservationId =>
    dsimp only
    split
    · dsimp only
      rw [List.getElem?_append_left hlt]
      exact hsame
    · exact hsame
  | ticket j method =>
    dsimp only
    split
    · exact hsame
    · rename_i u hu
      dsimp only
      by_cases hjk : j = k
      · subst hjk
        obtain rfl : u = t := Option.some.inj (hu.symm.trans ht)
        have hmove := ticket_move w.budget j u c method
        rw [List.getElem?_set_self hlt]
        exact ⟨_, rfl, hmove.plan_eq, hmove.index_le, hmove.stays_closed⟩
      · rw [List.getElem?_set_ne hjk]
        exact hsame

/-- The step of its plan that a call on this ticket dispatches, if it dispatches one. -/
def usedStep (k : Nat) (w : BudgetWorld) (q : Clock × BudgetCall) : Option Nat :=
  match q.2, (w.call q.1 q.2).1 with
  | .ticket j (.consume _ _), .ok _ =>
    if j = k then (w.step q).tickets[k]?.map (fun t => t.index - 1) else none
  | _, _ => none

/-- The steps of its plan that a run dispatches through a ticket, in order. -/
def usedSteps (k : Nat) (w : BudgetWorld) : List (Clock × BudgetCall) → List Nat
  | [] => []
  | q :: later => (usedStep k w q).toList ++ usedSteps k (w.step q) later

/-- A dispatch through a ticket needs it started and outstanding, passes only optional steps over,
and uses the next step of its plan that matches. -/
theorem ticket_dispatch (w : BudgetWorld) {k : Nat} (ht : w.tickets[k]? = some t) {label : String}
    {fence : Bool} (hok : (w.call c (.ticket k (.consume label fence))).1 = .ok ()) :
    t.closed = false ∧ t.started = true ∧ w.budget.tail = some k ∧ c.now < w.budget.deadline ∧
      ∃ skipped step rest, t.plan.steps.drop t.index = skipped ++ step :: rest ∧
        (∀ s ∈ skipped, s.optional = true) ∧ step.label = label ∧ step.fence = fence ∧
        (w.step (c, .ticket k (.consume label fence))).tickets[k]? =
          some { t with index := t.index + skipped.length + 1, dispatched := t.dispatched + 1 } := by
  have hlt : k < w.tickets.length := (List.getElem?_eq_some_iff.mp ht).1
  have hcall : w.call c (.ticket k (.consume label fence)) =
      ((t.consume w.budget k label fence c).outcome,
        { w with
          budget := (t.consume w.budget k label fence c).budget
          tickets := w.tickets.set k (t.consume w.budget k label fence c).ticket }) := by
    unfold BudgetWorld.call
    dsimp only
    rw [ht]
    rfl
  unfold BudgetWorld.step
  rw [hcall] at hok ⊢
  dsimp only at hok ⊢
  rw [List.getElem?_set_self hlt]
  unfold EvidenceTailTicket.consume at hok ⊢
  split at hok
  · cases hok
  rename_i hactive
  push Not at hactive
  obtain ⟨hopen, hstarted, htail⟩ := hactive
  split at hok
  · cases hok
  rename_i remaining hremaining
  have hnow := remainingSeconds_ok hremaining
  dsimp only at hok
  split at hok
  swap
  · cases hok
  rename_i hfound
  obtain ⟨skipped, step, rest, hsteps, hall, hlabel, hfence, hcount⟩ := seek_found hfound
  refine ⟨by simpa using hopen, by simpa using hstarted, htail, hnow, skipped, step, rest, hsteps,
    hall, hlabel, hfence, ?_⟩
  rw [if_neg (by simp [hopen, hstarted, htail])]
  dsimp only
  rw [if_pos hfound, hcount]
  rfl

/-- Each step of a plan is used at most once, in the plan's order. -/
theorem used_in_order (h : Ledger w) {k : Nat} (ht : w.tickets[k]? = some t)
    {later : List (Clock × BudgetCall)} (hlater : ∀ q ∈ later, q.2.isRestore = false) :
    (usedSteps k w later).Pairwise (· < ·) ∧
      ∀ i ∈ usedSteps k w later, t.index ≤ i ∧ i < t.plan.steps.length := by
  induction later generalizing w t with
  | nil => exact ⟨.nil, by simp [usedSteps]⟩
  | cons q later ih =>
    have hq := hlater q List.mem_cons_self
    obtain ⟨t', ht', hplan, hindex, _⟩ := step_ticket w q hq ht
    have hnext := h.step q
    obtain ⟨hpairwise, hrange⟩ := ih hnext ht' (fun p hp => hlater p (List.mem_cons_of_mem _ hp))
    rw [hplan] at hrange
    -- The step just used lies between the two positions of the ticket.
    have hused : ∀ i ∈ (usedStep k w q).toList,
        t.index ≤ i ∧ i < t'.index ∧ i < t.plan.steps.length := by
      intro i hi
      obtain ⟨c, call⟩ := q
      unfold usedStep at hi
      split at hi
      · rename_i j label fence u hcall hok
        obtain rfl : call = .ticket j (.consume label fence) := hcall
        split at hi
        · rename_i hjk
          subst hjk
          obtain ⟨_, _, _, _, skipped, step, rest, hsteps, _, _, _, hafter⟩ :=
            ticket_dispatch w ht (c := c) hok
          obtain rfl := Option.some.inj (ht'.symm.trans hafter)
          rw [ht'] at hi
          simp only [Option.map_some, Option.toList_some, List.mem_singleton] at hi
          have hbound := (hnext.spent _ (List.mem_of_getElem? ht')).2
          dsimp only at hbound ⊢
          omega
        · cases hi
      · cases hi
    unfold usedSteps
    refine ⟨List.pairwise_append.mpr ⟨?_, hpairwise, ?_⟩, ?_⟩
    · cases usedStep k w q with
      | none => exact .nil
      | some i => exact List.pairwise_singleton _ _
    · intro i hi j hj
      have hlow := (hused i hi).2.1
      have hhigh := (hrange j hj).1
      omega
    · intro i hi
      rcases List.mem_append.mp hi with hi | hi
      · exact ⟨(hused i hi).1, (hused i hi).2.2⟩
      · have hlow := hrange i hi
        exact ⟨by omega, hlow.2⟩

/-- A closed ticket never dispatches again. -/
theorem closed_stays {k : Nat} (ht : w.tickets[k]? = some t) (hclosed : t.closed = true)
    {later : List (Clock × BudgetCall)} (hlater : ∀ q ∈ later, q.2.isRestore = false) :
    usedSteps k w later = [] := by
  induction later generalizing w t with
  | nil => rfl
  | cons q later ih =>
    have hq := hlater q List.mem_cons_self
    obtain ⟨t', ht', _, _, hkeep⟩ := step_ticket w q hq ht
    have hrest := ih ht' (hkeep hclosed).1 (fun p hp => hlater p (List.mem_cons_of_mem _ hp))
    have hnone : usedStep k w q = none := by
      obtain ⟨c, call⟩ := q
      unfold usedStep
      split
      · rename_i j label fence u hcall hok
        obtain rfl : call = .ticket j (.consume label fence) := hcall
        split
        · rename_i hjk
          subst hjk
          have hopen := (ticket_dispatch w ht (c := c) hok).1
          rw [hclosed] at hopen
          cases hopen
        · rfl
      · rfl
    rw [usedSteps, hnone, hrest]
    rfl

/-- The refusals that are a mismatch: they close the ticket. -/
theorem mismatch_closes (b : EvidenceReadBudget) (k : Nat) (t : EvidenceTailTicket) (c : Clock)
    (hnow : c.now < b.deadline) :
    (∀ label fence e, t.started = true → b.tail = some k →
      (t.consume b k label fence c).outcome = .error e →
        (t.consume b k label fence c).ticket.closed = true) ∧
    (∀ scope root e, (t.start b k scope root c).outcome = .error e →
      (t.start b k scope root c).ticket.closed = true) := by
  have hremaining : b.remainingSeconds c = .ok (min (b.deadline - c.now) partReadTime) :=
    if_neg (by omega)
  have hcheck : b.check c = .ok () := if_neg (by omega)
  refine ⟨fun label fence e hstarted htail herror => ?_, fun scope root e herror => ?_⟩
  · by_cases hclosed : t.closed = true
    · exact ((ticket_consume b k t label fence c).stays_closed hclosed).1
    unfold EvidenceTailTicket.consume at herror ⊢
    rw [if_neg (by simp [hclosed, hstarted, htail]), hremaining] at herror ⊢
    dsimp only at herror ⊢
    split at herror
    · cases herror
    · rename_i hfound
      rw [if_neg hfound]
      rfl
  · unfold EvidenceTailTicket.start at herror ⊢
    split at herror
    · rename_i hbad
      rw [if_pos hbad]
      rfl
    · rw [hcheck] at herror
      cases herror

theorem sum_dispatched_le (tickets : List EvidenceTailTicket)
    (h : ∀ t ∈ tickets, t.dispatched ≤ t.index ∧ t.index ≤ t.plan.steps.length) :
    (tickets.map EvidenceTailTicket.dispatched).sum ≤
      (tickets.map (fun t => t.plan.steps.length)).sum := by
  induction tickets with
  | nil => exact Nat.le_refl _
  | cons t tickets ih =>
    have hrest := ih (fun u hu => h u (List.mem_cons_of_mem _ hu))
    have hfirst := h t List.mem_cons_self
    rw [List.map_cons, List.map_cons, List.sum_cons, List.sum_cons]
    omega

end ReviewSensei.ReadBudget
