import ReviewSensei.ApiWork

/-! The shared read budget: one counter for ordinary dispatches, fences and prepaid tails, one
deadline, and the ticket that spends a prepaid tail in the order of its plan. -/
namespace ReviewSensei.ReadBudget
open Session (isSha256)

def maxPartReads : Nat := 64

/-- The calls kept for the final fences. -/
def fenceReserve : Nat := 4

/-- A minute; instants are in microseconds. -/
def partReadTime : Nat := 60 * 1000000

structure TailDispatch where
  label : String
  fence : Bool
  optional : Bool
  label_ok : 1 ≤ (Sha256.encode label).length ∧ (Sha256.encode label).length ≤ 1024
  deriving DecidableEq

inductive TailAdapter
  | local
  | github
  deriving DecidableEq

/-- A sealed context digest and the complete ordered liability. -/
@[ext]
structure ActivationTailPlan where
  adapter : TailAdapter
  scopeSha256 : String
  steps : List TailDispatch
  scope_ok : isSha256 scopeSha256 = true
  steps_ok : 1 ≤ steps.length ∧ steps.length ≤ maxPartReads

instance : DecidableEq ActivationTailPlan := fun _ _ =>
  decidable_of_iff' _ ActivationTailPlan.ext_iff

structure EvidenceTailTicket where
  plan : ActivationTailPlan
  rootSha256 : Option String
  started : Bool
  closed : Bool
  index : Nat
  dispatched : Nat
  deriving DecidableEq

/-- A budget; `tail` names the ticket it has outstanding. -/
structure EvidenceReadBudget where
  restored : Bool
  tail : Option Nat
  ordinaryHold : Nat
  calls : Nat
  deadline : Nat
  wallDeadlineMs : Nat
  deriving DecidableEq

/-- What a receipt stores of a budget. -/
structure BudgetSnapshot where
  calls : Nat
  deadlineUnixMs : Nat
  deriving DecidableEq

/-- The two clocks at the moment of a call. -/
structure Clock where
  now : Nat
  wall : Nat

def deadlineText : String := "partition read deadline exhausted"

namespace EvidenceReadBudget

def fresh (c : Clock) : EvidenceReadBudget where
  restored := false
  tail := none
  ordinaryHold := 0
  calls := 0
  deadline := c.now + partReadTime
  wallDeadlineMs := (c.wall + partReadTime) / 1000

/-- The constructor from a snapshot. -/
def restore (s : BudgetSnapshot) (c : Clock) : Except String EvidenceReadBudget :=
  if maxPartReads < s.calls ∨ s.deadlineUnixMs < 1 ∨ 253402300799999 < s.deadlineUnixMs then
    .error "partition integer exceeds its contract"
  else if s.deadlineUnixMs * 1000 ≤ c.wall ∨ partReadTime < s.deadlineUnixMs * 1000 - c.wall then
    .error "partition original activation deadline expired or invalid"
  else .ok
    { restored := true
      tail := none
      ordinaryHold := 0
      calls := s.calls
      deadline := c.now + (s.deadlineUnixMs * 1000 - c.wall)
      wallDeadlineMs := s.deadlineUnixMs }

def snapshot (b : EvidenceReadBudget) : BudgetSnapshot := ⟨b.calls, b.wallDeadlineMs⟩

def check (b : EvidenceReadBudget) (c : Clock) : Except String Unit :=
  if b.deadline ≤ c.now then .error deadlineText else .ok ()

def remainingSeconds (b : EvidenceReadBudget) (c : Clock) : Except String Nat :=
  if b.deadline ≤ c.now then .error deadlineText else .ok (min (b.deadline - c.now) partReadTime)

/-- The room for ordinary dispatches, which fences can push below zero. -/
def ordinaryRemaining (b : EvidenceReadBudget) : Int :=
  (maxPartReads : Int) - fenceReserve - b.ordinaryHold - b.calls

def exhausted (b : EvidenceReadBudget) (fence : Bool) : Bool :=
  if fence then decide (maxPartReads ≤ b.calls) else decide (b.ordinaryRemaining ≤ 0)

def consume (b : EvidenceReadBudget) (fence : Bool) (c : Clock) :
    Except String (Nat × EvidenceReadBudget) :=
  if b.tail ≠ none then .error "ordinary dispatch cannot use prepaid activation work"
  else do
    let remaining ← b.remainingSeconds c
    if b.exhausted fence then .error "partition shared request budget exhausted"
    else .ok (min remaining partReadTime, { b with calls := b.calls + 1 })

def holdOrdinary (b : EvidenceReadBudget) (calls : Int) : Except String EvidenceReadBudget :=
  if ¬(0 < calls ∧ calls ≤ (maxPartReads : Int) - fenceReserve) then
    .error "ordinary dispatch hold is invalid"
  else if b.ordinaryHold ≠ 0 then .error "ordinary dispatch hold is already outstanding"
  else if b.tail ≠ none then
    .error "ordinary dispatch hold cannot coexist with an activation tail"
  else .ok { b with ordinaryHold := calls.toNat }

def releaseOrdinary (b : EvidenceReadBudget) (calls : Int) : Except String EvidenceReadBudget :=
  if (b.ordinaryHold : Int) ≠ calls then .error "ordinary dispatch hold release does not match"
  else .ok { b with ordinaryHold := 0 }

/-- `_operation_witness_matches`; a witness is the binding of an operation handle. -/
def operationWitnessMatches (witness : Option String) (reservationId : String) : Bool :=
  witness.any (fun binding => ApiWork.isName binding && binding == reservationId)

/-- The calls after the plan's steps, each under its own ceiling. -/
def debit (calls : Nat) : List TailDispatch → Except String Nat
  | [] => .ok calls
  | step :: steps =>
    if maxPartReads - (if step.fence then 0 else fenceReserve) ≤ calls then
      .error "activation tail liability exceeds original budget"
    else debit (calls + 1) steps

/-- `reserve_tail`; `k` is the identity the new ticket takes. -/
def reserveTail (b : EvidenceReadBudget) (k : Nat) (plan : ActivationTailPlan)
    (witness reservationId : Option String) (c : Clock) :
    Except String (EvidenceTailTicket × EvidenceReadBudget) := do
  b.check c
  if b.restored && !operationWitnessMatches witness (reservationId.getD "") then
    .error "activation restart requires authenticated original attempt accounting"
  else if b.tail ≠ none ∨ b.ordinaryHold ≠ 0 then
    .error "activation tail reservation is already outstanding"
  else do
    let projected ← debit b.calls plan.steps
    .ok (⟨plan, none, false, false, 0, 0⟩, { b with calls := projected, tail := some k })

end EvidenceReadBudget

/-- What a ticket's method leaves of the budget and of the ticket; a raise keeps its writes. -/
structure TicketCall where
  outcome : Except String Unit
  budget : EvidenceReadBudget
  ticket : EvidenceTailTicket

namespace EvidenceTailTicket
variable (b : EvidenceReadBudget) (k : Nat) (t : EvidenceTailTicket)

/-- Close the ticket with this outcome and give up its place. -/
def abort (outcome : Except String Unit) : TicketCall where
  outcome
  budget := { b with tail := if b.tail = some k then none else b.tail }
  ticket := { t with closed := true }

def unchanged (e : String) : TicketCall := ⟨.error e, b, t⟩

def sealRoot (rootSha256 : String) (c : Clock) : TicketCall :=
  if t.rootSha256 ≠ none ∨ t.closed = true ∨ b.tail ≠ some k then
    abort b k t (.error "activation tail ticket was already sealed or spent")
  else match b.check c with
    | .error e => unchanged b t e
    | .ok _ =>
      if !isSha256 rootSha256 then unchanged b t "partition digest is invalid"
      else ⟨.ok (), b, { t with rootSha256 := some rootSha256 }⟩

def start (scopeSha256 rootSha256 : String) (c : Clock) : TicketCall :=
  if t.closed = true ∨ t.started = true ∨ t.rootSha256 = none ∨ b.tail ≠ some k ∨
      scopeSha256 ≠ t.plan.scopeSha256 ∨ some rootSha256 ≠ t.rootSha256 then
    abort b k t (.error "activation tail scope or root does not match")
  else match b.check c with
    | .error e => unchanged b t e
    | .ok _ => ⟨.ok (), b, { t with started := true }⟩

/-- The loop of `consume`: how many steps it passes, and whether it stopped at a match. -/
def seek (label : String) (fence : Bool) : List TailDispatch → Nat × Bool
  | [] => (0, false)
  | step :: steps =>
    if step.label = label ∧ step.fence = fence then (1, true)
    else if !step.optional then (0, false)
    else ((seek label fence steps).1 + 1, (seek label fence steps).2)

def consume (label : String) (fence : Bool) (c : Clock) : TicketCall :=
  if t.closed = true ∨ t.started = false ∨ b.tail ≠ some k then
    unchanged b t "activation tail ticket is not active"
  else match b.remainingSeconds c with
    | .error e => unchanged b t e
    | .ok _ =>
      let found := seek label fence (t.plan.steps.drop t.index)
      if found.2 then
        ⟨.ok (), b, { t with index := t.index + found.1, dispatched := t.dispatched + 1 }⟩
      else abort b k { t with index := t.index + found.1 }
        (.error "activation tail dispatch exceeds sealed bounds")

def finish (c : Clock) : TicketCall :=
  if t.closed = true ∨ t.started = false then
    unchanged b t "activation tail ticket was already spent"
  else match b.check c with
    | .error e => unchanged b t e
    | .ok _ =>
      if (t.plan.steps.drop t.index).any (fun step => !step.optional) then
        abort b k t (.error "activation tail mandatory readback is incomplete")
      else abort b k t (.ok ())

end EvidenceTailTicket

/-- A method of a ticket, with its arguments. -/
inductive TicketMethod
  | sealRoot (rootSha256 : String)
  | start (scopeSha256 rootSha256 : String)
  | consume (label : String) (fence : Bool)
  | finish
  | abort

def TicketMethod.call (b : EvidenceReadBudget) (k : Nat) (t : EvidenceTailTicket) (c : Clock) :
    TicketMethod → TicketCall
  | sealRoot root => t.sealRoot b k root c
  | start scope root => t.start b k scope root c
  | consume label fence => t.consume b k label fence c
  | finish => t.finish b k c
  | abort => t.abort b k (.ok ())

/-- One call on the budget or on one of its tickets. -/
inductive BudgetCall
  | consume (fence : Bool)
  | holdOrdinary (calls : Int)
  | releaseOrdinary (calls : Int)
  | reserveTail (plan : ActivationTailPlan) (witness reservationId : Option String)
  | ticket (k : Nat) (method : TicketMethod)
  | snapshot
  | restore (s : BudgetSnapshot)

/-- The budget with every ticket it issued. A restore starts a new budget, without tickets.
`opened` are the calls the budget started with and `direct` counts its own dispatches. -/
structure BudgetWorld where
  budget : EvidenceReadBudget
  tickets : List EvidenceTailTicket
  opened : Nat
  direct : Nat

namespace BudgetWorld

def initial (c : Clock) : BudgetWorld := ⟨.fresh c, [], 0, 0⟩

/-- What a call returns, and the world it leaves. -/
def call (w : BudgetWorld) (c : Clock) : BudgetCall → Except String Unit × BudgetWorld
  | .consume fence =>
    match w.budget.consume fence c with
    | .ok (_, budget) => (.ok (), { w with budget, direct := w.direct + 1 })
    | .error e => (.error e, w)
  | .holdOrdinary n =>
    match w.budget.holdOrdinary n with
    | .ok budget => (.ok (), { w with budget })
    | .error e => (.error e, w)
  | .releaseOrdinary n =>
    match w.budget.releaseOrdinary n with
    | .ok budget => (.ok (), { w with budget })
    | .error e => (.error e, w)
  | .reserveTail plan witness reservationId =>
    match w.budget.reserveTail w.tickets.length plan witness reservationId c with
    | .ok (ticket, budget) => (.ok (), { w with budget, tickets := w.tickets ++ [ticket] })
    | .error e => (.error e, w)
  | .ticket k method =>
    match w.tickets[k]? with
    | none => (.error "no such ticket", w)
    | some t =>
      let done := method.call w.budget k t c
      (done.outcome, { w with budget := done.budget, tickets := w.tickets.set k done.ticket })
  | .snapshot => (.ok (), w)
  | .restore s =>
    match EvidenceReadBudget.restore s c with
    | .ok budget => (.ok (), ⟨budget, [], s.calls, 0⟩)
    | .error e => (.error e, w)

def step (w : BudgetWorld) (q : Clock × BudgetCall) : BudgetWorld := (w.call q.1 q.2).2

end BudgetWorld

end ReviewSensei.ReadBudget
