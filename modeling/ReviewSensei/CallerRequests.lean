import ReviewSensei.ApiWorkSteps
import ReviewSensei.Fenced
import Mathlib.Logic.Function.Basic

/-! The transport through which a run makes its requests, and the allocations of one operation
inside the block that was reserved for its owner. -/
namespace ReviewSensei.CallerRequests
open ApiWork

/-- `WRITE_CONFIRMATION_TAIL`: the write and its two confirmation requests. -/
def writeConfirmationTail : Nat := 3

/-- `READ_OPERATION_REQUESTS`. -/
def readOperationRequests : Nat := 10

inductive CallerError
  | exhausted (text : String)
  | invalid (text : String)
  | lost
  | status (code : Nat)
  deriving DecidableEq

/-- One allocation that is never replenished. -/
structure CallerOperation where
  capacity : Nat
  writeTail : Nat
  key : String
  used : Nat
  writeAttempted : Bool
  confirmationUsed : Nat
  confirmed : Bool
  used_le : used ≤ capacity

namespace CallerOperation

def issue (capacity writeTail : Nat) (key : String) : CallerOperation :=
  ⟨capacity, writeTail, key, 0, false, 0, false, Nat.zero_le _⟩

def remaining (o : CallerOperation) : Nat := o.capacity - o.used

def charged (o : CallerOperation) (h : o.remaining ≠ 0) : CallerOperation :=
  { o with
    used := o.used + 1
    used_le := by
      unfold remaining at h
      omega }

/-- A refusal leaves every counter as it was. -/
def consume (o : CallerOperation) (mutation : Bool) : Except CallerError CallerOperation :=
  if h : o.remaining = 0 then .error (.exhausted "caller operation allocation exhausted")
  else if mutation = true then
    if o.writeTail = 0 ∨ o.writeAttempted = true then
      .error (.invalid "caller operation cannot repeat a mutation")
    else if o.remaining < o.writeTail then
      .error (.exhausted "caller mutation confirmation tail is unfunded")
    else .ok { o.charged h with writeAttempted := true }
  else if o.writeAttempted = true then
    if o.writeTail - 1 ≤ o.confirmationUsed then
      .error (.exhausted "caller write confirmation allocation exhausted")
    else .ok { o.charged h with confirmationUsed := o.confirmationUsed + 1 }
  else if o.writeTail ≠ 0 ∧ o.remaining ≤ o.writeTail then
    .error (.exhausted "caller enumeration cannot preserve write confirmation")
  else .ok (o.charged h)

end CallerOperation

/-- `request.get_method()`, the path of its url and its body. -/
structure Request where
  method : String
  path : String
  data : String
  deriving DecidableEq

/-- What the two clocks read, in microseconds. -/
structure Instant where
  clock : Nat
  monotonic : Nat
  deriving DecidableEq

inductive Outcome
  | unknown
  | response
  | expired
  deriving DecidableEq

/-- The receipt of one physical dispatch, with what `confirmed` closes over and the response
object that was handed out. -/
structure Observation where
  ordinary : Bool
  requestId : String
  deadlineUnixMs : Nat
  requestDeadline : Nat
  pending : Option PendingApiRequest
  mutation : Bool
  outcome : Outcome
  uncertainEffect : Bool
  observedStatus : Option Nat
  opened : Bool
  read : Bool
  deriving DecidableEq

namespace Observation

/-- Either clock is past the deadline the request was made with. -/
def late (o : Observation) (now : Instant) : Bool :=
  decide (o.deadlineUnixMs < now.clock / 1000) || decide (o.requestDeadline < now.monotonic)

/-- The statuses after which a write may or may not have happened. -/
def statusUncertain (o : Observation) : Bool :=
  match o.observedStatus with
  | none => false
  | some code => code ∈ [202, 409, 422, 429] || decide (500 ≤ code)

end Observation

/-- The root of the record and the key an operation is entered under. -/
abbrev Identity := Option String × String

/-- A `with` block that is open: its operation and the identity taken when it was entered. -/
structure Frame where
  op : Nat
  identity : Identity
  deriving DecidableEq

variable {rules : AccountingRules}

/-- Operations are objects that several places hold: they are numbered in the order they are
created. -/
structure Transport (rules : AccountingRules) where
  run : ApiRunIdentity
  plan : StartupPlan
  slot : StartupSlot
  state : Option (ApiRunAccounting rules)
  block : Option String
  root : Option String
  sequence : Nat
  startupDispatches : Nat
  /-- The record and the block that a reservation intends. -/
  activation : Option (String × String)
  checkpoint : Bool
  observations : List Observation
  operations : Nat → CallerOperation
  created : Nat
  issuedOperations : List (Nat × Option String)
  activeOperation : Option Frame
  stagedPartOperation : Option Frame
  failedOperations : List Identity

/-- A call returns or raises; what it has changed by then stays. -/
abbrev Called (rules : AccountingRules) := Except CallerError Unit × Transport rules

def Called.andThen (x : Called rules) (f : Transport rules → Called rules) : Called rules :=
  match x with
  | (.error e, t) => (.error e, t)
  | (.ok (), t) => f t

namespace Transport

def start (run : ApiRunIdentity) (plan : StartupPlan) (slot : StartupSlot) : Transport rules where
  run
  plan
  slot
  state := none
  block := none
  root := none
  sequence := 0
  startupDispatches := 0
  activation := none
  checkpoint := false
  observations := []
  operations := fun _ => CallerOperation.issue 0 0 ""
  created := 0
  issuedOperations := []
  activeOperation := none
  stagedPartOperation := none
  failedOperations := []

/-- What is left of the owned block. -/
def usable (t : Transport rules) : Nat :=
  match t.state with
  | none => 0
  | some r => ((r.blocks.find? (fun b => some b.blockId == t.block)).map
      CallerRequestBlock.undispatched).getD 0

def store (t : Transport rules) (op : Nat) (o : CallerOperation) : Transport rules :=
  { t with operations := Function.update t.operations op o }

/-- A new operation; the number of the next one is `created`. -/
def allocate (t : Transport rules) (o : CallerOperation) : Transport rules :=
  { t.store t.created o with created := t.created + 1 }

/-- Only an issued, written and unsettled operation of this block is entered a second time. -/
def retainable (t : Transport rules) (op : Nat) : Bool :=
  !(t.operations op).confirmed && (t.operations op).writeAttempted &&
    t.issuedOperations.contains (op, t.block)

def enter (t : Transport rules) (frame : Frame) (needed : Nat) : Called rules :=
  if (t.operations frame.op).remaining < (if needed = 0 then 1 else needed) then
    (.error (.exhausted "caller operation allocation is unfunded"), t)
  else (.ok (), { t with activeOperation := some frame })

/-- `_operation`, up to its `yield`. -/
def operation (t : Transport rules) (key : String) (capacity writeTail prewriteReads : Nat)
    (retained : Option Nat) : Called rules :=
  if t.activeOperation.isSome then
    (.error (.invalid "caller mutation cannot nest another operation"), t)
  else
    match retained with
    | none =>
      if (t.root, key) ∈ t.failedOperations then
        (.error (.invalid "caller failed operation cannot be replenished"), t)
      else
        let fresh := CallerOperation.issue (min capacity t.usable) writeTail key
        { t.allocate fresh with
          issuedOperations := t.issuedOperations ++ [(t.created, t.block)] }.enter
          ⟨t.created, (t.root, key)⟩ (writeTail + prewriteReads)
    | some op =>
      if t.retainable op then t.enter ⟨op, (t.root, key)⟩ (writeTail + prewriteReads)
      else (.error (.invalid "caller operation is foreign, settled or reconstructed"), t)

/-- Inside another operation a read shares its allocation. -/
def readOperation (t : Transport rules) (key : String) (retained : Option Nat) : Called rules :=
  if t.state.isNone || t.activeOperation.isSome then
    if retained.isSome && decide (retained ≠ t.activeOperation.map Frame.op) then
      (.error (.invalid "caller confirmation operation conflicts"), t)
    else (.ok (), t)
  else t.operation key readOperationRequests 0 0 retained

def mutationOperation (t : Transport rules) (key : String) (fences : Nat) : Called rules :=
  t.operation key (writeConfirmationTail + fences) writeConfirmationTail fences none

/-- The identity an immutable part is written under. -/
def partIdentity (t : Transport rules) (key : String) : Identity := (t.root, "part:" ++ key)

/-- `staged_part_operation`, up to its `yield`. -/
def stagedPart (t : Transport rules) (key : String) (fences : Nat) : Called rules :=
  match t.activeOperation with
  | none => (.error (.invalid "immutable part operation is unavailable"), t)
  | some frame =>
    let parent := t.operations frame.op
    if parent.writeAttempted = true ∨ parent.writeTail = 0 ∨ t.stagedPartOperation.isSome ∨
        t.partIdentity key ∈ t.failedOperations then
      (.error (.invalid "immutable part operation is unavailable"), t)
    else if min parent.remaining t.usable <
        parent.writeTail + fences + writeConfirmationTail + fences then
      (.error (.exhausted "immutable part and root tails are unfunded"), t)
    else
      let child := CallerOperation.issue (writeConfirmationTail + fences) writeConfirmationTail
        (t.partIdentity key).2
      (.ok (), { t.allocate child with
        stagedPartOperation := some ⟨t.created, t.partIdentity key⟩ })

/-- The operation of this frame ended by an exception or with a write nobody confirmed. -/
def spoiled (t : Transport rules) (frame : Frame) (raised : Bool) : Bool :=
  raised || ((t.operations frame.op).writeAttempted && !(t.operations frame.op).confirmed)

def remember (t : Transport rules) (frame : Frame) (raised : Bool) : List Identity :=
  if t.spoiled frame raised then frame.identity :: t.failedOperations else t.failedOperations

/-- The end of the `with` block of `_operation`; one inside it has ended before. -/
def leave (t : Transport rules) (raised : Bool) : Transport rules :=
  match t.activeOperation, t.stagedPartOperation with
  | some frame, none =>
    { t with failedOperations := t.remember frame raised, activeOperation := none }
  | _, _ => t

def leaveStaged (t : Transport rules) (raised : Bool) : Transport rules :=
  match t.stagedPartOperation with
  | some frame =>
    { t with failedOperations := t.remember frame raised, stagedPartOperation := none }
  | none => t

/-- `operation.confirmed = True`, by whoever holds the operation. -/
def settle (t : Transport rules) (op : Nat) : Transport rules :=
  t.store op { t.operations op with confirmed := true }

def consume (t : Transport rules) (op : Nat) (mutation : Bool) : Called rules :=
  match (t.operations op).consume mutation with
  | .error e => (.error e, t)
  | .ok o => (.ok (), t.store op o)

/-- The charges of one request; the root allocation is not replenished by a child write. -/
def chargeOperations (t : Transport rules) (mutation : Bool) : Called rules :=
  match t.activeOperation with
  | none => (.ok (), t)
  | some frame =>
    match t.stagedPartOperation with
    | none => t.consume frame.op mutation
    | some child => (t.consume child.op mutation).andThen (fun t => t.consume frame.op false)

def isBusiness (request : Request) : Bool :=
  request.path.startsWith "/repos/" || request.path == "/graphql"

/-- The tails that `open` itself protects. -/
def unfunded (t : Transport rules) (request : Request) (mutation : Bool) : Option CallerError :=
  if request.method = "PATCH" ∧ t.checkpoint = true ∧ t.usable < writeConfirmationTail then
    some (.exhausted "caller checkpoint write/readback tail is unfunded")
  else if mutation = true ∧ isBusiness request = true ∧ t.usable < writeConfirmationTail then
    some (.exhausted "caller business write/readback tail is unfunded")
  else none

end Transport

/-- The constructor of `PendingApiRequest`. -/
def pendingRequest (requestId : String) (deadline : Nat) : Except CallerError PendingApiRequest :=
  if h : isName requestId = true ∧ positive deadline then .ok ⟨requestId, deadline, h.1, h.2⟩
  else .error (.invalid "pending caller request is invalid")

def hex (n : Nat) : String := String.ofList (Nat.toDigits 16 n)

namespace Transport

/-- What stands before the opener in the receipt of a request. -/
structure Intent where
  request : Request
  mutation : Bool
  deadline : Nat
  requestDeadline : Nat

def Intent.receipt (i : Intent) (requestId : String) (pending : Option PendingApiRequest) :
    Observation :=
  { ordinary := pending.isSome, requestId, deadlineUnixMs := i.deadline
    requestDeadline := i.requestDeadline, pending, mutation := i.mutation, outcome := .unknown
    uncertainEffect := false, observedStatus := none, opened := false, read := false }

def observe (t : Transport rules) (o : Observation) : Transport rules :=
  { t with observations := t.observations ++ [o] }

/-- The branch of `open` before a block is confirmed. -/
def chargeStartup (t : Transport rules) (i : Intent) : Called rules :=
  if t.slot.requests.length ≤ t.startupDispatches then
    (.error (.exhausted "startup caller allowance is exhausted"), t)
  else if i.mutation = true ∧ t.activation.isSome ∧
      t.slot.requests.length - t.startupDispatches < writeConfirmationTail then
    (.error (.exhausted "startup caller write/readback tail is unfunded"), t)
  else
    let requestId := "startup-" ++ toString t.run.repositoryId ++ "-" ++ toString t.run.runId ++
      "-" ++ toString t.slot.attempt ++ "-" ++ toString t.sequence
    (.ok (), { t with startupDispatches := t.startupDispatches + 1 }.observe
      (i.receipt requestId none))

/-- The debit of the owned block, after the operations are charged. -/
def debit (t : Transport rules) (r : ApiRunAccounting rules) (i : Intent) : Called rules :=
  match t.unfunded i.request i.mutation with
  | some e => (.error e, t)
  | none =>
    let requestId := "c-" ++ hex r.owner.generation ++ "-" ++ hex t.sequence
    match pendingRequest requestId i.deadline with
    | .error e => (.error e, t)
    | .ok pending =>
      if t.usable = 0 then (.error (.exhausted "caller request allocation is exhausted"), t)
      else
        match r.dispatch (t.block.getD "") pending with
        | .error e => (.error (.invalid e), t)
        | .ok r' =>
          (.ok (), { t with state := some r' }.observe (i.receipt requestId (some pending)))

/-- `open`, up to the physical dispatch. -/
def charge (t : Transport rules) (i : Intent) : Called rules :=
  let t := { t with sequence := t.sequence + 1 }
  match t.state with
  | none => t.chargeStartup i
  | some r => (t.chargeOperations i.mutation).andThen (fun t => t.debit r i)

def setObservation (t : Transport rules) (index : Nat) (o : Observation) : Transport rules :=
  { t with observations := t.observations.set index o }

def expired : CallerError :=
  .exhausted "caller response exceeded its original request deadline"

/-- `self._state.confirm(pending)`. -/
def confirmPending (t : Transport rules) (o : Observation) : Except CallerError (Transport rules) :=
  match o.pending, t.state with
  | none, _ => .ok t
  | some _, none => .error (.invalid "ordinary caller capacity is not confirmed")
  | some pending, some r =>
    match r.confirm pending with
    | .error e => .error (.invalid e)
    | .ok r' => .ok { t with state := some r' }

/-- `confirmed`: the first response of a request, which changes its category even when late. -/
def confirmed (t : Transport rules) (index : Nat) (o : Observation) (now : Instant) :
    Called rules :=
  match o.outcome with
  | .expired => (.error expired, t)
  | .response => (.ok (), t)
  | .unknown =>
    match t.confirmPending o with
    | .error e => (.error e, t)
    | .ok t =>
      let seen := { o with uncertainEffect := o.mutation && o.statusUncertain }
      if o.late now then (.error expired, t.setObservation index { seen with outcome := .expired })
      else (.ok (), t.setObservation index { seen with outcome := .response })

/-- What the opener does with a request that was dispatched. -/
inductive Reply
  | lost
  | httpError (code : Nat) (now : Instant)
  | response (status : Option Nat)

/-- `open`, from the opener on, for the receipt at `index`. -/
def receive (t : Transport rules) (index : Nat) (o : Observation) : Reply → Called rules
  | .lost => (.error .lost, t)
  | .httpError code now =>
    let o := { o with observedStatus := some code }
    ((t.setObservation index o).confirmed index o now).andThen (fun t => (.error (.status code), t))
  | .response status =>
    (.ok (), t.setObservation index { o with observedStatus := status, opened := true })

/-- The timeout, in microseconds, is positive and at most a minute. -/
def validTimeout (timeout : Nat) : Prop := 0 < timeout ∧ timeout ≤ 60000000

instance (timeout : Nat) : Decidable (validTimeout timeout) := inferInstanceAs (Decidable (_ ∧ _))

def isMutation (census : Request → Bool) (request : Request) : Bool :=
  decide (request.method ∈ ["POST", "PUT", "PATCH", "DELETE"]) && !census request

def intent (census : Request → Bool) (request : Request) (timeout : Nat) (now : Instant) :
    Intent :=
  { request, mutation := isMutation census request
    deadline := (now.clock + timeout) / 1000, requestDeadline := now.monotonic + timeout }

/-- The receipt of the last dispatch, with its place. -/
def lastReceipt (t : Transport rules) : Option (Nat × Observation) :=
  (t.observations.getLast?).map (fun o => (t.observations.length - 1, o))

/-- `open`; `census` tells the closed source reads from other posts. -/
def openRequest (census : Request → Bool) (t : Transport rules) (request : Request)
    (timeout : Nat) (now : Instant) (reply : Reply) : Called rules :=
  if validTimeout timeout then
    (t.charge (intent census request timeout now)).andThen (fun t =>
      match t.lastReceipt with
      | none => (.ok (), t)
      | some (index, o) => t.receive index o reply)
  else (.error (.invalid "caller request deadline is invalid"), t)

/-- `_AccountedResponse.read` of the response handed out for the receipt at `index`. -/
def readResponse (t : Transport rules) (index : Nat) (now : Instant) : Called rules :=
  match t.observations[index]? with
  | none => (.error .lost, t)
  | some o =>
    if o.opened = false then (.error .lost, t)
    else if o.read = true then (.ok (), t)
    else (t.confirmed index o now).andThen (fun t =>
      (.ok (), { t with
        observations := t.observations.modify index (fun o => { o with read := true }) }))

/-- A record that intends to activate a block was prepared. -/
def intend (t : Transport rules) (root block : String) : Transport rules :=
  if t.state.isSome || t.activation.isSome then t
  else { t with activation := some (root, block) }

/-- What `_accept_activation` asks of the accounting and the digest of the record it confirmed. -/
def accepts (t : Transport rules) (r : ApiRunAccounting rules) (root block : String) : Bool :=
  t.state.isNone && t.activation == some (root, block) &&
    decide (r.identity = t.run ∧ r.startup = t.plan ∧ r.owner.runAttempt = t.slot.attempt ∧
      r.owner.job = t.slot.job) &&
    r.blocks.any (fun b => b.blockId == block && decide (b.issuedBy = r.owner))

/-- `_accept_activation`. -/
def activate (t : Transport rules) (r : ApiRunAccounting rules) (root block : String) :
    Called rules :=
  if t.accepts r root block then
    (.ok (), { t with state := some r, block := some block, root := some root })
  else (.error (.invalid "confirmed caller reservation scope conflicts"), t)

end Transport

/-- One call of the transport, with what the host and the clocks answer. -/
inductive Call (rules : AccountingRules)
  | intend (root block : String)
  | activate (accounting : ApiRunAccounting rules) (root block : String)
  | readOperation (key : String) (retained : Option Nat)
  | mutationOperation (key : String) (fences : Nat)
  | operation (key : String) (capacity writeTail prewriteReads : Nat) (retained : Option Nat)
  | stagedPart (key : String) (fences : Nat)
  | leave (raised : Bool)
  | leaveStaged (raised : Bool)
  | settle (op : Nat)
  /-- A checkpoint is prepared, accepted or dropped; an accepted one changes the root. -/
  | checkpoint (held : Bool) (root : Option String)
  | openRequest (request : Request) (timeout : Nat) (now : Instant) (reply : Transport.Reply)
  | readResponse (index : Nat) (now : Instant)

namespace Call

def apply (census : Request → Bool) (t : Transport rules) : Call rules → Called rules
  | .intend root block => (.ok (), t.intend root block)
  | .activate r root block => t.activate r root block
  | .readOperation key retained => t.readOperation key retained
  | .mutationOperation key fences => t.mutationOperation key fences
  | .operation key capacity writeTail prewriteReads retained =>
    t.operation key capacity writeTail prewriteReads retained
  | .stagedPart key fences => t.stagedPart key fences
  | .leave raised => (.ok (), t.leave raised)
  | .leaveStaged raised => (.ok (), t.leaveStaged raised)
  | .settle op => (.ok (), t.settle op)
  | .checkpoint held root => (.ok (), { t with checkpoint := held, root })
  | .openRequest request timeout now reply => t.openRequest census request timeout now reply
  | .readResponse index now => t.readResponse index now

/-- The state after a call, whether it returned or raised. -/
def next (census : Request → Bool) (t : Transport rules) (c : Call rules) : Transport rules :=
  (c.apply census t).2

end Call

end ReviewSensei.CallerRequests
