import ReviewSensei.CallerRequestSound

/-! Runs of the transport: what is dispatched, what it was charged to, which operations may still
be issued and which responses count as seen. -/
namespace ReviewSensei.CallerRequests
open ApiWork Transport

variable {rules : AccountingRules} {t t' : Transport rules} {census : Request → Bool}

def runCalls (census : Request → Bool) (t : Transport rules) (calls : List (Call rules)) :
    Transport rules :=
  Fenced.run (Call.next census) t calls

/-- One physical dispatch: the state `open` found, and the state when it calls the opener. -/
structure Dispatch (rules : AccountingRules) where
  before : Transport rules
  after : Transport rules
  intent : Intent

def Call.dispatched (census : Request → Bool) (t : Transport rules) :
    Call rules → Option (Dispatch rules)
  | .openRequest request timeout now _ =>
    if validTimeout timeout then
      match t.charge (intent census request timeout now) with
      | (.ok (), u) => some ⟨t, u, intent census request timeout now⟩
      | (.error _, _) => none
    else none
  | _ => none

/-- The physical dispatches of a run, in order. -/
def dispatches (census : Request → Bool) (t : Transport rules) :
    List (Call rules) → List (Dispatch rules)
  | [] => []
  | c :: calls => (c.dispatched census t).toList ++ dispatches census (c.next census t) calls

namespace Dispatch

/-- It went out of the owned block, not of the startup envelope. -/
def ordinary (d : Dispatch rules) : Bool := d.before.state.isSome

def requestId (d : Dispatch rules) : String :=
  ((d.after.observations.getLast?).map Observation.requestId).getD ""

/-- The operation the request was made for: the staged part, if there is one. -/
def innermost (d : Dispatch rules) : Option Nat :=
  if d.ordinary then
    d.before.activeOperation.map (fun f => (d.before.stagedPartOperation.getD f).op)
  else none

/-- It was made while this operation was the active one or its staged part. -/
def under (op : Nat) (d : Dispatch rules) : Bool :=
  d.ordinary && d.before.activeOperation.any (fun f =>
    f.op == op || d.before.stagedPartOperation.any (fun c => c.op == op))

/-- It was the mutation of this operation. -/
def mutates (op : Nat) (d : Dispatch rules) : Bool :=
  d.intent.mutation && d.innermost == some op

end Dispatch

/-- How far an operation has come after `n` of its requests, `m` of them mutations. -/
structure Progress (o o' : CallerOperation) (n m : Nat) : Prop where
  used : o.used + n ≤ o'.used
  written : o.writeAttempted.toNat + m ≤ o'.writeAttempted.toNat

theorem Progress.refl (o : CallerOperation) : Progress o o 0 0 :=
  ⟨Nat.le_refl _, Nat.le_refl _⟩

theorem Progress.trans {o p q : CallerOperation} {n m n' m' : Nat} (h : Progress o p n m)
    (h' : Progress p q n' m') : Progress o q (n + n') (m + m') := by
  have hused := h.used
  have hused' := h'.used
  have hwritten := h.written
  have hwritten' := h'.written
  exact ⟨by omega, by omega⟩

theorem Progress.weaken {o p : CallerOperation} {n m : Nat} (h : Progress o p n m) :
    Progress o p 0 0 := by
  have hused := h.used
  have hwritten := h.written
  exact ⟨by omega, by omega⟩

theorem Progress.unused {o p : CallerOperation} (hused : o.used = 0)
    (hwritten : o.writeAttempted = false) : Progress o p 0 0 := by
  constructor
  · omega
  · rw [hwritten]
    exact Nat.zero_le _

theorem Consumed.progress {o o' : CallerOperation} {mutation : Bool}
    (h : Consumed o mutation o') : Progress o o' 1 mutation.toNat := by
  constructor
  · exact h.used.ge
  · rw [h.attempted]
    cases mutation with
    | false => simp
    | true =>
      rw [(h.mutates rfl).2.1]
      decide

/-- The charges of a request that is dispatched, to each operation. -/
theorem Charges.progress {i : Intent} {x : Except CallerError Unit} {u : Transport rules}
    (hc : Charges (tick t) i.mutation x u) (h : Sound t) (hstate : t.state.isSome = true)
    (op : Nat) :
    Progress (t.operations op) (u.operations op) 0 0 ∧
      (x = .ok () → Progress (t.operations op) (u.operations op)
        ((⟨t, t', i⟩ : Dispatch rules).under op).toNat
        ((⟨t, t', i⟩ : Dispatch rules).mutates op).toNat) := by
  cases hc with
  | refused e => exact ⟨.refl _, nofun⟩
  | free hactive =>
    have hactive : t.activeOperation = none := hactive
    refine ⟨.refl _, fun _ => ?_⟩
    have hsame : Progress (t.operations op) ((tick t).operations op) 0 0 := .refl _
    simpa [Dispatch.under, Dispatch.mutates, Dispatch.innermost, Dispatch.ordinary, hactive]
      using hsame
  | own frame o hactive hstaged ho =>
    have hactive : t.activeOperation = some frame := hactive
    have hstaged : t.stagedPartOperation = none := hstaged
    by_cases hop : op = frame.op
    · rw [hop, store_same]
      have hp : Progress (t.operations frame.op) o 1 i.mutation.toNat := ho.progress
      refine ⟨hp.weaken, fun _ => ?_⟩
      simpa [Dispatch.under, Dispatch.mutates, Dispatch.innermost, Dispatch.ordinary, hactive,
        hstaged, hstate] using hp
    · rw [store_other hop]
      have hp : Progress (t.operations op) ((tick t).operations op) 0 0 := .refl _
      have hother : (frame.op == op) = false := beq_false_of_ne (Ne.symm hop)
      refine ⟨hp, fun _ => ?_⟩
      simpa [Dispatch.under, Dispatch.mutates, Dispatch.innermost, Dispatch.ordinary, hactive,
        hstaged, hstate, hother] using hp
  | half child o e hstaged ho =>
    refine ⟨?_, nofun⟩
    by_cases hop : op = child.op
    · rw [hop, store_same]
      exact (ho.progress).weaken
    · rw [store_other hop]
      exact .refl _
  | both frame child o p hactive hstaged ho hp =>
    obtain ⟨_, frame', hactive', hne, _⟩ := (tick_sound h).staged child hstaged
    obtain rfl : frame = frame' := Option.some.inj (hactive.symm.trans hactive')
    have hactive : t.activeOperation = some frame := hactive
    have hstaged : t.stagedPartOperation = some child := hstaged
    rw [store_other hne.symm] at hp
    by_cases hop : op = frame.op
    · rw [hop, store_same]
      have hpaid : Progress (t.operations frame.op) p 1 false.toNat := hp.progress
      have hother : (child.op == frame.op) = false := beq_false_of_ne hne
      refine ⟨hpaid.weaken, fun _ => ?_⟩
      -- The parent pays, and its own mutation is still to come.
      simpa [Dispatch.under, Dispatch.mutates, Dispatch.innermost, Dispatch.ordinary, hactive,
        hstaged, hstate, hother] using hpaid
    by_cases hchild : op = child.op
    · rw [hchild, store_other hne, store_same]
      have hpaid : Progress (t.operations child.op) o 1 i.mutation.toNat := ho.progress
      refine ⟨hpaid.weaken, fun _ => ?_⟩
      simpa [Dispatch.under, Dispatch.mutates, Dispatch.innermost, Dispatch.ordinary, hactive,
        hstaged, hstate] using hpaid
    · rw [store_other hop, store_other hchild]
      have hsame : Progress (t.operations op) ((tick t).operations op) 0 0 := .refl _
      have hother : (frame.op == op) = false := beq_false_of_ne (Ne.symm hop)
      have hother' : (child.op == op) = false := beq_false_of_ne (Ne.symm hchild)
      refine ⟨hsame, fun _ => ?_⟩
      simpa [Dispatch.under, Dispatch.mutates, Dispatch.innermost, Dispatch.ordinary, hactive,
        hstaged, hstate, hother, hother'] using hsame

/-- What no call takes back: the operations keep their bounds and what they have spent, and a
failed identity stays failed. -/
structure Moves (t t' : Transport rules) : Prop where
  created : t.created ≤ t'.created
  fixed : ∀ op, op < t.created → (t'.operations op).capacity = (t.operations op).capacity ∧
    (t'.operations op).writeTail = (t.operations op).writeTail
  progress : ∀ op, Progress (t.operations op) (t'.operations op) 0 0
  failed : ∀ id ∈ t.failedOperations, id ∈ t'.failedOperations

theorem Moves.refl (t : Transport rules) : Moves t t :=
  ⟨Nat.le_refl _, fun _ _ => ⟨rfl, rfl⟩, fun _ => .refl _, fun _ hid => hid⟩

theorem Moves.trans {u : Transport rules} (h : Moves t u) (h' : Moves u t') : Moves t t' where
  created := h.created.trans h'.created
  fixed op hop := by
    obtain ⟨hcapacity, htail⟩ := h.fixed op hop
    obtain ⟨hcapacity', htail'⟩ := h'.fixed op (Nat.lt_of_lt_of_le hop h.created)
    exact ⟨hcapacity'.trans hcapacity, htail'.trans htail⟩
  progress op := (h.progress op).trans (h'.progress op)
  failed id hid := h'.failed id (h.failed id hid)

theorem Moves.of_same (hops : t'.operations = t.operations) (hcreated : t'.created = t.created)
    (hfailed : ∀ id ∈ t.failedOperations, id ∈ t'.failedOperations) : Moves t t' where
  created := hcreated.ge
  fixed op _ := by
    rw [hops]
    exact ⟨rfl, rfl⟩
  progress op := by
    rw [hops]
    exact .refl _
  failed := hfailed

theorem Recorded.moves (h : Recorded t t') : Moves t t' := by
  have hshape := h.shape
  apply Moves.of_same
  · rw [hshape]
  · rw [hshape]
  · intro id hid
    rw [hshape]
    exact hid

/-- An operation was charged. -/
theorem store_moves {op : Nat} {o : CallerOperation} {mutation : Bool}
    (h : Consumed (t.operations op) mutation o) : Moves t (t.store op o) where
  created := Nat.le_refl _
  fixed other _ := by
    by_cases hop : other = op
    · rw [hop, store_same]
      exact ⟨h.capacity, h.writeTail⟩
    · rw [store_other hop]
      exact ⟨rfl, rfl⟩
  progress other := by
    by_cases hop : other = op
    · rw [hop, store_same]
      exact h.progress.weaken
    · rw [store_other hop]
      exact .refl _
  failed _ hid := hid

theorem Charges.moves {mutation : Bool} {x : Except CallerError Unit}
    (hc : Charges t mutation x t') : Moves t t' := by
  cases hc with
  | refused e => exact .refl _
  | free hactive => exact .refl _
  | own frame o hactive hstaged ho => exact store_moves ho
  | half child o e hstaged ho => exact store_moves ho
  | both frame child o p hactive hstaged ho hp => exact (store_moves ho).trans (store_moves hp)

theorem tick_moves (t : Transport rules) : Moves t (tick t) :=
  .of_same rfl rfl (fun _ hid => hid)

theorem Dispatches.moves {i : Intent} (hd : Dispatches t i t') : Moves t t' := by
  obtain ⟨o, _, _, hshape, _⟩ := hd.shape
  apply Moves.of_same
  · rw [hshape]
  · rw [hshape]
  · intro id hid
    rw [hshape]
    exact hid

theorem Charged.moves {i : Intent} {x : Except CallerError Unit} (hc : Charged t i x t') :
    Moves t t' := by
  cases hc with
  | startup _ n os h _ => exact .of_same rfl rfl (fun _ hid => hid)
  | refused e x u _ hu => exact (tick_moves t).trans hu.moves
  | dispatched u t' _ hu hd => exact ((tick_moves t).trans hu.moves).trans hd.moves

/-- A new operation takes the place of one nobody has used. -/
theorem allocate_moves (h : Sound t) (o : CallerOperation) : Moves t (t.allocate o) where
  created := Nat.le_succ _
  fixed op hop := by
    rw [allocate_other hop]
    exact ⟨rfl, rfl⟩
  progress op := by
    by_cases hop : op < t.created
    · rw [allocate_other hop]
      exact .refl _
    · obtain ⟨hused, hwritten⟩ := h.blank op (Nat.le_of_not_lt hop)
      exact .unused hused hwritten
  failed _ hid := hid

theorem Entered.moves {x : Except CallerError Unit} (he : Entered t x t') (h : Sound t) :
    Moves t t' := by
  cases he with
  | refused e => exact .refl _
  | shared => exact .refl _
  | unfunded e o ho =>
    exact (allocate_moves h o).trans (.of_same rfl rfl (fun _ hid => hid))
  | fresh key o hactive hfailed ho hfunded =>
    exact (allocate_moves h o).trans (.of_same rfl rfl (fun _ hid => hid))
  | again key op hactive hissued hwritten => exact .of_same rfl rfl (fun _ hid => hid)

theorem Staged.moves {x : Except CallerError Unit} (hs : Staged t x t') (h : Sound t) :
    Moves t t' := by
  cases hs with
  | refused e => exact .refl _
  | fresh key o frame ho hactive hstaged hfailed hcovers =>
    exact (allocate_moves h o).trans (.of_same rfl rfl (fun _ hid => hid))

theorem remember_grows (t : Transport rules) (frame : Frame) (raised : Bool) :
    ∀ id ∈ t.failedOperations, id ∈ t.remember frame raised := by
  intro id hid
  unfold remember
  split
  · exact List.mem_cons_of_mem _ hid
  · exact hid

theorem leave_moves (t : Transport rules) (raised : Bool) : Moves t (t.leave raised) := by
  unfold leave
  split
  · exact .of_same rfl rfl (fun id hid => remember_grows t _ raised id hid)
  · exact .refl _

theorem leaveStaged_moves (t : Transport rules) (raised : Bool) :
    Moves t (t.leaveStaged raised) := by
  unfold leaveStaged
  split
  · exact .of_same rfl rfl (fun id hid => remember_grows t _ raised id hid)
  · exact .refl _

theorem settle_moves (t : Transport rules) (op : Nat) : Moves t (t.settle op) where
  created := Nat.le_refl _
  fixed other _ := by
    rw [settle_operation]
    exact ⟨rfl, rfl⟩
  progress other := by
    rw [settle_operation]
    exact ⟨Nat.le_refl _, Nat.le_refl _⟩
  failed _ hid := hid

/-- What `open` does around the physical dispatch. -/
inductive Opened (census : Request → Bool) (t : Transport rules) (c : Call rules) :
    Transport rules → Prop
  | invalid (h : c.dispatched census t = none) : Opened census t c t
  | refused (i : Intent) (e : CallerError) (u : Transport rules) (hu : Charged t i (.error e) u)
      (h : c.dispatched census t = none) : Opened census t c u
  | dispatched (i : Intent) (u t' : Transport rules) (hu : Charged t i (.ok ()) u)
      (h : c.dispatched census t = some ⟨t, u, i⟩) (hr : Recorded u t') : Opened census t c t'

theorem openRequest_opened (census : Request → Bool) (t : Transport rules) (request : Request)
    (timeout : Nat) (now : Instant) (reply : Reply) :
    Opened census t (.openRequest request timeout now reply)
      ((Call.openRequest request timeout now reply).next census t) := by
  change Opened census t _ (t.openRequest census request timeout now reply).2
  unfold openRequest
  by_cases hvalid : validTimeout timeout
  · rw [if_pos hvalid]
    have hcharged := charge_charged t (intent census request timeout now)
    rcases hx : t.charge (intent census request timeout now) with ⟨e | _, u⟩
    · rw [hx] at hcharged
      refine .refused (intent census request timeout now) e u hcharged ?_
      simp only [Call.dispatched, if_pos hvalid, hx]
    · rw [hx] at hcharged
      refine .dispatched (intent census request timeout now) u _ hcharged ?_ ?_
      · simp only [Call.dispatched, if_pos hvalid, hx]
      · simp only [Called.andThen]
        split
        · exact .refl _
        · exact receive_recorded ..
  · rw [if_neg hvalid]
    refine .invalid ?_
    simp only [Call.dispatched, if_neg hvalid]

theorem next_moves (census : Request → Bool) (h : Sound t) (c : Call rules) :
    Moves t (c.next census t) := by
  cases c with
  | intend root block =>
    change Moves t (t.intend root block)
    unfold intend
    split
    · exact .refl _
    · exact .of_same rfl rfl (fun _ hid => hid)
  | activate r root block =>
    change Moves t (t.activate r root block).2
    unfold activate
    split
    · exact .of_same rfl rfl (fun _ hid => hid)
    · exact .refl _
  | readOperation key retained => exact (readOperation_entered ..).moves h
  | mutationOperation key fences => exact (operation_entered ..).moves h
  | operation key capacity writeTail prewriteReads retained => exact (operation_entered ..).moves h
  | stagedPart key fences => exact (stagedPart_staged ..).moves h
  | leave raised => exact leave_moves t raised
  | leaveStaged raised => exact leaveStaged_moves t raised
  | settle op => exact settle_moves t op
  | checkpoint held root => exact .of_same rfl rfl (fun _ hid => hid)
  | openRequest request timeout now reply =>
    have hopened := openRequest_opened census t request timeout now reply
    generalize (Call.openRequest request timeout now reply).next census t = n at hopened ⊢
    cases hopened with
    | invalid hnone => exact .refl _
    | refused i e u hu hnone => exact hu.moves
    | dispatched i u t' hu hsome hr => exact hu.moves.trans hr.moves
  | readResponse index now => exact (readResponse_recorded ..).moves

/-- What holds when the opener is called for a request of a confirmed block. -/
structure Protected (d : Dispatch rules) : Prop where
  /-- The block of the current owner paid for it once, and the request is pending there. -/
  debited : Debited d.before d.requestId d.after
  /-- A mutation leaves its operation, and the block, the rest of the tail. -/
  own : d.intent.mutation = true → ∀ f, d.before.activeOperation = some f →
    d.before.stagedPartOperation = none →
      (d.before.operations f.op).writeTail ≤ (d.after.operations f.op).remaining + 1 ∧
        (d.before.operations f.op).writeTail ≤ d.after.usable + 1
  /-- So does the mutation of a staged part, and the block keeps both tails. -/
  part : d.intent.mutation = true → ∀ f c, d.before.activeOperation = some f →
    d.before.stagedPartOperation = some c →
      (d.before.operations c.op).writeTail ≤ (d.after.operations c.op).remaining + 1 ∧
        (d.before.operations f.op).writeTail + (d.before.operations c.op).writeTail ≤
          d.after.usable + 1
  /-- Nothing that a staged part dispatches, reads or writes, spends the tail of its parent. -/
  parent : ∀ f c, d.before.activeOperation = some f → d.before.stagedPartOperation = some c →
    (d.before.operations f.op).writeTail ≤ (d.after.operations f.op).remaining ∧
      (d.after.operations f.op).writeAttempted = false
  /-- A write to the repository leaves the block its own confirmation room. -/
  business : d.intent.mutation = true → isBusiness d.intent.request = true →
    writeConfirmationTail ≤ d.after.usable + 1

theorem Charged.protected {i : Intent} (hc : Charged t i (.ok ()) t') (h : Sound t)
    (hstate : t.state.isSome = true) : Protected ⟨t, t', i⟩ := by
  cases hc with
  | startup _ n os hnone _ =>
    rw [hnone] at hstate
    cases hstate
  | dispatched u t' _ hu hd =>
    obtain ⟨o, _, _, hshape, hdebited⟩ := hd.shape
    have hkeeps : u = { tick t with operations := u.operations } := hu.keeps
    have husable : u.usable = t.usable := by
      rw [hkeeps]
      rfl
    have hspent := hdebited.usable
    have hops : t'.operations = u.operations := by rw [hshape]
    have hid : (⟨t, t', i⟩ : Dispatch rules).requestId = o.requestId := by
      unfold Dispatch.requestId
      rw [hshape]
      simp
    refine
      { debited := ?_
        own := ?_
        part := ?_
        parent := ?_
        business := ?_ }
    · rw [hid]
      obtain ⟨r, r', pending, blockId, hr, hr', hblock, hrest⟩ := hdebited.dispatched
      refine ⟨⟨r, r', pending, blockId, ?_, hr', ?_, hrest⟩, husable ▸ hspent⟩
      · rw [hkeeps] at hr
        exact hr
      · rw [hkeeps] at hblock
        exact hblock
    · intro hmutation f hactive hstaged
      change (t.operations f.op).writeTail ≤ (t'.operations f.op).remaining + 1 ∧
        (t.operations f.op).writeTail ≤ t'.usable + 1
      rw [hops]
      cases hu with
      | free hnone => exact absurd (hnone.symm.trans hactive) nofun
      | both frame child o p _ hs _ _ => exact absurd (hs.symm.trans hstaged) nofun
      | own frame o hactive' _ ho =>
        obtain rfl : frame = f := Option.some.inj (hactive'.symm.trans hactive)
        have ho : Consumed (t.operations frame.op) i.mutation o := ho
        obtain ⟨_, hunwritten, htail⟩ := ho.mutates hmutation
        have hleft := ho.remaining
        have hfunded := h.funded frame hactive hunwritten
        rw [store_same]
        exact ⟨by omega, by omega⟩
    · intro hmutation f c hactive hstaged
      change (t.operations c.op).writeTail ≤ (t'.operations c.op).remaining + 1 ∧
        (t.operations f.op).writeTail + (t.operations c.op).writeTail ≤ t'.usable + 1
      rw [hops]
      obtain ⟨_, f', hf', hne, hcovers⟩ := h.staged c hstaged
      obtain rfl : f = f' := Option.some.inj (hactive.symm.trans hf')
      cases hu with
      | free hnone => exact absurd (hnone.symm.trans hactive) nofun
      | own frame o _ hs _ => exact absurd (hs.symm.trans hstaged) nofun
      | both frame child o p hactive' hs ho hp =>
        obtain rfl : frame = f := Option.some.inj (hactive'.symm.trans hactive)
        obtain rfl : child = c := Option.some.inj (hs.symm.trans hstaged)
        have ho : Consumed (t.operations child.op) i.mutation o := ho
        obtain ⟨_, _, htail⟩ := ho.mutates hmutation
        have hleft := ho.remaining
        have hroom := hcovers.room
        have hfunded := h.funded frame hactive hcovers.unwritten
        rw [store_other hne, store_same]
        exact ⟨by omega, by omega⟩
    · intro f c hactive hstaged
      change (t.operations f.op).writeTail ≤ (t'.operations f.op).remaining ∧
        (t'.operations f.op).writeAttempted = false
      rw [hops]
      obtain ⟨_, f', hf', hne, hcovers⟩ := h.staged c hstaged
      obtain rfl : f = f' := Option.some.inj (hactive.symm.trans hf')
      cases hu with
      | free hnone => exact absurd (hnone.symm.trans hactive) nofun
      | own frame o _ hs _ => exact absurd (hs.symm.trans hstaged) nofun
      | both frame child o p hactive' hs ho hp =>
        obtain rfl : frame = f := Option.some.inj (hactive'.symm.trans hactive)
        obtain rfl : child = c := Option.some.inj (hs.symm.trans hstaged)
        rw [store_other hne.symm] at hp
        have hp : Consumed (t.operations frame.op) false p := hp
        have hlater := ho.covers hp hcovers
        have hroom := hlater.room
        rw [store_same, ← hp.writeTail]
        exact ⟨by omega, hlater.unwritten⟩
    · intro hmutation hbusiness
      change writeConfirmationTail ≤ t'.usable + 1
      have hfunded := hd.funded
      unfold unfunded at hfunded
      split at hfunded
      · cases hfunded
      split at hfunded
      · cases hfunded
      rename_i hroom
      push Not at hroom
      have := hroom hmutation hbusiness
      omega

end ReviewSensei.CallerRequests
