import ReviewSensei.SessionLedger
import ReviewSensei.Fenced
import Mathlib.Data.List.Count
import Mathlib.Data.List.Nodup

/-! In-process admission: slots under one lock, bounded waiters, and leases that give a slot back
once. Each section under a lock is one step; the steps of all callers interleave freely. -/
namespace ReviewSensei.Concurrency
open Fenced

def maxWaitersBound : Nat := 1024

structure ConcurrencyGroup where
  key : String
  maxActive : Nat
  cancelInProgress : Bool
  key_given : (Session.strip key).isEmpty = false
  key_printable : key.toList.all (fun c => 32 ≤ c.toNat && c.toNat ≠ 127) = true
  positive : 1 ≤ maxActive

structure AdmissionSettings where
  group : ConcurrencyGroup
  maxWaiters : Nat
  bounded : maxWaiters ≤ maxWaitersBound

structure ProviderAdmission where
  settings : AdmissionSettings
  active : Nat
  waiters : Nat

namespace ProviderAdmission

def opened (settings : AdmissionSettings) : ProviderAdmission := ⟨settings, 0, 0⟩

/-- The constructor; the waiter bound defaults to the active bound. -/
def create (group : ConcurrencyGroup) (maxWaiters : Option Nat) : Except String ProviderAdmission :=
  if h : maxWaiters.getD group.maxActive ≤ maxWaitersBound then
    .ok (opened ⟨group, maxWaiters.getD group.maxActive, h⟩)
  else .error "admission max_waiters is too large (maximum is 1024)"

def hasSlot (a : ProviderAdmission) : Bool := decide (a.active < a.settings.group.maxActive)

def grantLocked (a : ProviderAdmission) : ProviderAdmission := { a with active := a.active + 1 }

def dropActiveLocked (a : ProviderAdmission) : Except String ProviderAdmission :=
  if a.active < 1 then .error "admission lease is not active"
  else .ok { a with active := a.active - 1 }

end ProviderAdmission

/-- What one turn of the wait loop reads outside the lock's state: the cancel event, again after
the grant, and the deadline. -/
structure Observed where
  cancelled : Bool
  cancelledAfterGrant : Bool
  timedOut : Bool

inductive AdmissionError
  | cancelled
  | waitersFull
  | timedOut
  | inputError (message : String)
  deriving DecidableEq

def AdmissionError.text : AdmissionError → String
  | cancelled => "provider admission wait was cancelled"
  | waitersFull => "provider admission waiters are at the configured bound"
  | timedOut => "provider admission timed out"
  | inputError message => message

/-- How one locked section of an acquire ends. `abandoned` is a cancellation seen after the grant:
its lease was never returned. -/
inductive Turn
  | granted
  | abandoned
  | raised (e : AdmissionError)
  | waits
  deriving DecidableEq

namespace ProviderAdmission

def tryAcquire (a : ProviderAdmission) : ProviderAdmission × Bool :=
  if a.hasSlot then (a.grantLocked, true) else (a, false)

def grantUnlessCancelledLocked (a : ProviderAdmission) (o : Observed) : ProviderAdmission × Turn :=
  if o.cancelled then (a, .raised .cancelled)
  else if o.cancelledAfterGrant then
    match a.grantLocked.dropActiveLocked with
    | .ok dropped => (dropped, .abandoned)
    | .error e => (a.grantLocked, .raised (.inputError e))
  else (a.grantLocked, .granted)

/-- One turn of the loop, up to the next wait. -/
def turn (a : ProviderAdmission) (o : Observed) : ProviderAdmission × Turn :=
  if a.hasSlot then a.grantUnlessCancelledLocked o
  else if o.cancelled then (a, .raised .cancelled)
  else if o.timedOut then (a, .raised .timedOut)
  else (a, .waits)

/-- The `finally` of a queued caller. -/
def leave : ProviderAdmission × Turn → ProviderAdmission × Turn
  | (a, .waits) => (a, .waits)
  | (a, t) => ({ a with waiters := a.waiters - 1 }, t)

/-- The first section of `acquire`. -/
def acquire (a : ProviderAdmission) (o : Observed) : ProviderAdmission × Turn :=
  if a.hasSlot then (a.grantLocked, .granted)
  else if a.settings.maxWaiters ≤ a.waiters then (a, .raised .waitersFull)
  else leave (turn { a with waiters := a.waiters + 1 } o)

/-- The section after a wait. -/
def wake (a : ProviderAdmission) (o : Observed) : ProviderAdmission × Turn := leave (turn a o)

/-- An exception out of the wait itself. -/
def interrupted (a : ProviderAdmission) : ProviderAdmission := { a with waiters := a.waiters - 1 }

end ProviderAdmission

/-- A lease; while its release is under way the releaser holds the lease's own lock. -/
inductive LeaseState
  | held
  | releasing
  | released
  deriving DecidableEq

/-- How a context manager releases, by the exception it leaves with. -/
inductive LeaseOutcome
  | released
  | failed
  | cancelled
  deriving DecidableEq

/-- The admission with its waiting callers and every lease it has granted, oldest first. -/
structure World (ι : Type) where
  admission : ProviderAdmission
  waiting : List ι
  leases : List LeaseState

/-- A step of some caller. A release takes two: its flag under the lease's lock, then its slot
under the admission's. -/
inductive Event (ι : Type)
  | tryAcquire
  | acquire (caller : ι) (o : Observed)
  | wake (caller : ι) (o : Observed)
  | interrupt (caller : ι)
  | release (lease : Nat) (outcome : LeaseOutcome)
  | drop (lease : Nat)

section Steps
variable {ι : Type} [DecidableEq ι]

def World.initial (settings : AdmissionSettings) : World ι := ⟨.opened settings, [], []⟩

/-- The lease a section leaves behind, if it granted one. -/
def Turn.leases : Turn → List LeaseState
  | granted => [.held]
  | abandoned => [.released]
  | raised _ | waits => []

/-- The world after a section of `acquire`: the caller waits exactly if the section says so. -/
def World.after (w : World ι) (caller : ι) (result : ProviderAdmission × Turn) : World ι where
  admission := result.1
  waiting :=
    if result.2 = .waits then (if caller ∈ w.waiting then w.waiting else caller :: w.waiting)
    else w.waiting.erase caller
  leases := w.leases ++ result.2.leases

/-- The section of `acquire` that an event runs, if it runs one. -/
def Event.result (w : World ι) : Event ι → Option (ι × ProviderAdmission × Turn)
  | .acquire caller o =>
    if caller ∈ w.waiting then none else some (caller, w.admission.acquire o)
  | .wake caller o =>
    if caller ∈ w.waiting then some (caller, w.admission.wake o) else none
  | _ => none

/-- One step. An event whose caller or lease is not where it starts does not happen. -/
def World.step (w : World ι) (e : Event ι) : World ι :=
  match e with
  | .tryAcquire =>
    let (admission, admitted) := w.admission.tryAcquire
    { w with admission, leases := w.leases ++ if admitted then [.held] else [] }
  | .acquire .. | .wake .. =>
    match e.result w with
    | some (caller, result) => w.after caller result
    | none => w
  | .interrupt caller =>
    if caller ∈ w.waiting then
      { w with admission := w.admission.interrupted, waiting := w.waiting.erase caller }
    else w
  | .release lease _ =>
    -- A lease already released gives back a snapshot only.
    if w.leases[lease]? = some .held then { w with leases := w.leases.set lease .releasing } else w
  | .drop lease =>
    if w.leases[lease]? = some .releasing then
      match w.admission.dropActiveLocked with
      | .ok admission => { w with admission, leases := w.leases.set lease .released }
      | .error _ => w
    else w

theorem step_acquire (w : World ι) (caller : ι) (o : Observed) :
    w.step (.acquire caller o) =
      if caller ∈ w.waiting then w else w.after caller (w.admission.acquire o) := by
  by_cases h : caller ∈ w.waiting <;> simp [World.step, Event.result, h]

theorem step_wake (w : World ι) (caller : ι) (o : Observed) :
    w.step (.wake caller o) =
      if caller ∈ w.waiting then w.after caller (w.admission.wake o) else w := by
  by_cases h : caller ∈ w.waiting <;> simp [World.step, Event.result, h]

theorem step_interrupt (w : World ι) (caller : ι) :
    w.step (.interrupt caller) =
      if caller ∈ w.waiting then
        { w with admission := w.admission.interrupted, waiting := w.waiting.erase caller }
      else w := rfl

theorem step_release (w : World ι) (lease : Nat) (outcome : LeaseOutcome) :
    w.step (.release lease outcome) =
      if w.leases[lease]? = some .held then { w with leases := w.leases.set lease .releasing }
      else w := rfl

theorem step_drop (w : World ι) (lease : Nat) :
    w.step (.drop lease) =
      if w.leases[lease]? = some .releasing then
        match w.admission.dropActiveLocked with
        | .ok admission => { w with admission, leases := w.leases.set lease .released }
        | .error _ => w
      else w := rfl

/-- The leases that were granted and not yet released. -/
def World.unreleased (w : World ι) : Nat := w.leases.countP (· ≠ .released)

/-- What every interleaving keeps. -/
structure Sound (settings : AdmissionSettings) (w : World ι) : Prop where
  settings_eq : w.admission.settings = settings
  active_eq : w.admission.active = w.unreleased
  active_le : w.admission.active ≤ settings.group.maxActive
  waiters_eq : w.admission.waiters = w.waiting.length
  waiters_le : w.admission.waiters ≤ settings.maxWaiters
  waiting_nodup : w.waiting.Nodup

variable {settings : AdmissionSettings} {w : World ι}

/-- What one turn does to the slots: a grant takes a free one, everything else takes none. -/
structure TurnSpec (a : ProviderAdmission) (result : ProviderAdmission × Turn) : Prop where
  settings_eq : result.1.settings = a.settings
  active_eq : result.1.active = a.active + result.2.leases.countP (· ≠ .released)
  active_le : a.active ≤ a.settings.group.maxActive → result.1.active ≤ a.settings.group.maxActive

theorem turn_spec (a : ProviderAdmission) (o : Observed) :
    TurnSpec a (a.turn o) ∧ (a.turn o).1.waiters = a.waiters := by
  unfold ProviderAdmission.turn
  split
  · rename_i hslot
    have hfree : a.active < a.settings.group.maxActive := of_decide_eq_true hslot
    unfold ProviderAdmission.grantUnlessCancelledLocked
    split
    · exact ⟨⟨rfl, rfl, id⟩, rfl⟩
    split
    · -- The slot just granted is given back at once.
      have hdrop : a.grantLocked.dropActiveLocked = .ok a := by
        simp [ProviderAdmission.grantLocked, ProviderAdmission.dropActiveLocked]
      rw [hdrop]
      exact ⟨⟨rfl, rfl, id⟩, rfl⟩
    · exact ⟨⟨rfl, rfl, fun _ => hfree⟩, rfl⟩
  split
  · exact ⟨⟨rfl, rfl, id⟩, rfl⟩
  split
  · exact ⟨⟨rfl, rfl, id⟩, rfl⟩
  · exact ⟨⟨rfl, rfl, id⟩, rfl⟩

theorem leave_spec {a : ProviderAdmission} {result : ProviderAdmission × Turn}
    (h : TurnSpec a result) : TurnSpec a (ProviderAdmission.leave result) ∧
      (ProviderAdmission.leave result).2 = result.2 ∧
      (ProviderAdmission.leave result).1.waiters =
        result.1.waiters - if result.2 = .waits then 0 else 1 := by
  obtain ⟨b, t⟩ := result
  cases t with
  | waits => exact ⟨h, rfl, rfl⟩
  | granted => exact ⟨⟨h.settings_eq, h.active_eq, h.active_le⟩, rfl, rfl⟩
  | abandoned => exact ⟨⟨h.settings_eq, h.active_eq, h.active_le⟩, rfl, rfl⟩
  | raised e => exact ⟨⟨h.settings_eq, h.active_eq, h.active_le⟩, rfl, rfl⟩

/-- A first section that does not wait restores the waiter count; one that waits adds its caller
below the bound. -/
theorem acquire_spec (a : ProviderAdmission) (o : Observed) :
    TurnSpec a (a.acquire o) ∧
      ((a.acquire o).2 = .waits →
        a.waiters < a.settings.maxWaiters ∧ (a.acquire o).1.waiters = a.waiters + 1) ∧
      ((a.acquire o).2 ≠ .waits → (a.acquire o).1.waiters = a.waiters) := by
  unfold ProviderAdmission.acquire
  split
  · rename_i hslot
    have hfree : a.active < a.settings.group.maxActive := of_decide_eq_true hslot
    exact ⟨⟨rfl, rfl, fun _ => hfree⟩, by rintro ⟨⟩, fun _ => rfl⟩
  split
  · exact ⟨⟨rfl, rfl, id⟩, by rintro ⟨⟩, fun _ => rfl⟩
  · rename_i hroom
    obtain ⟨hturn, hwaiters⟩ := turn_spec { a with waiters := a.waiters + 1 } o
    obtain ⟨hspec, hsame, hleft⟩ := leave_spec hturn
    refine ⟨⟨hspec.settings_eq, hspec.active_eq, hspec.active_le⟩, fun hwait => ?_, fun hdone => ?_⟩
    · rw [hsame] at hwait
      rw [hleft, hwaiters, if_pos hwait]
      exact ⟨Nat.lt_of_not_le hroom, rfl⟩
    · rw [hsame] at hdone
      rw [hleft, hwaiters, if_neg hdone]
      rfl

/-- After a wait, every exit takes the caller off the count. -/
theorem wake_spec (a : ProviderAdmission) (o : Observed) :
    TurnSpec a (a.wake o) ∧
      (a.wake o).1.waiters = a.waiters - if (a.wake o).2 = .waits then 0 else 1 := by
  obtain ⟨hturn, hwaiters⟩ := turn_spec a o
  obtain ⟨hspec, hsame, hleft⟩ := leave_spec hturn
  unfold ProviderAdmission.wake
  exact ⟨hspec, by rw [hsame, hleft, hwaiters]⟩

omit [DecidableEq ι] in
theorem unreleased_append (w : World ι) (admission : ProviderAdmission) (waiting : List ι)
    (leases : List LeaseState) :
    World.unreleased ⟨admission, waiting, w.leases ++ leases⟩ =
      w.unreleased + leases.countP (· ≠ .released) :=
  List.countP_append

theorem Sound.tryAcquire (h : Sound settings w) : Sound settings (w.step .tryAcquire) := by
  unfold World.step ProviderAdmission.tryAcquire
  cases hslot : w.admission.hasSlot with
  | false => simpa using h
  | true =>
    have hfree : w.admission.active < w.admission.settings.group.maxActive :=
      of_decide_eq_true hslot
    rw [h.settings_eq] at hfree
    exact
      { settings_eq := h.settings_eq
        active_eq := by
          have hcount := unreleased_append w w.admission.grantLocked w.waiting [.held]
          exact (congrArg (· + 1) h.active_eq).trans hcount.symm
        active_le := hfree
        waiters_eq := h.waiters_eq
        waiters_le := h.waiters_le
        waiting_nodup := h.waiting_nodup }

theorem Sound.acquire (h : Sound settings w) (caller : ι) (o : Observed) :
    Sound settings (w.step (.acquire caller o)) := by
  rw [step_acquire]
  split
  · exact h
  · rename_i hfresh
    obtain ⟨hspec, hwait, hdone⟩ := acquire_spec w.admission o
    have hactive : (w.after caller (w.admission.acquire o)).admission.active =
        (w.after caller (w.admission.acquire o)).unreleased := by
      have hcount := unreleased_append w (w.after caller (w.admission.acquire o)).admission
        (w.after caller (w.admission.acquire o)).waiting (w.admission.acquire o).2.leases
      exact (hspec.active_eq.trans (congrArg (· + _) h.active_eq)).trans hcount.symm
    have hle := hspec.active_le
    rw [h.settings_eq] at hle hwait
    have herase : w.waiting.erase caller = w.waiting := List.erase_of_not_mem hfresh
    refine
      { settings_eq := hspec.settings_eq.trans h.settings_eq
        active_eq := hactive
        active_le := hle h.active_le
        waiters_eq := ?_, waiters_le := ?_, waiting_nodup := ?_ }
    all_goals by_cases hw : (w.admission.acquire o).2 = .waits
    · have hlist : (w.after caller (w.admission.acquire o)).waiting = caller :: w.waiting := by
        simp [World.after, hw, hfresh]
      rw [hlist, List.length_cons, ← h.waiters_eq]
      exact (hwait hw).2
    · have hlist : (w.after caller (w.admission.acquire o)).waiting = w.waiting := by
        simp [World.after, hw, herase]
      rw [hlist, ← h.waiters_eq]
      exact hdone hw
    · have hcount : (w.after caller (w.admission.acquire o)).admission.waiters = _ := (hwait hw).2
      have hroom := (hwait hw).1
      omega
    · have hcount : (w.after caller (w.admission.acquire o)).admission.waiters = _ := hdone hw
      have hbound := h.waiters_le
      omega
    · have hlist : (w.after caller (w.admission.acquire o)).waiting = caller :: w.waiting := by
        simp [World.after, hw, hfresh]
      rw [hlist]
      exact List.nodup_cons.mpr ⟨hfresh, h.waiting_nodup⟩
    · have hlist : (w.after caller (w.admission.acquire o)).waiting = w.waiting := by
        simp [World.after, hw, herase]
      rw [hlist]
      exact h.waiting_nodup

theorem Sound.wake (h : Sound settings w) (caller : ι) (o : Observed) :
    Sound settings (w.step (.wake caller o)) := by
  rw [step_wake]
  split
  · rename_i hwaiting
    obtain ⟨hspec, hwaiters⟩ := wake_spec w.admission o
    have hactive : (w.after caller (w.admission.wake o)).admission.active =
        (w.after caller (w.admission.wake o)).unreleased := by
      have hcount := unreleased_append w (w.after caller (w.admission.wake o)).admission
        (w.after caller (w.admission.wake o)).waiting (w.admission.wake o).2.leases
      exact (hspec.active_eq.trans (congrArg (· + _) h.active_eq)).trans hcount.symm
    have hle := hspec.active_le
    rw [h.settings_eq] at hle
    have hlength : (w.after caller (w.admission.wake o)).admission.waiters =
        (w.after caller (w.admission.wake o)).waiting.length := by
      have hleft : (w.after caller (w.admission.wake o)).admission.waiters = _ := hwaiters
      rw [hleft, h.waiters_eq]
      by_cases hw : (w.admission.wake o).2 = .waits
      · simp [World.after, hw, hwaiting]
      · simp [World.after, hw, List.length_erase_of_mem hwaiting]
    have hbound := h.waiters_le
    refine
      { settings_eq := hspec.settings_eq.trans h.settings_eq
        active_eq := hactive
        active_le := hle h.active_le
        waiters_eq := hlength, waiters_le := ?_, waiting_nodup := ?_ }
    · have hleft : (w.after caller (w.admission.wake o)).admission.waiters = _ := hwaiters
      rw [hleft]
      omega
    · by_cases hw : (w.admission.wake o).2 = .waits
      · simpa [World.after, hw, hwaiting] using h.waiting_nodup
      · simpa [World.after, hw] using h.waiting_nodup.erase caller
  · exact h

theorem Sound.interrupt (h : Sound settings w) (caller : ι) :
    Sound settings (w.step (.interrupt caller)) := by
  rw [step_interrupt]
  split
  · rename_i hwaiting
    have hbound := h.waiters_le
    have hlength := List.length_erase_of_mem hwaiting
    have hcount := h.waiters_eq
    refine ⟨h.settings_eq, h.active_eq, h.active_le, ?_, ?_, h.waiting_nodup.erase caller⟩
    · change w.admission.waiters - 1 = _
      rw [hlength, hcount]
    · change w.admission.waiters - 1 ≤ _
      omega
  · exact h

theorem countP_set {l : List LeaseState} {i : Nat} {s t : LeaseState} (h : l[i]? = some s) :
    (l.set i t).countP (· ≠ .released) + (if s = .released then 0 else 1) =
      l.countP (· ≠ .released) + if t = .released then 0 else 1 := by
  induction l generalizing i with
  | nil => simp at h
  | cons a l ih =>
    cases i with
    | zero =>
      obtain rfl : a = s := by simpa using h
      rw [List.set_cons_zero, List.countP_cons, List.countP_cons]
      by_cases ha : a = .released <;> by_cases ht : t = .released <;> simp [ha, ht]
    | succ i =>
      have hrest := ih (i := i) (by simpa using h)
      rw [List.set_cons_succ, List.countP_cons, List.countP_cons]
      omega

theorem Sound.release (h : Sound settings w) (lease : Nat) (outcome : LeaseOutcome) :
    Sound settings (w.step (.release lease outcome)) := by
  rw [step_release]
  split
  · rename_i hheld
    have hcount := countP_set (t := .releasing) hheld
    refine ⟨h.settings_eq, h.active_eq.trans ?_, h.active_le, h.waiters_eq, h.waiters_le,
      h.waiting_nodup⟩
    simp only [reduceCtorEq, if_false] at hcount
    exact (Nat.add_right_cancel hcount).symm
  · exact h

omit [DecidableEq ι] in
theorem active_pos (h : Sound settings w) {lease : Nat}
    (hlease : w.leases[lease]? = some .releasing) : 1 ≤ w.admission.active := by
  have hmem : LeaseState.releasing ∈ w.leases := List.mem_of_getElem? hlease
  have hpos : 0 < w.leases.countP (· ≠ .released) :=
    List.countP_pos_iff.mpr ⟨.releasing, hmem, by decide⟩
  rw [h.active_eq]
  exact hpos

theorem Sound.drop (h : Sound settings w) (lease : Nat) : Sound settings (w.step (.drop lease)) := by
  rw [step_drop]
  split
  · rename_i hlease
    have hpos := active_pos h hlease
    have hcount := countP_set (t := .released) hlease
    have hdrop : w.admission.dropActiveLocked =
        .ok { w.admission with active := w.admission.active - 1 } := if_neg (by omega)
    rw [hdrop]
    simp only [reduceCtorEq, if_false, if_true] at hcount
    have hactive := h.active_eq
    have hle := h.active_le
    refine ⟨h.settings_eq, ?_, ?_, h.waiters_eq, h.waiters_le, h.waiting_nodup⟩
    · unfold World.unreleased at hactive ⊢
      dsimp only
      omega
    · dsimp only
      omega
  · exact h

/-- One step of any caller keeps the admission sound. -/
theorem Sound.step (h : Sound settings w) (e : Event ι) : Sound settings (w.step e) := by
  cases e with
  | tryAcquire => exact h.tryAcquire
  | acquire caller o => exact h.acquire caller o
  | wake caller o => exact h.wake caller o
  | interrupt caller => exact h.interrupt caller
  | release lease outcome => exact h.release lease outcome
  | drop lease => exact h.drop lease

/-- Every interleaving from an open admission. -/
def interleaved (settings : AdmissionSettings) (events : List (Event ι)) : World ι :=
  run World.step (World.initial settings) events

theorem sound_interleaved (settings : AdmissionSettings) (events : List (Event ι)) :
    Sound settings (interleaved settings events) := by
  refine run_keeps (P := fun (w : World ι) => Sound settings w) (fun w e h => h.step e) ?_ events
  exact ⟨rfl, rfl, Nat.zero_le _, rfl, Nat.zero_le _, List.nodup_nil⟩

/-- A released lease stays released. -/
theorem step_released (w : World ι) (e : Event ι) {lease : Nat}
    (h : w.leases[lease]? = some .released) : (w.step e).leases[lease]? = some .released := by
  have happend (leases : List LeaseState) : (w.leases ++ leases)[lease]? = some .released := by
    rw [List.getElem?_append_left (List.getElem?_eq_some_iff.mp h).1, h]
  have hset {i : Nat} {s t : LeaseState} (hi : w.leases[i]? = some s) (hs : s ≠ .released) :
      (w.leases.set i t)[lease]? = some .released := by
    have hne : i ≠ lease := by
      rintro rfl
      exact hs (Option.some.inj (hi.symm.trans h))
    rw [List.getElem?_set_ne hne, h]
  cases e with
  | tryAcquire => exact happend _
  | acquire caller o =>
    rw [step_acquire]
    split
    · exact h
    · exact happend _
  | wake caller o =>
    rw [step_wake]
    split
    · exact happend _
    · exact h
  | interrupt caller =>
    rw [step_interrupt]
    split <;> exact h
  | release i outcome =>
    rw [step_release]
    split
    · rename_i hheld
      exact hset hheld (by decide)
    · exact h
  | drop i =>
    rw [step_drop]
    split
    · rename_i hreleasing
      split
      · exact hset hreleasing (by decide)
      · exact h
    · exact h

/-- A section of an acquire that raises keeps no slot, and its caller no longer waits. -/
theorem result_raises (h : Sound settings w) {e : Event ι} {caller : ι}
    {admission : ProviderAdmission} {t : Turn} (hresult : e.result w = some (caller, admission, t))
    (hwaits : t ≠ .waits) :
    caller ∉ (w.step e).waiting ∧
      (w.step e).admission.waiters + (if caller ∈ w.waiting then 1 else 0) = w.admission.waiters ∧
      (t ≠ .granted → (w.step e).admission.active = w.admission.active ∧
        (w.step e).unreleased = w.unreleased) := by
  have hkept {result : ProviderAdmission × Turn} (hspec : TurnSpec w.admission result)
      (hdone : result.2 ≠ .waits) (hnot : result.2 ≠ .granted) :
      result.1.active = w.admission.active ∧
        (w.after caller result).unreleased = w.unreleased := by
    have hnone : result.2.leases.countP (· ≠ .released) = 0 := by
      cases hr : result.2 with
      | granted => exact absurd hr hnot
      | abandoned => rfl
      | raised e => rfl
      | waits => exact absurd hr hdone
    have hcount := unreleased_append w (w.after caller result).admission
      (w.after caller result).waiting result.2.leases
    have hactive := hspec.active_eq
    rw [hnone] at hactive hcount
    exact ⟨hactive, hcount⟩
  have hgone {result : ProviderAdmission × Turn} (hdone : result.2 ≠ .waits) :
      caller ∉ (w.after caller result).waiting := by
    simpa [World.after, hdone] using h.waiting_nodup.not_mem_erase
  cases e with
  | acquire c o =>
    have hsplit : (if c ∈ w.waiting then none else some (c, w.admission.acquire o)) =
        some (caller, admission, t) := hresult
    split at hsplit
    · cases hsplit
    rename_i hfresh
    obtain ⟨rfl, hpair⟩ := Prod.mk.inj (Option.some.inj hsplit)
    obtain ⟨hspec, _, hdone⟩ := acquire_spec w.admission o
    rw [hpair] at hspec hdone
    rw [step_acquire, if_neg hfresh, hpair]
    refine ⟨hgone hwaits, ?_, hkept hspec hwaits⟩
    rw [if_neg hfresh]
    exact hdone hwaits
  | wake c o =>
    have hsplit : (if c ∈ w.waiting then some (c, w.admission.wake o) else none) =
        some (caller, admission, t) := hresult
    split at hsplit
    swap
    · cases hsplit
    rename_i hwaiting
    obtain ⟨rfl, hpair⟩ := Prod.mk.inj (Option.some.inj hsplit)
    obtain ⟨hspec, hleft⟩ := wake_spec w.admission o
    rw [hpair] at hspec hleft
    rw [step_wake, if_pos hwaiting, hpair]
    refine ⟨hgone hwaits, ?_, hkept hspec hwaits⟩
    have hpos : 0 < w.admission.waiters := by
      rw [h.waiters_eq]
      exact List.length_pos_of_mem hwaiting
    have hcount : admission.waiters = w.admission.waiters - 1 := by
      simpa [hwaits] using hleft
    change admission.waiters + _ = _
    rw [hcount, if_pos hwaiting]
    omega
  | tryAcquire => cases hresult
  | interrupt c => cases hresult
  | release i outcome => cases hresult
  | drop i => cases hresult

/-- In every interleaving the active count is the number of unreleased leases and stays within its
bound, the waiter count is the number of waiting callers and stays within its bound, a lease gives
its slot back once, and a caller whose wait ends without a grant keeps no slot. -/
theorem admission_interleavings (settings : AdmissionSettings) (events : List (Event ι)) :
    let w : World ι := interleaved settings events
    w.admission.active = w.unreleased ∧ w.admission.active ≤ settings.group.maxActive ∧
      w.admission.waiters = w.waiting.length ∧ w.waiting.Nodup ∧
      w.admission.waiters ≤ settings.maxWaiters ∧
      (∀ lease : Nat, w.leases[lease]? = some .releasing →
        ∃ a, w.admission.dropActiveLocked = .ok a ∧ a.active + 1 = w.admission.active) ∧
      (∀ (lease : Nat) outcome, w.leases[lease]? = some .released →
        w.step (.release lease outcome) = w ∧ w.step (.drop lease) = w ∧
          ∀ later, (run World.step w later).leases[lease]? = some .released) ∧
      (∀ (e : Event ι) caller a t, e.result w = some (caller, a, t) → t ≠ .waits →
        caller ∉ (w.step e).waiting ∧
        (w.step e).admission.waiters + (if caller ∈ w.waiting then 1 else 0) =
          w.admission.waiters ∧
        (t ≠ .granted → (w.step e).admission.active = w.admission.active ∧
          (w.step e).unreleased = w.unreleased)) ∧
      ∀ caller, caller ∈ w.waiting →
        (w.step (.interrupt caller)).admission.waiters + 1 = w.admission.waiters ∧
        (w.step (.interrupt caller)).unreleased = w.unreleased := by
  intro w
  have h : Sound settings w := sound_interleaved settings events
  refine ⟨h.active_eq, h.active_le, h.waiters_eq, h.waiting_nodup, h.waiters_le,
    fun lease hlease => ?_, fun lease outcome hlease => ⟨?_, ?_, fun later => ?_⟩,
    fun e caller a t => result_raises h, fun caller hcaller => ?_⟩
  · have hpos := active_pos h hlease
    exact ⟨_, if_neg (by omega), by dsimp only; omega⟩
  · rw [step_release]
    exact if_neg (by simp [hlease])
  · rw [step_drop]
    exact if_neg (by simp [hlease])
  · exact run_keeps (P := fun (s : World ι) => s.leases[lease]? = some .released)
      (fun s e hs => step_released s e hs) hlease later
  · have hpos : 0 < w.admission.waiters := by
      rw [h.waiters_eq]
      exact List.length_pos_of_mem hcaller
    rw [step_interrupt, if_pos hcaller]
    refine ⟨?_, rfl⟩
    change w.admission.waiters - 1 + 1 = w.admission.waiters
    omega

end Steps

end ReviewSensei.Concurrency
