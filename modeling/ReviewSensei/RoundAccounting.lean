import ReviewSensei.SessionSteps
import ReviewSensei.SessionLedger
import ReviewSensei.Fenced

/-! The rounds a session has counted, over every run of its mutations.

Callers send requests with whatever arguments they hold; each request is one atomic replace of the
record. The account of a run lists the reservations it has opened and how each one ended. -/
namespace ReviewSensei.Session
open Fenced

variable {rules : SessionRules}

inductive Call
  | reserve (slot : Slot) (reservationId : String) (expectedGeneration : Nat)
      (headSha policyDigest : Option String) (rescanRequest : Option AuthorizedRescan)
  | commit (reservationId : String) (expectedGeneration : Nat)
  | abort (reservationId : String) (expectedGeneration : Nat)
  | attach (preparedGeneration : Nat) (preparedReservation : String)
      (transaction : ReviewTransaction)
  | checkpoint (a : CheckpointArguments)
  | publication (transaction : ReviewTransaction) (published : Bool)
  | suppress (transaction : ReviewTransaction)
  | blockers (a : BlockerArguments)

namespace Call

def mutate : Call → SessionRecord rules → Moment → Except String (SessionRecord rules)
  | reserve slot i g head policy rescan, r, m => mutateReserved r slot i g head policy rescan m
  | commit i g, r, m => mutateCommit r i g m
  | abort i g, r, m => mutateAbort r i g m
  | attach g i t, r, m => Session.attach r g i t m
  | checkpoint a, r, m => checkpointTransactionRecord r a m
  | publication t published, r, m => publicationStateMutation r t published m
  | suppress t, r, m => suppressMutation r t m
  | blockers a, r, m => recordAdmittedBlockerProgress r a m

/-- The generation a call names as the one it was made for. -/
def expected : Call → Option Nat
  | reserve _ _ g _ _ _ | commit _ g | abort _ g | attach g _ _ => some g
  | checkpoint a => some a.transaction.generation
  | publication .. | suppress _ | blockers _ => none

/-- The reservation a call is about. -/
def reservation : Call → String
  | reserve _ i _ _ _ _ | commit i _ | abort i _ | attach _ i _ => i
  | checkpoint a => a.transaction.reservationId
  | publication t _ | suppress t => t.reservationId
  | blockers a => a.transaction.reservationId

def isReserve : Call → Bool
  | reserve .. => true
  | _ => false

def isAttach : Call → Bool
  | attach .. => true
  | _ => false

end Call

/-- How a reservation ended. -/
inductive Outcome
  | committed
  | checkpointed
  | partlyCheckpointed
  | aborted
  deriving DecidableEq

/-- The outcomes that complete a round. -/
def Outcome.completes : Outcome → Bool
  | committed | checkpointed => true
  | partlyCheckpointed | aborted => false

/-- How a call ends a reservation it releases. -/
def Call.outcome : Call → Outcome
  | .commit .. => .committed
  | .checkpoint a => if a.reviewComplete then .checkpointed else .partlyCheckpointed
  | _ => .aborted

/-- One caller's request, with the clock it sees. -/
structure Request where
  identity : SessionIdentity
  call : Call
  moment : Moment

/-- The request as an atomic replace. -/
def Request.op (q : Request) : LedgerOp rules (SessionRecord rules) :=
  replace q.identity q.moment (fun r => q.call.mutate r q.moment)

/-- The record a request leaves in the ledger. -/
def served (r : SessionRecord rules) (q : Request) : SessionRecord rules :=
  ((q.op.run (some r)).2).getD r

/-- What a run of the ledger leaves, from the record `r`. -/
def sessionRun (r : SessionRecord rules) (requests : List Request) : SessionRecord rules :=
  run served r requests

theorem served_eq (r : SessionRecord rules) (q : Request) :
    served r q = r ∨ q.call.mutate r q.moment = .ok (served r q) := by
  unfold served Request.op
  rcases replace_run q.identity q.moment (fun r => q.call.mutate r q.moment) r with
    ⟨r', hr', hrun⟩ | ⟨e, hrun⟩
  · rw [hrun]
    exact .inr hr'
  · rw [hrun]
    exact .inl rfl

/-- The completed rounds of a slot. -/
def completedRounds (f : SessionFields) : Slot → Nat
  | .initial => f.completedInitialReviews
  | .verification => f.completedVerificationRounds
  | .failedAttempt => 0

/-- The held reservation with its slot. -/
def heldReservation (f : SessionFields) : Option (String × Slot) :=
  f.reservationId.bind (fun i => f.reservedSlot.map (fun slot => (i, slot)))

/-- What the generation stands for: the reservation, the counters and the transaction's phase. -/
def tracked (f : SessionFields) :
    Option (String × Slot) × Nat × Nat × Nat × Option Phase :=
  (heldReservation f, f.completedInitialReviews, f.completedVerificationRounds, f.failedAttempts,
    f.transaction.map ReviewTransaction.phase)

/-- Applying a slot counts it once, up to the ceiling, and no other slot. -/
theorem completedRounds_applySlot (f : SessionFields) (slot : Slot) {k : Slot}
    (h : k ≠ .failedAttempt) : completedRounds (f.counted (applySlot f slot)) k =
      if slot = k then min (completedRounds f k + 1) diagnosticRoundCeiling
      else completedRounds f k := by
  cases k <;> cases slot <;> first | rfl | exact absurd rfl h

/-- The ways a call moves the record: it takes a reservation, releases the held one, attaches a
transaction to it, or advances the publication. -/
inductive Move (f f' : SessionFields) (c : Call) : Prop
  | takes (i : String) (slot : Slot) (hcall : c.isReserve = true) (hid : c.reservation = i)
      (hfree : heldReservation f = none) (hheld : heldReservation f' = some (i, slot))
      (hgen : f'.generation = f.generation + 1)
      (hcounts : ∀ k, completedRounds f' k = completedRounds f k)
  | releases (i : String) (slot : Slot) (hid : c.reservation = i)
      (hheld : heldReservation f = some (i, slot)) (hfree : heldReservation f' = none)
      (hgen : f'.generation = f.generation + 1)
      (hcounts : ∀ k, k ≠ .failedAttempt → completedRounds f' k =
        if slot = k ∧ c.outcome.completes = true then
          min (completedRounds f k + 1) diagnosticRoundCeiling
        else completedRounds f k)
  | attaches (hcall : c.isAttach = true) (hid : f.reservationId = some c.reservation)
      (hheld : heldReservation f' = heldReservation f) (hgen : f'.generation = f.generation)
      (hcounts : ∀ k, completedRounds f' k = completedRounds f k)
  | publishes (hid : f.reservationId = some c.reservation ∨
        f.lastCommittedReservationId = some c.reservation)
      (hheld : heldReservation f' = heldReservation f) (hgen : f'.generation = f.generation + 1)
      (hcounts : ∀ k, completedRounds f' k = completedRounds f k)

variable {r r' : SessionRecord rules} {m : Moment}

theorem heldReservation_none (h : r.reservationId = none) :
    heldReservation r.toSessionFields = none := by
  simp [heldReservation, h]

theorem Move.reserve {slot : Slot} {i : String} {g : Nat} {head policy : Option String}
    {rescan : Option AuthorizedRescan}
    (h : mutateReserved r slot i g head policy rescan m = .ok r') :
    r' = r ∨ r.generation = g ∧
      Move r.toSessionFields r'.toSessionFields (.reserve slot i g head policy rescan) := by
  rcases mutateReserved_ok h with rfl | ⟨hgen, hfree, _, _, _, s, hr'⟩
  · exact .inl rfl
  · refine .inr ⟨hgen, .takes i slot rfl rfl (heldReservation_none hfree) ?_ ?_ ?_⟩
    · rw [hr']; rfl
    · rw [hr']; rfl
    · rw [hr']; intro k; cases k <;> rfl

theorem Move.commit {i : String} {g : Nat} (h : mutateCommit r i g m = .ok r') :
    r' = r ∨ r.generation = g ∧ Move r.toSessionFields r'.toSessionFields (.commit i g) := by
  rcases mutateCommit_ok h with rfl | ⟨_, hgen, hheld, slot, hslot, hr'⟩
  · exact .inl rfl
  · refine .inr ⟨hgen, .releases i slot rfl ?_ ?_ ?_ ?_⟩
    · simp [heldReservation, hheld, hslot]
    · rw [hr']; rfl
    · rw [hr']; rfl
    · intro k hk
      have hcounts := completedRounds_applySlot r.toSessionFields slot hk
      have hsame : completedRounds r'.toSessionFields k =
          completedRounds (r.counted (applySlot r.toSessionFields slot)) k := by
        rw [hr']; cases k <;> rfl
      rw [hsame, hcounts]
      simp [Call.outcome, Outcome.completes]

theorem Move.abort {i : String} {g : Nat} (h : mutateAbort r i g m = .ok r') :
    r' = r ∨ r.generation = g ∧ Move r.toSessionFields r'.toSessionFields (.abort i g) := by
  rcases mutateAbort_ok h with rfl | ⟨hgen, hheld, hr'⟩
  · exact .inl rfl
  · have hpaired : r.reservedSlot ≠ none := fun hnone => by
      rw [← r.held_iff_slot, hheld] at hnone
      cases hnone
    obtain ⟨slot, hslot⟩ := Option.ne_none_iff_exists'.mp hpaired
    refine .inr ⟨hgen, .releases i slot rfl ?_ ?_ ?_ ?_⟩
    · simp [heldReservation, hheld, hslot]
    · rw [hr']; rfl
    · rw [hr']; rfl
    · intro k _
      rw [hr', if_neg (by simp [Call.outcome, Outcome.completes])]
      cases k <;> rfl

theorem Move.attach {g : Nat} {i : String} {t : ReviewTransaction}
    (h : Session.attach r g i t m = .ok r') :
    r' = r ∨ r.generation = g ∧ Move r.toSessionFields r'.toSessionFields (.attach g i t) := by
  rcases attach_ok h with rfl | ⟨hgen, hheld, _, hr'⟩
  · exact .inl rfl
  · refine .inr ⟨hgen, .attaches rfl hheld ?_ ?_ ?_⟩
    · rw [hr']; rfl
    · rw [hr']
    · rw [hr']; intro k; cases k <;> rfl

theorem completedRounds_increments (f : SessionFields) (a : CheckpointArguments) {slot : Slot}
    {k : Slot} (hk : k ≠ .failedAttempt) :
    completedRounds (f.counted (a.increments f slot)) k =
      if slot = k ∧ (Call.checkpoint a).outcome.completes = true then
        min (completedRounds f k + 1) diagnosticRoundCeiling
      else completedRounds f k := by
  unfold CheckpointArguments.increments
  cases hcomplete : a.reviewComplete with
  | true =>
    have hcounts := completedRounds_applySlot f slot hk
    simpa [Call.outcome, Outcome.completes, hcomplete] using hcounts
  | false =>
    have hpartial : ¬(slot = k ∧ (Call.checkpoint a).outcome.completes = true) := by
      simp [Call.outcome, Outcome.completes, hcomplete]
    rw [if_neg hpartial]
    cases a.progress with
    | some p => cases k <;> rfl
    | none =>
      have hcounts := completedRounds_applySlot f .failedAttempt hk
      rw [if_neg hk.symm] at hcounts
      exact hcounts

theorem Move.checkpoint {a : CheckpointArguments}
    (h : checkpointTransactionRecord r a m = .ok r') :
    r' = r ∨ r.generation = a.transaction.generation ∧
      Move r.toSessionFields r'.toSessionFields (.checkpoint a) := by
  rcases checkpointTransactionRecord_ok h with
    rfl | ⟨_, hgen, hheld, slot, hslot, _, history, s, hr'⟩
  · exact .inl rfl
  · refine .inr ⟨hgen, .releases a.transaction.reservationId slot rfl ?_ ?_ ?_ ?_⟩
    · simp [heldReservation, hheld, hslot]
    · rw [hr']; rfl
    · rw [hr']; rfl
    · intro k hk
      rw [← completedRounds_increments r.toSessionFields a hk, hr']
      cases k <;> rfl

/-- The transaction of a record names the held reservation, or the last committed one. -/
theorem transaction_owns {current t : ReviewTransaction} (hcurrent : r.transaction = some current)
    (hidentity : current.logicalIdentityMatches t = true) :
    r.reservationId = some t.reservationId ∨
      r.lastCommittedReservationId = some t.reservationId := by
  have hsame : t.reservationId = current.reservationId := by
    rw [ReviewTransaction.logicalIdentityMatches_iff.mp hidentity]
  rw [hsame]
  by_cases hphase : current.phase = .analysis
  · exact .inl (r.analysis_holds hcurrent hphase)
  · exact .inr (r.finished_released hcurrent hphase).2

theorem Move.published {c : Call} {t : ReviewTransaction} {history : Option ConvergenceHistory}
    (hid : r.reservationId = some c.reservation ∨ r.lastCommittedReservationId = some c.reservation)
    (hr' : r'.toSessionFields = r.published t history m) :
    Move r.toSessionFields r'.toSessionFields c := by
  refine .publishes hid ?_ ?_ ?_
  · rw [hr']; rfl
  · rw [hr']; rfl
  · rw [hr']; intro k; cases k <;> rfl

/-- What a call can do: it leaves the record, or it moves it and names the current generation. -/
theorem mutate_moves {c : Call} (h : c.mutate r m = .ok r') :
    r' = r ∨ (∀ g, c.expected = some g → r.generation = g) ∧
      Move r.toSessionFields r'.toSessionFields c := by
  have fenced {g : Nat} {c : Call} (hc : c.expected = some g)
      (hmove : r' = r ∨ r.generation = g ∧ Move r.toSessionFields r'.toSessionFields c) :
      r' = r ∨ (∀ g, c.expected = some g → r.generation = g) ∧
        Move r.toSessionFields r'.toSessionFields c := by
    refine hmove.imp_right (fun ⟨hg, hm⟩ => ⟨fun g' hg' => ?_, hm⟩)
    rw [hc] at hg'
    exact hg.trans (Option.some.inj hg')
  cases c with
  | reserve slot i g head policy rescan => exact fenced rfl (Move.reserve h)
  | commit i g => exact fenced rfl (Move.commit h)
  | abort i g => exact fenced rfl (Move.abort h)
  | attach g i t => exact fenced rfl (Move.attach h)
  | checkpoint a => exact fenced rfl (Move.checkpoint h)
  | publication t published =>
    obtain ⟨current, hcurrent, hidentity, _, hcase⟩ := publicationStateMutation_ok h
    refine hcase.imp And.left (fun hmoved => ⟨by rintro g ⟨⟩, ?_⟩)
    exact Move.published (c := .publication t published) (transaction_owns hcurrent hidentity)
      hmoved.2.2
  | suppress t =>
    obtain ⟨current, hcurrent, hidentity, hcase⟩ := suppressMutation_ok h
    refine hcase.imp And.left (fun hmoved => ⟨by rintro g ⟨⟩, ?_⟩)
    exact Move.published (c := .suppress t) (transaction_owns hcurrent hidentity) hmoved.2
  | blockers a =>
    obtain ⟨current, history, last, hcontext, hbranches⟩ := recordAdmittedBlockerProgress_ok h
    refine (blockerBranches_ok hbranches).imp And.left
      (fun hmoved => ⟨by rintro g ⟨⟩, ?_⟩)
    exact Move.published (c := .blockers a)
      (transaction_owns hcontext.transaction_eq hcontext.identity) hmoved.2

/-- What a request can do. -/
theorem served_moves (r : SessionRecord rules) (q : Request) :
    served r q = r ∨ (∀ g, q.call.expected = some g → r.generation = g) ∧
      Move r.toSessionFields (served r q).toSessionFields q.call :=
  (served_eq r q).elim .inl mutate_moves

/-- The reservations of a run and how they ended. -/
abbrev RoundAccount := Account String Slot Outcome

/-- The account after one call: a reservation that appears is opened, one that disappears is
closed by the call. -/
def follow (account : RoundAccount) (f f' : SessionFields) (c : Call) : RoundAccount :=
  match heldReservation f, heldReservation f' with
  | none, some (i, slot) => account.opened i slot
  | some _, none => account.closed c.outcome
  | _, _ => account

def openingAccount (f : SessionFields) : RoundAccount :=
  match heldReservation f with
  | none => []
  | some (i, slot) => [⟨i, slot, none⟩]

def accountStep (s : SessionRecord rules × RoundAccount) (q : Request) :
    SessionRecord rules × RoundAccount :=
  (served s.1 q, follow s.2 s.1.toSessionFields (served s.1 q).toSessionFields q.call)

/-- The account of a run from the record `r`. -/
def roundAccount (r : SessionRecord rules) (requests : List Request) : RoundAccount :=
  (run accountStep (r, openingAccount r.toSessionFields) requests).2

/-- What an account says of a record reached from `f₀`. -/
structure Accounts (f₀ : SessionFields) (r : SessionRecord rules) (account : RoundAccount) :
    Prop where
  settled : account.Settled
  held : account.held = heldReservation r.toSessionFields
  counts : ∀ k, k ≠ .failedAttempt → completedRounds r.toSessionFields k =
    min (completedRounds f₀ k + account.ended k Outcome.completes) diagnosticRoundCeiling

theorem completedRounds_le (r : SessionRecord rules) (k : Slot) :
    completedRounds r.toSessionFields k ≤ diagnosticRoundCeiling := by
  cases k with
  | initial => exact r.initialReviews_le
  | verification => exact r.verificationRounds_le
  | failedAttempt => exact Nat.zero_le _

theorem accounts_opening (r : SessionRecord rules) :
    Accounts r.toSessionFields r (openingAccount r.toSessionFields) := by
  have hle := completedRounds_le r
  unfold openingAccount
  split
  · rename_i hfree
    refine ⟨?_, hfree.symm, fun k _ => ?_⟩
    · rintro e ⟨⟩
    · exact (Nat.min_eq_left (hle k)).symm
  · rename_i i slot hheld
    refine ⟨?_, hheld.symm, fun k _ => ?_⟩
    · rintro e ⟨⟩
    · simpa [Account.ended] using (Nat.min_eq_left (hle k)).symm

/-- One request keeps the account true. -/
theorem Accounts.step {f₀ : SessionFields} {account : RoundAccount}
    (h : Accounts f₀ r account) (q : Request) :
    Accounts f₀ (served r q)
      (follow account r.toSessionFields (served r q).toSessionFields q.call) := by
  rcases served_moves r q with heq | ⟨_, hmove⟩
  · have hsame : follow account r.toSessionFields r.toSessionFields q.call = account := by
      unfold follow
      cases heldReservation r.toSessionFields <;> rfl
    rw [heq, hsame]
    exact h
  have hunmoved (hheld : heldReservation (served r q).toSessionFields =
      heldReservation r.toSessionFields)
      (hcounts : ∀ k, completedRounds (served r q).toSessionFields k =
        completedRounds r.toSessionFields k) :
      Accounts f₀ (served r q)
        (follow account r.toSessionFields (served r q).toSessionFields q.call) := by
    have hsame : follow account r.toSessionFields (served r q).toSessionFields q.call = account := by
      unfold follow
      rw [hheld]
      cases heldReservation r.toSessionFields <;> rfl
    rw [hsame]
    exact ⟨h.settled, h.held.trans hheld.symm, fun k hk => (hcounts k).trans (h.counts k hk)⟩
  cases hmove with
  | takes i slot hcall hid hfree hheld hgen hcounts =>
    have hopened : follow account r.toSessionFields (served r q).toSessionFields q.call =
        account.opened i slot := by
      simp only [follow, hfree, hheld]
    rw [hopened]
    refine ⟨h.settled.opened (h.held.trans hfree) i slot, hheld.symm, fun k hk => ?_⟩
    rw [hcounts k, h.counts k hk, Account.ended_opened]
  | releases i slot hid hheld hfree hgen hcounts =>
    have hclosed : follow account r.toSessionFields (served r q).toSessionFields q.call =
        account.closed q.call.outcome := by
      simp only [follow, hfree, hheld]
    have hopen : account.held = some (i, slot) := h.held.trans hheld
    rw [hclosed]
    refine ⟨h.settled.closed _, by simp [hfree], fun k hk => ?_⟩
    rw [hcounts k hk, h.counts k hk, Account.ended_closed Outcome.completes hopen]
    -- The ceiling may already be reached: counting once more stays there.
    split <;> omega
  | attaches hcall hid hheld hgen hcounts => exact hunmoved hheld hcounts
  | publishes hid hheld hgen hcounts => exact hunmoved hheld hcounts

theorem accounts_run (r : SessionRecord rules) (requests : List Request) :
    Accounts r.toSessionFields (sessionRun r requests) (roundAccount r requests) := by
  have hfst : (run accountStep (r, openingAccount r.toSessionFields) requests).1 =
      sessionRun r requests := by
    unfold sessionRun
    generalize openingAccount r.toSessionFields = account
    induction requests generalizing r account with
    | nil => rfl
    | cons q requests ih => exact ih _ _
  have hrun : Accounts r.toSessionFields
      (run accountStep (r, openingAccount r.toSessionFields) requests).1
      (run accountStep (r, openingAccount r.toSessionFields) requests).2 :=
    run_keeps (P := fun (s : SessionRecord rules × RoundAccount) => Accounts r.toSessionFields s.1 s.2)
      (fun s q hs => hs.step q) (accounts_opening r) requests
  rw [hfst] at hrun
  exact hrun

theorem served_generation (r : SessionRecord rules) (q : Request) :
    r.generation ≤ (served r q).generation := by
  rcases served_moves r q with heq | ⟨_, hmove⟩
  · exact Nat.le_of_eq (by rw [heq])
  · cases hmove <;> omega

/-- Only an attach changes what is tracked without a new generation. -/
theorem served_advances (r : SessionRecord rules) (q : Request)
    (hne : served r q ≠ r) (hcall : q.call.isAttach = false) :
    r.generation < (served r q).generation := by
  rcases served_moves r q with heq | ⟨_, hmove⟩
  · exact absurd heq hne
  · cases hmove with
    | attaches h => exact absurd (hcall.symm.trans h) (by decide)
    | takes => omega
    | releases => omega
    | publishes => omega

/-- A call made for another generation leaves the record. -/
theorem served_stale (r : SessionRecord rules) (q : Request) {g : Nat}
    (hq : q.call.expected = some g) (hg : r.generation ≠ g) : served r q = r :=
  (served_moves r q).resolve_right (fun hmove => hg (hmove.1 g hq))

theorem heldReservation_fst {r : SessionRecord rules} {i : String} {slot : Slot}
    (h : heldReservation r.toSessionFields = some (i, slot)) : r.reservationId = some i := by
  unfold heldReservation at h
  cases hid : r.reservationId with
  | none => simp [hid] at h
  | some j =>
    cases hslot : r.reservedSlot with
    | none => simp [hid, hslot] at h
    | some k => simp [hid, hslot] at h; rw [h.1]

theorem reservationId_none {r : SessionRecord rules}
    (h : heldReservation r.toSessionFields = none) : r.reservationId = none := by
  by_contra hne
  have hslot : r.reservedSlot ≠ none := fun hnone => hne (r.held_iff_slot.mpr hnone)
  obtain ⟨i, hi⟩ := Option.ne_none_iff_exists'.mp hne
  obtain ⟨k, hk⟩ := Option.ne_none_iff_exists'.mp hslot
  simp [heldReservation, hi, hk] at h

theorem reservationId_eq {r s : SessionRecord rules}
    (h : heldReservation r.toSessionFields = heldReservation s.toSessionFields) :
    r.reservationId = s.reservationId := by
  cases hs : heldReservation s.toSessionFields with
  | none => rw [reservationId_none (h.trans hs), reservationId_none hs]
  | some p => rw [heldReservation_fst (h.trans hs), heldReservation_fst hs]

/-- A held reservation is released by a call that names it, and nothing else takes its place. -/
theorem served_releases (r : SessionRecord rules) (q : Request) {i : String}
    (hi : r.reservationId = some i) (hgone : (served r q).reservationId ≠ some i) :
    q.call.reservation = i ∧ (served r q).reservationId = none := by
  rcases served_moves r q with heq | ⟨_, hmove⟩
  · exact absurd (heq.symm ▸ hi) hgone
  cases hmove with
  | takes j slot hcall hid hfree =>
    rw [reservationId_none hfree] at hi
    cases hi
  | releases j slot hid hheld hfree =>
    have hj := heldReservation_fst hheld
    rw [hi] at hj
    exact ⟨hid.trans (Option.some.inj hj).symm, reservationId_none hfree⟩
  | attaches hcall hid hheld => exact absurd ((reservationId_eq hheld).trans hi) hgone
  | publishes hid hheld => exact absurd ((reservationId_eq hheld).trans hi) hgone

/-- A call about a reservation that is neither held nor the last committed one leaves the record,
unless it reserves while nothing is held. -/
theorem served_foreign (r : SessionRecord rules) (q : Request)
    (hheld : r.reservationId ≠ some q.call.reservation)
    (hlast : r.lastCommittedReservationId ≠ some q.call.reservation)
    (hreserve : q.call.isReserve = true → r.reservationId ≠ none) : served r q = r := by
  rcases served_moves r q with heq | ⟨_, hmove⟩
  · exact heq
  cases hmove with
  | takes j slot hcall hid hfree => exact absurd (reservationId_none hfree) (hreserve hcall)
  | releases j slot hid hheld' => exact absurd (hid ▸ heldReservation_fst hheld') hheld
  | attaches hcall hid => exact absurd hid hheld
  | publishes hid => exact (hid.elim hheld hlast).elim

end ReviewSensei.Session
