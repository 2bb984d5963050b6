import Mathlib.Data.List.Induction
import Mathlib.Data.List.Count
import Mathlib.Tactic.ByContra

/-! Stores whose calls name the version they expect, and accounts of reservations that are opened
one at a time and closed once. -/
namespace ReviewSensei.Fenced

section Versions
variable {σ κ : Type}

def run (apply : σ → κ → σ) (s : σ) (calls : List κ) : σ := calls.foldl apply s

variable {apply : σ → κ → σ}

@[simp] theorem run_nil (s : σ) : run apply s [] = s := rfl

@[simp] theorem run_cons (s : σ) (c : κ) (cs : List κ) :
    run apply s (c :: cs) = run apply (apply s c) cs := rfl

theorem run_append (s : σ) (cs ds : List κ) :
    run apply s (cs ++ ds) = run apply (run apply s cs) ds :=
  List.foldl_append ..

/-- What every call keeps, every run keeps. -/
theorem run_keeps {P : σ → Prop} (h : ∀ s c, P s → P (apply s c)) {s : σ} (hs : P s)
    (cs : List κ) : P (run apply s cs) := by
  induction cs generalizing s with
  | nil => exact hs
  | cons c cs ih => exact ih (h s c hs)

variable {version : σ → Nat}

theorem version_le_run (hmono : ∀ s c, version s ≤ version (apply s c)) (s : σ) (cs : List κ) :
    version s ≤ version (run apply s cs) :=
  run_keeps (P := fun t => version s ≤ version t) (fun t c h => Nat.le_trans h (hmono t c)) (Nat.le_refl _) cs

/-- A call made for one version has advanced it: no call made for that version takes effect
again. -/
theorem effect_once (hmono : ∀ s c, version s ≤ version (apply s c)) {c c' : κ} {n : Nat}
    (hstale : ∀ s, version s ≠ n → apply s c = s) (hstale' : ∀ s, version s ≠ n → apply s c' = s)
    {s : σ} (hadv : version s < version (apply s c)) (cs : List κ) :
    apply (run apply (apply s c) cs) c' = run apply (apply s c) cs := by
  have hs : version s = n := by
    by_contra hne
    rw [hstale s hne] at hadv
    exact absurd hadv (Nat.lt_irrefl _)
  have hlater := version_le_run hmono (apply s c) cs
  exact hstale' _ (by omega)

end Versions

/-- One reservation: its id, its slot, and how it ended. -/
structure Entry (ι κ ω : Type) where
  id : ι
  slot : κ
  outcome : Option ω
  deriving DecidableEq

/-- All reservations so far, the newest first. -/
abbrev Account (ι κ ω : Type) := List (Entry ι κ ω)

namespace Account
variable {ι κ ω : Type}

/-- The reservation that is open. -/
def held : Account ι κ ω → Option (ι × κ)
  | [] => none
  | e :: _ => match e.outcome with
    | none => some (e.id, e.slot)
    | some _ => none

def opened (acc : Account ι κ ω) (i : ι) (k : κ) : Account ι κ ω := ⟨i, k, none⟩ :: acc

def closed : Account ι κ ω → ω → Account ι κ ω
  | [], _ => []
  | e :: acc, w => { e with outcome := some w } :: acc

/-- Only the newest reservation may still be open. -/
def Settled (acc : Account ι κ ω) : Prop := ∀ e ∈ acc.tail, e.outcome ≠ none

/-- How many reservations of a slot ended in one of some outcomes. -/
def ended [DecidableEq κ] (acc : Account ι κ ω) (k : κ) (counts : ω → Bool) : Nat :=
  acc.countP (fun e => e.slot == k && e.outcome.any counts)

@[simp] theorem held_closed (acc : Account ι κ ω) (w : ω) : (acc.closed w).held = none := by
  cases acc <;> rfl

theorem Settled.opened {acc : Account ι κ ω} (h : acc.Settled) (hheld : acc.held = none) (i : ι)
    (k : κ) : (acc.opened i k).Settled := by
  intro e he
  change e ∈ acc at he
  cases acc with
  | nil => cases he
  | cons e' acc =>
    rcases List.mem_cons.mp he with rfl | he
    · intro hnone
      rw [held, hnone] at hheld
      cases hheld
    · exact h e he

theorem Settled.closed {acc : Account ι κ ω} (h : acc.Settled) (w : ω) : (acc.closed w).Settled := by
  cases acc with
  | nil => exact h
  | cons e acc => exact h

/-- At most one reservation is open. -/
theorem Settled.one_open {acc : Account ι κ ω} (h : acc.Settled) :
    acc.countP (fun e => e.outcome.isNone) ≤ 1 := by
  cases acc with
  | nil => exact Nat.zero_le 1
  | cons e acc =>
    have hrest : List.countP (fun e : Entry ι κ ω => e.outcome.isNone) acc = 0 := by
      rw [List.countP_eq_zero]
      intro e' he'
      simpa using h e' he'
    rw [List.countP_cons, hrest]
    split <;> omega

variable [DecidableEq κ] (counts : ω → Bool)

@[simp] theorem ended_opened (acc : Account ι κ ω) (i : ι) (k k' : κ) :
    (acc.opened i k').ended k counts = acc.ended k counts := by
  simp [ended, opened]

/-- Closing the open reservation counts it, once, if its slot and its outcome count. -/
theorem ended_closed {acc : Account ι κ ω} {i : ι} {k' : κ} (h : acc.held = some (i, k')) (k : κ)
    (w : ω) : (acc.closed w).ended k counts =
      acc.ended k counts + if k' = k ∧ counts w = true then 1 else 0 := by
  cases acc with
  | nil => cases h
  | cons e acc =>
    obtain ⟨i', k'', o⟩ := e
    cases o with
    | some w' => cases h
    | none =>
      obtain ⟨rfl, rfl⟩ : i' = i ∧ k'' = k' := by simpa [held] using h
      simp [ended, closed, List.countP_cons]

end Account

end ReviewSensei.Fenced
