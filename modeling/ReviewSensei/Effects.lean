import Mathlib.Logic.Basic

/-! Programs over a state that may raise, and their rules of pre- and postconditions.
A raised error keeps the state reached, as an exception in an imperative program does. -/
namespace ReviewSensei.Effects

/-- A program over the state `σ`, with errors in `ε`. -/
structure Prog (ε σ α : Type) where
  run : σ → Except ε α × σ

namespace Prog
variable {ε σ α β : Type}

def andThen (f : α → Prog ε σ β) : Except ε α × σ → Except ε β × σ
  | (.ok a, s) => (f a).run s
  | (.error e, s) => (.error e, s)

instance : Monad (Prog ε σ) where
  pure a := ⟨fun s => (.ok a, s)⟩
  bind m f := ⟨fun s => andThen f (m.run s)⟩

def raise (e : ε) : Prog ε σ α := ⟨fun s => (.error e, s)⟩

def get : Prog ε σ σ := ⟨fun s => (.ok s, s)⟩

def modify (f : σ → σ) : Prog ε σ Unit := ⟨fun s => (.ok (), f s)⟩

/-- Run a computation that reads no state and may raise. -/
def lift (x : Except ε α) : Prog ε σ α := ⟨fun s => (x, s)⟩

/-- `try`: what was raised is returned as a value. -/
def attempt (m : Prog ε σ α) : Prog ε σ (Except ε α) :=
  ⟨fun s => (.ok (m.run s).1, (m.run s).2)⟩

@[simp] theorem andThen_ok (f : α → Prog ε σ β) (a : α) (s : σ) :
    andThen f (.ok a, s) = (f a).run s := rfl

@[simp] theorem andThen_error (f : α → Prog ε σ β) (e : ε) (s : σ) :
    andThen f (.error e, s) = (.error e, s) := rfl

@[simp] theorem run_bind (m : Prog ε σ α) (f : α → Prog ε σ β) (s : σ) :
    (m >>= f).run s = andThen f (m.run s) := rfl

@[simp] theorem run_pure (a : α) (s : σ) : (pure a : Prog ε σ α).run s = (.ok a, s) := rfl

@[simp] theorem run_raise (e : ε) (s : σ) : (raise e : Prog ε σ α).run s = (.error e, s) := rfl

@[simp] theorem run_get (s : σ) : (get : Prog ε σ σ).run s = (.ok s, s) := rfl

@[simp] theorem run_modify (f : σ → σ) (s : σ) :
    (modify f : Prog ε σ Unit).run s = (.ok (), f s) := rfl

@[simp] theorem run_lift (x : Except ε α) (s : σ) : (lift x : Prog ε σ α).run s = (x, s) := rfl

end Prog

variable {ε σ α β : Type}

/-- What a run ends in: `Q` when it returns, `E` when it raises. -/
def Ends (Q : α → σ → Prop) (E : σ → Prop) : Except ε α × σ → Prop
  | (.ok a, s) => Q a s
  | (.error _, s) => E s

/-- From `P`, the program ends in `Q` when it returns and in `E` when it raises. -/
def Spec (P : σ → Prop) (m : Prog ε σ α) (Q : α → σ → Prop) (E : σ → Prop) : Prop :=
  ∀ s, P s → Ends Q E (m.run s)

theorem Ends.imp {Q Q' : α → σ → Prop} {E E' : σ → Prop} {r : Except ε α × σ}
    (h : Ends Q E r) (hQ : ∀ a s, Q a s → Q' a s) (hE : ∀ s, E s → E' s) : Ends Q' E' r := by
  obtain ⟨x, s⟩ := r
  cases x with
  | ok a => exact hQ a s h
  | error e => exact hE s h

theorem Spec.pure {P : σ → Prop} {Q : α → σ → Prop} {E : σ → Prop} (a : α)
    (h : ∀ s, P s → Q a s) : Spec P (Pure.pure a : Prog ε σ α) Q E := h

theorem Spec.bind {P : σ → Prop} {m : Prog ε σ α} {f : α → Prog ε σ β}
    {R : α → σ → Prop} {Q : β → σ → Prop} {E : σ → Prop}
    (hm : Spec P m R E) (hf : ∀ a, Spec (R a) (f a) Q E) : Spec P (m >>= f) Q E := by
  intro s hs
  have h := hm s hs
  change Ends Q E (Prog.andThen f (m.run s))
  generalize m.run s = r at h ⊢
  obtain ⟨x, s'⟩ := r
  cases x with
  | ok a => exact hf a s' h
  | error e => exact h

theorem Spec.raise {P : σ → Prop} {Q : α → σ → Prop} {E : σ → Prop} (e : ε)
    (h : ∀ s, P s → E s) : Spec P (Prog.raise e : Prog ε σ α) Q E := h

theorem Spec.get {P : σ → Prop} {E : σ → Prop} :
    Spec P (Prog.get : Prog ε σ σ) (fun a s => P s ∧ a = s) E :=
  fun _ hs => ⟨hs, rfl⟩

theorem Spec.modify {P : σ → Prop} {Q : σ → Prop} {E : σ → Prop} (f : σ → σ)
    (h : ∀ s, P s → Q (f s)) : Spec P (Prog.modify f : Prog ε σ Unit) (fun _ => Q) E := h

theorem Spec.lift {P : σ → Prop} {E : σ → Prop} (x : Except ε α)
    (hE : ∀ s, P s → E s) : Spec P (Prog.lift x) (fun a s => P s ∧ x = .ok a) E := by
  intro s hs
  cases x with
  | ok a => exact ⟨hs, rfl⟩
  | error e => exact hE s hs

theorem Spec.attempt {P : σ → Prop} {m : Prog ε σ α} {Q : α → σ → Prop} {E F : σ → Prop}
    (h : Spec P m Q E) : Spec P (Prog.attempt m) (fun x s => Ends Q E (x, s)) F := by
  intro s hs
  have hm := h s hs
  change Ends Q E ((m.run s).1, (m.run s).2)
  exact hm

/-- The rule of consequence. -/
theorem Spec.conseq {P P' : σ → Prop} {m : Prog ε σ α} {Q Q' : α → σ → Prop} {E E' : σ → Prop}
    (h : Spec P m Q E) (hP : ∀ s, P' s → P s) (hQ : ∀ a s, Q a s → Q' a s)
    (hE : ∀ s, E s → E' s) : Spec P' m Q' E' :=
  fun s hs => (h s (hP s hs)).imp hQ hE

theorem Spec.ite {P : σ → Prop} {c : Prop} [Decidable c] {m n : Prog ε σ α}
    {Q : α → σ → Prop} {E : σ → Prop}
    (hm : c → Spec P m Q E) (hn : ¬c → Spec P n Q E) :
    Spec P (if c then m else n) Q E := by
  split
  · exact hm ‹_›
  · exact hn ‹_›

/-- Nothing is asked of the program. -/
theorem Spec.top (m : Prog ε σ α) : Spec (fun _ => True) m (fun _ _ => True) (fun _ => True) := by
  intro s _
  obtain ⟨x, s'⟩ := m.run s
  cases x <;> trivial

/-- A precondition that carries a pure fact. -/
theorem Spec.assume {P : σ → Prop} {p : Prop} {m : Prog ε σ α} {Q : α → σ → Prop}
    {E : σ → Prop} (h : p → Spec P m Q E) : Spec (fun s => P s ∧ p) m Q E :=
  fun s hs => h hs.2 s hs.1

/-- A program that keeps an invariant, whether it returns or raises. -/
def Keeps (I : σ → Prop) (m : Prog ε σ α) : Prop := Spec I m (fun _ => I) I

end ReviewSensei.Effects
