/-! Two fallible computations side by side: where the first returns, the second returns a related
value. -/
namespace ReviewSensei

section
variable {ε ε' α β γ δ : Type}

def Follows (R : α → β → Prop) (x : Except ε α) (y : Except ε' β) : Prop :=
  ∀ a, x = .ok a → ∃ b, y = .ok b ∧ R a b

variable {R : α → β → Prop} {Q : γ → δ → Prop} {x : Except ε α} {y : Except ε' β}

theorem Follows.ok {a : α} {b : β} (h : R a b) :
    Follows R (Except.ok a : Except ε α) (Except.ok b : Except ε' β) := by
  intro a' ha
  cases ha
  exact ⟨b, rfl, h⟩

theorem Follows.error {e : ε} : Follows R (Except.error e : Except ε α) y := by
  intro a ha
  cases ha

/-- The same value on both sides, whatever is then done with it. -/
theorem Follows.bind_same {x : Except ε α} {f : α → Except ε γ} {g : α → Except ε δ}
    (h : ∀ a, x = .ok a → Follows Q (f a) (g a)) : Follows Q (x >>= f) (x >>= g) := by
  cases x with
  | error e => exact Follows.error
  | ok a => exact h a rfl

theorem Follows.bind {f : α → Except ε γ} {g : β → Except ε' δ} (h : Follows R x y)
    (hfg : ∀ a b, R a b → Follows Q (f a) (g b)) : Follows Q (x >>= f) (y >>= g) := by
  cases x with
  | error e => exact Follows.error
  | ok a =>
    obtain ⟨b, rfl, hab⟩ := h a rfl
    exact hfg a b hab

theorem Follows.map {f : α → γ} {g : β → δ} (h : Follows R x y)
    (hfg : ∀ a b, R a b → Q (f a) (g b)) : Follows Q (x.map f) (y.map g) := by
  cases x with
  | error e => exact Follows.error
  | ok a =>
    obtain ⟨b, rfl, hab⟩ := h a rfl
    exact Follows.ok (hfg a b hab)

/-- A guard that the second side passes wherever the first does. -/
theorem Follows.guard {c d : Prop} [Decidable c] [Decidable d] {e : ε} {e' : ε'}
    (hcd : ¬ c → ¬ d) (h : ¬ c → Follows R x y) :
    Follows R (if c then .error e else x) (if d then .error e' else y) := by
  by_cases hc : c
  · rw [if_pos hc]
    exact Follows.error
  · rw [if_neg hc, if_neg (hcd hc)]
    exact h hc

theorem Follows.ite {c : Prop} [Decidable c] {x' : Except ε α} {y' : Except ε' β}
    (h : c → Follows R x y) (h' : ¬ c → Follows R x' y') :
    Follows R (if c then x else x') (if c then y else y') := by
  by_cases hc : c
  · rw [if_pos hc, if_pos hc]
    exact h hc
  · rw [if_neg hc, if_neg hc]
    exact h' hc

end

end ReviewSensei
