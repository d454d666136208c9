import Mathlib.Tactic.Common

/-!
This module contains computations that read from an environment `ρ` and log what they do as entries
`ω`, and the rules by which a property of all entries is split along the structure of a computation.
-/

def Logged (ρ ω α : Type) := ρ → α × List ω

namespace Logged

variable {ρ ω α β : Type}

def value (m : Logged ρ ω α) (r : ρ) : α := (m r).1

def log (m : Logged ρ ω α) (r : ρ) : List ω := (m r).2

instance : Monad (Logged ρ ω) where
  pure a := fun _ => (a, [])
  bind m f := fun r => ((f (m r).1 r).1, (m r).2 ++ (f (m r).1 r).2)

def ask (f : ρ → α) (entry : ω) : Logged ρ ω α := fun r => (f r, [entry])

def All (p : ω → Prop) (m : Logged ρ ω α) (r : ρ) : Prop := ∀ entry ∈ m.log r, p entry

instance (p : ω → Prop) [DecidablePred p] (m : Logged ρ ω α) (r : ρ) : Decidable (All p m r) :=
  inferInstanceAs (Decidable (∀ entry ∈ m.log r, p entry))

variable {p : ω → Prop} {r : ρ}

@[simp]
theorem value_pure (a : α) : value (pure a : Logged ρ ω α) r = a := rfl

@[simp]
theorem value_bind (m : Logged ρ ω α) (f : α → Logged ρ ω β)
    : value (m >>= f) r = value (f (m.value r)) r := rfl

@[simp]
theorem all_pure (a : α) : All p (pure a : Logged ρ ω α) r := by
  intro entry h
  simp [log, pure] at h

@[simp]
theorem all_bind (m : Logged ρ ω α) (f : α → Logged ρ ω β)
    : All p (m >>= f) r ↔ All p m r ∧ All p (f (m.value r)) r := by
  have hlog : log (m >>= f) r = m.log r ++ (f (m.value r)).log r := rfl
  unfold All
  rw [hlog]
  simp only [List.mem_append, or_imp, forall_and]

theorem all_ite {c : Prop} [Decidable c] {m₁ m₂ : Logged ρ ω α} (hpos : c → All p m₁ r)
    (hneg : ¬ c → All p m₂ r)
    : All p (if c then m₁ else m₂) r := by
  by_cases h : c
  . rw [if_pos h]
    apply hpos h
  . rw [if_neg h]
    apply hneg h

@[simp]
theorem all_ask (f : ρ → α) (entry : ω) : All p (ask f entry) r ↔ p entry := by
  simp [All, log, ask]

end Logged
