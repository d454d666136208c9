import Mathlib.Data.List.Basic
import Mathlib.Tactic.Common

/-!
This module contains deterministic machines that answer an input with a list of outputs, the runs
of such machines, and the rules to reason about a whole run from one step.
-/

/--
A machine. `step s a` is the state after the input `a` together with the outputs made on the way,
and `none` if the machine does not take `a` in `s`.
-/
structure Machine (σ α β : Type) where
  step : σ → α → Option (σ × List β)

namespace Machine

variable {σ τ α β : Type}

structure Entry (σ α β : Type) where
  pre : σ
  input : α
  out : List β
  post : σ
  deriving DecidableEq, Repr

def inputs (tr : List (Entry σ α β)) : List α := tr.map Entry.input

def outputs (tr : List (Entry σ α β)) : List β := tr.flatMap Entry.out

@[simp]
theorem outputs_nil : outputs ([] : List (Entry σ α β)) = [] := rfl

@[simp]
theorem inputs_append (tr₁ tr₂ : List (Entry σ α β))
    : inputs (tr₁ ++ tr₂) = inputs tr₁ ++ inputs tr₂ := by
  simp [inputs]

@[simp]
theorem outputs_append (tr₁ tr₂ : List (Entry σ α β))
    : outputs (tr₁ ++ tr₂) = outputs tr₁ ++ outputs tr₂ := by
  simp [outputs]

@[simp]
theorem inputs_singleton (e : Entry σ α β) : inputs [e] = [e.input] := rfl

@[simp]
theorem outputs_singleton (e : Entry σ α β) : outputs [e] = e.out := by
  simp [outputs]

/--
`M.Run s₀ tr s`: from `s₀` the machine gets to `s` by the steps of `tr`, the oldest one first.
-/
inductive Run (M : Machine σ α β) (s₀ : σ) : List (Entry σ α β) → σ → Prop
  | nil : Run M s₀ [] s₀
  | snoc {tr : List (Entry σ α β)} {s s' : σ} {a : α} {o : List β}
      (hrun : Run M s₀ tr s) (hstep : M.step s a = some (s', o))
      : Run M s₀ (tr ++ [⟨s, a, o, s'⟩]) s'

variable {M : Machine σ α β} {A : Machine τ α β}

theorem Run.invariant_of_forall {C : Entry σ α β → Prop} {I : List (Entry σ α β) → σ → Prop}
    {s₀ s : σ} {tr : List (Entry σ α β)} (hinit : I [] s₀)
    (hpres : ∀ tr s a s' o, C ⟨s, a, o, s'⟩ → I tr s → M.step s a = some (s', o) →
      I (tr ++ [⟨s, a, o, s'⟩]) s')
    (hrun : M.Run s₀ tr s) (hall : ∀ e ∈ tr, C e)
    : I tr s := by
  induction hrun with
  | nil => exact hinit
  | snoc hrun hstep ih =>
    apply hpres
    . apply hall
      simp
    . apply ih
      intro e he
      apply hall
      apply List.mem_append_left _ he
    . exact hstep

theorem Run.invariant {I : List (Entry σ α β) → σ → Prop} {s₀ s : σ} {tr : List (Entry σ α β)}
    (hinit : I [] s₀)
    (hpres : ∀ tr s a s' o, I tr s → M.step s a = some (s', o) → I (tr ++ [⟨s, a, o, s'⟩]) s')
    (hrun : M.Run s₀ tr s)
    : I tr s := by
  apply hrun.invariant_of_forall (C := fun _ => True) hinit
  . intro tr s a s' o _
    apply hpres
  . simp

/--
Two properties of steps agree along a run if they agree on every step from a state with the
invariant, and a step with either keeps the invariant.
-/
theorem Run.forall_iff {P Q : Entry σ α β → Prop} {I : σ → Prop} {s₀ s : σ}
    {tr : List (Entry σ α β)} (hinit : I s₀)
    (hagree : ∀ s a s' o, I s → M.step s a = some (s', o) →
      (P ⟨s, a, o, s'⟩ ↔ Q ⟨s, a, o, s'⟩) ∧ (Q ⟨s, a, o, s'⟩ → I s'))
    (hrun : M.Run s₀ tr s)
    : (∀ e ∈ tr, P e) ↔ ∀ e ∈ tr, Q e := by
  have hboth : ((∀ e ∈ tr, P e) ↔ ∀ e ∈ tr, Q e) ∧ ((∀ e ∈ tr, Q e) → I s) := by
    induction hrun with
    | nil => exact ⟨by simp, fun _ => hinit⟩
    | snoc hrun hstep ih =>
      obtain ⟨hiff, hinv⟩ := ih
      simp only [List.mem_append, List.mem_singleton, or_imp, forall_and, forall_eq]
      rw [hiff]
      constructor
      . apply and_congr_right
        intro hall
        apply (hagree _ _ _ _ (hinv hall) hstep).1
      . rintro ⟨hall, hlast⟩
        apply (hagree _ _ _ _ (hinv hall) hstep).2 hlast
  apply hboth.1

theorem Run.of_prefix {s₀ s : σ} {tr : List (Entry σ α β)} (hrun : M.Run s₀ tr s)
    : ∀ (tr₁ : List (Entry σ α β)) (e : Entry σ α β) (tr₂ : List (Entry σ α β)),
        tr = tr₁ ++ e :: tr₂
          →
        M.Run s₀ tr₁ e.pre ∧ M.step e.pre e.input = some (e.post, e.out) := by
  induction hrun with
  | nil =>
    intro tr₁ e tr₂ h
    simp at h
  | @snoc tr s s' a o hrun hstep ih =>
    intro tr₁ e tr₂ h
    rcases List.eq_nil_or_concat' tr₂ with rfl | ⟨tr₂, e', rfl⟩
    . obtain ⟨rfl, h⟩ := List.append_inj' h rfl
      obtain rfl : ⟨s, a, o, s'⟩ = e := by simpa using h
      exact ⟨hrun, hstep⟩
    . rw [← List.cons_append, ← List.append_assoc] at h
      obtain ⟨h, -⟩ := List.append_inj' h rfl
      exact ih tr₁ e tr₂ h

theorem Run.suffix {s₀ s : σ} {tr : List (Entry σ α β)} (hrun : M.Run s₀ tr s)
    : ∀ (tr₁ : List (Entry σ α β)) (e : Entry σ α β) (tr₂ : List (Entry σ α β)),
        tr = tr₁ ++ e :: tr₂ → M.Run e.post tr₂ s := by
  induction hrun with
  | nil =>
    intro tr₁ e tr₂ h
    simp at h
  | @snoc tr s s' a o hrun hstep ih =>
    intro tr₁ e tr₂ h
    rcases List.eq_nil_or_concat' tr₂ with rfl | ⟨tr₂, e', rfl⟩
    . obtain ⟨-, h⟩ := List.append_inj' h rfl
      obtain rfl : ⟨s, a, o, s'⟩ = e := by simpa using h
      exact .nil
    . rw [← List.cons_append, ← List.append_assoc] at h
      obtain ⟨htr, he⟩ := List.append_inj' h rfl
      obtain rfl : ⟨s, a, o, s'⟩ = e' := by simpa using he
      exact .snoc (ih tr₁ e tr₂ htr) hstep

/--
Bounded response: until `D` holds, every step takes as many from the measure as it counts for, and adds
no more than it is charged with.
-/
theorem Run.response {I P : σ → Prop} {D : List (Entry σ α β) → σ → Prop} {m : σ → Nat}
    (count charge : α → Bool)
    (hkeep : ∀ s a s' o, I s → M.step s a = some (s', o) → I s')
    (hdone : ∀ tr s a s' o, I s → D tr s → M.step s a = some (s', o) → D (tr ++ [⟨s, a, o, s'⟩]) s')
    (hstep : ∀ tr s a s' o, I s → P s → M.step s a = some (s', o) →
      D (tr ++ [⟨s, a, o, s'⟩]) s' ∨ P s' ∧ m s' + (count a).toNat ≤ m s + (charge a).toNat)
    {s₀ s : σ} {tr : List (Entry σ α β)} (hI : I s₀) (hP : P s₀) (hrun : M.Run s₀ tr s)
    : I s ∧ (D tr s
        ∨ P s ∧ m s + (inputs tr).countP count ≤ m s₀ + (inputs tr).countP charge) := by
  induction hrun with
  | nil => exact ⟨hI, .inr ⟨hP, Nat.le_refl _⟩⟩
  | @snoc tr s s' a o hrun hs ih =>
    obtain ⟨hI', hcases⟩ := ih
    refine ⟨hkeep _ _ _ _ hI' hs, ?_⟩
    rcases hcases with hD | ⟨hP', hle⟩
    . exact .inl (hdone _ _ _ _ _ hI' hD hs)
    . rcases hstep tr _ _ _ _ hI' hP' hs with hD | ⟨hP'', hle'⟩
      . exact .inl hD
      . right
        refine ⟨hP'', ?_⟩
        have hsingle : ∀ p : α → Bool, [a].countP p = (p a).toNat := by
          intro p
          rw [List.countP_singleton]
          cases p a <;> rfl
        rw [inputs_append, inputs_singleton, List.countP_append, List.countP_append, hsingle, hsingle]
        omega

theorem Run.of_mem {s₀ s : σ} {tr : List (Entry σ α β)} (hrun : M.Run s₀ tr s)
    {e : Entry σ α β} (he : e ∈ tr)
    : ∃ tr₁, M.Run s₀ tr₁ e.pre ∧ M.step e.pre e.input = some (e.post, e.out) := by
  obtain ⟨tr₁, tr₂, htr⟩ := List.append_of_mem he
  exact ⟨tr₁, hrun.of_prefix tr₁ e tr₂ htr⟩

/--
What every step keeps is kept between any two steps of a run.
-/
theorem Run.pairwise {P : σ → Prop}
    (hkeep : ∀ s a s' o, M.step s a = some (s', o) → P s → P s')
    {s₀ s : σ} {tr : List (Entry σ α β)} (hrun : M.Run s₀ tr s)
    : tr.Pairwise fun e e' => P e.post → P e'.post := by
  have hlast : (∀ e ∈ tr, P e.post → P s) ∧ tr.Pairwise fun e e' => P e.post → P e'.post := by
    induction hrun with
    | nil => exact ⟨by simp, .nil⟩
    | snoc hrun hstep ih =>
      have hpost := hkeep _ _ _ _ hstep
      refine ⟨?_, ?_⟩
      . intro e he hP
        rw [List.mem_append, List.mem_singleton] at he
        cases he with
        | inl he => apply hpost (ih.1 e he hP)
        | inr he =>
          rw [he] at hP
          exact hP
      . rw [List.pairwise_append]
        refine ⟨ih.2, List.pairwise_singleton _ _, ?_⟩
        intro e he e' he' hP
        rw [List.mem_singleton] at he'
        rw [he']
        apply hpost (ih.1 e he hP)
  apply hlast.2

/--
A forward simulation: every step of `M` is matched by a step of `A` with the same input and outputs.
-/
def Simulates (M : Machine σ α β) (A : Machine τ α β) (R : σ → τ → Prop) : Prop :=
  ∀ s t a s' o, R s t → M.step s a = some (s', o) → ∃ t', A.step t a = some (t', o) ∧ R s' t'

theorem Simulates.run {R : σ → τ → Prop} (hsim : Simulates M A R) {s₀ s : σ} {t₀ : τ}
    {tr : List (Entry σ α β)} (hinit : R s₀ t₀) (hrun : M.Run s₀ tr s)
    : ∃ tr' t, A.Run t₀ tr' t ∧ R s t ∧ inputs tr' = inputs tr ∧ outputs tr' = outputs tr := by
  induction hrun with
  | nil => exact ⟨[], t₀, .nil, hinit, rfl, rfl⟩
  | snoc _ hstep ih =>
    obtain ⟨tr', t, hrun', hrel, hin, hout⟩ := ih
    obtain ⟨t', hstep', hrel'⟩ := hsim _ _ _ _ _ hrel hstep
    refine ⟨_, t', .snoc hrun' hstep', hrel', ?_, ?_⟩
    . simp [hin]
    . simp [hout]

def map {α' β' : Type} (M : Machine σ α β) (f : α' → α) (g : β → β') : Machine σ α' β' where
  step s a := (M.step s (f a)).map fun (s', out) => (s', out.map g)

theorem Run.of_map {α' β' : Type} {f : α' → α} {g : β → β'} {s₀ s : σ}
    {tr : List (Entry σ α' β')} (hrun : (M.map f g).Run s₀ tr s)
    : ∃ tr', M.Run s₀ tr' s ∧ inputs tr' = (inputs tr).map f ∧ outputs tr = (outputs tr').map g := by
  induction hrun with
  | nil => exact ⟨[], .nil, rfl, rfl⟩
  | snoc _ hstep ih =>
    obtain ⟨tr', hrun', hin, hout⟩ := ih
    simp only [map, Option.map_eq_some_iff, Prod.mk.injEq] at hstep
    obtain ⟨⟨s', out⟩, hstep', rfl, rfl⟩ := hstep
    refine ⟨_, .snoc hrun' hstep', ?_, ?_⟩
    . simp [hin]
    . simp [hout]

/--
A machine that is part of another one: seen through `f`, every step of the whole is a step of the part,
or it leaves the part alone.
-/
theorem Run.part {γ : Type} {A : Machine τ γ β} (view : σ → τ)
    (f : Entry σ α β → Option (Entry τ γ β))
    (hstep : ∀ s a s' o, M.step s a = some (s', o) →
      (∃ b, f ⟨s, a, o, s'⟩ = some ⟨view s, b, o, view s'⟩ ∧ A.step (view s) b = some (view s', o))
        ∨ f ⟨s, a, o, s'⟩ = none ∧ view s' = view s)
    {s₀ s : σ} {tr : List (Entry σ α β)} (hrun : M.Run s₀ tr s)
    : A.Run (view s₀) (tr.filterMap f) (view s) := by
  induction hrun with
  | nil => exact .nil
  | snoc hrun hs ih =>
    rw [List.filterMap_append]
    rcases hstep _ _ _ _ hs with ⟨b, hf, hb⟩ | ⟨hf, hview⟩
    . rw [List.filterMap_cons_some hf, List.filterMap_nil]
      exact .snoc ih hb
    . rw [List.filterMap_cons_none hf, List.filterMap_nil, List.append_nil, hview]
      exact ih

def exec (M : Machine σ α β) (s : σ) : List α → Option (List (Entry σ α β) × σ)
  | [] => some ([], s)
  | a :: as =>
    match M.step s a with
    | none => none
    | some (s', o) =>
      match exec M s' as with
      | none => none
      | some (tr, s'') => some (⟨s, a, o, s'⟩ :: tr, s'')

theorem Run.trans {s₀ s₁ s₂ : σ} {tr₁ tr₂ : List (Entry σ α β)} (h₁ : M.Run s₀ tr₁ s₁)
    (h₂ : M.Run s₁ tr₂ s₂)
    : M.Run s₀ (tr₁ ++ tr₂) s₂ := by
  induction h₂ with
  | nil => simpa using h₁
  | snoc _ hstep ih =>
    rw [← List.append_assoc]
    exact .snoc ih hstep

/-- Some run leads from `s` to `s'`. -/
def Reaches (M : Machine σ α β) (s s' : σ) : Prop := ∃ tr, M.Run s tr s'

namespace Reaches

theorem refl (s : σ) : M.Reaches s s := ⟨[], .nil⟩

theorem trans {s s' s'' : σ} (h₁ : M.Reaches s s') (h₂ : M.Reaches s' s'') : M.Reaches s s'' := by
  obtain ⟨tr₁, hrun₁⟩ := h₁
  obtain ⟨tr₂, hrun₂⟩ := h₂
  exact ⟨tr₁ ++ tr₂, hrun₁.trans hrun₂⟩

theorem of_step {s s' : σ} {a : α} {o : List β} (hstep : M.step s a = some (s', o)) : M.Reaches s s' :=
  ⟨_, .snoc .nil hstep⟩

theorem invariant {I : σ → Prop} (hkeep : ∀ s a s' o, I s → M.step s a = some (s', o) → I s')
    {s s' : σ} (h : M.Reaches s s') (hI : I s)
    : I s' := by
  obtain ⟨tr, hrun⟩ := h
  apply hrun.invariant (I := fun _ s => I s) hI
  exact fun _ => hkeep

/-- What some steps bring closer as long as it does not hold can be reached. -/
theorem of_progress {I Q : σ → Prop} [DecidablePred Q] (m : σ → Nat)
    (hprogress : ∀ s, I s → ¬ Q s → ∃ s', M.Reaches s s' ∧ I s' ∧ (Q s' ∨ m s' < m s)) {s : σ}
    (hI : I s)
    : ∃ s', M.Reaches s s' ∧ I s' ∧ Q s' := by
  induction hm : m s using Nat.strongRecOn generalizing s with
  | ind n ih =>
    if hQ : Q s then
      exact ⟨s, refl s, hI, hQ⟩
    else
      obtain ⟨s₁, hreaches₁, hI₁, hcases⟩ := hprogress s hI hQ
      cases hcases with
      | inl hQ₁ => exact ⟨s₁, hreaches₁, hI₁, hQ₁⟩
      | inr hlt =>
        rw [hm] at hlt
        obtain ⟨s₂, hreaches₂, hI₂, hQ₂⟩ := ih _ hlt hI₁ rfl
        exact ⟨s₂, hreaches₁.trans hreaches₂, hI₂, hQ₂⟩

end Reaches

theorem run_of_exec {s s' : σ} {as : List α} {tr : List (Entry σ α β)}
    (h : M.exec s as = some (tr, s'))
    : M.Run s tr s' := by
  induction as generalizing s tr with
  | nil =>
    simp only [exec, Option.some.injEq, Prod.mk.injEq] at h
    obtain ⟨rfl, rfl⟩ := h
    exact .nil
  | cons a as ih =>
    simp only [exec] at h
    split at h
    . simp at h
    . next s₁ o hstep =>
      split at h
      . simp at h
      . next tr₁ s₂ hexec =>
        simp only [Option.some.injEq, Prod.mk.injEq] at h
        obtain ⟨rfl, rfl⟩ := h
        exact Run.trans (.snoc .nil hstep) (ih hexec)

theorem inputs_of_exec {s s' : σ} {as : List α} {tr : List (Entry σ α β)}
    (h : M.exec s as = some (tr, s'))
    : inputs tr = as := by
  induction as generalizing s tr with
  | nil =>
    simp only [exec, Option.some.injEq, Prod.mk.injEq] at h
    rw [← h.1]
    rfl
  | cons a as ih =>
    simp only [exec] at h
    split at h
    . simp at h
    . split at h
      . simp at h
      . next tr₁ s₂ hexec =>
        simp only [Option.some.injEq, Prod.mk.injEq] at h
        obtain ⟨rfl, rfl⟩ := h
        simpa [inputs] using ih hexec

theorem exists_run {s : σ} {as : List α} {p : List (Entry σ α β) × σ → Prop} [DecidablePred p]
    (h : (M.exec s as).any (fun r => p r) = true)
    : ∃ tr s', M.Run s tr s' ∧ inputs tr = as ∧ p (tr, s') := by
  obtain ⟨⟨tr, s'⟩, hexec, hp⟩ := (Option.any_eq_true ..).mp h
  rw [decide_eq_true_iff] at hp
  exact ⟨tr, s', run_of_exec hexec, inputs_of_exec hexec, hp⟩

end Machine
