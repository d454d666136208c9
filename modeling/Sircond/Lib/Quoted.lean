import Mathlib.Data.List.Basic
import Mathlib.Data.List.Infix
import Mathlib.Data.List.Induction

/-!
This module contains fields that stand in one text, each in quotes and with a comma in between: a
quote `q`, a comma `c` and a quote separate two of them. The fields may contain quotes and commas
themselves, so that the text can be cut into the same number of fields in more than one way.
-/

namespace Quoted

variable {α : Type} (q c : α)

def separator : List α := [q, c, q]

def join (fs : List (List α)) : List α := List.intercalate (separator q c) fs

/--
No field contains a separator, and none makes up one with a part of the separator next to it.
-/
structure Clean (fs : List (List α)) : Prop where
  inside : ∀ f ∈ fs, ¬ separator q c <:+: f
  left : ∀ f ∈ fs.dropLast, ¬ [q, c] <:+ f
  right : ∀ f ∈ fs.tail, ¬ [c, q] <+: f

instance [DecidableEq α] (fs : List (List α)) : Decidable (Clean q c fs) :=
  decidable_of_iff
    ((∀ f ∈ fs, ¬ separator q c <:+: f) ∧ (∀ f ∈ fs.dropLast, ¬ [q, c] <:+ f)
      ∧ ∀ f ∈ fs.tail, ¬ [c, q] <+: f)
    ⟨fun h => ⟨h.1, h.2.1, h.2.2⟩, fun h => ⟨h.inside, h.left, h.right⟩⟩

variable {q c}

section Join

theorem join_singleton (f : List α) : join q c [f] = f := List.intercalate_singleton

theorem join_cons (f : List α) {fs : List (List α)} (hne : fs ≠ [])
    : join q c (f :: fs) = f ++ (separator q c ++ join q c fs) := by
  unfold join
  rw [List.intercalate_cons_of_ne_nil hne, List.append_assoc]

theorem join_concat {fs : List (List α)} (hne : fs ≠ []) (f : List α)
    : join q c (fs ++ [f]) = join q c fs ++ (separator q c ++ f) := by
  induction fs with
  | nil => exact absurd rfl hne
  | cons g fs ih =>
    rw [List.cons_append, join_cons g (by simp)]
    cases fs with
    | nil => simp [join_singleton]
    | cons g' fs => rw [ih (by simp), join_cons g (by simp), List.append_assoc, List.append_assoc]

/--
Two fields next to each other are one field with a separator in it.
-/
theorem join_pair (l : List (List α)) (x y : List α) (r : List (List α))
    : join q c (l ++ x :: y :: r) = join q c (l ++ (x ++ separator q c ++ y) :: r) := by
  induction l with
  | nil =>
    rw [List.nil_append, List.nil_append, join_cons x (by simp)]
    cases r with
    | nil => simp [join_singleton]
    | cons z r => simp [join_cons]
  | cons f l ih => rw [List.cons_append, List.cons_append, join_cons f (by simp), ih,
      join_cons f (by simp)]

theorem length_join {fs : List (List α)} (hne : fs ≠ [])
    : (join q c fs).length + 3 = fs.flatten.length + 3 * fs.length := by
  induction fs with
  | nil => exact absurd rfl hne
  | cons f fs ih =>
    cases fs with
    | nil => simp [join_singleton]
    | cons g fs =>
      have hlength := ih (by simp)
      rw [join_cons f (by simp), List.flatten_cons, List.length_append, List.length_append,
        List.length_append, List.length_cons]
      simp only [separator, List.length_cons, List.length_nil] at hlength ⊢
      omega

theorem mem_join_iff {x : α} (hq : x ≠ q) (hc : x ≠ c) (fs : List (List α))
    : x ∈ join q c fs ↔ ∃ f ∈ fs, x ∈ f := by
  induction fs with
  | nil => simp [join]
  | cons f fs ih =>
    cases fs with
    | nil => simp [join_singleton]
    | cons g fs =>
      rw [join_cons f (by simp), List.mem_append, List.mem_append, ih]
      simp [separator, hq, hc]

end Join

section Unique

/--
The first separator behind a field that does not make one up is the one that ends the field.
-/
theorem length_le_of_left (hne : q ≠ c) {f a y z : List α} (hinside : ¬ separator q c <:+: f)
    (hleft : ¬ [q, c] <:+ f) (h : f ++ (separator q c ++ z) = a ++ (separator q c ++ y))
    : f.length ≤ a.length := by
  rw [List.append_eq_append_iff] at h
  cases h with
  | inl h =>
    obtain ⟨a', rfl, -⟩ := h
    simp
  | inr h =>
    obtain ⟨f', rfl, heq⟩ := h
    rcases f' with _ | ⟨x₁, _ | ⟨x₂, _ | ⟨x₃, rest⟩⟩⟩
    . simp
    . simp only [separator, List.cons_append, List.cons.injEq] at heq
      obtain ⟨rfl, rfl, -⟩ := heq
      exact absurd rfl hne
    . simp only [separator, List.cons_append, List.cons.injEq] at heq
      obtain ⟨rfl, rfl, -⟩ := heq
      exact absurd (List.suffix_append a _) hleft
    . simp only [separator, List.cons_append, List.cons.injEq] at heq
      obtain ⟨rfl, rfl, rfl, -⟩ := heq
      exact absurd ⟨a, rest, by simp [separator]⟩ hinside

theorem length_le_of_right (hne : q ≠ c) {f a y z : List α} (hinside : ¬ separator q c <:+: f)
    (hright : ¬ [c, q] <+: f) (h : z ++ (separator q c ++ f) = y ++ (separator q c ++ a))
    : f.length ≤ a.length := by
  have hreverse : f.reverse ++ (separator q c ++ z.reverse)
      = a.reverse ++ (separator q c ++ y.reverse) := by
    have hpalindrome : (separator q c).reverse = separator q c := rfl
    have := congrArg List.reverse h
    simpa [hpalindrome] using this
  have hle : f.reverse.length ≤ a.reverse.length := by
    apply length_le_of_left hne _ _ hreverse
    . intro hin
      apply hinside
      rw [← List.reverse_infix]
      exact hin
    . intro hsuffix
      apply hright
      rw [← List.reverse_suffix]
      exact hsuffix
  simpa using hle

/--
If all fields before the last one end where they seem to end, the last field starts there or before
it in any other way to cut the text.
-/
theorem length_last_le (hne : q ≠ c) {fs : List (List α)} (f g : List α)
    (hinside : ∀ x ∈ fs, ¬ separator q c <:+: x) (hleft : ∀ x ∈ fs, ¬ [q, c] <:+ x)
    : ∀ (d : List α) (gs : List (List α)), gs.length = fs.length →
        d ++ join q c (gs ++ [g]) = join q c (fs ++ [f]) → g.length ≤ f.length := by
  induction fs with
  | nil =>
    intro d gs hlen h
    obtain rfl := List.eq_nil_of_length_eq_zero hlen
    rw [List.nil_append, List.nil_append, join_singleton, join_singleton] at h
    rw [← h, List.length_append]
    omega
  | cons x fs ih =>
    intro d gs hlen h
    obtain ⟨y, gs, rfl⟩ := List.exists_cons_of_length_eq_add_one hlen
    rw [List.cons_append, List.cons_append, join_cons y (by simp), join_cons x (by simp),
      ← List.append_assoc] at h
    simp only [List.mem_cons, forall_eq_or_imp] at hinside hleft
    have hle := length_le_of_left hne hinside.1 hleft.1 h.symm
    have hpre : x <+: d ++ y :=
      List.prefix_of_prefix_length_le ⟨_, rfl⟩ ⟨_, h⟩ hle
    obtain ⟨e, he⟩ := hpre
    rw [← he, List.append_assoc, List.append_cancel_left_eq] at h
    apply ih hinside.2 hleft.2 ((e ++ separator q c).drop 3) gs (by simpa using hlen)
    have hdrop := congrArg (List.drop 3) h
    rw [← List.append_assoc, List.drop_append_of_le_length (by simp [separator])] at hdrop
    simpa [separator] using hdrop

/--
A text of clean fields can be cut into as many fields in no other way.
-/
theorem join_inj (hne : q ≠ c) {fs : List (List α)} (hclean : Clean q c fs)
    : ∀ {gs : List (List α)}, gs.length = fs.length → join q c gs = join q c fs → gs = fs := by
  induction fs using List.reverseRecOn with
  | nil =>
    intro gs hlen _
    exact List.eq_nil_of_length_eq_zero hlen
  | append_singleton fs f ih =>
    intro gs hlen h
    obtain ⟨gs, g, rfl⟩ : ∃ gs' g, gs = gs' ++ [g] := by
      rcases List.eq_nil_or_concat' gs with rfl | hconcat
      . simp at hlen
      . exact hconcat
    have hlen' : gs.length = fs.length := by simpa using hlen
    have hinside : ∀ x ∈ fs, ¬ separator q c <:+: x := fun x hx =>
      hclean.inside x (List.mem_append_left _ hx)
    have hleft : ∀ x ∈ fs, ¬ [q, c] <:+ x := by simpa using hclean.left
    rcases List.eq_nil_or_concat' fs with rfl | ⟨init, last, hfs⟩
    . obtain rfl := List.eq_nil_of_length_eq_zero hlen'
      simpa [join_singleton] using h
    . have hne_fs : fs ≠ [] := by simp [hfs]
      have hne_gs : gs ≠ [] := by
        rintro rfl
        simp [hfs] at hlen'
      have hle : g.length ≤ f.length :=
        length_last_le hne f g hinside hleft [] gs hlen' (by rw [List.nil_append, h])
      rw [join_concat hne_gs, join_concat hne_fs] at h
      have hge : f.length ≤ g.length := by
        apply length_le_of_right hne _ _ h.symm
        . apply hclean.inside
          simp
        . apply hclean.right
          simp [List.tail_append_of_ne_nil hne_fs]
      rw [← List.append_assoc, ← List.append_assoc] at h
      obtain ⟨hinit, rfl⟩ := List.append_inj' h (by omega)
      rw [List.append_left_inj] at hinit
      have hclean' : Clean q c fs := {
        inside := hinside
        left := fun x hx => hleft x (List.mem_of_mem_dropLast hx)
        right := by
          intro x hx
          apply hclean.right
          rw [List.tail_append_of_ne_nil hne_fs]
          exact List.mem_append_left _ hx
      }
      rw [ih hclean' hlen' hinit]

end Unique

section Ambiguous

theorem ne_of_length_ne {l r r' : List (List α)} {x x' : List α} (h : x'.length ≠ x.length)
    : l ++ x' :: r' ≠ l ++ x :: r := by
  rintro heq
  rw [List.append_cancel_left_eq, List.cons.injEq] at heq
  apply h
  rw [heq.1]

theorem exists_join_eq {l r : List (List α)} {x y : List α} (x' y' : List α)
    (h : x' ++ separator q c ++ y' = x ++ separator q c ++ y) (hlen : x'.length ≠ x.length)
    : ∃ gs, gs.length = (l ++ x :: y :: r).length
        ∧ join q c gs = join q c (l ++ x :: y :: r) ∧ gs ≠ l ++ x :: y :: r := by
  refine ⟨l ++ x' :: y' :: r, ?_, ?_, ne_of_length_ne hlen⟩
  . simp
  . rw [join_pair, h, ← join_pair]

theorem exists_concat_of_length {l r : List (List α)} {f : List α}
    (hlen : 2 ≤ (l ++ f :: r).length) (hr : r = [])
    : ∃ l' x, l = l' ++ [x] := by
  rcases List.eq_nil_or_concat' l with rfl | hconcat
  . simp [hr] at hlen
  . exact hconcat

theorem exists_join_eq_of_inside {fs : List (List α)} (hlen : 2 ≤ fs.length) {f : List α}
    (hmem : f ∈ fs) (hinside : separator q c <:+: f)
    : ∃ gs, gs.length = fs.length ∧ join q c gs = join q c fs ∧ gs ≠ fs := by
  obtain ⟨a, b, rfl⟩ := hinside
  obtain ⟨l, r, rfl⟩ := List.append_of_mem hmem
  cases r with
  | cons y r =>
    apply exists_join_eq a (b ++ separator q c ++ y)
    . simp
    . simp [separator]
  | nil =>
    obtain ⟨l, x, rfl⟩ := exists_concat_of_length hlen rfl
    rw [List.append_assoc, List.singleton_append]
    apply exists_join_eq (x ++ separator q c ++ a) b
    . simp
    . simp [separator]

theorem exists_join_eq_of_left {fs : List (List α)} {f : List α} (hmem : f ∈ fs.dropLast)
    (hleft : [q, c] <:+ f)
    : ∃ gs, gs.length = fs.length ∧ join q c gs = join q c fs ∧ gs ≠ fs := by
  obtain ⟨a, rfl⟩ := hleft
  rcases List.eq_nil_or_concat' fs with rfl | ⟨init, last, rfl⟩
  . simp at hmem
  . rw [List.dropLast_concat] at hmem
    obtain ⟨l, r, rfl⟩ := List.append_of_mem hmem
    obtain ⟨y, r, hr⟩ := List.exists_cons_of_ne_nil (show r ++ [last] ≠ [] by simp)
    rw [List.append_assoc, List.cons_append, hr]
    apply exists_join_eq a ([c, q] ++ y)
    . simp [separator]
    . simp

theorem exists_join_eq_of_right {fs : List (List α)} {f : List α} (hmem : f ∈ fs.tail)
    (hright : [c, q] <+: f)
    : ∃ gs, gs.length = fs.length ∧ join q c gs = join q c fs ∧ gs ≠ fs := by
  obtain ⟨b, rfl⟩ := hright
  cases fs with
  | nil => simp at hmem
  | cons head tail =>
    obtain ⟨l, r, htail⟩ := List.append_of_mem hmem
    obtain ⟨l, x, hl⟩ := (List.eq_nil_or_concat' (head :: l)).resolve_left (by simp)
    rw [List.tail_cons] at htail
    rw [htail, ← List.cons_append, hl, List.append_assoc, List.singleton_append]
    apply exists_join_eq (x ++ [q, c]) b
    . simp [separator]
    . simp

/--
A text of at least two fields that are not clean can be cut in another way.
-/
theorem exists_join_eq_of_not_clean {fs : List (List α)} (hlen : 2 ≤ fs.length)
    (hclean : ¬ Clean q c fs)
    : ∃ gs, gs.length = fs.length ∧ join q c gs = join q c fs ∧ gs ≠ fs := by
  by_contra hnone
  apply hclean
  refine ⟨?_, ?_, ?_⟩
  . intro f hmem hinside
    apply hnone (exists_join_eq_of_inside hlen hmem hinside)
  . intro f hmem hleft
    apply hnone (exists_join_eq_of_left hmem hleft)
  . intro f hmem hright
    apply hnone (exists_join_eq_of_right hmem hright)

end Ambiguous

end Quoted
