import Sircond.Lib.Logged
import Mathlib.Data.List.Basic
import Mathlib.Data.List.Infix
import Mathlib.Data.List.TakeWhile
import Mathlib.Data.Option.Basic

/-!
This module contains the searches of the C library in a string that is not known to end inside the
bytes it is meant to be in: what they may read, and what they find as long as they stay inside.

A search reads one byte after the other from a memory. Its bound is where the string ends at the
latest. For each search there is one in the known bytes only, which is `none` if it leaves them.
-/

namespace CString

abbrev Search := Logged (Nat → UInt8) Nat

def read (pos : Nat) : Search UInt8 := Logged.ask (fun mem => mem pos) pos

def span (p : UInt8 → Bool) : Nat → Nat → Search (List UInt8 × Nat)
  | 0, pos => pure ([], pos)
  | limit + 1, pos => do
    let b ← read pos
    if p b then
      let (bs, stop) ← span p limit (pos + 1)
      return (b :: bs, stop)
    else
      return ([], pos)

/-- Where the needle is found first. -/
def find (needle s : List UInt8) : Option Nat := s.tails.findIdx? fun t => needle <+: t

/--
The C function takes a string. It may look at all of it, up to the zero that ends it, wherever the
needle is.
-/
def strstr (needle : List UInt8) (limit pos : Nat) : Search (Option Nat) := do
  let (str, _) ← span (fun b => b ≠ 0) limit pos
  return (find needle str).map fun k => pos + k

/--
The next token and the position where the search for the one after it begins. The delimiter behind the
token is overwritten with zero, so a string that begins with the token is the token.
-/
def strtok (delims : List UInt8) (limit pos : Nat) : Search (Option (List UInt8 × Nat)) := do
  let (_, start) ← span (fun b => b ∈ delims) limit pos
  let b ← read start
  if b = 0 then
    return none
  else
    let (token, stop) ← span (fun b => b ≠ 0 ∧ b ∉ delims) limit start
    let b ← read stop
    return some (token, if b = 0 then stop else stop + 1)

section Within

def spanIn (p : UInt8 → Bool) : List UInt8 → Option (List UInt8 × List UInt8)
  | [] => none
  | b :: s => if p b then (spanIn p s).map fun r => (b :: r.1, r.2) else some ([], b :: s)

def strstrIn (needle s : List UInt8) : Option (Option (List UInt8)) := do
  let (str, _) ← spanIn (fun b => b ≠ 0) s
  return (find needle str).map fun k => s.drop k

def strtokIn (delims s : List UInt8) : Option (Option (List UInt8 × List UInt8)) := do
  let (_, s) ← spanIn (fun b => b ∈ delims) s
  let b ← s.head?
  if b = 0 then
    return none
  else
    let (token, s) ← spanIn (fun b => b ≠ 0 ∧ b ∉ delims) s
    let b ← s.head?
    return some (token, if b = 0 then s else s.tail)

end Within

theorem find_eq_some {needle s : List UInt8} {k : Nat} (h : find needle s = some k)
    : k + needle.length ≤ s.length ∧ needle <+: s.drop k := by
  unfold find at h
  rw [List.findIdx?_eq_some_iff_getElem] at h
  obtain ⟨hk, hfound, -⟩ := h
  have hpre : needle <+: s.drop k := by simpa using hfound
  refine ⟨?_, hpre⟩
  have hle := hpre.length_le
  rw [List.length_drop] at hle
  rw [List.length_tails] at hk
  omega

theorem isSome_find_iff {needle s : List UInt8} : (find needle s).isSome = true ↔ needle <:+: s := by
  unfold find
  rw [List.findIdx?_isSome, List.any_eq_true, List.infix_iff_prefix_suffix]
  simp only [List.mem_tails, decide_eq_true_eq]
  constructor
  . rintro ⟨t, hsuffix, hpre⟩
    exact ⟨t, hpre, hsuffix⟩
  . rintro ⟨t, hpre, hsuffix⟩
    exact ⟨t, hsuffix, hpre⟩

theorem spanIn_eq (p : UInt8 → Bool) (s : List UInt8)
    : spanIn p s = if s.dropWhile p = [] then none else some (s.takeWhile p, s.dropWhile p) := by
  induction s with
  | nil => simp [spanIn]
  | cons b s ih =>
    unfold spanIn
    by_cases hb : p b = true
    . rw [if_pos hb, ih, List.dropWhile_cons_of_pos hb, List.takeWhile_cons_of_pos hb]
      split <;> rfl
    . rw [if_neg hb, List.dropWhile_cons_of_neg hb, List.takeWhile_cons_of_neg hb]
      simp

/--
The bytes from a position on, up to the end of the known ones.
-/
structure Points (mem : Nat → UInt8) (n pos : Nat) (s : List UInt8) : Prop where
  holds : ∀ i (h : i < s.length), mem (pos + i) = s[i]
  ends : pos + s.length = n

/-- The bytes from a position on, up to the limit of a search. -/
def bytes (mem : Nat → UInt8) (limit pos : Nat) : List UInt8 :=
  (List.range limit).map fun i => mem (pos + i)

theorem value_span (p : UInt8 → Bool) (mem : Nat → UInt8) (limit : Nat)
    : ∀ pos, ((span p limit pos).value mem).1 = (bytes mem limit pos).takeWhile p := by
  induction limit with
  | zero =>
    intro pos
    rfl
  | succ limit ih =>
    intro pos
    have hbytes : bytes mem (limit + 1) pos = mem pos :: bytes mem limit (pos + 1) := by
      simp [bytes, List.range_succ_eq_map, Nat.add_comm, Nat.add_left_comm]
    have hread : (read pos).value mem = mem pos := rfl
    unfold span
    rw [hbytes, Logged.value_bind, hread]
    by_cases hp : p (mem pos) = true
    . rw [if_pos hp, List.takeWhile_cons_of_pos hp, ← ih]
      rfl
    . rw [if_neg hp, List.takeWhile_cons_of_neg hp]
      rfl

theorem isSome_value_strstr (needle : List UInt8) (mem : Nat → UInt8) (limit pos : Nat)
    : ((strstr needle limit pos).value mem).isSome = true
        ↔ needle <:+: (bytes mem limit pos).takeWhile fun b => b ≠ 0 := by
  have hvalue : (strstr needle limit pos).value mem
      = (find needle ((span (fun b => b ≠ 0) limit pos).value mem).1).map fun k => pos + k := rfl
  rw [hvalue, Option.isSome_map, isSome_find_iff, value_span]

/--
The search stays inside the known bytes and finds what it finds there, or it leaves them.
-/
def Agrees {α β : Type} (mem : Nat → UInt8) (n : Nat) (R : α → β → Prop) (m : Search α) (o : Option β)
    : Prop :=
  match o with
  | none => ¬ m.All (fun pos => pos < n) mem
  | some b => m.All (fun pos => pos < n) mem ∧ R (m.value mem) b

section Agrees

variable {α β α' β' : Type} {mem : Nat → UInt8} {n : Nat} {R : α → β → Prop} {R' : α' → β' → Prop}

theorem agrees_pure {a : α} {b : β} (h : R a b) : Agrees mem n R (pure a) (pure b) :=
  ⟨Logged.all_pure a, h⟩

theorem Agrees.bind {m : Search α} {o : Option β} {f : α → Search α'} {g : β → Option β'}
    (h : Agrees mem n R m o)
    (hf : ∀ a b, o = some b → R a b → Agrees mem n R' (f a) (g b))
    : Agrees mem n R' (m >>= f) (o >>= g) := by
  cases o with
  | none =>
    intro hall
    rw [Logged.all_bind] at hall
    exact h hall.1
  | some b =>
    obtain ⟨hall, hvalue⟩ := h
    have hrest := hf _ b rfl hvalue
    change Agrees mem n R' (m >>= f) (g b)
    cases hg : g b with
    | none =>
      rw [hg] at hrest
      intro hall'
      rw [Logged.all_bind] at hall'
      exact hrest hall'.2
    | some b' =>
      rw [hg] at hrest
      refine ⟨?_, hrest.2⟩
      rw [Logged.all_bind]
      exact ⟨hall, hrest.1⟩

theorem Points.tail {pos : Nat} {b : UInt8} {s : List UInt8} (h : Points mem n pos (b :: s))
    : Points mem n (pos + 1) s where
  holds i hi := by
    have := h.holds (i + 1) (by simpa using hi)
    rw [← Nat.add_assoc, Nat.add_right_comm] at this
    simpa using this
  ends := by
    have := h.ends
    rw [List.length_cons] at this
    omega

theorem Points.head {pos : Nat} {b : UInt8} {s : List UInt8} (h : Points mem n pos (b :: s))
    : mem pos = b :=
  h.holds 0 (by simp)

theorem Points.drop {pos k : Nat} {s : List UInt8} (h : Points mem n pos s) (hk : k ≤ s.length)
    : Points mem n (pos + k) (s.drop k) where
  holds i hi := by
    rw [List.length_drop] at hi
    rw [List.getElem_drop, Nat.add_assoc]
    apply h.holds
  ends := by
    have hends := h.ends
    rw [List.length_drop]
    omega

theorem agrees_read_nil {pos : Nat} (h : Points mem n pos []) (f : UInt8 → Search α)
    : Agrees (β := β) mem n R (read pos >>= f) none := by
  intro hall
  rw [Logged.all_bind] at hall
  have hlt := (Logged.all_ask ..).mp hall.1
  have hends := h.ends
  simp only [List.length_nil] at hends
  omega

theorem agrees_read_cons {pos : Nat} {b : UInt8} {s : List UInt8} {f : UInt8 → Search α}
    {o : Option β} (h : Points mem n pos (b :: s)) (hf : Agrees mem n R (f b) o)
    : Agrees mem n R (read pos >>= f) o := by
  have hends := h.ends
  rw [List.length_cons] at hends
  have hread : Agrees mem n (fun a (_ : Unit) => a = b) (read pos) (some ()) :=
    ⟨(Logged.all_ask ..).mpr (by omega), h.head⟩
  apply hread.bind (g := fun _ => o)
  rintro a - - rfl
  exact hf

theorem Agrees.ite {c : Prop} [Decidable c] {m₁ m₂ : Search α} {o₁ o₂ : Option β}
    (hpos : c → Agrees mem n R m₁ o₁) (hneg : ¬ c → Agrees mem n R m₂ o₂)
    : Agrees mem n R (if c then m₁ else m₂) (if c then o₁ else o₂) := by
  by_cases h : c
  . rw [if_pos h, if_pos h]
    apply hpos h
  . rw [if_neg h, if_neg h]
    apply hneg h

theorem agrees_span (p : UInt8 → Bool) {s : List UInt8}
    : ∀ {limit pos : Nat}, Points mem n pos s → s.length < limit →
        Agrees mem n (fun a b => a.1 = b.1 ∧ Points mem n a.2 b.2) (span p limit pos) (spanIn p s) := by
  induction s with
  | nil =>
    intro limit pos h hlimit
    obtain ⟨limit, rfl⟩ := Nat.exists_eq_add_one_of_ne_zero (Nat.ne_zero_of_lt hlimit)
    apply agrees_read_nil h
  | cons b s ih =>
    intro limit pos h hlimit
    obtain ⟨limit, rfl⟩ := Nat.exists_eq_add_one_of_ne_zero (Nat.ne_zero_of_lt hlimit)
    apply agrees_read_cons h
    refine .ite (fun _ => ?_) fun _ => ?_
    . rw [Option.map_eq_bind]
      apply (ih h.tail (Nat.lt_of_succ_lt_succ hlimit)).bind
      rintro r r' - ⟨hbytes, hstop⟩
      exact agrees_pure ⟨by rw [hbytes], hstop⟩
    . exact agrees_pure ⟨rfl, h⟩

theorem agrees_strstr (needle : List UInt8) {limit pos : Nat} {s : List UInt8}
    (h : Points mem n pos s) (hlimit : s.length < limit)
    : Agrees mem n (Option.Rel fun a b => Points mem n a b ∧ needle <+: b) (strstr needle limit pos)
        (strstrIn needle s) := by
  apply (agrees_span _ h hlimit).bind
  rintro ⟨str, _⟩ ⟨_, _⟩ hspan ⟨rfl, -⟩
  rw [spanIn_eq] at hspan
  have hstr : str <+: s := by
    split at hspan
    . simp at hspan
    . obtain ⟨rfl, -⟩ := Prod.mk.inj (Option.some.inj hspan)
      apply List.takeWhile_prefix
  refine agrees_pure ?_
  dsimp only
  cases hfind : find needle str with
  | none => exact .none
  | some k =>
    obtain ⟨hle, hpre⟩ := find_eq_some hfind
    have hlength := hstr.length_le
    exact .some ⟨h.drop (by omega), hpre.trans (hstr.drop k)⟩

theorem agrees_strtok (delims : List UInt8) {limit pos : Nat} {s : List UInt8}
    (h : Points mem n pos s) (hlimit : n < limit)
    : Agrees mem n (Option.Rel fun a b => a.1 = b.1 ∧ Points mem n a.2 b.2)
        (strtok delims limit pos) (strtokIn delims s) := by
  have hbound : ∀ {pos : Nat} {s : List UInt8}, Points mem n pos s → s.length < limit := by
    intro pos s h
    have hends := h.ends
    omega
  apply (agrees_span _ h (hbound h)).bind
  rintro ⟨_, start⟩ ⟨_, s₁⟩ - ⟨-, hstart⟩
  cases s₁ with
  | nil => exact agrees_read_nil hstart _
  | cons b s₁ =>
    apply agrees_read_cons hstart
    refine .ite (fun _ => agrees_pure .none) fun _ => ?_
    apply (agrees_span _ hstart (hbound hstart)).bind
    rintro ⟨token, stop⟩ ⟨_, s₂⟩ - ⟨rfl, hstop⟩
    cases s₂ with
    | nil => exact agrees_read_nil hstop _
    | cons b' s₂ =>
      apply agrees_read_cons hstop
      refine agrees_pure (.some ⟨rfl, ?_⟩)
      by_cases hzero : b' = 0
      . simp only [hzero, if_true] at hstop ⊢
        exact hstop
      . simp only [hzero, if_false]
        exact hstop.tail

end Agrees

section Within

variable {delims s : List UInt8}

theorem mem_dropWhile {p : UInt8 → Bool} {b : UInt8} (h : b ∈ s) (hb : p b = false)
    : b ∈ s.dropWhile p := by
  rw [← List.takeWhile_append_dropWhile (p := p) (l := s), List.mem_append] at h
  cases h with
  | inl h =>
    have := List.mem_takeWhile_imp h
    simp [hb] at this
  | inr h => exact h

theorem exists_cons_of_zero_mem_dropWhile {p : UInt8 → Bool} (h : 0 ∈ s) (hzero : p 0 = false)
    : ∃ b t, s.dropWhile p = b :: t ∧ p b = false ∧ 0 ∈ b :: t := by
  have hmem := mem_dropWhile h hzero
  cases hdrop : s.dropWhile p with
  | nil => simp [hdrop] at hmem
  | cons b t =>
    refine ⟨b, t, rfl, ?_, by rw [← hdrop]; exact hmem⟩
    have hhead := List.head_dropWhile_not p (l := s) (by simp [hdrop])
    simpa [hdrop] using hhead

theorem isSome_strstrIn_iff (needle s : List UInt8)
    : (strstrIn needle s).isSome = true ↔ 0 ∈ s := by
  unfold strstrIn
  rw [spanIn_eq]
  by_cases hzero : 0 ∈ s
  . obtain ⟨b, t, hdrop, -⟩ :=
      exists_cons_of_zero_mem_dropWhile (p := fun b => b ≠ 0) hzero (by simp)
    rw [hdrop, if_neg (by simp)]
    simp [hzero]
  . have hdrop : s.dropWhile (fun b => b ≠ 0) = [] := by
      rw [List.dropWhile_eq_nil_iff]
      intro b hb
      rw [decide_eq_true_eq]
      rintro rfl
      exact hzero hb
    rw [if_pos hdrop]
    simp [hzero]

/--
A string that ends inside the bytes still ends inside them behind what was found.
-/
theorem zero_mem_of_strstrIn {needle t : List UInt8} (hs : 0 ∈ s)
    (h : strstrIn needle s = some (some t))
    : 0 ∈ t.drop needle.length := by
  unfold strstrIn at h
  obtain ⟨b, rest, hdrop, hb, -⟩ :=
    exists_cons_of_zero_mem_dropWhile (p := fun b => b ≠ 0) hs (by simp)
  obtain rfl : b = 0 := by simpa using hb
  rw [spanIn_eq, hdrop, if_neg (by simp)] at h
  simp only [Option.bind_eq_bind, Option.bind_some, Option.pure_def, Option.some.injEq,
    Option.map_eq_some_iff] at h
  obtain ⟨k, hfind, rfl⟩ := h
  obtain ⟨hle, -⟩ := find_eq_some hfind
  rw [List.drop_drop, ← List.takeWhile_append_dropWhile (p := fun b => b ≠ 0) (l := s), hdrop,
    List.drop_append_of_le_length hle]
  simp

theorem strtokIn_cons {b : UInt8} {t : List UInt8}
    (h : s.dropWhile (fun b => b ∈ delims) = b :: t)
    : strtokIn delims s
        = if b = 0 then
            some none
          else
            (spanIn (fun b => b ≠ 0 ∧ b ∉ delims) (b :: t)).bind fun r =>
              r.2.head?.bind fun b => some (some (r.1, if b = 0 then r.2 else r.2.tail)) := by
  unfold strtokIn
  rw [spanIn_eq, h]
  rfl

/--
In a string that ends inside the bytes the search for a token stays inside, and so does the next one.
-/
theorem strtokIn_of_zero_mem (hdelims : 0 ∉ delims) (hs : 0 ∈ s)
    : strtokIn delims s = some none
        ∨ ∃ token rest, strtokIn delims s = some (some (token, rest)) ∧ 0 ∈ rest := by
  obtain ⟨b, t, hstart, -, hzero⟩ :=
    exists_cons_of_zero_mem_dropWhile (p := fun b => b ∈ delims) hs (by simpa using hdelims)
  rw [strtokIn_cons hstart]
  by_cases hb : b = 0
  . left
    rw [if_pos hb]
  . right
    obtain ⟨b', t', hstop, -, hzero'⟩ :=
      exists_cons_of_zero_mem_dropWhile (p := fun b => b ≠ 0 ∧ b ∉ delims) hzero (by simp)
    rw [if_neg hb, spanIn_eq, hstop, if_neg (by simp)]
    refine ⟨_, _, rfl, ?_⟩
    by_cases hb' : b' = 0
    . simp [hb']
    . simpa [hb', Ne.symm hb'] using hzero'

end Within

end CString
