import Sircond.Util.Basic
import Sircond.Lib.Split

/-!
This module contains `StrTokenize` as the code has it, with the positions `begin` and `end` in the
string, and that it splits every string at its separator without losing anything.

The result `none` stands for an exception of `substr`, or for fuel that is used up: there is one unit
for every turn of the loop and one for leaving it.
-/

namespace StdString

def find.go (sub : List UInt8) (pos : Nat) : List UInt8 → Option Nat
  | [] => if sub.isEmpty then some pos else none
  | b :: str => if sub.isPrefixOf (b :: str) then some pos else go sub (pos + 1) str

def find (str sub : List UInt8) (pos : Nat) : Option Nat :=
  if pos ≤ str.length then find.go sub pos (str.drop pos) else none

def substr (str : List UInt8) (pos len : Nat) : Option (List UInt8) :=
  if pos ≤ str.length then some ((str.drop pos).take len) else none

theorem find_go_of_notMem {c : UInt8} {s : List UInt8} (h : c ∉ s)
    : ∀ pos, find.go [c] pos s = none := by
  induction s with
  | nil =>
    intro pos
    rfl
  | cons b s ih =>
    intro pos
    rw [List.mem_cons, not_or] at h
    unfold find.go
    rw [if_neg (by simpa using h.1)]
    apply ih h.2

theorem find_go_append {c : UInt8} {t : List UInt8} (h : c ∉ t) (s : List UInt8)
    : ∀ pos, find.go [c] pos (t ++ c :: s) = some (pos + t.length) := by
  induction t with
  | nil =>
    intro pos
    simp [find.go]
  | cons b t ih =>
    intro pos
    rw [List.mem_cons, not_or] at h
    rw [List.cons_append]
    unfold find.go
    rw [if_neg (by simpa using h.1), ih h.2, List.length_cons]
    congr 1
    omega

end StdString

namespace strTokenize

open StdString

def loop (inStr inSplit : List UInt8)
    : Nat → Nat → Option Nat → List (List UInt8) → Option (Nat × List (List UInt8))
  | 0, _, _, _ => none
  | _ + 1, beginPos, none, ret => some (beginPos, ret)
  | fuel + 1, beginPos, some endPos, ret => do
    let sub ← substr inStr beginPos (endPos - beginPos)
    let beginPos := endPos + 1
    let endPos := find inStr inSplit beginPos
    loop inStr inSplit fuel beginPos endPos (ret ++ [sub])

def run (fuel : Nat) (inStr inSplit : List UInt8) (returnPartial : Bool)
    : Option (List (List UInt8)) := do
  let endPos := find inStr inSplit 0
  if inStr.length = 0 then
    return []
  let (beginPos, ret) ← loop inStr inSplit fuel 0 endPos []
  if returnPartial && beginPos ≠ inStr.length then
    let sub ← substr inStr beginPos (inStr.length - beginPos)
    return ret ++ [sub]
  return ret

theorem go_cons_of_ne {c b : UInt8} (h : b ≠ c) (sub s : List UInt8)
    : go c true sub (b :: s) = go c true (sub ++ [b]) s := by
  apply if_neg h

theorem go_of_notMem {c : UInt8} {t : List UInt8} (h : c ∉ t)
    : ∀ sub, go c true sub t = if sub ++ t = [] then [] else [sub ++ t] := by
  induction t with
  | nil =>
    intro sub
    cases sub with
    | nil => rfl
    | cons b sub => simp [go]
  | cons b t ih =>
    intro sub
    rw [List.mem_cons, not_or] at h
    rw [go_cons_of_ne (Ne.symm h.1), ih h.2, List.append_assoc, List.singleton_append]

theorem go_append {c : UInt8} {t : List UInt8} (h : c ∉ t) (s : List UInt8)
    : ∀ sub, go c true sub (t ++ c :: s) = (sub ++ t) :: go c true [] s := by
  induction t with
  | nil =>
    intro sub
    simp [go]
  | cons b t ih =>
    intro sub
    rw [List.mem_cons, not_or] at h
    rw [List.cons_append, go_cons_of_ne (Ne.symm h.1), ih h.2, List.append_assoc,
      List.singleton_append]

theorem eq_of_split {c : UInt8} {s : List UInt8} {ts : List (List UInt8)} (h : Split c s ts)
    : strTokenize s c true = ts := by
  unfold strTokenize
  induction h with
  | nil => rfl
  | last hne hc =>
    rw [go_of_notMem hc, List.nil_append, if_neg hne]
  | cons hc hs ih =>
    rw [go_append hc, List.nil_append, ih]

theorem find_eq {c : UInt8} (front s : List UInt8)
    : find (front ++ s) [c] front.length = find.go [c] front.length s := by
  unfold find
  rw [if_pos (by simp), List.drop_left]

/--
The loop goes on from any position with the tokens of what is left of the string, but for a partial
one at its end.
-/
theorem loop_eq {c : UInt8} {s : List UInt8} {ts : List (List UInt8)} (h : Split c s ts)
    : ∀ (k : Nat) (front : List UInt8) (ret : List (List UInt8)),
        ∃ beginPos ret',
          loop (front ++ s) [c] (s.length + 1 + k) front.length
              (find (front ++ s) [c] front.length) ret
            = some (beginPos, ret')
          ∧ beginPos ≤ (front ++ s).length
          ∧ ret ++ ts
            = ret' ++ if beginPos = (front ++ s).length then [] else [(front ++ s).drop beginPos] := by
  induction h with
  | nil =>
    intro k front ret
    refine ⟨front.length, ret, ?_, ?_, ?_⟩
    . rw [find_eq, find_go_of_notMem (by simp), Nat.add_right_comm]
      rfl
    . simp
    . simp
  | @last t hne hc =>
    intro k front ret
    refine ⟨front.length, ret, ?_, ?_, ?_⟩
    . rw [find_eq, find_go_of_notMem hc, Nat.add_right_comm]
      rfl
    . simp
    . rw [List.drop_left, if_neg (by simp [hne])]
  | @cons t s ts hc hs ih =>
    intro k front ret
    have hfuel : (t ++ c :: s).length + 1 + k = (s.length + 1 + (t.length + k)) + 1 := by
      rw [List.length_append, List.length_cons]
      omega
    have hsub : substr (front ++ (t ++ c :: s)) front.length (front.length + t.length - front.length)
        = some t := by
      unfold substr
      rw [if_pos (by simp), List.drop_left, Nat.add_sub_cancel_left, List.take_left]
    have hfront : front ++ (t ++ c :: s) = (front ++ (t ++ [c])) ++ s := by simp
    have hpos : front.length + t.length + 1 = (front ++ (t ++ [c])).length := by
      simp only [List.length_append, List.length_singleton]
      omega
    rcases ih (t.length + k) (front ++ (t ++ [c])) (ret ++ [t]) with ⟨p, ret', hloop, hle, hret⟩
    refine ⟨p, ret', ?_, ?_, ?_⟩
    . rw [find_eq, find_go_append hc, hfuel]
      unfold loop
      rw [hsub, Option.bind_eq_bind, Option.bind_some, hpos, hfront]
      exact hloop
    . rw [hfront]
      exact hle
    . rw [hfront, ← hret, List.append_assoc, List.singleton_append]

theorem run_eq {c : UInt8} {s : List UInt8} {ts : List (List UInt8)} (h : Split c s ts) (k : Nat)
    : run (s.length + 1 + k) s [c] true = some ts := by
  unfold run
  dsimp only
  split
  . next hempty =>
    rw [h.eq_nil_iff.mpr (List.length_eq_zero_iff.mp hempty)]
    rfl
  . rcases loop_eq h k [] [] with ⟨beginPos, ret, hloop, hle, hret⟩
    rw [List.nil_append, List.length_nil] at hloop
    rw [List.nil_append] at hle
    rw [List.nil_append, List.nil_append] at hret
    rw [hloop, Option.bind_eq_bind, Option.bind_some, hret]
    by_cases hend : beginPos = s.length
    . simp [hend]
    . have hsub : substr s beginPos (s.length - beginPos) = some (s.drop beginPos) := by
        unfold substr
        rw [if_pos hle, List.take_of_length_le (by simp)]
      simp [hend, hsub]

end strTokenize

/--
`StrTokenize` ends and loses nothing: no token contains the separator, and joined with it the tokens
give back the string, without the separator at its end if there is one. The number of tokens says that
the empty ones are kept.
-/
theorem strTokenize_lossless (inStr : List UInt8) (c : UInt8)
    : (∀ k, strTokenize.run (inStr.length + 1 + k) inStr [c] true = some (strTokenize inStr c true))
        ∧ (∀ t ∈ strTokenize inStr c true, c ∉ t)
        ∧ [c].intercalate (strTokenize inStr c true)
            = (if inStr.getLast? = some c then inStr.dropLast else inStr)
        ∧ (strTokenize inStr c true).length
            = inStr.count c + (if inStr = [] ∨ inStr.getLast? = some c then 0 else 1)
        ∧ strTokenize [] c true = [] := by
  cases Split.total c inStr with
  | intro ts h =>
    rw [strTokenize.eq_of_split h]
    refine ⟨strTokenize.run_eq h, h.notMem_of_mem, h.intercalate_eq, h.length_eq, rfl⟩
