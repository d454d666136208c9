import Sircond.SirCon.Decoding

/-!
This module contains the radio interface together with the values it caches: the payloads its steps
dispatch update the cache and notify events. The history of a run is the list of the dispatched
messages, in their order, with the events notified for each.
-/

open Scp Machine

structure Dispatched where
  payload : List UInt8
  events : List SCEvent
  deriving DecidableEq

namespace Cache

def dispatchAll (after : Memory) (c : Cache) : List (List UInt8) → Cache × List Dispatched
  | [] => (c, [])
  | payload :: rest =>
    let (c, events) := (c.dispatch 0 payload.length).value (memory payload after)
    let (c, ds) := dispatchAll after c rest
    (c, ⟨payload, events⟩ :: ds)

/--
The cache gets from one state to another by the effects of the messages of a history.
-/
inductive Follows : Cache → List Dispatched → Cache → Prop
  | nil (c : Cache) : Follows c [] c
  | cons {c c' c'' : Cache} {d : Dispatched} {ds : List Dispatched} (after : Memory)
      (heffect : CacheEffect (memory d.payload after) d.payload.length c c' d.events)
      (hrest : Follows c' ds c'')
    : Follows c (d :: ds) c''

theorem follows_dispatchAll (after : Memory) (payloads : List (List UInt8))
    : ∀ c : Cache, Follows c (dispatchAll after c payloads).2 (dispatchAll after c payloads).1 := by
  induction payloads with
  | nil =>
    intro c
    apply Follows.nil
  | cons payload payloads ih =>
    intro c
    apply Follows.cons after
    . apply cacheEffect
    . apply ih

theorem Follows.append {c c' c'' : Cache} {ds ds' : List Dispatched} (h : Follows c ds c')
    (h' : Follows c' ds' c'')
    : Follows c (ds ++ ds') c'' := by
  induction h with
  | nil => exact h'
  | cons after heffect _ ih =>
    apply Follows.cons after heffect
    apply ih h'

end Cache

namespace CSirCon

def cachingMachine : Machine (CSirCon × Cache) (Input × Memory) Dispatched where
  step s a := (machine.step s.1 a.1).map fun r =>
    let (c, ds) := s.2.dispatchAll a.2 (dispatched r.2)
    ((r.1, c), ds)

theorem follows_step {s s' : CSirCon × Cache} {a : Input × Memory} {ds : List Dispatched}
    (hstep : cachingMachine.step s a = some (s', ds))
    : Cache.Follows s.2 ds s'.2 := by
  simp only [cachingMachine, Option.map_eq_some_iff, Prod.mk.injEq] at hstep
  obtain ⟨r, -, rfl, rfl⟩ := hstep
  apply Cache.follows_dispatchAll

theorem follows_of_run {s₀ s : CSirCon × Cache}
    {tr : List (Entry (CSirCon × Cache) (Input × Memory) Dispatched)}
    (hrun : cachingMachine.Run s₀ tr s)
    : Cache.Follows s₀.2 (outputs tr) s.2 := by
  apply hrun.invariant (I := fun tr s => Cache.Follows s₀.2 (outputs tr) s.2)
  . apply Cache.Follows.nil
  . intro tr s a s' ds ih hstep
    rw [outputs_append, outputs_singleton]
    apply ih.append (follows_step hstep)

theorem follows_of_mem {s₀ s : CSirCon × Cache}
    {tr : List (Entry (CSirCon × Cache) (Input × Memory) Dispatched)}
    (hrun : cachingMachine.Run s₀ tr s)
    {e : Entry (CSirCon × Cache) (Input × Memory) Dispatched} (he : e ∈ tr)
    : Cache.Follows e.pre.2 e.out e.post.2 := by
  obtain ⟨-, -, hstep⟩ := hrun.of_mem he
  apply follows_step hstep

/--
A frame with the sequence number of the frame before it is not dispatched.
-/
theorem dispatched_duplicate (s : CSirCon) {msg : List UInt8}
    (hseq : ((SHdr.ofBytes msg).seq.toNat : Int) = s.link.lastSeq)
    : dispatched (s.onFrame msg).2 = [] := by
  unfold onFrame onMessage
  dsimp only
  split
  . split
    . have heffect := ackEffect s.link (SHdr.ofBytes msg)
      generalize onAckFrame s.link (SHdr.ofBytes msg) = r at heffect ⊢
      cases heffect with
      | keep | resend | busy | success => rfl
    . dsimp only
      rw [if_neg (not_not_intro hseq)]
      rfl
  . rfl

theorem out_duplicate {s s' : CSirCon × Cache} {msg : List UInt8} {after : Memory}
    {ds : List Dispatched} (hstep : cachingMachine.step s (.receive msg, after) = some (s', ds))
    (hseq : ((SHdr.ofBytes msg).seq.toNat : Int) = s.1.link.lastSeq)
    : ds = [] := by
  simp only [cachingMachine, machine, Option.map_eq_some_iff, Prod.mk.injEq] at hstep
  obtain ⟨r, hr, -, rfl⟩ := hstep
  split at hr
  . obtain rfl := Option.some.inj hr
    rw [dispatched_duplicate s.1 hseq]
    rfl
  . simp at hr

end CSirCon
