import Sircond.SirCon.LinkFailures

/-!
This module contains when the main loop probes a radio that it has not heard from for a while, as far
as the history of a run tells it, and how many probes there can be.
-/

open Scp Machine

namespace CSirCon

/-- The frames queued by the keepalive. -/
def probes (acts : List Action) : List Nat :=
  acts.filterMap fun
    | .keepalive id => some id
    | _ => none

@[simp]
theorem probes_append (acts₁ acts₂ : List Action)
    : probes (acts₁ ++ acts₂) = probes acts₁ ++ probes acts₂ := by
  simp [probes]

section History

def heardAfter (alive : Bool) (e : Entry CSirCon LoopInput Action) : Bool :=
  delivers e || (alive && onTimeouts e.out = 0)

/--
Whether the radio has been heard of since the last `OnTimeout` call.
-/
def heard (tr : List (Entry CSirCon LoopInput Action)) : Bool := tr.foldl heardAfter false

def activeAt (since : Nat) (e : Entry CSirCon LoopInput Action) : Nat :=
  match e.input with
  | .iteration ev => if ev.raw ≠ [] ∨ probes e.out ≠ [] then ev.now else since
  | .send _ => since
  | .timerProc => since

/--
The time of the last read that returned a byte or of the last probe.
-/
def lastActivity (start : Nat) (tr : List (Entry CSirCon LoopInput Action)) : Nat :=
  tr.foldl activeAt start

def times (tr : List (Entry CSirCon LoopInput Action)) : List Nat :=
  tr.filterMap fun e =>
    match e.input with
    | .iteration ev => some ev.now
    | .send _ => none
    | .timerProc => none

/-- The clock is not set back in a run. -/
def Clocked (start : Nat) (tr : List (Entry CSirCon LoopInput Action)) : Prop :=
  (start :: times tr).Pairwise (· ≤ ·)

instance (start : Nat) (tr : List (Entry CSirCon LoopInput Action)) : Decidable (Clocked start tr) :=
  inferInstanceAs (Decidable (List.Pairwise _ _))

theorem heard_append (tr : List (Entry CSirCon LoopInput Action))
    (e : Entry CSirCon LoopInput Action)
    : heard (tr ++ [e]) = heardAfter (heard tr) e := by
  simp [heard]

theorem lastActivity_append (start : Nat) (tr : List (Entry CSirCon LoopInput Action))
    (e : Entry CSirCon LoopInput Action)
    : lastActivity start (tr ++ [e]) = activeAt (lastActivity start tr) e := by
  simp [lastActivity]

theorem times_append (tr tr' : List (Entry CSirCon LoopInput Action))
    : times (tr ++ tr') = times tr ++ times tr' := by
  simp [times]

theorem Clocked.of_append {start : Nat} {tr tr' : List (Entry CSirCon LoopInput Action)}
    (h : Clocked start (tr ++ tr'))
    : Clocked start tr := by
  unfold Clocked at *
  rw [times_append, ← List.cons_append] at h
  apply (List.pairwise_append.mp h).1

theorem Clocked.le {start : Nat} {tr : List (Entry CSirCon LoopInput Action)}
    {e : Entry CSirCon LoopInput Action} {ev : RecvEvent} (h : Clocked start (tr ++ [e]))
    (hinput : e.input = .iteration ev) {t : Nat} (ht : t = start ∨ t ∈ times tr)
    : t ≤ ev.now := by
  have htimes : times [e] = [ev.now] := by simp [times, hinput]
  unfold Clocked at h
  rw [times_append, htimes, ← List.cons_append] at h
  apply (List.pairwise_append.mp h).2.2
  . simpa using ht
  . apply List.mem_singleton_self

end History

theorem parse_of_waits {s : CSirCon} (hok : s.stagebuf.Ok) (hwaits : Waits s.stagebuf.readData)
    (fuel : Nat)
    : s.parse (fuel + 1) = some (s, []) := by
  have hlength : s.stagebuf.readData.length = s.stagebuf.getReadLen := SOBuffer.length_readData hok
  unfold Waits at hwaits
  rw [hlength] at hwaits
  unfold parse
  dsimp only
  rcases hwaits with hshort | ⟨hsentinel, hmissing⟩
  . rw [if_neg (by omega)]
  . simp [hsentinel, hmissing]

theorem probes_of_handling {acts : List Action} (h : acts.all Action.isHandling = true)
    : probes acts = [] := by
  unfold probes
  rw [List.filterMap_eq_nil_iff]
  intro act hact
  have hhandling := List.all_eq_true.mp h act hact
  cases act with
  | keepalive id => simp [Action.isHandling] at hhandling
  | dispatch | sendACK | ack | transmit | resolve | markRead => rfl

theorem parse_activity {s s' : CSirCon} {fuel : Nat} {acts : List Action}
    (hparse : s.parse fuel = some (s', acts))
    : probes acts = [] ∧ s'.lastRx = s.lastRx := by
  obtain ⟨hacts, hsame⟩ := parse_handling fuel hparse
  rw [hsame]
  exact ⟨probes_of_handling hacts, rfl⟩

theorem read_eq (s : CSirCon) (e : RecvEvent)
    : s.read e
        =
      if e.fails then
        none
      else
        some ({ s with
            inESC := (deEscape.run s.inESC e.raw).1
            lastRx := if e.raw ≠ [] then e.now else s.lastRx },
          (deEscape.run s.inESC e.raw).2) := by
  unfold read RecvEvent.fails RecvEvent.raw
  cases e.result with
  | error code => rfl
  | timeout => rfl
  | data bytes => simp [List.length_pos_iff]

theorem afterRead_zero (s : CSirCon) (now : Nat)
    : s.afterRead now 0
        =
      if s.linkAlive ∧ s.lastRx ≠ 0 ∧ s.lastRx + linkTimeout < now then
        ({ (s.send getRSSI).1 with lastRx := now }, [.keepalive s.allocs])
      else
        (s, []) := by
  have hsince : s.getTimeSinceLastRx now > linkTimeout
      ↔ s.lastRx ≠ 0 ∧ s.lastRx + linkTimeout < now := by
    unfold getTimeSinceLastRx
    split
    . omega
    . next hnever =>
      simp only [ne_eq, Decidable.not_not] at hnever
      simp [hnever]
  unfold afterRead
  rw [if_neg (Nat.lt_irrefl 0)]
  simp only [Bool.and_eq_true, decide_eq_true_eq, hsince, and_comm]
  rfl

theorem afterRead_pos (s : CSirCon) (now : Nat) {bytes : Nat} (hbytes : 0 < bytes)
    : (s.afterRead now bytes).2 = [] ∧ (s.afterRead now bytes).1.lastRx = s.lastRx := by
  unfold afterRead
  rw [if_pos hbytes]
  split
  . exact ⟨rfl, rfl⟩
  . exact ⟨rfl, rfl⟩

theorem timerProc_activity (s : CSirCon)
    : probes s.timerProc.2 = [] ∧ s.timerProc.1.lastRx = s.lastRx := by
  unfold timerProc
  split
  . exact ⟨rfl, rfl⟩
  . split
    . exact ⟨rfl, rfl⟩
    . dsimp only
      split
      . exact ⟨rfl, rfl⟩
      . exact ⟨rfl, rfl⟩

/-- When an iteration queues a probe. -/
structure Expired (s : CSirCon) (e : RecvEvent) : Prop where
  silent : e.raw = []
  reads : e.fails = false
  alive : s.linkAlive = true
  since : s.lastRx ≠ 0 ∧ s.lastRx + linkTimeout < e.now

/--
What an iteration does to the link and to the time of the last activity: it probes a radio that has
been silent for too long, or it does not.
-/
inductive ActivityEffect (s : CSirCon) (e : RecvEvent) (s' : CSirCon) : List Action → Prop
  | probe (hexpired : Expired s e) (hlink : s'.link = (s.send getRSSI).1.link)
      (hlastRx : s'.lastRx = e.now)
    : ActivityEffect s e s' [.keepalive s.allocs]
  | read {acts : List Action} (hexpired : ¬ Expired s e) (hprobes : probes acts = [])
      (hlastRx : s'.lastRx = if e.raw ≠ [] then e.now else s.lastRx)
      (hidle : s.decoded e = [] → acts = [] ∧ s'.link = s.link)
    : ActivityEffect s e s' acts

theorem decoded_eq (s : CSirCon) (e : RecvEvent)
    : s.decoded e = if e.fails then [] else (deEscape.run s.inESC e.raw).2 := by
  unfold decoded
  rw [read_eq]
  split <;> rfl

theorem activityEffect {s s' : CSirCon} (hs : Settled s) {e : RecvEvent} {acts : List Action}
    {goesOn : Bool} (h : s.iteration e = some (s', acts, goesOn))
    : ActivityEffect s e s' acts := by
  unfold iteration at h
  dsimp only at h
  rw [if_pos hs.room, read_eq] at h
  cases hfails : e.fails with
  | true =>
    rw [hfails, if_pos rfl] at h
    obtain ⟨rfl, rfl, -⟩ := by simpa only [Option.some.injEq, Prod.mk.injEq] using h
    have hraw : e.raw = [] := by
      unfold RecvEvent.fails RecvEvent.raw at *
      cases hresult : e.result <;> simp_all
    apply ActivityEffect.read
    . intro hexpired
      simp [hexpired.reads] at hfails
    . rfl
    . simp [hraw]
    . intro _
      exact ⟨rfl, rfl⟩
  | false =>
    rw [hfails, if_neg Bool.false_ne_true] at h
    simp only [Option.bind_eq_bind, Option.bind_eq_some_iff, Option.pure_def, Option.some.injEq,
      Prod.mk.injEq, Prod.exists] at h
    obtain ⟨stagebuf, happend, s₂, acts₂, hparse, rfl, rfl, -⟩ := h
    obtain ⟨hprobes, hlastRx⟩ := parse_activity hparse
    generalize hs₁ : CSirCon.mk stagebuf (deEscape.run s.inESC e.raw).1
      (if e.raw ≠ [] then e.now else s.lastRx) s.link s.seq s.allocs s.linkAlive s.linkFailCnt
      s.shutdown = s₁ at hparse hlastRx
    have hlastRx₁ : s₁.lastRx = if e.raw ≠ [] then e.now else s.lastRx := by rw [← hs₁]
    cases hbuf : (deEscape.run s.inESC e.raw).2 with
    | cons b buf =>
      rw [hbuf] at hlastRx
      obtain ⟨hquiet, hsame⟩ := s₁.afterRead_pos e.now (Nat.zero_lt_succ buf.length)
      apply ActivityEffect.read
      . intro hexpired
        rw [hexpired.silent] at hbuf
        simp [Transducer.run] at hbuf
      . rw [List.length_cons, hquiet]
        exact hprobes
      . rw [← hlastRx₁, ← hsame]
        exact hlastRx
      . intro hidle
        rw [decoded_eq, hfails, if_neg Bool.false_ne_true, hbuf] at hidle
        simp at hidle
    | nil =>
      rw [hbuf] at happend
      rw [hbuf, List.length_nil, afterRead_zero] at hparse hlastRx
      rw [List.length_nil, afterRead_zero]
      have hwaits : stagebuf.Ok ∧ Waits stagebuf.readData := by
        obtain ⟨b, hb, hok, -, hread⟩ := SOBuffer.append_eq hs.ok
          (show ([] : List UInt8).length ≤ _ from Nat.zero_le _)
        rw [happend] at hb
        rw [Option.some.inj hb]
        rw [List.append_nil] at hread
        exact ⟨hok, hread ▸ hs.waits⟩
      have hiff : (s₁.linkAlive ∧ s₁.lastRx ≠ 0 ∧ s₁.lastRx + linkTimeout < e.now) ↔ Expired s e := by
        rw [hlastRx₁, ← hs₁]
        constructor
        . rintro ⟨halive, hsince⟩
          by_cases hraw : e.raw = []
          . rw [if_neg (by simp [hraw])] at hsince
            exact ⟨hraw, hfails, halive, hsince⟩
          . rw [if_pos hraw] at hsince
            omega
        . intro hexpired
          rw [if_neg (by simp [hexpired.silent])]
          exact ⟨hexpired.alive, hexpired.since⟩
      by_cases hexpired : Expired s e
      . rw [if_pos (hiff.mpr hexpired)] at hparse hlastRx ⊢
        rw [parse_of_waits] at hparse
        . obtain ⟨rfl, rfl⟩ := Prod.mk.inj (Option.some.inj hparse)
          rw [← hs₁]
          apply ActivityEffect.probe hexpired
          . rfl
          . rfl
        . rw [← hs₁]
          exact hwaits.1
        . rw [← hs₁]
          exact hwaits.2
      . rw [if_neg (mt hiff.mp hexpired)] at hparse hlastRx ⊢
        apply ActivityEffect.read hexpired
        . exact hprobes
        . rw [← hlastRx₁]
          exact hlastRx
        . intro _
          rw [← hs₁, parse_of_waits hwaits.1 hwaits.2] at hparse
          obtain ⟨rfl, rfl⟩ := Prod.mk.inj (Option.some.inj hparse)
          exact ⟨rfl, rfl⟩

/--
What the history says about the time of the last activity and the status of the link, and what time
the probes have taken: each of them waits until the one before has been out for long enough.
-/
structure Paced (start : Nat) (tr : List (Entry CSirCon LoopInput Action)) (s : CSirCon) : Prop where
  settled : Settled s
  lastRx : s.lastRx = lastActivity start tr
  alive : s.linkAlive = heard tr
  spent : Clocked start tr → start + (linkTimeout + 1) * (probes (outputs tr)).length ≤ s.lastRx
  clock : Clocked start tr → s.lastRx = start ∨ s.lastRx ∈ times tr

theorem linkAlive_eq {s s' : CSirCon} {a : LoopInput} {acts : List Action}
    (hstep : loopMachine.step s a = some (s', acts))
    : s'.linkAlive = heardAfter s.linkAlive ⟨s, a, acts, s'⟩ := by
  have heffect := statusEffect hstep
  unfold heardAfter
  generalize delivers ⟨s, a, acts, s'⟩ = delivered at heffect
  dsimp only
  generalize onTimeouts acts = timeouts at heffect
  cases heffect with
  | keep hsame => simp [hsame.linkAlive]
  | alive halive => simp [halive]
  | dead halive => simp [halive]

theorem Paced.of_quiet {start : Nat} {tr : List (Entry CSirCon LoopInput Action)} {s s' : CSirCon}
    {a : LoopInput} {acts : List Action} (h : Paced start tr s)
    (hstep : loopMachine.step s a = some (s', acts)) (hiteration : ∀ ev, a ≠ .iteration ev)
    (hprobes : probes acts = []) (hlastRx : s'.lastRx = s.lastRx)
    : Paced start (tr ++ [⟨s, a, acts, s'⟩]) s' := by
  have htimes : times (tr ++ [⟨s, a, acts, s'⟩]) = times tr := by
    rw [times_append]
    cases a with
    | iteration ev => exact absurd rfl (hiteration ev)
    | send | timerProc => apply List.append_nil
  have hclocked : Clocked start (tr ++ [⟨s, a, acts, s'⟩]) → Clocked start tr := Clocked.of_append
  constructor
  . apply h.settled.loopStep hstep
  . rw [hlastRx, h.lastRx, lastActivity_append]
    cases a with
    | iteration ev => exact absurd rfl (hiteration ev)
    | send | timerProc => rfl
  . rw [linkAlive_eq hstep, h.alive, heard_append]
  . intro hclock
    rw [outputs_append, outputs_singleton, probes_append, hprobes, List.append_nil, hlastRx]
    apply h.spent (hclocked hclock)
  . intro hclock
    rw [htimes, hlastRx]
    apply h.clock (hclocked hclock)

theorem Paced.iteration {start : Nat} {tr : List (Entry CSirCon LoopInput Action)} {s s' : CSirCon}
    {ev : RecvEvent} {acts : List Action} (h : Paced start tr s)
    (hstep : loopMachine.step s (.iteration ev) = some (s', acts))
    (heffect : ActivityEffect s ev s' acts)
    : Paced start (tr ++ [⟨s, .iteration ev, acts, s'⟩]) s' := by
  have htimes : times (tr ++ [⟨s, .iteration ev, acts, s'⟩]) = times tr ++ [ev.now] := by
    rw [times_append]
    rfl
  have hlast : lastActivity start (tr ++ [⟨s, .iteration ev, acts, s'⟩])
      = if ev.raw ≠ [] ∨ probes acts ≠ [] then ev.now else s.lastRx := by
    rw [lastActivity_append, h.lastRx]
    rfl
  have hprobed : probes (outputs (tr ++ [⟨s, .iteration ev, acts, s'⟩]))
      = probes (outputs tr) ++ probes acts := by
    rw [outputs_append, outputs_singleton, probes_append]
  constructor
  . apply h.settled.loopStep hstep
  . rw [hlast]
    cases heffect with
    | probe hexpired hlink hlastRx =>
      rw [if_pos (.inr (List.cons_ne_nil _ _)), hlastRx]
    | read hexpired hprobes hlastRx =>
      rw [hlastRx, hprobes]
      simp
  . rw [linkAlive_eq hstep, h.alive, heard_append]
  . intro hclock
    have hspent := h.spent hclock.of_append
    rw [hprobed, List.length_append]
    cases heffect with
    | probe hexpired hlink hlastRx =>
      have hsince := hexpired.since.2
      have hone : (probes [Action.keepalive s.allocs]).length = 1 := rfl
      rw [hone, hlastRx, Nat.mul_add]
      omega
    | read hexpired hprobes hlastRx =>
      have hle := hclock.le rfl (h.clock hclock.of_append)
      rw [hlastRx, hprobes]
      simp only [List.length_nil, Nat.add_zero]
      split
      . omega
      . exact hspent
  . intro hclock
    rw [htimes, List.mem_append, List.mem_singleton]
    have hsame := h.clock hclock.of_append
    cases heffect with
    | probe hexpired hlink hlastRx =>
      rw [hlastRx]
      exact .inr (.inr rfl)
    | read hexpired hprobes hlastRx =>
      rw [hlastRx]
      split
      . exact .inr (.inr rfl)
      . rcases hsame with hstart | htime
        . exact .inl hstart
        . exact .inr (.inl htime)

theorem step_iteration {s s' : CSirCon} {ev : RecvEvent} {acts : List Action}
    (hstep : loopMachine.step s (.iteration ev) = some (s', acts))
    : ∃ goesOn, s.iteration ev = some (s', acts, goesOn) := by
  simp only [loopMachine] at hstep
  split at hstep
  . simp only [Option.map_eq_some_iff, Prod.exists, Prod.mk.injEq] at hstep
    obtain ⟨s₁, acts₁, goesOn, hiter, rfl, rfl⟩ := hstep
    exact ⟨goesOn, hiter⟩
  . simp at hstep

theorem Paced.step {start : Nat} {tr : List (Entry CSirCon LoopInput Action)} {s s' : CSirCon}
    {a : LoopInput} {acts : List Action} (h : Paced start tr s)
    (hstep : loopMachine.step s a = some (s', acts))
    : Paced start (tr ++ [⟨s, a, acts, s'⟩]) s' := by
  cases a with
  | iteration ev =>
    obtain ⟨goesOn, hiter⟩ := step_iteration hstep
    apply h.iteration hstep
    apply activityEffect h.settled hiter
  | send data =>
    obtain ⟨rfl, rfl⟩ := Prod.mk.inj (Option.some.inj hstep)
    apply h.of_quiet hstep
    . simp
    . rfl
    . rfl
  | timerProc =>
    have heq : s.timerProc = (s', acts) := Option.some.inj hstep
    have hquiet := s.timerProc_activity
    rw [heq] at hquiet
    apply h.of_quiet hstep
    . simp
    . apply hquiet.1
    . apply hquiet.2

theorem paced_of_run {block : List UInt8} (hblock : block.length = stageBufSize) {start : Nat}
    {tr : List (Entry CSirCon LoopInput Action)} {s : CSirCon}
    (hrun : loopMachine.Run (new block start) tr s)
    : Paced start tr s := by
  apply hrun.invariant
  . constructor
    . apply settled_new hblock
    . rfl
    . rfl
    . intro hclock
      exact Nat.le_refl _
    . intro hclock
      exact .inl rfl
  . intro tr s a s' acts h hstep
    apply h.step hstep

theorem Paced.expired_iff {start : Nat} {tr : List (Entry CSirCon LoopInput Action)} {s : CSirCon}
    (h : Paced start tr s) (hstart : 0 < start) (hclock : Clocked start tr) (ev : RecvEvent)
    : Expired s ev
        ↔ ev.raw = [] ∧ ev.fails = false ∧ heard tr = true
          ∧ lastActivity start tr + linkTimeout < ev.now := by
  have hspent := h.spent hclock
  rw [← h.alive, ← h.lastRx]
  constructor
  . rintro ⟨hsilent, hreads, halive, hsince⟩
    exact ⟨hsilent, hreads, halive, hsince.2⟩
  . rintro ⟨hsilent, hreads, halive, hsince⟩
    exact ⟨hsilent, hreads, halive, by omega, hsince⟩

/--
The keepalive: the main loop probes the radio exactly when a read times out, the radio has been heard of
since the last `OnTimeout` call, and neither a byte nor another probe was within the time limit. So there
is at most one probe in that time, however long the run is, and each of them goes to the end of the queue.
-/
theorem keepalive_paced {block : List UInt8} (hblock : block.length = stageBufSize) {start : Nat}
    (hstart : 0 < start) {tr : List (Entry CSirCon LoopInput Action)} {s : CSirCon}
    (hrun : loopMachine.Run (new block start) tr s) (hclock : Clocked start tr)
    : (∀ tr₁ e tr₂ ev, tr = tr₁ ++ e :: tr₂ → e.input = .iteration ev →
        (probes e.out ≠ []
            ↔ ev.raw = [] ∧ ev.fails = false ∧ heard tr₁ = true
              ∧ lastActivity start tr₁ + linkTimeout < ev.now)
          ∧ (probes e.out ≠ [] →
              e.post.link.queue = e.pre.link.queue ++ [(e.pre.composeFrame getRSSI).1]))
        ∧
      ∀ t, start ≤ t → (∀ t' ∈ times tr, t' ≤ t) →
        start + (linkTimeout + 1) * (probes (outputs tr)).length ≤ t := by
  constructor
  . intro tr₁ e tr₂ ev htr hinput
    obtain ⟨hrun₁, hstep⟩ := hrun.of_prefix tr₁ e tr₂ htr
    have hpaced := paced_of_run hblock hrun₁
    rw [htr] at hclock
    rw [hinput] at hstep
    obtain ⟨goesOn, hiter⟩ := step_iteration hstep
    have heffect := activityEffect hpaced.settled hiter
    rw [← hpaced.expired_iff hstart hclock.of_append]
    generalize e.out = acts at heffect
    cases heffect with
    | probe hexpired hlink hlastRx =>
      refine ⟨⟨?_, ?_⟩, ?_⟩
      . intro hprobe
        exact hexpired
      . intro _
        apply List.cons_ne_nil
      . intro hprobe
        rw [hlink]
        rfl
    | read hexpired hprobes hlastRx => simp [hprobes, hexpired]
  . intro t hle htimes
    have hpaced := paced_of_run hblock hrun
    have hspent := hpaced.spent hclock
    rcases hpaced.clock hclock with hnever | htime
    . omega
    . have hlast := htimes _ htime
      omega

theorem keepalive_paced_twice
    : ∃ tr s,
        loopMachine.Run (new (List.replicate stageBufSize 0) 1) tr s
          ∧ inputs tr = [.iteration ⟨.timeout, 1⟩, .iteration ⟨.data [0x00], 2⟩, .send getRSSI,
              .iteration ⟨.timeout, 32⟩, .iteration ⟨.timeout, 33⟩, .iteration ⟨.timeout, 63⟩,
              .timerProc, .iteration ⟨.timeout, 64⟩]
          ∧ probes (outputs tr) = [1, 2]
          ∧ 1 + (linkTimeout + 1) * (probes (outputs tr)).length ≤ 64 := by
  let as : List LoopInput := [.iteration ⟨.timeout, 1⟩, .iteration ⟨.data [0x00], 2⟩,
    .send getRSSI, .iteration ⟨.timeout, 32⟩, .iteration ⟨.timeout, 33⟩, .iteration ⟨.timeout, 63⟩,
    .timerProc, .iteration ⟨.timeout, 64⟩]
  have hexec : (loopMachine.exec (new (List.replicate stageBufSize 0) 1) as).any (fun r =>
      Clocked 1 r.1 ∧ (times r.1).all (· ≤ 64) ∧ probes (outputs r.1) = [1, 2]) = true := by
    decide +kernel
  obtain ⟨tr, s, hrun, hin, hclock, htimes, hprobes⟩ := exists_run hexec
  refine ⟨tr, s, hrun, hin, hprobes, ?_⟩
  apply (keepalive_paced List.length_replicate (by decide) hrun hclock).2 64 (by decide)
  simpa using htimes

end CSirCon
