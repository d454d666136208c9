import Sircond.SirCon.Keepalive

/-!
This module contains what becomes of the requests in the queue when nothing is heard of the radio any
more: how many ticks of the timer they take, and what the link makes of it.
-/

open Scp Machine

namespace CSirCon

def attemptsLeft (bufptr : MsgBuf) : Nat := maxRetries - bufptr.retries + 1

def ticksLeft.go : Nat → List MsgBuf → Nat
  | 0, _ => 0
  | _ + 1, [] => 0
  | n + 1, bufptr :: queue => attemptsLeft bufptr + go n queue

/--
The ticks that the first `n` frames in the queue take if none of them is answered.
-/
def ticksLeft (n : Nat) (l : Link) : Nat := l.busyTimer + ticksLeft.go n l.queue

theorem ticksLeft.go_le (n : Nat) (queue : List MsgBuf) : go n queue ≤ (maxRetries + 1) * n := by
  induction queue generalizing n with
  | nil => cases n <;> simp [go]
  | cons bufptr queue ih =>
    cases n with
    | zero => simp [go]
    | succ n =>
      have hrest := ih n
      have hattempts : attemptsLeft bufptr ≤ maxRetries + 1 := by
        unfold attemptsLeft
        omega
      rw [go, Nat.mul_succ]
      omega

theorem ticksLeft.go_append {n : Nat} {queue : List MsgBuf} (hn : n ≤ queue.length)
    (rest : List MsgBuf)
    : go n (queue ++ rest) = go n queue := by
  induction queue generalizing n with
  | nil =>
    rw [Nat.le_zero.mp hn]
    cases rest <;> rfl
  | cons bufptr queue ih =>
    cases n with
    | zero => rfl
    | succ n =>
      rw [List.cons_append, go, go, ih (Nat.le_of_succ_le_succ hn)]

theorem ticksLeft_le (n : Nat) (l : Link)
    : ticksLeft n l ≤ (maxRetries + 1) * n + l.busyTimer := by
  have hgo := ticksLeft.go_le n l.queue
  unfold ticksLeft
  omega

theorem ticksLeft_append {n : Nat} {l l' : Link} {bufptr : MsgBuf} (hn : n ≤ l.queue.length)
    (hbusy : l'.busyTimer = l.busyTimer) (hqueue : l'.queue = l.queue ++ [bufptr])
    : ticksLeft n l' = ticksLeft n l := by
  unfold ticksLeft
  rw [hbusy, hqueue, ticksLeft.go_append hn]

/--
What a step does to the send queue when nothing is heard: it queues a frame, it does nothing, or it
takes one tick off the frame in front, the last of which is its timeout.
-/
inductive SilentEffect (s s' : CSirCon) : Bool → List (Nat × SCResult) → Prop
  | push (bufptr : MsgBuf) (hqueue : s'.link.queue = s.link.queue ++ [bufptr])
      (hbusy : s'.link.busyTimer = s.link.busyTimer)
    : SilentEffect s s' false []
  | keep (hlink : s'.link = s.link) : SilentEffect s s' false []
  | idle (hlink : s'.link = s.link) (hempty : s.link.queue = []) : SilentEffect s s' true []
  | tick (hids : queued s' = queued s)
      (hticks : ∀ n, 0 < n → ticksLeft n s'.link + 1 = ticksLeft n s.link)
    : SilentEffect s s' true []
  | timeout (front : MsgBuf) (hids : queued s = front.id :: queued s')
      (hticks : ∀ n, ticksLeft n s'.link + 1 = ticksLeft (n + 1) s.link)
    : SilentEffect s s' true [(front.id, .timeout)]

def LoopInput.isTick : LoopInput → Bool
  | .timerProc => true
  | .iteration _ => false
  | .send _ => false

theorem silentEffect_timerProc (s : CSirCon)
    : SilentEffect s s.timerProc.1 true (resolved s.timerProc.2) := by
  unfold timerProc
  split
  . next hbusy =>
    apply SilentEffect.tick
    . rfl
    . intro n hn
      unfold ticksLeft
      dsimp only
      omega
  . next hbusy =>
    split
    . next hqueue => exact .idle rfl hqueue
    . next front rest hqueue =>
      dsimp only
      split
      . next hmax =>
        apply SilentEffect.timeout front
        . simp [queued, hqueue, onTimeout]
        . intro n
          have hone : attemptsLeft front = 1 := by
            unfold attemptsLeft
            omega
          unfold ticksLeft
          rw [hqueue, ticksLeft.go, hone]
          simp only [onTimeout]
          omega
      . next hmax =>
        apply SilentEffect.tick
        . simp [queued, hqueue]
        . intro n hn
          obtain ⟨n, rfl⟩ := Nat.exists_eq_add_of_lt hn
          have hone : attemptsLeft { front with retries := front.retries + 1 } + 1
              = attemptsLeft front := by
            unfold attemptsLeft
            dsimp only
            omega
          unfold ticksLeft
          rw [hqueue]
          simp only [Nat.zero_add, ticksLeft.go]
          omega

theorem silentEffect {s s' : CSirCon} (hs : Settled s) {a : LoopInput} {acts : List Action}
    (hstep : loopMachine.step s a = some (s', acts)) (hsilent : delivers ⟨s, a, acts, s'⟩ = false)
    : SilentEffect s s' a.isTick (resolved acts) := by
  cases a with
  | iteration ev =>
    obtain ⟨goesOn, hiter⟩ := step_iteration hstep
    have heffect := activityEffect hs hiter
    cases heffect with
    | probe hexpired hlink =>
      apply SilentEffect.push (s.composeFrame getRSSI).1
      . rw [hlink]
        rfl
      . rw [hlink]
        rfl
    | read hexpired hprobes hlastRx hidle =>
      obtain ⟨rfl, hlink⟩ := hidle (by simpa [delivers] using hsilent)
      apply SilentEffect.keep hlink
  | send data =>
    obtain ⟨rfl, rfl⟩ := Prod.mk.inj (Option.some.inj hstep)
    apply SilentEffect.push (s.composeFrame data).1
    . rfl
    . rfl
  | timerProc =>
    have heffect := silentEffect_timerProc s
    rw [show s.timerProc = (s', acts) from Option.some.inj hstep] at heffect
    exact heffect

def timedOut (ids : List Nat) : List (Nat × SCResult) := ids.map fun id => (id, .timeout)

/--
What has become of the queue of `s₀` since nothing is heard any more.
-/
structure Draining (s₀ : CSirCon) (tr : List (Entry CSirCon LoopInput Action)) (s : CSirCon)
    : Prop where
  settled : Settled s
  answered : ∃ ids pushed, resolved (outputs tr) = timedOut ids
    ∧ queued s₀ ++ pushed = ids ++ queued s
  ticks : ∀ n, (resolved (outputs tr)).length + n = (queued s₀).length → 0 < n →
    ticksLeft n s.link + (inputs tr).countP LoopInput.isTick
      ≤ ticksLeft (queued s₀).length s₀.link
  failures : s.linkFailCnt = s₀.linkFailCnt + (resolved (outputs tr)).length
  alive : s.linkAlive = (s₀.linkAlive && (resolved (outputs tr)).isEmpty)
  shutdown : s.shutdown
    = (s₀.shutdown || (!(resolved (outputs tr)).isEmpty && s.linkFailCnt > maxLinkFailures))

theorem length_queued (s : CSirCon) : (queued s).length = s.link.queue.length := List.length_map _

theorem draining_start {s : CSirCon} (hs : Settled s) : Draining s [] s where
  settled := hs
  answered := ⟨[], [], rfl, List.append_nil _⟩
  ticks := by
    intro n hn hpos
    have heq : n = (queued s).length := by simpa [outputs, resolved] using hn
    rw [heq]
    apply Nat.le_refl
  failures := rfl
  alive := by simp [outputs, resolved]
  shutdown := by simp [outputs, resolved]

section Step

variable {s₀ s s' : CSirCon} {tr : List (Entry CSirCon LoopInput Action)} {a : LoopInput}
  {acts : List Action}

theorem Draining.left_le (h : Draining s₀ tr s) {n : Nat}
    (hn : (resolved (outputs tr)).length + n = (queued s₀).length)
    : n ≤ s.link.queue.length := by
  obtain ⟨ids, pushed, hids, hfifo⟩ := h.answered
  have hlength := congrArg List.length hfifo
  rw [List.length_append, List.length_append, length_queued s] at hlength
  rw [hids, timedOut, List.length_map] at hn
  omega

theorem Draining.unanswered (h : Draining s₀ tr s) (hsettled : Settled s')
    (hresolved : resolved acts = []) (hstatus : SameStatus s s')
    (hfifo : ∃ pushed, queued s' = queued s ++ pushed)
    (hticks : ∀ n, 0 < n → n ≤ s.link.queue.length →
      ticksLeft n s'.link + a.isTick.toNat ≤ ticksLeft n s.link)
    : Draining s₀ (tr ++ [⟨s, a, acts, s'⟩]) s' := by
  have hsame : resolved (outputs (tr ++ [⟨s, a, acts, s'⟩])) = resolved (outputs tr) := by
    rw [outputs_append, outputs_singleton, resolved_append, hresolved, List.append_nil]
  constructor
  . exact hsettled
  . obtain ⟨ids, pushed, hids, hold⟩ := h.answered
    obtain ⟨new, hnew⟩ := hfifo
    refine ⟨ids, pushed ++ new, hsame.trans hids, ?_⟩
    rw [hnew, ← List.append_assoc, hold, List.append_assoc]
  . intro n hn hpos
    rw [hsame] at hn
    have hold := h.ticks n hn hpos
    have hstep := hticks n hpos (h.left_le hn)
    have hone : [a].countP LoopInput.isTick = a.isTick.toNat := by
      rw [List.countP_singleton]
      cases a.isTick <;> rfl
    rw [inputs_append, inputs_singleton, List.countP_append, hone]
    omega
  . rw [hsame, hstatus.linkFailCnt]
    apply h.failures
  . rw [hsame, hstatus.linkAlive]
    apply h.alive
  . rw [hsame, hstatus.shutdown, hstatus.linkFailCnt]
    apply h.shutdown

theorem Draining.giveUp (h : Draining s₀ tr s) (hsettled : Settled s') {id : Nat}
    (hresolved : resolved acts = [(id, .timeout)]) (htick : a.isTick = true)
    (halive : s'.linkAlive = false) (hcnt : s'.linkFailCnt = s.linkFailCnt + 1)
    (hsd : s'.shutdown = (s.shutdown || s'.linkFailCnt > maxLinkFailures))
    (hids : queued s = id :: queued s')
    (hticks : ∀ n, ticksLeft n s'.link + 1 = ticksLeft (n + 1) s.link)
    : Draining s₀ (tr ++ [⟨s, a, acts, s'⟩]) s' := by
  have hmore : resolved (outputs (tr ++ [⟨s, a, acts, s'⟩]))
      = resolved (outputs tr) ++ [(id, .timeout)] := by
    rw [outputs_append, outputs_singleton, resolved_append, hresolved]
  constructor
  . exact hsettled
  . obtain ⟨ids, pushed, hanswers, hold⟩ := h.answered
    refine ⟨ids ++ [id], pushed, ?_, ?_⟩
    . rw [hmore, hanswers, timedOut, timedOut, List.map_append]
      rfl
    . rw [hold, hids, List.append_assoc]
      rfl
  . intro n hn hpos
    rw [hmore, List.length_append, List.length_singleton] at hn
    have hold := h.ticks (n + 1) (by omega) (Nat.zero_lt_succ n)
    have hstep := hticks n
    rw [inputs_append, inputs_singleton, List.countP_append, List.countP_singleton, if_pos htick]
    omega
  . rw [hmore, hcnt, h.failures, List.length_append, Nat.add_assoc]
    rfl
  . rw [hmore, halive]
    simp
  . rw [hmore, hsd, h.shutdown]
    by_cases hmax : s'.linkFailCnt > maxLinkFailures
    . simp [hmax]
    . have hless : ¬ s.linkFailCnt > maxLinkFailures := by omega
      simp [hmax, hless]

theorem Draining.step (h : Draining s₀ tr s) (hstep : loopMachine.step s a = some (s', acts))
    (hsilent : delivers ⟨s, a, acts, s'⟩ = false)
    : Draining s₀ (tr ++ [⟨s, a, acts, s'⟩]) s' := by
  have hsettled := h.settled.loopStep hstep
  have hstatus := statusEffect hstep
  have heffect := silentEffect h.settled hstep hsilent
  rw [hsilent] at hstatus
  have hcount : onTimeouts acts = (resolved acts).countP fun r => r.2 = .timeout := rfl
  rw [hcount] at hstatus
  generalize htick : a.isTick = tick, hresolved : resolved acts = answers at heffect hstatus
  cases heffect with
  | push bufptr hqueue hbusy =>
    cases hstatus with
    | keep hsame =>
      apply h.unanswered hsettled hresolved hsame
      . refine ⟨[bufptr.id], ?_⟩
        simp [queued, hqueue]
      . intro n hpos hn
        rw [htick, ticksLeft_append hn hbusy hqueue]
        apply Nat.le_refl
  | keep hlink =>
    cases hstatus with
    | keep hsame =>
      apply h.unanswered hsettled hresolved hsame
      . refine ⟨[], ?_⟩
        simp [queued, hlink]
      . intro n hpos hn
        rw [htick, hlink]
        apply Nat.le_refl
  | idle hlink hempty =>
    cases hstatus with
    | keep hsame =>
      apply h.unanswered hsettled hresolved hsame
      . refine ⟨[], ?_⟩
        simp [queued, hlink]
      . intro n hpos hn
        rw [hempty, List.length_nil] at hn
        omega
  | tick hids hticks =>
    cases hstatus with
    | keep hsame =>
      apply h.unanswered hsettled hresolved hsame
      . refine ⟨[], ?_⟩
        simp [hids]
      . intro n hpos hn
        rw [htick]
        apply Nat.le_of_eq
        apply hticks n hpos
  | timeout front hids hticks =>
    cases hstatus with
    | dead halive hcnt hsd =>
      apply h.giveUp hsettled hresolved htick halive hcnt hsd hids hticks

end Step

theorem draining_of_run {s₀ s : CSirCon} (hs : Settled s₀)
    {tr : List (Entry CSirCon LoopInput Action)} (hrun : loopMachine.Run s₀ tr s)
    (hsilent : ∀ e ∈ tr, delivers e = false)
    : Draining s₀ tr s := by
  induction hrun with
  | nil => apply draining_start hs
  | snoc hrun hstep ih =>
    rw [List.forall_mem_append, List.forall_mem_singleton] at hsilent
    apply (ih hsilent.1).step hstep hsilent.2

theorem Draining.all_answered {s₀ s : CSirCon} {tr : List (Entry CSirCon LoopInput Action)}
    (h : Draining s₀ tr s)
    (hticks : (maxRetries + 1) * s₀.link.queue.length + s₀.link.busyTimer
      ≤ (inputs tr).countP LoopInput.isTick)
    : (queued s₀).length ≤ (resolved (outputs tr)).length := by
  by_contra hless
  obtain ⟨n, hn⟩ := Nat.exists_eq_add_of_lt (Nat.lt_of_not_le hless)
  have hleft := h.ticks (n + 1) (by omega) (Nat.zero_lt_succ n)
  have hstart := ticksLeft_le (queued s₀).length s₀.link
  have hpos : 0 < ticksLeft (n + 1) s.link := by
    have hlength := h.left_le (n := n + 1) (by omega)
    unfold ticksLeft
    cases hqueue : s.link.queue with
    | nil =>
      rw [hqueue, List.length_nil] at hlength
      omega
    | cons front rest =>
      rw [ticksLeft.go]
      unfold attemptsLeft
      omega
  rw [length_queued] at hstart
  rw [length_queued] at hleft
  omega

theorem Draining.timedOut_prefix {s₀ s : CSirCon} {tr : List (Entry CSirCon LoopInput Action)}
    (h : Draining s₀ tr s)
    (hticks : (maxRetries + 1) * s₀.link.queue.length + s₀.link.busyTimer
      ≤ (inputs tr).countP LoopInput.isTick)
    : timedOut (queued s₀) <+: resolved (outputs tr) := by
  have hanswered := h.all_answered hticks
  obtain ⟨ids, pushed, hids, hfifo⟩ := h.answered
  rw [hids, timedOut, List.length_map] at hanswered
  rw [hids]
  apply List.IsPrefix.map
  apply List.prefix_of_prefix_length_le (List.prefix_append _ pushed)
  . rw [hfifo]
    apply List.prefix_append
  . exact hanswered

/--
A radio that has fallen silent is noticed: if a read times out although the radio has been heard of since
the last `OnTimeout` call, but not within the time limit, and nothing is heard of it for as many ticks as
the queue takes after that, then the request that was made for it has timed out and the link is dead.
-/
theorem silence_noticed {block : List UInt8} (hblock : block.length = stageBufSize) {start : Nat}
    (hstart : 0 < start) {tr : List (Entry CSirCon LoopInput Action)} {s : CSirCon}
    (hrun : loopMachine.Run (new block start) tr s) (hclock : Clocked start tr)
    {tr₁ tr₂ : List (Entry CSirCon LoopInput Action)} {e : Entry CSirCon LoopInput Action}
    (htr : tr = tr₁ ++ e :: tr₂) {now : Nat} (hinput : e.input = .iteration ⟨.timeout, now⟩)
    (hheard : heard tr₁ = true) (hsince : lastActivity start tr₁ + linkTimeout < now)
    (hsilent : ∀ e' ∈ tr₂, delivers e' = false)
    (hticks : (maxRetries + 1) * e.post.link.queue.length + e.post.link.busyTimer
      ≤ (inputs tr₂).countP LoopInput.isTick)
    : (e.pre.allocs, .timeout) ∈ resolved (outputs tr₂) ∧ s.linkAlive = false ∧ heard tr = false := by
  obtain ⟨hrun₁, hstep⟩ := hrun.of_prefix tr₁ e tr₂ htr
  have hpaced := paced_of_run hblock hrun₁
  rw [htr] at hclock
  have hexpired : Expired e.pre ⟨.timeout, now⟩ := by
    rw [hpaced.expired_iff hstart hclock.of_append]
    exact ⟨rfl, rfl, hheard, hsince⟩
  rw [hinput] at hstep
  obtain ⟨goesOn, hiter⟩ := step_iteration hstep
  have hprobe : e.pre.allocs ∈ queued e.post := by
    have heffect := activityEffect hpaced.settled hiter
    generalize e.out = acts at heffect
    cases heffect with
    | probe _ hlink =>
      unfold queued
      rw [hlink]
      simp [send, composeFrame]
    | read hnot => exact absurd hexpired hnot
  have h := draining_of_run (hpaced.settled.loopStep hstep) (hrun.suffix tr₁ e tr₂ htr) hsilent
  have hanswered := h.timedOut_prefix hticks
  have hmem : (e.pre.allocs, SCResult.timeout) ∈ resolved (outputs tr₂) := by
    apply hanswered.subset
    apply List.mem_map_of_mem hprobe
  have hdead : s.linkAlive = false := by
    rw [h.alive]
    cases hresolved : resolved (outputs tr₂) with
    | nil => simp [hresolved] at hmem
    | cons r rs => simp
  refine ⟨hmem, hdead, ?_⟩
  rw [← (paced_of_run hblock hrun).alive]
  exact hdead

theorem silence_noticed_probe
    : ∃ tr s,
        loopMachine.Run (new (List.replicate stageBufSize 0) 1) tr s
          ∧ inputs tr = [.iteration ⟨.data [0x00], 2⟩, .iteration ⟨.timeout, 33⟩, .timerProc,
              .iteration ⟨.timeout, 33⟩, .timerProc, .timerProc, .timerProc]
          ∧ (0, .timeout) ∈ resolved (outputs (tr.drop 2)) ∧ s.linkAlive = false
          ∧ heard tr = false := by
  let as : List LoopInput := [.iteration ⟨.data [0x00], 2⟩, .iteration ⟨.timeout, 33⟩, .timerProc,
    .iteration ⟨.timeout, 33⟩, .timerProc, .timerProc, .timerProc]
  have hexec : (loopMachine.exec (new (List.replicate stageBufSize 0) 1) as).any (fun r =>
      Clocked 1 r.1 ∧ heard (r.1.take 1) = true ∧ lastActivity 1 (r.1.take 1) = 2
        ∧ (∀ e ∈ r.1.drop 2, delivers e = false)
        ∧ (r.1.drop 1).head?.map (fun e => (e.pre.allocs, e.post.link.queue.length,
            e.post.link.busyTimer)) = some (0, 1, 0)) = true := by
    decide +kernel
  obtain ⟨tr, s, hrun, hin, hclock, hheard, hsince, hsilent, hprobe⟩ := exists_run hexec
  refine ⟨tr, s, hrun, hin, ?_⟩
  obtain ⟨e₁, tr₂, rfl, -, htail⟩ := List.map_eq_cons_iff.mp hin
  obtain ⟨e, tr₂, rfl, hinput, htail⟩ := List.map_eq_cons_iff.mp htail
  obtain ⟨hallocs, hlength, hbusy⟩ := by
    simpa only [List.drop_succ_cons, List.drop_zero, List.head?_cons, Option.map_some,
      Option.some.injEq, Prod.mk.injEq] using hprobe
  have htr : e₁ :: e :: tr₂ = [e₁] ++ e :: tr₂ := rfl
  have hlast : lastActivity 1 [e₁] = 2 := hsince
  rw [← hallocs]
  apply silence_noticed List.length_replicate (by decide) hrun hclock htr hinput
  . exact hheard
  . rw [hlast]
    decide
  . exact hsilent
  . rw [hlength, hbusy, inputs, htail]
    decide

end CSirCon
