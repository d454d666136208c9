import Sircond.SirCon.Machine
import Sircond.SirCon.ReceiveLoop

/-!
This module contains the accounting of link failures: how often `OnTimeout` has been called since the
last read that brought a byte, and what the flag and the counter of the link say about it.
-/

open Scp Machine

namespace CSirCon

def decoded (s : CSirCon) (e : RecvEvent) : List UInt8 := ((s.read e).map Prod.snd).getD []

def delivers (e : Entry CSirCon LoopInput Action) : Bool :=
  match e.input with
  | .iteration ev => !(e.pre.decoded ev).isEmpty
  | .send _ => false
  | .timerProc => false

def onTimeouts (acts : List Action) : Nat := (resolved acts).countP fun r => r.2 = .timeout

def failuresAfter (n : Nat) (e : Entry CSirCon LoopInput Action) : Nat :=
  if delivers e then 0 else n + onTimeouts e.out

/--
The number of `OnTimeout` calls since the last read that delivered at least one decoded byte.
-/
def failures (tr : List (Entry CSirCon LoopInput Action)) : Nat := tr.foldl failuresAfter 0

theorem failures_append (tr : List (Entry CSirCon LoopInput Action))
    (e : Entry CSirCon LoopInput Action)
    : failures (tr ++ [e]) = failuresAfter (failures tr) e := by
  simp [failures]

structure SameStatus (s s' : CSirCon) : Prop where
  linkAlive : s'.linkAlive = s.linkAlive
  linkFailCnt : s'.linkFailCnt = s.linkFailCnt
  shutdown : s'.shutdown = s.shutdown

theorem SameStatus.trans {s₁ s₂ s₃ : CSirCon} (h₁ : SameStatus s₁ s₂) (h₂ : SameStatus s₂ s₃)
    : SameStatus s₁ s₃ where
  linkAlive := h₂.linkAlive.trans h₁.linkAlive
  linkFailCnt := h₂.linkFailCnt.trans h₁.linkFailCnt
  shutdown := h₂.shutdown.trans h₁.shutdown

theorem onTimeouts_append (acts₁ acts₂ : List Action)
    : onTimeouts (acts₁ ++ acts₂) = onTimeouts acts₁ + onTimeouts acts₂ := by
  simp [onTimeouts]

theorem onTimeouts_of_handling {acts : List Action} (h : acts.all Action.isHandling = true)
    : onTimeouts acts = 0 := by
  unfold onTimeouts resolved
  rw [List.countP_filterMap, List.countP_eq_zero]
  intro act hact
  have hhandling := List.all_eq_true.mp h act hact
  cases act with
  | resolve id rc =>
    cases rc with
    | success => simp
    | timeout | noMemory => simp [Action.isHandling] at hhandling
  | dispatch | sendACK | ack | transmit | keepalive | markRead => simp

theorem parse_status {s s' : CSirCon} {fuel : Nat} {acts : List Action}
    (hparse : s.parse fuel = some (s', acts))
    : SameStatus s s' ∧ onTimeouts acts = 0 := by
  obtain ⟨hacts, hsame⟩ := parse_handling fuel hparse
  rw [hsame]
  exact ⟨⟨rfl, rfl, rfl⟩, onTimeouts_of_handling hacts⟩

theorem afterRead_status (s : CSirCon) (now bytes : Nat)
    : onTimeouts (s.afterRead now bytes).2 = 0 ∧ (s.afterRead now bytes).1.shutdown = s.shutdown
        ∧ (s.afterRead now bytes).1.linkAlive = (s.linkAlive || bytes > 0)
        ∧ (s.afterRead now bytes).1.linkFailCnt
            = (if bytes > 0 && !s.linkAlive then 0 else s.linkFailCnt) := by
  unfold afterRead
  split
  . next hbytes =>
    split
    . next hdead => simp_all [onTimeouts, resolved]
    . next halive => simp_all [onTimeouts, resolved]
  . next hbytes =>
    split
    . simp [hbytes, send, composeFrame, onTimeouts, resolved]
    . simp [hbytes, onTimeouts, resolved]

/--
What a step does to the status of the link: a read that brings a byte revives a dead link, a timeout
declares it dead and counts, and nothing else touches it.
-/
inductive StatusEffect (s s' : CSirCon) : Bool → Nat → Prop
  | keep (hsame : SameStatus s s') : StatusEffect s s' false 0
  | alive (halive : s'.linkAlive = true)
      (hcnt : s'.linkFailCnt = if s.linkAlive then s.linkFailCnt else 0)
      (hsd : s'.shutdown = s.shutdown)
    : StatusEffect s s' true 0
  | dead (halive : s'.linkAlive = false) (hcnt : s'.linkFailCnt = s.linkFailCnt + 1)
      (hsd : s'.shutdown = (s.shutdown || s'.linkFailCnt > maxLinkFailures))
    : StatusEffect s s' false 1

theorem statusEffect_timerProc (s : CSirCon)
    : StatusEffect s s.timerProc.1 false (onTimeouts s.timerProc.2) := by
  unfold timerProc
  split
  . exact .keep ⟨rfl, rfl, rfl⟩
  . split
    . exact .keep ⟨rfl, rfl, rfl⟩
    . dsimp only
      split
      . exact .dead rfl rfl rfl
      . exact .keep ⟨rfl, rfl, rfl⟩

theorem statusEffect_iteration {s s' : CSirCon} {e : RecvEvent} {acts : List Action} {goesOn : Bool}
    (h : s.iteration e = some (s', acts, goesOn))
    : StatusEffect s s' (!(s.decoded e).isEmpty) (onTimeouts acts) := by
  have hdecoded : s.decoded e
      = { s with stagebuf := s.stagebuf.getWriteLen.2 }.decoded e := by
    unfold decoded read
    cases e.result <;> rfl
  rw [hdecoded]
  unfold iteration at h
  dsimp only at h
  split at h
  . split at h
    . next hread =>
      obtain ⟨rfl, rfl, -⟩ := by
        simpa only [Option.some.injEq, Prod.mk.injEq] using h
      unfold decoded
      rw [hread]
      exact .keep ⟨rfl, rfl, rfl⟩
    . next s₁ buf hread =>
      have hsame : SameStatus s s₁ := by
        unfold read at hread
        split at hread
        . simp at hread
        . obtain ⟨rfl, -⟩ := Prod.mk.inj (Option.some.inj hread)
          exact ⟨rfl, rfl, rfl⟩
        . obtain ⟨rfl, -⟩ := Prod.mk.inj (Option.some.inj hread)
          exact ⟨rfl, rfl, rfl⟩
      simp only [Option.bind_eq_bind, Option.bind_eq_some_iff, Option.pure_def, Option.some.injEq,
        Prod.mk.injEq, Prod.exists] at h
      obtain ⟨stagebuf, -, s₂, acts₂, hparse, rfl, rfl, -⟩ := h
      obtain ⟨hafter, hsd, halive, hcnt⟩ :=
        afterRead_status { s₁ with stagebuf } e.now buf.length
      obtain ⟨hstatus, hacts⟩ := parse_status hparse
      unfold decoded
      rw [hread, onTimeouts_append, hafter, hacts]
      cases buf with
      | nil =>
        simp only [List.length_nil, Nat.lt_irrefl, gt_iff_lt, decide_false, Bool.or_false,
          Bool.false_and, Bool.false_eq_true, if_false] at halive hcnt
        apply StatusEffect.keep
        apply hsame.trans
        apply SameStatus.trans ⟨halive, hcnt, hsd⟩ hstatus
      | cons b buf =>
        apply StatusEffect.alive
        . rw [hstatus.linkAlive, halive]
          simp
        . rw [hstatus.linkFailCnt, hcnt]
          simp only [hsame.linkAlive, hsame.linkFailCnt]
          cases s.linkAlive <;> simp
        . rw [hstatus.shutdown, hsd]
          exact hsame.shutdown
  . simp at h

theorem statusEffect {s s' : CSirCon} {a : LoopInput} {acts : List Action}
    (hstep : loopMachine.step s a = some (s', acts))
    : StatusEffect s s' (delivers ⟨s, a, acts, s'⟩) (onTimeouts acts) := by
  cases a with
  | iteration e =>
    simp only [loopMachine] at hstep
    split at hstep
    . simp only [Option.map_eq_some_iff, Prod.exists, Prod.mk.injEq] at hstep
      obtain ⟨s₁, acts₁, goesOn, hiter, rfl, rfl⟩ := hstep
      apply statusEffect_iteration hiter
    . simp at hstep
  | send data =>
    obtain ⟨rfl, rfl⟩ := Prod.mk.inj (Option.some.inj hstep)
    exact .keep ⟨rfl, rfl, rfl⟩
  | timerProc =>
    have heffect := statusEffect_timerProc s
    rw [show s.timerProc = (s', acts) from Option.some.inj hstep] at heffect
    exact heffect

/--
What the history of a run says about the status of the link. The counter is reset only when a dead
link revives, so that an alive link must have no failures.
-/
structure Accounts (tr : List (Entry CSirCon LoopInput Action)) (s : CSirCon) : Prop where
  count : s.linkFailCnt = failures tr
  alive : s.linkAlive = true → failures tr = 0

theorem Accounts.step {tr : List (Entry CSirCon LoopInput Action)} {s s' : CSirCon} {a : LoopInput}
    {acts : List Action} (h : Accounts tr s) (hstep : loopMachine.step s a = some (s', acts))
    : Accounts (tr ++ [⟨s, a, acts, s'⟩]) s'
        ∧ s'.shutdown = (s.shutdown || (0 < onTimeouts acts
            && maxLinkFailures < failures (tr ++ [⟨s, a, acts, s'⟩]))) := by
  have hcount := h.count
  have halive := h.alive
  have hfailures : failures (tr ++ [⟨s, a, acts, s'⟩])
      = if delivers ⟨s, a, acts, s'⟩ then 0 else failures tr + onTimeouts acts :=
    failures_append tr _
  have heffect := statusEffect hstep
  rw [hfailures]
  generalize delivers ⟨s, a, acts, s'⟩ = delivered, onTimeouts acts = timeouts
    at heffect hfailures
  cases heffect with
  | keep hsame =>
    refine ⟨⟨?_, ?_⟩, ?_⟩
    . rw [hsame.linkFailCnt, hcount, hfailures]
      rfl
    . rw [hsame.linkAlive, hfailures]
      exact halive
    . rw [hsame.shutdown]
      simp
  | alive halive' hcnt hsd =>
    refine ⟨⟨?_, ?_⟩, ?_⟩
    . rw [hcnt, hfailures, if_pos rfl]
      cases hs : s.linkAlive with
      | false => rfl
      | true => rw [if_pos rfl, hcount, halive hs]
    . intro _
      rw [hfailures, if_pos rfl]
    . rw [hsd]
      simp
  | dead halive' hcnt hsd =>
    refine ⟨⟨?_, ?_⟩, ?_⟩
    . rw [hcnt, hcount, hfailures]
      rfl
    . intro h
      rw [halive'] at h
      simp at h
    . rw [hsd, hcnt, hcount]
      simp

theorem Accounts.of_run {block : List UInt8} {now : Nat}
    {tr : List (Entry CSirCon LoopInput Action)} {s : CSirCon}
    (hrun : loopMachine.Run (new block now) tr s)
    : Accounts tr s := by
  apply hrun.invariant
  . exact ⟨rfl, fun _ => rfl⟩
  . intro tr s a s' acts h hstep
    apply (h.step hstep).1

theorem shutdown_iff {block : List UInt8} {now : Nat} {tr : List (Entry CSirCon LoopInput Action)}
    {s : CSirCon} (hrun : loopMachine.Run (new block now) tr s)
    : s.shutdown = true ↔ ∃ tr₁, tr₁ <+: tr ∧ maxLinkFailures < failures tr₁ := by
  apply (hrun.invariant (I := fun tr s => Accounts tr s
    ∧ (s.shutdown = true ↔ ∃ tr₁, tr₁ <+: tr ∧ maxLinkFailures < failures tr₁)) ?_ ?_).2
  . refine ⟨⟨rfl, fun _ => rfl⟩, ?_⟩
    simp [new, failures]
  . intro tr s a s' acts hinv hstep
    obtain ⟨hacc, hiff⟩ := hinv
    obtain ⟨hacc', hsd⟩ := hacc.step hstep
    refine ⟨hacc', ?_⟩
    have hle : onTimeouts acts = 0
        → failures (tr ++ [⟨s, a, acts, s'⟩]) ≤ failures tr := by
      intro hzero
      rw [failures_append]
      unfold failuresAfter
      rw [hzero]
      split <;> omega
    rw [hsd, Bool.or_eq_true, hiff, Bool.and_eq_true, decide_eq_true_eq, decide_eq_true_eq]
    simp only [List.prefix_concat_iff]
    constructor
    . rintro (⟨tr₁, hpre, hmax⟩ | ⟨-, hmax⟩)
      . exact ⟨tr₁, .inr hpre, hmax⟩
      . exact ⟨_, .inl rfl, hmax⟩
    . rintro ⟨tr₁, rfl | hpre, hmax⟩
      . by_cases hzero : onTimeouts acts = 0
        . left
          have := hle hzero
          exact ⟨tr, List.prefix_refl tr, by omega⟩
        . right
          exact ⟨by omega, hmax⟩
      . left
        exact ⟨tr₁, hpre, hmax⟩

/--
The accounting of link failures: the counter is the number of `OnTimeout` calls since the last read
that delivered a decoded byte, the link is alive only while this number is zero, and `OnTimeout` calls
`Shutdown` if and only if the number exceeds `maxLinkFailures`, so that nothing is shut down as long as
it never does.
-/
theorem link_accounting {block : List UInt8} {now : Nat}
    {tr : List (Entry CSirCon LoopInput Action)} {s : CSirCon}
    (hrun : loopMachine.Run (new block now) tr s)
    : s.linkFailCnt = failures tr
        ∧ (s.linkAlive = true → failures tr = 0)
        ∧ (s.shutdown = true ↔ ∃ tr₁, tr₁ <+: tr ∧ maxLinkFailures < failures tr₁)
        ∧
      ∀ tr₁ e tr₂, tr = tr₁ ++ e :: tr₂ →
        e.post.shutdown
          =
        (e.pre.shutdown || (0 < onTimeouts e.out && maxLinkFailures < failures (tr₁ ++ [e]))) := by
  have hacc := Accounts.of_run hrun
  refine ⟨hacc.count, hacc.alive, shutdown_iff hrun, ?_⟩
  intro tr₁ e tr₂ htr
  obtain ⟨hrun₁, hstep⟩ := hrun.of_prefix tr₁ e tr₂ htr
  apply ((Accounts.of_run hrun₁).step hstep).2

theorem link_accounting_revived
    : ∃ tr s,
        loopMachine.Run (new (List.replicate stageBufSize 0) 1) tr s
          ∧ inputs tr = [.send getRSSI, .timerProc, .timerProc, .timerProc, .timerProc,
              .iteration ⟨.data [0x00], 2⟩, .send getRSSI, .timerProc, .timerProc, .timerProc,
              .timerProc]
          ∧ onTimeouts (outputs tr) = 2 ∧ s.linkFailCnt = failures tr ∧ failures tr = 1
          ∧ s.shutdown = false := by
  obtain ⟨tr, s, hrun, hin, hcheck⟩ := exists_run (show (loopMachine.exec
    (new (List.replicate stageBufSize 0) 1) [.send getRSSI, .timerProc, .timerProc, .timerProc,
      .timerProc, .iteration ⟨.data [0x00], 2⟩, .send getRSSI, .timerProc, .timerProc, .timerProc,
      .timerProc]).any
    (fun r => onTimeouts (outputs r.1) = 2 ∧ failures r.1 = 1 ∧ r.2.shutdown = false) = true by
      decide +kernel)
  exact ⟨tr, s, hrun, hin, hcheck.1, (link_accounting hrun).1, hcheck.2.1, hcheck.2.2⟩

end CSirCon
