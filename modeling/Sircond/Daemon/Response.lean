import Sircond.Daemon.Blocking
import Sircond.SirCon.Response
import Mathlib.Data.List.Nodup

/-!
This module contains how long the server thread may have to wait for a request. The timer thread waits
for nothing, so that the future of a request gets ready in the end even if the two other threads are in
each other's way; but then it is the timeout that makes it ready.
-/

open Machine Scp CSirCon

namespace Daemon

def Input.isTick : Input → Bool
  | .timerProc => true
  | .lock | .request _ | .resume | .unlock | .receive _ _ | .notify | .acquire | .release | .finish
  | .keepalive => false

def Input.isBusy : Input → Bool
  | .receive msg _ => ReportsBusy msg
  | .lock | .request _ | .resume | .unlock | .notify | .acquire | .release | .finish | .keepalive
  | .timerProc => false

/-- The frame that the radio thread is at, if any, is no acknowledgement. -/
def HandlesData (d : Daemon) : Prop :=
  ∀ msg events, d.radio = .handling msg events ∨ d.radio = .locking msg events
    ∨ d.radio = .sending msg events → (SHdr.ofBytes msg).flags &&& sfAck = 0

inductive SirConEffect (d d' : Daemon) (a : Input) : Prop
  | keep (hsircon : d'.sircon = d.sircon) (hdone : d'.done = d.done) (htick : a.isTick = false)
  | send (data : Payload) (hsircon : d'.sircon = (d.sircon.send data).1) (hdone : d'.done = d.done)
      (htick : a.isTick = false)
  | frame (msg : List UInt8) (hsircon : d'.sircon = (d.sircon.onFrame msg).1)
      (hdone : d'.done = d.done ++ resolved (d.sircon.onFrame msg).2) (htick : a.isTick = false)
      (hbusy : ReportsBusy msg → a.isBusy = true)
  | tick (hsircon : d'.sircon = d.sircon.timerProc.1)
      (hdone : d'.done = d.done ++ resolved d.sircon.timerProc.2)

theorem resolved_onFrame_of_data (s : CSirCon) {msg : List UInt8}
    (hdata : (SHdr.ofBytes msg).flags &&& sfAck = 0)
    : resolved (s.onFrame msg).2 = [] := by
  rcases onFrame_queue s msg with ⟨-, hnone⟩ | ⟨_, _, _, _, _, hack⟩
  . apply hnone
  . exact absurd hdata hack

theorem sirConEffect_notify {d : Daemon} {msg : List UInt8} {e : SCEvent} {events : List SCEvent}
    : SirConEffect d (d.notify msg e events) .notify := by
  unfold notify
  cases e.update with
  | notifyAll | notify | unhandled => exact .keep rfl rfl rfl
  | setPower => exact .send (setPower 0x03) rfl rfl rfl

theorem handlesData_notify {d : Daemon} (h : HandlesData d) {msg : List UInt8} {e : SCEvent}
    {events : List SCEvent} (hhandling : d.radio = .handling msg (e :: events))
    : HandlesData (d.notify msg e events) := by
  have hdata := h msg _ (.inl hhandling)
  intro msg' events' hradio
  unfold notify at hradio
  cases hupdate : e.update with
  | notifyAll | notify | unhandled | setPower =>
    simp only [hupdate, reduceCtorEq, RadioPoint.handling.injEq, RadioPoint.locking.injEq, false_or,
      or_false] at hradio
    rw [← hradio.1]
    apply hdata

theorem HandlesData.of_radio {d d' : Daemon} (h : HandlesData d) (hradio : d'.radio = d.radio)
    : HandlesData d' := by
  unfold HandlesData at *
  rw [hradio]
  apply h

theorem sirConEffect {d d' : Daemon} {a : Input} {acts : List Action} (h : HandlesData d)
    (hstep : machine.step d a = some (d', acts))
    : HandlesData d' ∧ SirConEffect d d' a := by
  cases a with
  | lock =>
    simp only [machine] at hstep
    split at hstep
    . obtain ⟨rfl, -⟩ := Prod.mk.inj (Option.some.inj hstep)
      exact ⟨h.of_radio rfl, .keep rfl rfl rfl⟩
    . simp at hstep
  | request data =>
    simp only [machine] at hstep
    split at hstep
    . obtain ⟨rfl, -⟩ := Prod.mk.inj (Option.some.inj hstep)
      exact ⟨h.of_radio rfl, .send data rfl rfl rfl⟩
    . simp at hstep
  | resume =>
    simp only [machine] at hstep
    split at hstep
    . split at hstep
      . obtain ⟨rfl, -⟩ := Prod.mk.inj (Option.some.inj hstep)
        exact ⟨h.of_radio rfl, .keep rfl rfl rfl⟩
      . simp at hstep
    all_goals simp at hstep
  | unlock =>
    simp only [machine] at hstep
    split at hstep
    . obtain ⟨rfl, -⟩ := Prod.mk.inj (Option.some.inj hstep)
      exact ⟨h.of_radio rfl, .keep rfl rfl rfl⟩
    . simp at hstep
  | receive msg after =>
    simp only [machine] at hstep
    split at hstep
    . next hreceiving =>
      have heq : (d.receive msg after).1 = d' := congrArg Prod.fst (Option.some.inj hstep)
      unfold receive at heq
      dsimp only at heq
      split at heq
      . subst heq
        exact ⟨h.of_radio rfl, .frame msg rfl rfl rfl decide_eq_true⟩
      . next hdata =>
        subst heq
        refine ⟨?_, .keep rfl rfl rfl⟩
        intro msg' events' hradio
        simp only [reduceCtorEq, RadioPoint.handling.injEq, or_false] at hradio
        rw [← hradio.1]
        simpa using hdata
    . simp at hstep
  | notify =>
    simp only [machine] at hstep
    split at hstep
    . next msg e events hhandling =>
      obtain ⟨rfl, -⟩ := Prod.mk.inj (Option.some.inj hstep)
      exact ⟨handlesData_notify h hhandling, sirConEffect_notify⟩
    all_goals simp at hstep
  | acquire =>
    simp only [machine] at hstep
    split at hstep
    . next msg events hlocking =>
      split at hstep
      . obtain ⟨rfl, -⟩ := Prod.mk.inj (Option.some.inj hstep)
        refine ⟨?_, .keep rfl rfl rfl⟩
        intro msg' events' hradio
        simp only [reduceCtorEq, RadioPoint.sending.injEq, false_or] at hradio
        rw [← hradio.1]
        apply h msg events (.inr (.inl hlocking))
      . simp at hstep
    all_goals simp at hstep
  | release =>
    simp only [machine] at hstep
    split at hstep
    . next msg events hsending =>
      obtain ⟨rfl, -⟩ := Prod.mk.inj (Option.some.inj hstep)
      refine ⟨?_, .keep rfl rfl rfl⟩
      intro msg' events' hradio
      simp only [reduceCtorEq, RadioPoint.handling.injEq, or_false] at hradio
      rw [← hradio.1]
      apply h msg events (.inr (.inr hsending))
    all_goals simp at hstep
  | finish =>
    simp only [machine] at hstep
    split at hstep
    . next msg hhandling =>
      obtain ⟨rfl, -⟩ := Prod.mk.inj (Option.some.inj hstep)
      have hdata := h msg _ (.inl hhandling)
      refine ⟨?_, .frame msg rfl ?_ rfl ?_⟩
      . intro msg' events' hradio
        simp at hradio
      . rw [resolved_onFrame_of_data _ hdata, List.append_nil]
      . intro hbusy
        exact absurd hdata hbusy.1
    all_goals simp at hstep
  | keepalive =>
    simp only [machine] at hstep
    split at hstep
    . obtain ⟨rfl, -⟩ := Prod.mk.inj (Option.some.inj hstep)
      exact ⟨h.of_radio rfl, .send getRSSI rfl rfl rfl⟩
    . simp at hstep
  | timerProc =>
    obtain ⟨rfl, -⟩ := Prod.mk.inj (Option.some.inj hstep)
    exact ⟨h.of_radio rfl, .tick rfl rfl⟩

structure Sound (d : Daemon) : Prop where
  data : HandlesData d
  persistent : Persistent d.sircon

theorem sound_start (block : List UInt8) (now : Nat) : Sound (start (new block now)) where
  data msg events h := by simp [start] at h
  persistent := persistent_new block now

theorem Sound.step {d d' : Daemon} {a : Input} {acts : List Action} (h : Sound d)
    (hstep : machine.step d a = some (d', acts))
    : Sound d' := by
  obtain ⟨hdata, heffect⟩ := sirConEffect h.data hstep
  refine ⟨hdata, ?_⟩
  cases heffect with
  | keep hsircon =>
    rw [hsircon]
    apply h.persistent
  | send data hsircon =>
    rw [hsircon]
    apply h.persistent.send
  | frame msg hsircon =>
    rw [hsircon]
    apply h.persistent.onFrame
  | tick hsircon =>
    rw [hsircon]
    apply h.persistent.timerProc

def Answered (id : Nat) (d : Daemon) : Prop := ∃ rc, (id, rc) ∈ d.done

theorem SirConEffect.answered {d d' : Daemon} {a : Input} (h : SirConEffect d d' a) {id : Nat}
    (hd : Answered id d)
    : Answered id d' := by
  obtain ⟨rc, hrc⟩ := hd
  refine ⟨rc, ?_⟩
  cases h with
  | keep _ hdone | send _ _ hdone => rwa [hdone]
  | frame _ _ hdone | tick _ hdone =>
    rw [hdone]
    apply List.mem_append_left _ hrc

theorem SirConEffect.patience {d d' : Daemon} {a : Input} (h : SirConEffect d d' a)
    (hd : Persistent d.sircon) {id : Nat} (hqueued : id ∈ queued d.sircon)
    : Answered id d'
        ∨ id ∈ queued d'.sircon
          ∧ d'.sircon.patience id + a.isTick.toNat ≤ d.sircon.patience id + a.isBusy.toNat := by
  have hanswered : ∀ res : List (Nat × SCResult), d'.done = d.done ++ res →
      (∃ rc, (id, rc) ∈ res) → Answered id d' := by
    rintro res hdone ⟨rc, hrc⟩
    refine ⟨rc, ?_⟩
    rw [hdone]
    apply List.mem_append_right _ hrc
  cases h with
  | keep hsircon hdone htick =>
    right
    rw [hsircon, htick]
    exact ⟨hqueued, Nat.le_add_right _ _⟩
  | send data hsircon hdone htick =>
    right
    obtain ⟨hqueued', hsame⟩ := patience_send hqueued data
    rw [hsircon, htick, hsame]
    exact ⟨hqueued', Nat.le_add_right _ _⟩
  | frame msg hsircon hdone htick hbusy =>
    rcases patience_onFrame hqueued msg with hres | ⟨hqueued', hle⟩
    . exact .inl (hanswered _ hdone hres)
    . right
      rw [hsircon, htick]
      refine ⟨hqueued', Nat.le_trans hle ?_⟩
      apply Nat.add_le_add_left
      by_cases hreports : ReportsBusy msg
      . simp [hreports, hbusy hreports]
      . simp [hreports]
  | tick hsircon hdone =>
    rcases patience_timerProc hd hqueued with hres | ⟨hqueued', hle⟩
    . exact .inl (hanswered _ hdone ⟨.timeout, hres⟩)
    . right
      rw [hsircon]
      refine ⟨hqueued', ?_⟩
      have htick : a.isTick.toNat ≤ 1 := Bool.toNat_le _
      omega

/-- No frame is answered twice, and none that is answered is queued. -/
structure Distinct (d : Daemon) : Prop where
  nodup : (d.done.map Prod.fst ++ queued d.sircon).Nodup
  lt : ∀ id ∈ d.done.map Prod.fst ++ queued d.sircon, id < d.sircon.allocs

theorem distinct_start (block : List UInt8) (now : Nat) : Distinct (start (new block now)) where
  nodup := .nil
  lt := by simp [start, new, queued]

theorem Distinct.of_perm {d d' : Daemon} (h : Distinct d)
    (heq : d'.done.map Prod.fst ++ queued d'.sircon = d.done.map Prod.fst ++ queued d.sircon)
    (hallocs : d'.sircon.allocs = d.sircon.allocs)
    : Distinct d' where
  nodup := by
    rw [heq]
    apply h.nodup
  lt := by
    rw [heq, hallocs]
    apply h.lt

theorem Distinct.step {d d' : Daemon} {a : Input} (h : Distinct d) (heffect : SirConEffect d d' a)
    : Distinct d' := by
  cases heffect with
  | keep hsircon hdone => exact h.of_perm (by rw [hsircon, hdone]) (by rw [hsircon])
  | send data hsircon hdone =>
    have hqueued : queued d'.sircon = queued d.sircon ++ [d.sircon.allocs] := by
      rw [hsircon]
      simp [queued, send, composeFrame]
    have hallocs : d'.sircon.allocs = d.sircon.allocs + 1 := by
      rw [hsircon]
      rfl
    constructor
    . rw [hdone, hqueued, ← List.append_assoc]
      rw [List.nodup_append]
      refine ⟨h.nodup, List.nodup_cons.mpr ⟨List.not_mem_nil, .nil⟩, ?_⟩
      intro id hid id' hid'
      obtain rfl : id' = d.sircon.allocs := by simpa using hid'
      exact Nat.ne_of_lt (h.lt id hid)
    . rw [hdone, hqueued, hallocs, ← List.append_assoc]
      intro id hid
      rw [List.mem_append, List.mem_singleton] at hid
      rcases hid with hold | rfl
      . exact Nat.lt_succ_of_lt (h.lt id hold)
      . exact Nat.lt_succ_self _
  | frame msg hsircon hdone =>
    apply h.of_perm
    . rw [hdone, hsircon, List.map_append, List.append_assoc]
      congr 1
      rcases onFrame_queue d.sircon msg with ⟨hsame, hnone⟩ | ⟨front, rest, hqueue, hrest, hres, -⟩
      . rw [hnone, queued, hsame]
        rfl
      . rw [hres, queued, hrest, queued, hqueue]
        rfl
    . rw [hsircon]
      rfl
  | tick hsircon hdone =>
    apply h.of_perm
    . rw [hdone, hsircon, List.map_append, List.append_assoc,
        (queueEffect_timerProc d.sircon).queued_eq]
      simp [CSirCon.Input.pushes]
    . rw [hsircon]
      apply (timerProc_counters d.sircon).1

theorem deadlocked_step {d d' : Daemon} {a : Input} {acts : List Action} (h : Deadlocked d)
    (hdistinct : Distinct d) (hstep : machine.step d a = some (d', acts))
    : a = .timerProc := by
  obtain ⟨hawaiting, hlocking, hmutex⟩ := h
  unfold Awaiting at hawaiting
  unfold Locking at hlocking
  cases hserver : d.server with
  | select | processing => simp [hserver] at hawaiting
  | waiting id =>
    cases hradio : d.radio with
    | receiving | handling | sending => simp [hradio] at hlocking
    | locking msg events =>
      rw [hserver] at hawaiting
      have hdone : id ∉ d.done.map Prod.fst := by
        intro hmem
        exact (List.nodup_append.mp hdistinct.nodup).2.2 id hmem id hawaiting rfl
      cases a with
      | timerProc => rfl
      | resume =>
        simp only [machine, hserver] at hstep
        rw [if_neg hdone] at hstep
        simp at hstep
      | lock | request | unlock | receive | notify | acquire | release | finish | keepalive =>
        simp [machine, hserver, hradio, hmutex] at hstep

theorem Deadlocked.timerProc {d d' : Daemon} {acts : List Action} (h : Deadlocked d)
    (hpersistent : Persistent d.sircon) {id : Nat} (hwaiting : d.server = .waiting id)
    (hstep : machine.step d .timerProc = some (d', acts))
    : (id, .timeout) ∈ d'.done
        ∨ (Deadlocked d' ∧ d'.server = .waiting id)
          ∧ d'.sircon.patience id + 1 ≤ d.sircon.patience id := by
  obtain ⟨hawaiting, hlocking, hmutex⟩ := h
  obtain ⟨rfl, -⟩ := Prod.mk.inj (Option.some.inj hstep)
  unfold Awaiting at hawaiting
  rw [hwaiting] at hawaiting
  rcases patience_timerProc hpersistent hawaiting with htimeout | ⟨hqueued, hle⟩
  . exact .inl (List.mem_append_right _ htimeout)
  . refine .inr ⟨⟨⟨?_, hlocking, hmutex⟩, hwaiting⟩, hle⟩
    unfold Awaiting
    dsimp only
    rw [hwaiting]
    exact hqueued

theorem Distinct.unique {d : Daemon} (h : Distinct d) {id : Nat} {rc rc' : SCResult}
    (hrc : (id, rc) ∈ d.done) (hrc' : (id, rc') ∈ d.done)
    : rc = rc' := by
  have hnodup := (List.nodup_append.mp h.nodup).1
  exact congrArg Prod.snd (List.inj_on_of_nodup_map hnodup hrc hrc' rfl)

/--
A deadlock ends with a timeout: the command that waits in it gets no other result, and it gets this one
when the timer has ticked four times for each frame in the queue, and once for a pause that is on.
-/
theorem deadlock_times_out {block : List UInt8} {now : Nat} {tr : List (Entry Daemon Input Action)}
    {d : Daemon} (hrun : machine.Run (start (new block now)) tr d)
    (tr₁ : List (Entry Daemon Input Action)) (e : Entry Daemon Input Action)
    (tr₂ : List (Entry Daemon Input Action)) (htr : tr = tr₁ ++ e :: tr₂)
    (hdead : Deadlocked e.post) (id : Nat) (hwaiting : e.post.server = .waiting id)
    : (∀ rc, (id, rc) ∈ d.done → rc = .timeout)
        ∧ ((maxRetries + 1) * e.post.sircon.link.queue.length + e.post.sircon.link.busyTimer
            ≤ (inputs tr₂).countP Input.isTick → (id, .timeout) ∈ d.done) := by
  have hkeep : ∀ d a d' acts, Sound d ∧ Distinct d → machine.step d a = some (d', acts) →
      Sound d' ∧ Distinct d' := by
    rintro d a d' acts ⟨hsound, hdistinct⟩ hstep
    exact ⟨hsound.step hstep, hdistinct.step (sirConEffect hsound.data hstep).2⟩
  obtain ⟨hrun₁, hstep⟩ := hrun.of_prefix tr₁ e tr₂ htr
  have hinit : Sound e.pre ∧ Distinct e.pre := by
    apply hrun₁.invariant (I := fun _ d => Sound d ∧ Distinct d)
    . exact ⟨sound_start block now, distinct_start block now⟩
    . exact fun _ _ _ _ _ => hkeep _ _ _ _
  obtain ⟨⟨hsound, hdistinct⟩, hresponse⟩ := (hrun.suffix tr₁ e tr₂ htr).response
    (P := fun d => Deadlocked d ∧ d.server = .waiting id) (D := fun _ d => (id, .timeout) ∈ d.done)
    (m := fun d => d.sircon.patience id) Input.isTick (fun _ => false) hkeep
    (by
      rintro tr d a d' acts ⟨hsound, -⟩ htimeout hstep
      cases (sirConEffect hsound.data hstep).2 with
      | keep _ hdone | send _ _ hdone => rwa [hdone]
      | frame _ _ hdone | tick _ hdone =>
        rw [hdone]
        apply List.mem_append_left _ htimeout)
    (by
      rintro tr d a d' acts ⟨hsound, hdistinct⟩ ⟨hdead, hwaiting⟩ hstep
      obtain rfl := deadlocked_step hdead hdistinct hstep
      apply hdead.timerProc hsound.persistent hwaiting hstep)
    (hkeep _ _ _ _ hinit hstep) ⟨hdead, hwaiting⟩
  rcases hresponse with htimeout | ⟨⟨hdead', hwaiting'⟩, hle⟩
  . exact ⟨fun rc hrc => hdistinct.unique hrc htimeout, fun _ => htimeout⟩
  . have hqueued : id ∈ queued d.sircon := by
      have hawaiting := hdead'.awaiting
      unfold Awaiting at hawaiting
      rwa [hwaiting'] at hawaiting
    constructor
    . intro rc hrc
      have hmem : id ∈ d.done.map Prod.fst := List.mem_map_of_mem hrc
      exact absurd rfl ((List.nodup_append.mp hdistinct.nodup).2.2 id hmem id hqueued)
    . intro hticks
      have hpos := patience_pos hsound.persistent hqueued
      have hstart := patience_le e.post.sircon id
      have hnone : (inputs tr₂).countP (fun _ => false) = 0 := by simp
      rw [hnone] at hle
      omega

theorem deadlock_times_out_event
    : ∃ tr d, machine.Run (start (new (List.replicate stageBufSize 0) 1)) tr d
        ∧ inputs tr
            = [.lock, .request getGain, .timerProc,
                .receive (frameBytes 0x00 ⟨[msgAsync, scpAsyncSignal, 0x03, 0x02, 0x01], by decide⟩)
                  fun _ => 0,
                .notify, .timerProc, .timerProc, .timerProc, .timerProc, .resume]
        ∧ (0, .timeout) ∈ d.done ∧ ∀ rc, (0, rc) ∈ d.done → rc = .timeout := by
  obtain ⟨tr, d, hrun, hin, hcheck⟩ := exists_run (show (machine.exec
    (start (new (List.replicate stageBufSize 0) 1))
    [.lock, .request getGain, .timerProc,
      .receive (frameBytes 0x00 ⟨[msgAsync, scpAsyncSignal, 0x03, 0x02, 0x01], by decide⟩)
        fun _ => 0,
      .notify, .timerProc, .timerProc, .timerProc, .timerProc, .resume]).any
    (fun r => ∀ e ∈ r.1[4]?, Deadlocked e.post ∧ e.post.server = .waiting 0
      ∧ e.post.sircon.link.queue.length = 1 ∧ e.post.sircon.link.busyTimer = 0) = true by
      decide +kernel)
  refine ⟨tr, d, hrun, hin, ?_⟩
  obtain ⟨e₀, tr', rfl, -, htail⟩ := List.map_eq_cons_iff.mp hin
  obtain ⟨e₁, tr', rfl, -, htail⟩ := List.map_eq_cons_iff.mp htail
  obtain ⟨e₂, tr', rfl, -, htail⟩ := List.map_eq_cons_iff.mp htail
  obtain ⟨e₃, tr', rfl, -, htail⟩ := List.map_eq_cons_iff.mp htail
  obtain ⟨e₄, tr', rfl, -, htail⟩ := List.map_eq_cons_iff.mp htail
  obtain ⟨hdead, hwaiting, hlength, hbusy⟩ := hcheck e₄ rfl
  obtain ⟨honly, htimeout⟩ :=
    deadlock_times_out hrun [e₀, e₁, e₂, e₃] e₄ tr' rfl hdead 0 hwaiting
  refine ⟨htimeout ?_, honly⟩
  rw [hlength, hbusy, inputs, htail]
  decide

end Daemon
