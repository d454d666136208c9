import Sircond.Daemon.Impl

/-!
This module contains how the server thread and the radio thread come to wait for each other: the
server for a future that only the radio can make ready, and the radio for the mutex the server holds.
Nothing but the timer, which gives up on the frame in the end, gets them out of it.
-/

open Machine Scp CSirCon

namespace Daemon

def Awaiting (d : Daemon) : Prop :=
  match d.server with
  | .waiting id => id ∈ queued d.sircon
  | .select | .processing => False

def Locking (d : Daemon) : Prop :=
  match d.radio with
  | .locking _ _ => True
  | .handling _ _ | .receiving | .sending _ _ => False

def Broadcasts (d : Daemon) : Prop :=
  match d.radio with
  | .handling _ (e :: _) => e.update = .notifyAll
  | .handling _ [] | .receiving | .locking _ _ | .sending _ _ => False

/--
The server thread holds its mutex and waits for the future of a queued frame, and the radio thread
waits for the mutex.
-/
structure Deadlocked (d : Daemon) : Prop where
  awaiting : Awaiting d
  locking : Locking d
  mutex : d.mutex = some .server

def Avoids (d : Daemon) : Input → Prop
  | .request _ => ¬ Locking d
  | .notify => Broadcasts d → ¬ Awaiting d
  | .lock | .resume | .unlock | .receive _ _ | .acquire | .release | .finish | .keepalive
  | .timerProc => True

instance (d : Daemon) : Decidable (Awaiting d) := by
  unfold Awaiting
  cases d.server with
  | waiting => exact inferInstanceAs (Decidable (_ ∈ _))
  | select | processing => exact isFalse id

instance (d : Daemon) : Decidable (Locking d) := by
  unfold Locking
  cases d.radio with
  | locking => exact isTrue trivial
  | handling | receiving | sending => exact isFalse id

instance (d : Daemon) : Decidable (Broadcasts d) := by
  unfold Broadcasts
  cases d.radio with
  | handling msg events =>
    cases events with
    | nil => exact isFalse id
    | cons => exact inferInstanceAs (Decidable (_ = _))
  | locking | receiving | sending => exact isFalse id

instance (d : Daemon) : Decidable (Deadlocked d) :=
  decidable_of_iff (Awaiting d ∧ Locking d ∧ d.mutex = some .server)
    ⟨fun ⟨h₁, h₂, h₃⟩ => ⟨h₁, h₂, h₃⟩, fun h => ⟨h.awaiting, h.locking, h.mutex⟩⟩

instance (d : Daemon) (a : Input) : Decidable (Avoids d a) := by
  unfold Avoids
  cases a with
  | request | notify => infer_instance
  | lock | resume | unlock | receive | acquire | release | finish | keepalive | timerProc =>
    exact isTrue trivial

/--
What a step does to the points at which the server thread and the radio thread are, to the mutex and
to the send queue. The steps that leave the radio thread with its frame or the next one, and all else
as it is, are taken together.
-/
inductive PointEffect (d d' : Daemon) : Input → Prop
  | lock (hfree : d.mutex = none) (hserver : d'.server = .processing) (hradio : d'.radio = d.radio)
      (hmutex : d'.mutex = some .server)
    : PointEffect d d' .lock
  | request (data : Payload) (id : Nat) (hprocessing : d.server = .processing)
      (hserver : d'.server = .waiting id) (hqueued : id ∈ queued d'.sircon)
      (hradio : d'.radio = d.radio) (hmutex : d'.mutex = d.mutex)
    : PointEffect d d' (.request data)
  | resume (id : Nat) (hwaiting : d.server = .waiting id) (hserver : d'.server = .processing)
      (hradio : d'.radio = d.radio) (hmutex : d'.mutex = d.mutex)
    : PointEffect d d' .resume
  | unlock (hprocessing : d.server = .processing) (hserver : d'.server = .select)
      (hradio : d'.radio = d.radio) (hmutex : d'.mutex = none)
    : PointEffect d d' .unlock
  | frame (a : Input) (hquiet : Avoids d a) (hserver : d'.server = d.server)
      (hradio : d'.radio = .receiving ∨ ∃ msg events, d'.radio = .handling msg events)
      (hmutex : d'.mutex = d.mutex)
    : PointEffect d d' a
  | broadcast (msg : List UInt8) (events : List SCEvent) (hbroadcasts : Broadcasts d)
      (hserver : d'.server = d.server) (hsircon : d'.sircon = d.sircon)
      (hradio : d'.radio = .locking msg events) (hmutex : d'.mutex = d.mutex)
    : PointEffect d d' .notify
  | acquire (msg : List UInt8) (events : List SCEvent) (hfree : d.mutex = none)
      (hserver : d'.server = d.server) (hradio : d'.radio = .sending msg events)
      (hmutex : d'.mutex = some .radio)
    : PointEffect d d' .acquire
  | release (msg : List UInt8) (events : List SCEvent) (hsending : d.radio = .sending msg events)
      (hserver : d'.server = d.server) (hradio : d'.radio = .handling msg events)
      (hmutex : d'.mutex = none)
    : PointEffect d d' .release
  | timerProc (hserver : d'.server = d.server) (hradio : d'.radio = d.radio)
      (hmutex : d'.mutex = d.mutex) (hqueued : ∀ id ∈ queued d'.sircon, id ∈ queued d.sircon)
    : PointEffect d d' .timerProc

theorem pointEffect_receive {d : Daemon} (hreceiving : d.radio = .receiving) (msg : List UInt8)
    (after : Memory)
    : PointEffect d (d.receive msg after).1 (.receive msg after) := by
  unfold receive
  dsimp only
  split
  . exact .frame _ trivial rfl (.inl hreceiving) rfl
  . exact .frame _ trivial rfl (.inr ⟨_, _, rfl⟩) rfl

theorem pointEffect_notify {d : Daemon} {msg : List UInt8} {e : SCEvent} {events : List SCEvent}
    (hhandling : d.radio = .handling msg (e :: events))
    : PointEffect d (d.notify msg e events) .notify := by
  have hbroadcasts : Broadcasts d ↔ e.update = .notifyAll := by
    unfold Broadcasts
    rw [hhandling]
  have havoids : e.update ≠ .notifyAll → Avoids d .notify :=
    fun hne hb => absurd (hbroadcasts.mp hb) hne
  unfold notify
  cases hupdate : e.update with
  | notifyAll => exact .broadcast msg events (hbroadcasts.mpr hupdate) rfl rfl rfl rfl
  | notify | setPower | unhandled =>
    refine .frame _ (havoids ?_) rfl (.inr ⟨msg, events, rfl⟩) rfl
    simp [hupdate]

theorem pointEffect {d d' : Daemon} {a : Input} {acts : List Action}
    (hstep : machine.step d a = some (d', acts))
    : PointEffect d d' a := by
  cases a with
  | lock =>
    simp only [machine] at hstep
    split at hstep
    . next h =>
      obtain ⟨rfl, -⟩ := Prod.mk.inj (Option.some.inj hstep)
      exact .lock h.2 rfl rfl rfl
    . simp at hstep
  | request data =>
    simp only [machine] at hstep
    split at hstep
    . next hprocessing =>
      obtain ⟨rfl, -⟩ := Prod.mk.inj (Option.some.inj hstep)
      refine .request data _ hprocessing rfl ?_ rfl rfl
      simp [send, composeFrame, queued]
    . simp at hstep
  | resume =>
    simp only [machine] at hstep
    split at hstep
    . next id hwaiting =>
      split at hstep
      . obtain ⟨rfl, -⟩ := Prod.mk.inj (Option.some.inj hstep)
        exact .resume id hwaiting rfl rfl rfl
      . simp at hstep
    all_goals simp at hstep
  | unlock =>
    simp only [machine] at hstep
    split at hstep
    . next hprocessing =>
      obtain ⟨rfl, -⟩ := Prod.mk.inj (Option.some.inj hstep)
      exact .unlock hprocessing rfl rfl rfl
    . simp at hstep
  | receive msg after =>
    simp only [machine] at hstep
    split at hstep
    . next h =>
      have heq : (d.receive msg after).1 = d' := congrArg Prod.fst (Option.some.inj hstep)
      rw [← heq]
      apply pointEffect_receive h.1
    . simp at hstep
  | notify =>
    simp only [machine] at hstep
    split at hstep
    . next msg e events hhandling =>
      obtain ⟨rfl, -⟩ := Prod.mk.inj (Option.some.inj hstep)
      apply pointEffect_notify hhandling
    all_goals simp at hstep
  | acquire =>
    simp only [machine] at hstep
    split at hstep
    . next msg events hlocking =>
      split at hstep
      . next hfree =>
        obtain ⟨rfl, -⟩ := Prod.mk.inj (Option.some.inj hstep)
        exact .acquire msg events hfree rfl rfl rfl
      . simp at hstep
    all_goals simp at hstep
  | release =>
    simp only [machine] at hstep
    split at hstep
    . next msg events hsending =>
      obtain ⟨rfl, -⟩ := Prod.mk.inj (Option.some.inj hstep)
      exact .release msg events hsending rfl rfl rfl
    all_goals simp at hstep
  | finish =>
    simp only [machine] at hstep
    split at hstep
    . obtain ⟨rfl, -⟩ := Prod.mk.inj (Option.some.inj hstep)
      exact .frame _ trivial rfl (.inl rfl) rfl
    all_goals simp at hstep
  | keepalive =>
    simp only [machine] at hstep
    split at hstep
    . next hreceiving =>
      obtain ⟨rfl, -⟩ := Prod.mk.inj (Option.some.inj hstep)
      exact .frame _ trivial rfl (.inl hreceiving) rfl
    . simp at hstep
  | timerProc =>
    obtain ⟨rfl, -⟩ := Prod.mk.inj (Option.some.inj hstep)
    refine .timerProc rfl rfl rfl ?_
    intro id hid
    apply ((queueEffect_timerProc d.sircon).queued_sublist (by simp)).subset
    exact hid

structure Owned (d : Daemon) : Prop where
  server : d.server ≠ .select → d.mutex = some .server
  radio : ∀ msg events, d.radio = .sending msg events → d.mutex = some .radio

theorem owned_start (sircon : CSirCon) : Owned (start sircon) where
  server h := absurd rfl h
  radio _ _ h := by simp [start] at h

theorem Owned.step {d d' : Daemon} {a : Input} (h : Owned d) (heffect : PointEffect d d' a)
    : Owned d' := by
  cases heffect with
  | lock hfree hserver hradio hmutex =>
    refine ⟨fun _ => hmutex, ?_⟩
    intro msg events hsending
    have hheld := h.radio msg events (hradio.symm.trans hsending)
    simp [hfree] at hheld
  | request data id hprocessing hserver hqueued hradio hmutex =>
    constructor
    . intro _
      rw [hmutex]
      exact h.server (by simp [hprocessing])
    . rw [hradio, hmutex]
      exact h.radio
  | resume id hwaiting hserver hradio hmutex =>
    constructor
    . intro _
      rw [hmutex]
      exact h.server (by simp [hwaiting])
    . rw [hradio, hmutex]
      exact h.radio
  | unlock hprocessing hserver hradio hmutex =>
    refine ⟨fun hne => absurd hserver hne, ?_⟩
    intro msg events hsending
    have hheld := h.radio msg events (hradio.symm.trans hsending)
    rw [h.server (by simp [hprocessing])] at hheld
    simp at hheld
  | frame a hquiet hserver hradio hmutex =>
    constructor
    . rw [hserver, hmutex]
      exact h.server
    . intro msg events hsending
      cases hradio with
      | inl hreceiving => simp [hreceiving] at hsending
      | inr hhandling =>
        obtain ⟨msg', events', hhandling⟩ := hhandling
        simp [hhandling] at hsending
  | broadcast msg events hbroadcasts hserver hsircon hradio hmutex =>
    constructor
    . rw [hserver, hmutex]
      exact h.server
    . intro msg' events' hsending
      simp [hradio] at hsending
  | acquire msg events hfree hserver hradio hmutex =>
    refine ⟨?_, fun _ _ _ => hmutex⟩
    intro hne
    rw [hserver] at hne
    simp [h.server hne] at hfree
  | release msg events hsending hserver hradio hmutex =>
    constructor
    . intro hne
      rw [hserver] at hne
      have hheld := h.server hne
      rw [h.radio msg events hsending] at hheld
      simp at hheld
    . intro msg' events' hsending'
      simp [hradio] at hsending'
  | timerProc hserver hradio hmutex hqueued =>
    constructor
    . rw [hserver, hmutex]
      exact h.server
    . rw [hradio, hmutex]
      exact h.radio

theorem not_awaiting_of_ne {d : Daemon} (h : ∀ id, d.server ≠ .waiting id) : ¬ Awaiting d := by
  intro hawaiting
  unfold Awaiting at hawaiting
  split at hawaiting
  . next id hwaiting => exact h id hwaiting
  . exact hawaiting
  . exact hawaiting

theorem not_locking_of_ne {d : Daemon} (h : ∀ msg events, d.radio ≠ .locking msg events)
    : ¬ Locking d := by
  intro hlocking
  unfold Locking at hlocking
  split at hlocking
  . next msg events hlocks => exact h msg events hlocks
  all_goals exact hlocking

theorem Awaiting.of_queued {d d' : Daemon} (h : Awaiting d') (hserver : d'.server = d.server)
    (hqueued : ∀ id ∈ queued d'.sircon, id ∈ queued d.sircon)
    : Awaiting d := by
  unfold Awaiting at *
  rw [hserver] at h
  split
  . next id hwaiting =>
    rw [hwaiting] at h
    exact hqueued id h
  . next hselect => simp [hselect] at h
  . next hprocessing => simp [hprocessing] at h

theorem Locking.congr {d d' : Daemon} (hradio : d'.radio = d.radio) : Locking d' ↔ Locking d := by
  unfold Locking
  rw [hradio]

theorem not_deadlocked_step_iff {d d' : Daemon} {a : Input} (h : Owned d) (hd : ¬ Deadlocked d)
    (heffect : PointEffect d d' a)
    : ¬ Deadlocked d' ↔ Avoids d a := by
  cases heffect with
  | lock _ hserver | resume _ _ hserver | unlock _ hserver =>
    refine iff_of_true ?_ trivial
    intro hdead
    apply not_awaiting_of_ne _ hdead.awaiting
    simp [hserver]
  | request data id hprocessing hserver hqueued hradio hmutex =>
    apply not_congr
    rw [← Locking.congr hradio]
    constructor
    . intro hdead
      exact hdead.locking
    . intro hlocking
      refine ⟨?_, hlocking, ?_⟩
      . unfold Awaiting
        rw [hserver]
        exact hqueued
      . rw [hmutex]
        exact h.server (by simp [hprocessing])
  | frame a hquiet hserver hradio hmutex =>
    refine iff_of_true ?_ hquiet
    intro hdead
    apply not_locking_of_ne _ hdead.locking
    intro msg events hlocks
    cases hradio with
    | inl hreceiving => simp [hreceiving] at hlocks
    | inr hhandling =>
      obtain ⟨msg', events', hhandling⟩ := hhandling
      simp [hhandling] at hlocks
  | broadcast msg events hbroadcasts hserver hsircon hradio hmutex =>
    simp only [Avoids, hbroadcasts, forall_const]
    apply not_congr
    constructor
    . intro hdead
      apply hdead.awaiting.of_queued hserver
      simp [hsircon]
    . intro hawaiting
      refine ⟨hawaiting.of_queued hserver.symm (by simp [hsircon]), ?_, ?_⟩
      . unfold Locking
        rw [hradio]
        trivial
      . rw [hmutex]
        apply h.server
        intro hselect
        simp [Awaiting, hselect] at hawaiting
  | acquire msg events hfree hserver hradio | release msg events hsending hserver hradio =>
    refine iff_of_true ?_ trivial
    intro hdead
    apply not_locking_of_ne _ hdead.locking
    simp [hradio]
  | timerProc hserver hradio hmutex hqueued =>
    refine iff_of_true ?_ trivial
    intro hdead
    apply hd
    refine ⟨hdead.awaiting.of_queued hserver hqueued, (Locking.congr hradio).mp hdead.locking, ?_⟩
    rw [← hmutex]
    exact hdead.mutex

/--
The server thread and the radio thread never wait for each other in a run if and only if no event
that is broadcast comes up while the result of a request is awaited, and no request is made while the
radio thread waits for the mutex.
-/
theorem not_deadlocked_iff_avoids {sircon : CSirCon} {tr : List (Entry Daemon Input Action)}
    {d : Daemon} (hrun : machine.Run (start sircon) tr d)
    : (∀ e ∈ tr, ¬ Deadlocked e.post) ↔ ∀ e ∈ tr, Avoids e.pre e.input := by
  apply hrun.forall_iff (I := fun d => Owned d ∧ ¬ Deadlocked d)
  . refine ⟨owned_start sircon, ?_⟩
    intro hdead
    exact hdead.locking
  . intro d a d' acts hstate hstep
    have heffect := pointEffect hstep
    have hiff := not_deadlocked_step_iff hstate.1 hstate.2 heffect
    exact ⟨hiff, fun havoids => ⟨hstate.1.step heffect, hiff.mpr havoids⟩⟩

theorem not_deadlocked_iff_avoids_request
    : ∃ tr d, machine.Run (start (new (List.replicate stageBufSize 0) 1)) tr d
        ∧ inputs tr
            = [.lock, .request getRSSI, .timerProc, .receive (ackBytes 0x00 sfAck) fun _ => 0, .resume,
                .receive (frameBytes 0x07 ⟨[msgAsync, scpAsyncSignal, 0x03, 0x02, 0x01], by decide⟩)
                  fun _ => 0,
                .unlock, .notify, .acquire, .release, .finish]
        ∧ d.radio = .receiving ∧ ∀ e ∈ tr, ¬ Deadlocked e.post := by
  obtain ⟨tr, d, hrun, hin, hcheck⟩ := exists_run (show (machine.exec
    (start (new (List.replicate stageBufSize 0) 1))
    [.lock, .request getRSSI, .timerProc, .receive (ackBytes 0x00 sfAck) fun _ => 0, .resume,
      .receive (frameBytes 0x07 ⟨[msgAsync, scpAsyncSignal, 0x03, 0x02, 0x01], by decide⟩)
        fun _ => 0,
      .unlock, .notify, .acquire, .release, .finish]).any
    (fun r => r.2.radio = .receiving ∧ ∀ e ∈ r.1, Avoids e.pre e.input) = true by decide +kernel)
  refine ⟨tr, d, hrun, hin, hcheck.1, ?_⟩
  apply (not_deadlocked_iff_avoids hrun).mpr
  apply hcheck.2

theorem deadlocked_by_event
    : ∃ tr d, machine.Run (start (new (List.replicate stageBufSize 0) 1)) tr d
        ∧ inputs tr
            = [.lock, .request getGain, .timerProc,
                .receive (frameBytes 0x00 ⟨[msgAsync, scpAsyncSignal, 0x03, 0x02, 0x01], by decide⟩)
                  fun _ => 0,
                .notify]
        ∧ Deadlocked d ∧ ¬ ∀ e ∈ tr, ¬ Deadlocked e.post := by
  obtain ⟨tr, d, hrun, hin, hcheck⟩ := exists_run (show (machine.exec
    (start (new (List.replicate stageBufSize 0) 1))
    [.lock, .request getGain, .timerProc,
      .receive (frameBytes 0x00 ⟨[msgAsync, scpAsyncSignal, 0x03, 0x02, 0x01], by decide⟩)
        fun _ => 0,
      .notify]).any
    (fun r => Deadlocked r.2 ∧ ¬ ∀ e ∈ r.1, ¬ Deadlocked e.post) = true by decide +kernel)
  exact ⟨tr, d, hrun, hin, hcheck⟩

end Daemon
