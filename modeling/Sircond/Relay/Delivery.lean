import Sircond.Relay.Frames
import Sircond.SirServer.Notices

/-!
This module contains what the clients read of what the radio has sent, from the frames on the serial
line to the bytes on the socket, whatever the threads do in between.
-/

open Scp Machine CSirCon CSirServer

namespace Relay

def dataFrames (as : List Input) : List (List UInt8) :=
  as.filterMap fun
    | .receive msg _ => if isData msg then some msg else none
    | .send _ | .timerProc | .notify | .onExit | .free | .server _ => none

/-- A step of the server, if it is one. -/
def observe (e : Entry Relay Input Effect) : Option (Entry Observer Observer.Input Effect) :=
  match e.input with
  | .notify =>
    e.pre.handling.head?.map fun n => ⟨e.pre.observer, .notice n, e.out, e.post.observer⟩
  | .server a => some ⟨e.pre.observer, .server a, e.out, e.post.observer⟩
  | .send _ | .timerProc | .receive _ _ | .onExit | .free => none

def observed (tr : List (Entry Relay Input Effect)) : List (Entry Observer Observer.Input Effect) :=
  tr.filterMap observe

theorem observe_step {s s' : Relay} {a : Input} {effects : List Effect}
    (hstep : machine.step s a = some (s', effects))
    : (∃ b, observe ⟨s, a, effects, s'⟩ = some ⟨s.observer, b, effects, s'.observer⟩
        ∧ Observer.machine.step s.observer b = some (s'.observer, effects))
      ∨ observe ⟨s, a, effects, s'⟩ = none ∧ s'.observer = s.observer := by
  cases a with
  | send | timerProc =>
    obtain ⟨rfl, rfl⟩ := Prod.mk.inj (Option.some.inj hstep)
    exact .inr ⟨rfl, rfl⟩
  | receive | onExit | free =>
    simp only [machine] at hstep
    split at hstep
    . obtain ⟨rfl, rfl⟩ := Prod.mk.inj (Option.some.inj hstep)
      exact .inr ⟨rfl, rfl⟩
    . simp at hstep
  | notify =>
    simp only [machine] at hstep
    split at hstep
    . simp at hstep
    . next n handling hhandling =>
      obtain ⟨rfl, rfl⟩ := Prod.mk.inj (Option.some.inj hstep)
      left
      refine ⟨.notice n, ?_, rfl⟩
      simp [observe, hhandling]
  | server a =>
    simp only [machine, Option.map_eq_some_iff] at hstep
    obtain ⟨⟨observer, new⟩, hserver, heq⟩ := hstep
    obtain ⟨rfl, rfl⟩ := Prod.mk.inj heq
    exact .inl ⟨.server a, rfl, hserver⟩

/-- The notices that the server has been updated with. -/
def notified (tr : List (Entry Relay Input Effect)) : List Notice := Observer.notices (observed tr)

theorem notified_append (tr tr' : List (Entry Relay Input Effect))
    : notified (tr ++ tr') = notified tr ++ notified tr' := by
  simp [notified, observed, Observer.notices]

def notices (ds : List Dispatched) : List Notice := (ds.flatMap Dispatched.events).map .event

theorem notices_append (ds ds' : List Dispatched) : notices (ds ++ ds') = notices ds ++ notices ds' := by
  simp [notices]

def ending (s : Relay) : List Notice := if s.exited then [.shutdown] else []

/-- What has become of the frames received so far. -/
structure Decoded (tr : List (Entry Relay Input Effect)) (s : Relay) : Prop where
  lastSeq : s.sircon.link.lastSeq = (accepted (-1) (dataFrames (inputs tr))).1
  events : ∃ ds, Cache.Follows .new ds s.cache
    ∧ ds.map Dispatched.payload = (accepted (-1) (dataFrames (inputs tr))).2
    ∧ notified tr ++ s.handling = notices ds ++ s.ending

theorem decoded_start (block : List UInt8) (now : Nat) (sock : Int)
    : Decoded [] (start block now sock) where
  lastSeq := rfl
  events := ⟨[], .nil _, rfl, rfl⟩

theorem payload_dispatchAll (after : Memory) (payloads : List (List UInt8)) (c : Cache)
    : (c.dispatchAll after payloads).2.map Dispatched.payload = payloads := by
  induction payloads generalizing c with
  | nil => rfl
  | cons payload payloads ih =>
    unfold Cache.dispatchAll
    dsimp only
    rw [List.map_cons, ih]

section Quiet

variable {tr : List (Entry Relay Input Effect)} {s s' : Relay} {a : Input} {effects : List Effect}

theorem Decoded.quiet (h : Decoded tr s) (hframes : dataFrames [a] = [])
    (hnotified : notified [⟨s, a, effects, s'⟩] ++ s'.handling = s.handling)
    (hlastSeq : s'.sircon.link.lastSeq = s.sircon.link.lastSeq) (hcache : s'.cache = s.cache)
    (hexited : s'.exited = s.exited)
    : Decoded (tr ++ [⟨s, a, effects, s'⟩]) s' := by
  have hsame : dataFrames (inputs (tr ++ [⟨s, a, effects, s'⟩])) = dataFrames (inputs tr) := by
    rw [inputs_append, inputs_singleton]
    unfold dataFrames at hframes ⊢
    rw [List.filterMap_append, hframes, List.append_nil]
  constructor
  . rw [hlastSeq, hsame]
    apply h.lastSeq
  . obtain ⟨ds, hfollows, hpayloads, hevents⟩ := h.events
    refine ⟨ds, ?_, ?_, ?_⟩
    . rw [hcache]
      exact hfollows
    . rw [hsame]
      exact hpayloads
    . have hending : s'.ending = s.ending := by
        unfold ending
        rw [hexited]
      rw [hending, ← hevents, ← hnotified, ← List.append_assoc, notified_append]

end Quiet

theorem Decoded.receive {tr : List (Entry Relay Input Effect)} {s : Relay} (h : Decoded tr s)
    {msg : List UInt8} (hvalid : ValidFrame msg) (hidle : s.idle) (after : Memory)
    : Decoded (tr ++ [⟨s, .receive msg after, [], s.receive msg after⟩]) (s.receive msg after) := by
  obtain ⟨hhandling, hexited⟩ : s.handling = [] ∧ s.exited = false := by simpa [idle] using hidle
  have hframes : dataFrames (inputs (tr ++ [⟨s, .receive msg after, [], s.receive msg after⟩]))
      = dataFrames (inputs tr) ++ if isData msg then [msg] else [] := by
    rw [inputs_append, inputs_singleton]
    unfold dataFrames
    rw [List.filterMap_append]
    split
    . next hdata => simp [hdata]
    . next hack => simp [hack]
  have hnotified : notified (tr ++ [⟨s, .receive msg after, [], s.receive msg after⟩]) = notified tr := by
    rw [notified_append]
    apply List.append_nil
  have hdispatched : dispatched (s.sircon.onFrame msg).2
        = (accepted s.sircon.link.lastSeq (if isData msg then [msg] else [])).2
      ∧ (s.sircon.onFrame msg).1.link.lastSeq
        = (accepted s.sircon.link.lastSeq (if isData msg then [msg] else [])).1 := by
    by_cases hdata : isData msg
    . rw [if_pos hdata]
      apply s.sircon.onFrame_of_data hvalid hdata
    . rw [if_neg hdata]
      apply s.sircon.onFrame_of_ack hvalid (Bool.not_eq_true _ ▸ hdata)
  obtain ⟨ds, hfollows, hpayloads, hevents⟩ := h.events
  have hgoesOn : s.ending = [] := by
    unfold ending
    rw [hexited]
    rfl
  rw [hhandling, List.append_nil, hgoesOn, List.append_nil] at hevents
  rw [h.lastSeq] at hdispatched
  constructor
  . rw [hframes, accepted_append]
    apply hdispatched.2
  . refine ⟨ds ++ (s.cache.dispatchAll after (dispatched (s.sircon.onFrame msg).2)).2, ?_, ?_, ?_⟩
    . apply hfollows.append
      apply Cache.follows_dispatchAll
    . rw [List.map_append, payload_dispatchAll, hpayloads, hframes, accepted_append, hdispatched.1]
    . have hending : (s.receive msg after).ending = [] := hgoesOn
      rw [hnotified, hevents, notices_append, hending, List.append_nil]
      rfl

theorem Decoded.step {tr : List (Entry Relay Input Effect)} {s s' : Relay} {a : Input}
    {effects : List Effect} (h : Decoded tr s) (hstep : machine.step s a = some (s', effects))
    : Decoded (tr ++ [⟨s, a, effects, s'⟩]) s' := by
  cases a with
  | send data =>
    obtain ⟨rfl, rfl⟩ := Prod.mk.inj (Option.some.inj hstep)
    apply h.quiet
    . rfl
    . rfl
    . rfl
    . rfl
    . rfl
  | timerProc =>
    obtain ⟨rfl, rfl⟩ := Prod.mk.inj (Option.some.inj hstep)
    apply h.quiet
    . rfl
    . rfl
    . apply s.sircon.lastSeq_timerProc
    . rfl
    . rfl
  | receive msg after =>
    simp only [machine] at hstep
    split at hstep
    . next hguard =>
      obtain ⟨rfl, rfl⟩ := Prod.mk.inj (Option.some.inj hstep)
      apply h.receive hguard.1 hguard.2
    . simp at hstep
  | notify =>
    simp only [machine] at hstep
    split at hstep
    . simp at hstep
    . next n handling hhandling =>
      obtain ⟨rfl, rfl⟩ := Prod.mk.inj (Option.some.inj hstep)
      apply h.quiet
      . rfl
      . simp [notified, observed, observe, hhandling, Observer.notices, Observer.noticeOf]
      . rfl
      . rfl
      . rfl
  | onExit =>
    simp only [machine] at hstep
    split at hstep
    . next hidle =>
      obtain ⟨rfl, rfl⟩ := Prod.mk.inj (Option.some.inj hstep)
      obtain ⟨hhandling, hexited⟩ : s.handling = [] ∧ s.exited = false := by
        simpa [idle] using hidle
      obtain ⟨ds, hfollows, hpayloads, hevents⟩ := h.events
      have hframes : dataFrames (inputs (tr ++ [⟨s, .onExit, [],
          { s with handling := [.shutdown], exited := true }⟩])) = dataFrames (inputs tr) := by
        simp [dataFrames, inputs]
      constructor
      . rw [hframes]
        apply h.lastSeq
      . refine ⟨ds, hfollows, ?_, ?_⟩
        . rw [hframes]
          exact hpayloads
        . have hgoesOn : s.ending = [] := by
            unfold ending
            rw [hexited]
            rfl
          rw [hhandling, List.append_nil, hgoesOn, List.append_nil] at hevents
          rw [notified_append, hevents, List.append_assoc]
          rfl
    . simp at hstep
  | free =>
    simp only [machine] at hstep
    split at hstep
    . obtain ⟨rfl, rfl⟩ := Prod.mk.inj (Option.some.inj hstep)
      apply h.quiet
      . rfl
      . rfl
      . rfl
      . rfl
      . rfl
    . simp at hstep
  | server a =>
    simp only [machine, Option.map_eq_some_iff] at hstep
    obtain ⟨⟨observer, new⟩, -, heq⟩ := hstep
    obtain ⟨rfl, rfl⟩ := Prod.mk.inj heq
    apply h.quiet
    . rfl
    . rfl
    . rfl
    . rfl
    . rfl

theorem decoded_of_run {block : List UInt8} {now : Nat} {sock : Int}
    {tr : List (Entry Relay Input Effect)} {s : Relay}
    (hrun : machine.Run (start block now sock) tr s)
    : Decoded tr s := by
  apply hrun.invariant
  . apply decoded_start
  . intro tr s a s' effects h hstep
    apply h.step hstep

theorem run_observed {block : List UInt8} {now : Nat} {sock : Int}
    {tr : List (Entry Relay Input Effect)} {s : Relay}
    (hrun : machine.Run (start block now sock) tr s)
    : Observer.machine.Run (.new sock) (observed tr) s.observer := by
  apply hrun.part Relay.observer observe
  intro s a s' effects hstep
  apply observe_step hstep

/--
The radio sends frames, each again until it is acknowledged. In every run of the daemon in which no
result of a GET or SET request is passed on during a step of the server thread, whatever the timer and
the clients do in between, the events that were sent to everybody are: those before a client connected,
those in the bytes it has read or has pending, and those still to be handled; provided that the client
keeps up.
-/
theorem delivery {block : List UInt8} {now : Nat} {sock : Int}
    {tr : List (Entry Relay Input Effect)} {s : Relay}
    (hrun : machine.Run (start block now sock) tr s) {tx : CSirCon} {sent : List (Payload × Nat)}
    (hk : ∀ m ∈ sent, 1 ≤ m.2) (hframes : dataFrames (inputs tr) = copies (tx.composeAll sent))
    (hshort : ∀ n ∈ notified tr, n.line.length < UInt8.size) {client : ClientPtr}
    (hclient : client ∈ s.observer.server.clients) {c : Client}
    (hc : s.observer.server.heap[client]? = some c) (halive : c.isDead = false)
    (hkeepsUp : Observer.KeepsUp client (observed tr))
    : ∃ (ds : List Dispatched) (ms : List Message),
        Cache.Follows .new ds s.cache
          ∧ ds.map Dispatched.payload = sent.map (·.1.bytes)
          ∧ Observer.taken client (observed tr) ++ c.pending = Message.stream ms
          ∧ ms.filterMap Message.notice? = Observer.noticesTo client (observed tr)
          ∧ (notices ds ++ s.ending).filter Notice.isBroadcast
              = (Observer.noticesWithout client (observed tr) ++ ms.filterMap Message.notice?
                  ++ s.handling).filter Notice.isBroadcast := by
  have hobserved := run_observed hrun
  have hlines : ∀ a ∈ inputs (observed tr), Observer.Short a := by
    intro a ha
    cases a with
    | server a => trivial
    | notice n =>
      apply hshort
      unfold inputs at ha
      rw [List.mem_map] at ha
      obtain ⟨e, he, hinput⟩ := ha
      apply List.mem_filterMap.mpr
      exact ⟨e, he, by rw [hinput]; rfl⟩
  obtain ⟨ds, hfollows, hpayloads, hevents⟩ := (decoded_of_run hrun).events
  obtain ⟨ms, hsent, hnotices⟩ := Observer.exists_messages_of_run hobserved hlines client
  have hcomplete := (Observer.complete_of_run hobserved hlines hkeepsUp).whole c hc halive
  have htold := (Observer.told_of_run hobserved hlines client).broadcasts hclient
  refine ⟨ds, ms, hfollows, ?_, ?_, hnotices, ?_⟩
  . rw [hpayloads, hframes]
    apply accepted_composeAll tx sent hk
    omega
  . rw [← hcomplete.1, hsent]
    unfold Message.stream
    rw [List.flatMap_def]
  . rw [← hevents, hnotices, List.filter_append, List.filter_append, ← htold]
    rfl

theorem delivery_repeated
    : ∃ tr s c ds ms, machine.Run (start (List.replicate stageBufSize 0) 1 3) tr s
        ∧ s.observer.server.heap[0]? = some c
        ∧ Cache.Follows .new ds s.cache
        ∧ ds.map Dispatched.payload = [[0x60, 0x02, 0x00, 0x00, 0xFD], [0x60, 0x03, 0x00, 0x00, 0x01]]
        ∧ Observer.taken 0 (observed tr) = ascii "CONTROL,ACQUIRED\nGET,0\nGAIN,-3\nGE"
        ∧ Observer.taken 0 (observed tr) ++ c.pending = Message.stream ms
        ∧ ms.filterMap Message.notice? = Observer.noticesTo 0 (observed tr)
        ∧ (notices ds ++ s.ending).filter Notice.isBroadcast
            = (Observer.noticesWithout 0 (observed tr) ++ ms.filterMap Message.notice?
                ++ s.handling).filter Notice.isBroadcast := by
  let gain : Payload := ⟨[0x60, 0x02, 0x00, 0x00, 0xFD], by decide⟩
  let mute : Payload := ⟨[0x60, 0x03, 0x00, 0x00, 0x01], by decide⟩
  let tx : CSirCon := { new [] 0 with seq := 0xA4 }
  let as : List Input := [.server (.connect 5),
    .server (.receive 99 (fun _ => ⟨255, .success⟩) 0 (.received (ascii "CONTROL ACQUIRE\n"))),
    .receive (frameBytes 0xA4 gain) (fun _ => 0), .notify, .server (.connect 6),
    .server (.transmit 0 (some 20)), .notify, .receive (frameBytes 0xA4 gain) (fun _ => 0), .timerProc,
    .receive (frameBytes 0xA5 mute) (fun _ => 0), .notify, .server (.transmit 0 (some 13)), .notify]
  have hexec : (machine.exec (start (List.replicate stageBufSize 0) 1 3) as).any (fun r =>
      Observer.KeepsUp 0 (observed r.1)
        ∧ Observer.taken 0 (observed r.1) = ascii "CONTROL,ACQUIRED\nGET,0\nGAIN,-3\nGE"
        ∧ 0 ∈ r.2.observer.server.clients
        ∧ notified r.1 = [.event (.getResult 0), .event (.gain ⟨-3⟩), .event (.getResult 0),
            .event (.mute ⟨1⟩)]
        ∧ r.2.observer.server.heap[0]?.map Client.isDead = some false) = true := by
    decide +kernel
  obtain ⟨tr, s, hrun, hin, hkeepsUp, htaken, hclient, hhandled, halive⟩ := exists_run hexec
  obtain ⟨c, hc, hdead⟩ := Option.map_eq_some_iff.mp halive
  have hframes : dataFrames (inputs tr) = copies (tx.composeAll [(gain, 2), (mute, 1)]) := by
    rw [hin]
    decide +kernel
  have hshort : ∀ n ∈ notified tr, n.line.length < UInt8.size := by
    rw [hhandled]
    decide
  obtain ⟨ds, ms, hfollows, hpayloads, hstream, hnotices, hbroadcasts⟩ :=
    delivery hrun (by decide) hframes hshort hclient hc hdead hkeepsUp
  exact ⟨tr, s, c, ds, ms, hrun, hc, hfollows, hpayloads, htaken, hstream, hnotices, hbroadcasts⟩

end Relay
