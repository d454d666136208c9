import Sircond.SirServer.Lemmas.Answers
import Sircond.SirServer.Impl.Update

/-!
This module contains what a client reads while the server thread serves it and the radio thread
notifies the server, in any order: whole lines, and only those that were sent to it.

A broadcast waits for the lock that the server thread holds while it works on its clients. The result
of a GET or SET request does not: it goes to the controller at once. That such a result never comes
while the server thread works on its clients is an assumption on the runs, without which the two threads
may be in `Send` for the same client.
-/

open Scp Machine CSirServer

namespace Observer

/--
The server thread does anything but broadcast: all broadcasts are made when the radio thread notifies
the server. A notice is handled before or after a step of the server thread, and not during it.
-/
inductive Input where
  | server (a : CSirServer.Input)
  | notice (n : Notice)

def machine : Machine Observer Input Effect where
  step o
    | .server (.broadcast _) => none
    | .server a =>
      (serverMachine.step o.server a).map fun (server, effects) => ({ o with server }, effects)
    | .notice n => some (o.update n)

def handling : Notice → Handling
  | .startup | .shutdown => .notifyAll
  | .event e => e.update

/-- What `Update` does, by the kind of handling. -/
inductive Handles (o : Observer) (n : Notice) : Handling → Prop
  | notifyAll (hserver : (o.update n).1.server = o.server.broadcast n.line)
      (heffects : (o.update n).2 = o.server.clients.map fun c => .notify c n.line)
    : Handles o n .notifyAll
  | notify (hserver : (o.update n).1.server = (o.server.notify o.server.controller n.line).1)
      (heffects : (o.update n).2 = (o.server.notify o.server.controller n.line).2)
    : Handles o n .notify
  | setPower (hserver : (o.update n).1.server = o.server)
      (heffects : (o.update n).2 = [.send (CSirCon.setPower 0x03)])
    : Handles o n .setPower
  | unhandled (hserver : (o.update n).1.server = o.server) (heffects : (o.update n).2 = [])
    : Handles o n .unhandled

theorem onSCEPower_eq (p : SCEPower) (o : Observer)
    : onSCEPower p o
        = ({ (relayAll p.out o).1 with initialized := o.initialized || decide (p.power > 0) },
          (relayAll p.out o).2) := by
  rcases o with ⟨server, initialized, shutdown⟩
  unfold onSCEPower relayAll Observer.notifyAll
  cases initialized with
  | true => rfl
  | false =>
    dsimp only
    by_cases hpower : p.power > 0
    . simp [hpower]
    . simp [hpower]

theorem handles (o : Observer) (n : Notice) : Handles o n (handling n) := by
  cases n with
  | startup | shutdown => exact .notifyAll rfl rfl
  | event e =>
    cases e with
    | reset => exact .setPower rfl rfl
    | getResult | setResult => exact .notify rfl rfl
    | songID | antenna => exact .unhandled rfl rfl
    | power p =>
      have heq : o.update (.event (.power p)) = _ := onSCEPower_eq p o
      apply Handles.notifyAll
      . rw [heq]
        rfl
      . rw [heq]
        rfl
    | _ => exact .notifyAll rfl rfl

/-- What a client's socket takes in a step. -/
def takes (client : ClientPtr) (o : Observer) : Input → List UInt8
  | .server (.transmit c sent) => if c = client then o.server.taken c sent else []
  | .server (.connect _) | .server (.receive _ _ _ _) | .server (.drop _) | .server (.broadcast _)
  | .notice _ => []

def taken (client : ClientPtr) (tr : List (Entry Observer Input Effect)) : List UInt8 :=
  tr.flatMap fun e => takes client e.pre e.input

/-- The line of a notice survives the parameter its length is passed in. -/
def Short : Input → Prop
  | .notice n => n.line.length < UInt8.size
  | .server _ => True

inductive ClientEffect (client : ClientPtr) (s s' : CSirServer)
    : List Effect → List UInt8 → Prop
  | answers (effects : List Effect) (h : Answers client s s' effects)
    : ClientEffect client s s' effects []
  | connect (sock : Int) (rxblock txblock : List UInt8) (hsize : txblock.length = s.bufsize)
      (hbufsize : s'.bufsize = s.bufsize) (hheap : s'.heap = s.heap ++ [.new sock rxblock txblock])
      (hclients : s'.clients = s.clients ++ [s.heap.length])
    : ClientEffect client s s' [] []
  | transmit (c c' : Client) (sent : Option Nat) (result : Bool)
      (hbufsize : s'.bufsize = s.bufsize) (hlength : s'.heap.length = s.heap.length)
      (hclients : s'.clients = s.clients) (hpre : s.heap[client]? = some c)
      (hpost : s'.heap[client]? = some c') (halive : c.isDead = false)
      (htransmit : c.transmitData sent = some (c', result))
    : ClientEffect client s s' [] (c.taken sent)

theorem clientEffect_server (client : ClientPtr) {effects₀ : List Effect} {s s' : CSirServer}
    (h : Informed effects₀ s) {o : Observer} (ho : o.server = s) {a : CSirServer.Input}
    (hbroadcast : ∀ msg, a ≠ .broadcast msg) {effects : List Effect}
    (hstep : serverMachine.step s a = some (s', effects))
    : ClientEffect client s s' effects (takes client o (.server a)) := by
  cases a with
  | connect sock =>
    simp only [serverMachine] at hstep
    split at hstep
    . simp at hstep
    . obtain ⟨rfl, rfl⟩ := Prod.mk.inj (Option.some.inj hstep)
      obtain ⟨-, -, hbufsize, hheap⟩ := s.onConnect_eq sock
      apply ClientEffect.connect sock _ _ List.length_replicate hbufsize hheap
      apply clients_onConnect
  | receive fuel radio issuer result =>
    simp only [serverMachine] at hstep
    split at hstep
    . simp only [Option.bind_eq_bind, Option.bind_eq_some_iff] at hstep
      obtain ⟨⟨s₁, new, more⟩, hrecv, heq⟩ := hstep
      obtain ⟨rfl, rfl⟩ := Prod.mk.inj (Option.some.inj heq)
      apply ClientEffect.answers
      apply answers_receiveData h hrecv
    . simp at hstep
  | transmit c sent =>
    simp only [serverMachine] at hstep
    split at hstep
    . next hguard =>
      simp only [Option.bind_eq_bind, Option.bind_eq_some_iff] at hstep
      obtain ⟨⟨s₁, more⟩, htransmit, heq⟩ := hstep
      obtain ⟨rfl, rfl⟩ := Prod.mk.inj (Option.some.inj heq)
      obtain ⟨cl, cl', hcl, hsent, rfl⟩ := transmitData_eq htransmit
      by_cases hc : c = client
      . subst hc
        have htakes : takes c o (.server (.transmit c sent)) = cl.taken sent := by
          simp [takes, ho, CSirServer.taken, hcl]
        rw [htakes]
        apply ClientEffect.transmit cl cl'
        . rfl
        . apply List.length_modify
        . rfl
        . exact hcl
        . simp [hcl]
        . simpa [isDead, hcl] using (Bool.and_eq_true_iff.mp hguard).2
        . exact hsent
      . have hnone : takes client o (.server (.transmit c sent)) = [] := if_neg hc
        rw [hnone]
        obtain ⟨hlt, -⟩ := List.getElem?_eq_some_iff.mp hcl
        apply ClientEffect.answers
        apply answers_modify hlt
        . exact fun _ => rfl
        . intro heq
          exact absurd heq.symm hc
    . simp at hstep
  | drop d =>
    simp only [serverMachine] at hstep
    split at hstep
    . next hmem =>
      obtain ⟨rfl, rfl⟩ := Prod.mk.inj (Option.some.inj hstep)
      apply ClientEffect.answers
      have hdrop := answers_drop h.lt_of_mem_queue (h.clients d hmem) client
      exact ⟨hdrop.length, List.erase_sublist.trans hdrop.clients, hdrop.bufsize,
        hdrop.gets, hdrop.fresh⟩
    . simp at hstep
  | broadcast msg => exact absurd rfl (hbroadcast msg)

theorem clientEffect_notice {client : ClientPtr} {effects₀ : List Effect} {o : Observer}
    (h : Informed effects₀ o.server) (hnodup : o.server.clients.Nodup) {n : Notice}
    (hshort : n.line.length < UInt8.size)
    : ClientEffect client o.server (o.update n).1.server (o.update n).2 [] := by
  apply ClientEffect.answers
  have hhandles := o.handles n
  generalize handling n = k at hhandles
  cases hhandles with
  | notifyAll hserver heffects =>
    rw [hserver, heffects]
    apply answers_broadcast hnodup h.clients hshort
  | notify hserver heffects =>
    rw [hserver, heffects]
    cases hcontroller : o.server.controller with
    | none => apply answers_of_heap rfl rfl rfl
    | some c =>
      apply answers_notify
      . apply h.lt_of_standing
        simp [standing, hcontroller]
      . apply Nat.lt_trans hshort
        decide
  | setPower hserver heffects =>
    rw [hserver, heffects]
    apply Answers.send
    apply answers_of_heap rfl rfl rfl
  | unhandled hserver heffects =>
    rw [hserver, heffects]
    apply answers_of_heap rfl rfl rfl

/--
What the history `tr` of a run says about a client: what its socket has taken, with what is pending
unless it is dropped, are messages that were sent to it, in order and each as a whole.
-/
structure Reading (client : ClientPtr) (tr : List (Entry Observer Input Effect)) (o : Observer)
    : Prop where
  informed : ∃ effects, Informed effects o.server
  nodup : o.server.clients.Nodup
  fresh : o.server.heap.length ≤ client →
    sentTo client (outputs tr) = [] ∧ taken client tr = []
  whole : ∃ bytes, WholeMessages (sentTo client (outputs tr)) (taken client tr ++ bytes)
    ∧ ∀ c ∈ o.server.heap[client]?, c.isDead = false → c.pending = bytes

theorem reading_new (client : ClientPtr) (sock : Int) : Reading client [] (new sock) where
  informed := ⟨[], informed_new sock⟩
  nodup := List.nodup_nil
  fresh _ := ⟨rfl, rfl⟩
  whole := ⟨[], ⟨[], List.nil_sublist _, rfl⟩, by simp [new, CSirServer.new]⟩

theorem server_step {o o' : Observer} {a : CSirServer.Input} {effects : List Effect}
    (hstep : machine.step o (.server a) = some (o', effects))
    : (∀ msg, a ≠ .broadcast msg) ∧ serverMachine.step o.server a = some (o'.server, effects) := by
  have hmap : (∀ msg, a ≠ .broadcast msg)
      ∧ (serverMachine.step o.server a).map (fun r => ({ o with server := r.1 }, r.2))
        = some (o', effects) := by
    cases a with
    | broadcast msg => simp [machine] at hstep
    | connect | receive | transmit | drop => exact ⟨by simp, hstep⟩
  refine ⟨hmap.1, ?_⟩
  rw [Option.map_eq_some_iff] at hmap
  obtain ⟨-, ⟨server, new⟩, hserver, heq⟩ := hmap
  obtain ⟨rfl, rfl⟩ := Prod.mk.inj heq
  exact hserver

theorem informed_update {effects₀ : List Effect} {o : Observer} (h : Informed effects₀ o.server)
    (n : Notice)
    : Informed effects₀ (o.update n).1.server := by
  have hhandles := o.handles n
  generalize handling n = k at hhandles
  cases hhandles with
  | notifyAll hserver =>
    rw [hserver]
    apply h.of_onlyOutput (onlyOutput_broadcast _ _) (control_broadcast _ _)
  | notify hserver =>
    rw [hserver]
    apply h.of_onlyOutput (onlyOutput_notify _ _ _)
    exact ⟨controller_notify .., controlQueue_notify ..⟩
  | setPower hserver | unhandled hserver =>
    rw [hserver]
    exact h

theorem clients_update (o : Observer) (n : Notice) : (o.update n).1.server.clients = o.server.clients := by
  have hhandles := o.handles n
  generalize handling n = k at hhandles
  cases hhandles with
  | notifyAll hserver =>
    rw [hserver]
    exact (onlyOutput_broadcast o.server n.line).clients
  | notify hserver =>
    rw [hserver]
    exact (onlyOutput_notify _ _ _).clients
  | setPower hserver | unhandled hserver => rw [hserver]

theorem clientEffect {client : ClientPtr} {effects₀ : List Effect} {o o' : Observer}
    (h : Informed effects₀ o.server) (hnodup : o.server.clients.Nodup) {a : Input}
    (hshort : Short a) {effects : List Effect} (hstep : machine.step o a = some (o', effects))
    : ClientEffect client o.server o'.server effects (takes client o a) := by
  cases a with
  | server a =>
    obtain ⟨hbroadcast, hserver⟩ := server_step hstep
    apply clientEffect_server client h rfl hbroadcast hserver
  | notice n =>
    obtain ⟨rfl, rfl⟩ := Prod.mk.inj (Option.some.inj hstep)
    apply clientEffect_notice h hnodup hshort

theorem ClientEffect.nodup {client : ClientPtr} {s s' : CSirServer} {effects : List Effect}
    {bytes : List UInt8} (h : ClientEffect client s s' effects bytes) (hnodup : s.clients.Nodup)
    (hvalid : ∀ c ∈ s.clients, c < s.heap.length)
    : s'.clients.Nodup := by
  cases h with
  | answers _ hanswers => exact hanswers.clients.nodup hnodup
  | connect _ _ _ _ _ _ hclients =>
    rw [hclients, List.nodup_append]
    refine ⟨hnodup, by simp, ?_⟩
    intro c hc d hd
    rw [List.mem_singleton.mp hd]
    exact Nat.ne_of_lt (hvalid c hc)
  | transmit _ _ _ _ _ _ hclients =>
    rw [hclients]
    exact hnodup

/-- In every run the server keeps its clients informed, and nobody is in its table twice. -/
theorem informed_of_run {sock : Int} {tr : List (Entry Observer Input Effect)} {o : Observer}
    (hrun : machine.Run (new sock) tr o)
    : (∃ effects, Informed effects o.server) ∧ o.server.clients.Nodup := by
  apply hrun.invariant (I := fun _ o => (∃ effects, Informed effects o.server)
    ∧ o.server.clients.Nodup)
  . exact ⟨⟨[], informed_new sock⟩, List.nodup_nil⟩
  . rintro tr o a o' effects ⟨⟨effects₀, hinformed⟩, hnodup⟩ hstep
    cases a with
    | server a =>
      obtain ⟨hbroadcast, hserver⟩ := server_step hstep
      have heffect := clientEffect_server 0 hinformed rfl hbroadcast hserver
      exact ⟨⟨_, hinformed.step hserver⟩, heffect.nodup hnodup hinformed.clients⟩
    | notice n =>
      obtain ⟨rfl, -⟩ := Prod.mk.inj (Option.some.inj hstep)
      have hclients : (o.update n).1.server.clients.Nodup := by
        rw [clients_update]
        exact hnodup
      exact ⟨⟨effects₀, informed_update hinformed n⟩, hclients⟩

theorem Reading.step {client : ClientPtr} {tr : List (Entry Observer Input Effect)}
    {o o' : Observer} (h : Reading client tr o) {a : Input} (hshort : Short a)
    {effects : List Effect} (hstep : machine.step o a = some (o', effects))
    : Reading client (tr ++ [⟨o, a, effects, o'⟩]) o' := by
  obtain ⟨effects₀, hinformed⟩ := h.informed
  have hinformed' : ∃ effects', Informed effects' o'.server := by
    cases a with
    | server a => exact ⟨_, hinformed.step (server_step hstep).2⟩
    | notice n =>
      obtain ⟨rfl, -⟩ := Prod.mk.inj (Option.some.inj hstep)
      exact ⟨effects₀, informed_update hinformed n⟩
  have heffect : ClientEffect client o.server o'.server effects (takes client o a) :=
    clientEffect hinformed h.nodup hshort hstep
  have hnodup := heffect.nodup h.nodup hinformed.clients
  obtain ⟨bytes, ⟨part, hsub, hpart⟩, hpending⟩ := h.whole
  have htaken : taken client (tr ++ [⟨o, a, effects, o'⟩]) = taken client tr ++ takes client o a := by
    simp [taken]
  have hsent : sentTo client (outputs (tr ++ [⟨o, a, effects, o'⟩]))
      = sentTo client (outputs tr) ++ sentTo client effects := by
    rw [outputs_append, outputs_singleton, sentTo_append]
  refine ⟨hinformed', hnodup, ?_, ?_⟩
  . intro hlength
    rw [htaken, hsent]
    generalize takes client o a = new at heffect
    cases heffect with
    | answers _ hanswers =>
      rw [hanswers.length] at hlength
      rw [hanswers.fresh hlength, List.append_nil, List.append_nil]
      apply h.fresh hlength
    | connect _ _ _ _ _ hheap =>
      rw [hheap, List.length_append] at hlength
      rw [sentTo_nil, List.append_nil, List.append_nil]
      apply h.fresh (Nat.le_trans (Nat.le_add_right _ _) hlength)
    | transmit _ _ _ _ _ hsame _ hpre =>
      obtain ⟨hlt, -⟩ := List.getElem?_eq_some_iff.mp hpre
      rw [hsame] at hlength
      exact absurd hlt (Nat.not_lt_of_le hlength)
  . rw [htaken, hsent]
    generalize takes client o a = new at heffect
    cases heffect with
    | answers _ hanswers =>
      rw [List.append_nil]
      by_cases halive : ∃ c' ∈ o'.server.heap[client]?, c'.isDead = false
      . obtain ⟨c', hc', halive⟩ := halive
        obtain ⟨c, hc, hwas, hgets⟩ := hanswers.gets c' hc' halive
        have hsub' := c.accepted_sublist (sentTo client effects)
        have haccepted := c.pending_sendEach (sentTo client effects)
        rw [← hgets.pending_eq] at haccepted
        refine ⟨c'.pending, ⟨part ++ c.accepted (sentTo client effects), hsub.append hsub', ?_⟩, ?_⟩
        . rw [haccepted, hpending c hc hwas, ← List.append_assoc, hpart, List.flatten_append]
        . intro c₁ hc₁ _
          rw [Option.mem_unique hc₁ hc']
      . refine ⟨bytes, ⟨part, hsub.trans (List.sublist_append_left _ _), hpart⟩, ?_⟩
        intro c' hc' hlive
        exact absurd ⟨c', hc', hlive⟩ halive
    | connect sock rxblock txblock _ _ hheap =>
      rw [List.append_nil]
      rw [sentTo_nil, List.append_nil]
      rcases Nat.lt_or_ge client o.server.heap.length with hlt | hge
      . refine ⟨bytes, ⟨part, hsub, hpart⟩, ?_⟩
        rw [hheap, List.getElem?_append_left hlt]
        exact hpending
      . obtain ⟨hnone, htook⟩ := h.fresh hge
        rw [hnone, htook]
        refine ⟨[], ⟨[], List.nil_sublist _, rfl⟩, ?_⟩
        intro c hc _
        rw [hheap, Option.mem_def, List.getElem?_append_right hge] at hc
        obtain rfl := List.mem_singleton.mp (List.mem_of_getElem? hc)
        apply SOBuffer.readData_new
    | transmit c c' sent result _ _ _ hpre hpost halive htransmit =>
      rw [sentTo_nil, List.append_nil]
      refine ⟨c'.pending, ⟨part, hsub, ?_⟩, ?_⟩
      . rw [List.append_assoc, (Client.transmitData_spec htransmit).1, hpending c hpre halive, hpart]
      . intro c₁ hc₁ _
        rw [Option.mem_unique hc₁ hpost]

theorem reading_of_run {sock : Int} {tr : List (Entry Observer Input Effect)} {o : Observer}
    (hrun : machine.Run (new sock) tr o) (hshort : ∀ a ∈ inputs tr, Short a) (client : ClientPtr)
    : Reading client tr o := by
  apply hrun.invariant_of_forall (C := fun e => Short e.input) (I := Reading client)
  . apply reading_new
  . intro tr o a o' effects hshort h hstep
    apply h.step hshort hstep
  . intro e he
    apply hshort
    apply List.mem_map_of_mem he

theorem line_of_update {o : Observer} {n : Notice} {client : ClientPtr} {msg : List UInt8}
    (h : msg ∈ sentTo client (o.update n).2)
    : msg = n.line := by
  have hhandles := o.handles n
  generalize handling n = k at hhandles
  cases hhandles with
  | notifyAll _ heffects =>
    rw [heffects] at h
    simp only [sentTo, List.filterMap_map, List.mem_filterMap, Function.comp] at h
    obtain ⟨c, -, hc⟩ := h
    split at hc
    . exact (Option.some.inj hc).symm
    . simp at hc
  | notify _ heffects =>
    rw [heffects] at h
    cases hcontroller : o.server.controller with
    | none => simp [hcontroller, CSirServer.notify] at h
    | some c =>
      rw [hcontroller, sentTo_notify] at h
      split at h
      . apply List.mem_singleton.mp h
      . simp at h
  | setPower _ heffects | unhandled _ heffects =>
    rw [heffects] at h
    simp at h

/-- All that is sent in a run are messages: replies, and what the server was notified of. -/
theorem message_of_run {sock : Int} {tr : List (Entry Observer Input Effect)} {o : Observer}
    (hrun : machine.Run (new sock) tr o) (client : ClientPtr)
    : (∃ effects, Informed effects o.server) ∧ ∀ msg ∈ sentTo client (outputs tr),
        ∃ m : Message, msg = m.line ∧ ∀ n, m = .notice n → .notice n ∈ inputs tr := by
  apply hrun.invariant (I := fun tr o => (∃ effects, Informed effects o.server)
    ∧ ∀ msg ∈ sentTo client (outputs tr),
      ∃ m : Message, msg = m.line ∧ ∀ n, m = .notice n → .notice n ∈ inputs tr)
  . exact ⟨⟨[], informed_new sock⟩, by simp⟩
  . rintro tr o a o' effects ⟨⟨effects₀, hinformed⟩, hold⟩ hstep
    have hnew : (∃ effects', Informed effects' o'.server) ∧ ∀ msg ∈ sentTo client effects,
        ∃ m : Message, msg = m.line ∧ ∀ n, m = .notice n → a = .notice n := by
      cases a with
      | server a =>
        obtain ⟨-, hserver⟩ := server_step hstep
        refine ⟨⟨_, hinformed.step hserver⟩, ?_⟩
        intro msg hmsg
        obtain ⟨r, hr⟩ := reply_of_step hinformed.serving hserver client msg hmsg
        exact ⟨.reply r, hr, by simp⟩
      | notice n =>
        obtain ⟨rfl, rfl⟩ := Prod.mk.inj (Option.some.inj hstep)
        refine ⟨⟨effects₀, informed_update hinformed n⟩, ?_⟩
        intro msg hmsg
        refine ⟨.notice n, line_of_update hmsg, ?_⟩
        rintro n' hn
        rw [Message.notice.inj hn]
    refine ⟨hnew.1, ?_⟩
    intro msg hmsg
    rw [outputs_append, outputs_singleton, sentTo_append, List.mem_append] at hmsg
    rw [inputs_append, inputs_singleton]
    cases hmsg with
    | inl hmsg =>
      obtain ⟨m, hm, hin⟩ := hold msg hmsg
      exact ⟨m, hm, fun n hn => List.mem_append_left _ (hin n hn)⟩
    | inr hmsg =>
      obtain ⟨m, hm, hin⟩ := hnew.2 msg hmsg
      refine ⟨m, hm, fun n hn => List.mem_append_right _ ?_⟩
      rw [hin n hn]
      apply List.mem_singleton_self

theorem exists_messages {msgs : List (List UInt8)} {P : Message → Prop}
    (h : ∀ msg ∈ msgs, ∃ m : Message, msg = m.line ∧ P m)
    : ∃ ms : List Message, msgs = ms.map Message.line ∧ ∀ m ∈ ms, P m := by
  induction msgs with
  | nil => exact ⟨[], rfl, by simp⟩
  | cons msg msgs ih =>
    rw [List.forall_mem_cons] at h
    obtain ⟨⟨m, rfl, hm⟩, hrest⟩ := h
    obtain ⟨ms, rfl, hms⟩ := ih hrest
    exact ⟨m :: ms, rfl, List.forall_mem_cons.mpr ⟨hm, hms⟩⟩

/--
In every run of the server, with clients that come and go, issue commands and take their output a few
bytes at a time while the radio notifies the server of events, with no result of a GET or SET request
during a step of the server thread, the lines a client has read are messages that were sent to it, in
order, each once and as a whole; and the client can make nothing else of them.
-/
theorem read_lines {sock : Int} {tr : List (Entry Observer Input Effect)} {o : Observer}
    (hrun : machine.Run (new sock) tr o) (hshort : ∀ a ∈ inputs tr, Short a)
    (hlegible : ∀ n, .notice n ∈ inputs tr → Message.Legible (.notice n)) (client : ClientPtr)
    (lines : List (List UInt8)) (rest : List UInt8) (hlines : ∀ line ∈ lines, 0x0A ∉ line)
    (hread : taken client tr = terminated 0x0A lines ++ rest)
    : ∃ ms : List Message, (ms.map Message.line).Sublist (sentTo client (outputs tr))
        ∧ lines = ms.map (fun m => m.view.text)
        ∧ ∀ ms' : List Message, (∀ m ∈ ms', m.Legible) → lines = ms'.map (fun m => m.view.text) →
            ms'.map Message.printed = ms.map Message.printed := by
  obtain ⟨bytes, ⟨part, hsub, hpart⟩, -⟩ := (reading_of_run hrun hshort client).whole
  have hmessages : ∀ msg ∈ part, ∃ m : Message, msg = m.line ∧ m.Legible := by
    intro msg hmsg
    obtain ⟨m, hm, hin⟩ := (message_of_run hrun client).2 msg (hsub.subset hmsg)
    refine ⟨m, hm, ?_⟩
    cases m with
    | reply r => apply Message.legible_reply
    | notice n => apply hlegible n (hin n rfl)
  obtain ⟨ms, rfl, hms⟩ := exists_messages hmessages
  have hstream : (ms.map Message.line).flatten = Message.stream ms := by
    unfold Message.stream
    rw [List.flatMap_def]
  rw [hstream, Message.stream_eq, hread, List.append_assoc] at hpart
  have hfront : lines <+: ms.map fun m => m.view.text := by
    apply prefix_of_terminated hlines _ hpart
    simpa using fun m hm => Message.newline_notMem (hms m hm)
  rw [List.prefix_iff_eq_take, ← List.map_take] at hfront
  refine ⟨ms.take lines.length, ?_, hfront, ?_⟩
  . rw [List.map_take]
    exact (List.take_sublist _ _).trans hsub
  . intro ms' hlegible' hlines'
    apply Message.map_printed_of_map_text
    . intro m hm
      apply hms m (List.mem_of_mem_take hm)
    . exact hlines'.symm.trans hfront

theorem read_lines_song
    : ∃ tr o, machine.Run (new 3) tr o
        ∧ inputs tr
            = [.server (.connect 5), .server (.connect 6),
                .server (.receive 99 (fun _ => ⟨255, .success⟩) 1
                  (.received (ascii "CONTROL ACQUIRE\n"))),
                .notice (.event (.songInfo ⟨20, ascii "Time", ascii "Pink", [], [], [], []⟩)),
                .notice (.event (.setResult 0)), .server (.transmit 1 (some 30)),
                .notice (.event (.gain ⟨-3⟩)), .server (.transmit 1 (some 30))]
        ∧ ∃ ms : List Message, (ms.map Message.line).Sublist (sentTo 1 (outputs tr))
            ∧ [ascii "CONTROL,ACQUIRED", ascii "SONGINFO,20,\"\",\"\",\"Time\",\"Pink\",\"\"",
                ascii "SET,0"] = ms.map (fun m => m.view.text) := by
  obtain ⟨tr, o, hrun, hin, hread⟩ := exists_run (show (machine.exec (new 3)
    [.server (.connect 5), .server (.connect 6),
      .server (.receive 99 (fun _ => ⟨255, .success⟩) 1 (.received (ascii "CONTROL ACQUIRE\n"))),
      .notice (.event (.songInfo ⟨20, ascii "Time", ascii "Pink", [], [], [], []⟩)),
      .notice (.event (.setResult 0)), .server (.transmit 1 (some 30)),
      .notice (.event (.gain ⟨-3⟩)), .server (.transmit 1 (some 30))]).any
    (fun r => taken 1 r.1 = terminated 0x0A
      [ascii "CONTROL,ACQUIRED", ascii "SONGINFO,20,\"\",\"\",\"Time\",\"Pink\",\"\"",
        ascii "SET,0"] ++ ascii "GA") = true by decide +kernel)
  have hshort : ∀ a ∈ inputs tr, Short a := by
    rw [hin]
    simp only [List.forall_mem_cons, Short, true_and]
    exact ⟨by decide, by decide, by decide, by simp⟩
  have hlegible : ∀ n, .notice n ∈ inputs tr → Message.Legible (.notice n) := by
    rw [hin]
    intro n hn
    simp only [List.mem_cons, reduceCtorEq, Input.notice.injEq, List.not_mem_nil, false_or,
      or_false] at hn
    rcases hn with rfl | rfl | rfl
    . exact ⟨⟨by decide, by decide⟩, by decide⟩
    . exact ⟨⟨by decide, by decide⟩, by decide⟩
    . exact ⟨⟨by decide, by decide⟩, by decide⟩
  obtain ⟨ms, hsub, hlines, -⟩ := read_lines hrun hshort hlegible 1 _ _ (by decide) hread
  exact ⟨tr, o, hrun, hin, ms, hsub, hlines⟩

end Observer
