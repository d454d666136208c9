import Sircond.SirServer.Lemmas.Replies
import Sircond.SirServer.Standing
import Sircond.SirServer.Output
import Sircond.Daemon.Impl

/-!
This module contains what a step of the server means for one client: which of the messages sent to it
are appended to what it has pending.
-/

open Scp Machine

namespace Client

theorem txbuf_send {c d : Client} (h : c.txbuf = d.txbuf) (msg : List UInt8)
    : (c.send msg).1.txbuf = (d.send msg).1.txbuf := by
  rcases c with ⟨sock, rxbuf, txbuf, txok⟩
  rcases d with ⟨sock', rxbuf', txbuf', txok'⟩
  dsimp only at h
  subst h
  unfold send
  split
  . rfl
  . rfl

theorem txbuf_sendEach {c d : Client} (h : c.txbuf = d.txbuf) (msgs : List (List UInt8))
    : (c.sendEach msgs).txbuf = (d.sendEach msgs).txbuf := by
  induction msgs generalizing c d with
  | nil => exact h
  | cons msg msgs ih =>
    apply ih
    apply txbuf_send h

/-- What a client has pending comes from sending it messages, one after the other. -/
def Gets (c c' : Client) (msgs : List (List UInt8)) : Prop := c'.txbuf = (c.sendEach msgs).txbuf

theorem Gets.pending_eq {c c' : Client} {msgs : List (List UInt8)} (h : Gets c c' msgs)
    : c'.pending = (c.sendEach msgs).pending :=
  congrArg SOBuffer.readData h

theorem Gets.trans {c₁ c₂ c₃ : Client} {msgs msgs' : List (List UInt8)} (h : Gets c₁ c₂ msgs)
    (h' : Gets c₂ c₃ msgs')
    : Gets c₁ c₃ (msgs ++ msgs') := by
  unfold Gets at *
  rw [h', txbuf_sendEach h, sendEach, sendEach, sendEach, List.foldl_append]

end Client

namespace CSirServer

open Client

/--
What some steps of the server mean for one client: it gets the messages sent to it, or it is dead.
Nothing was sent to somebody who is not there.
-/
structure Answers (client : ClientPtr) (s s' : CSirServer) (effects : List Effect) : Prop where
  length : s'.heap.length = s.heap.length
  clients : s'.clients.Sublist s.clients
  bufsize : s'.bufsize = s.bufsize
  gets : ∀ c' ∈ s'.heap[client]?, c'.isDead = false →
    ∃ c ∈ s.heap[client]?, c.isDead = false ∧ Gets c c' (sentTo client effects)
  fresh : s.heap.length ≤ client → sentTo client effects = []

theorem answers_of_heap {client : ClientPtr} {s s' : CSirServer} (h : s'.heap = s.heap)
    (hclients : s'.clients = s.clients) (hbufsize : s'.bufsize = s.bufsize)
    : Answers client s s' [] where
  length := congrArg List.length h
  clients := by
    rw [hclients]
  bufsize := hbufsize
  gets c' hc' halive := by
    rw [h] at hc'
    exact ⟨c', hc', halive, rfl⟩
  fresh _ := rfl

theorem Answers.trans {client : ClientPtr} {s₁ s₂ s₃ : CSirServer} {effects effects' : List Effect}
    (h : Answers client s₁ s₂ effects) (h' : Answers client s₂ s₃ effects')
    : Answers client s₁ s₃ (effects ++ effects') where
  length := h'.length.trans h.length
  clients := h'.clients.trans h.clients
  bufsize := h'.bufsize.trans h.bufsize
  gets c₃ hc₃ halive₃ := by
    rcases h'.gets c₃ hc₃ halive₃ with ⟨c₂, hc₂, halive₂, hgets'⟩
    rcases h.gets c₂ hc₂ halive₂ with ⟨c₁, hc₁, halive₁, hgets⟩
    refine ⟨c₁, hc₁, halive₁, ?_⟩
    rw [sentTo_append]
    apply hgets.trans hgets'
  fresh hfresh := by
    rw [sentTo_append, h.fresh hfresh, h'.fresh (by rw [h.length]; exact hfresh)]
    rfl

theorem answers_modify {client d : ClientPtr} {s : CSirServer} {effects : List Effect}
    {f : Client → Client} (hlt : d < s.heap.length)
    (hother : client ≠ d → sentTo client effects = [])
    (hf : client = d → ∀ c, (f c).isDead = false → c.isDead = false ∧ Gets c (f c) (sentTo d effects))
    : Answers client s { s with heap := s.heap.modify d f } effects where
  length := List.length_modify ..
  clients := List.Sublist.refl _
  bufsize := rfl
  gets c' hc' halive := by
    dsimp only at hc'
    rw [List.getElem?_modify] at hc'
    by_cases hclient : client = d
    . subst hclient
      rw [List.getElem?_eq_getElem hlt] at hc' ⊢
      simp only [if_true, Option.map_eq_map, Option.map_some, Option.mem_some_iff] at hc'
      subst hc'
      exact ⟨_, rfl, hf rfl _ halive⟩
    . rw [hother hclient]
      simp only [Ne.symm hclient, if_false, id_map'] at hc'
      exact ⟨c', hc', halive, rfl⟩
  fresh hfresh := by
    apply hother
    rintro rfl
    exact Nat.not_lt_of_le hfresh hlt

theorem answers_notify {d : ClientPtr} {s : CSirServer} (hlt : d < s.heap.length)
    {msg : List UInt8} (hshort : msg.length < UInt32.size) (client : ClientPtr)
    : Answers client s (s.notify (some d) msg).1 (s.notify (some d) msg).2 := by
  have hbuf : msg.take (msg.length % UInt32.size) = msg := by
    rw [Nat.mod_eq_of_lt hshort, List.take_length]
  simp only [notify, hbuf]
  apply answers_modify hlt
  . intro hclient
    exact (sentTo_notify client s d msg).trans (if_neg (Ne.symm hclient))
  . rintro rfl c halive
    rw [isDead_send] at halive
    refine ⟨halive, ?_⟩
    have hsent : sentTo client [.notify client msg] = [msg] := by simp [sentTo]
    rw [hsent]
    rfl

theorem Answers.send {client : ClientPtr} {s s' : CSirServer} {effects : List Effect}
    (h : Answers client s s' effects) (data : Payload)
    : Answers client s s' (.send data :: effects) where
  length := h.length
  clients := h.clients
  bufsize := h.bufsize
  gets := by
    rw [sentTo_send]
    apply h.gets
  fresh := by
    rw [sentTo_send]
    apply h.fresh

theorem Replies.short {s : CSirServer} {issuer : ClientPtr} {effects : List Effect}
    (h : Replies s issuer effects) {client : ClientPtr} {msg : List UInt8}
    (hmsg : msg ∈ sentTo client effects)
    : msg.length < UInt32.size := by
  rcases (h client msg hmsg).2 with ⟨r, rfl⟩
  apply r.length_line_lt

theorem answers_releaseControl {s : CSirServer} (hqueue : ∀ c ∈ s.controlQueue, c < s.heap.length)
    (issuer client : ClientPtr)
    : Answers client s (s.releaseControl issuer).1 (s.releaseControl issuer).2 := by
  unfold releaseControl
  split
  . split
    . apply answers_of_heap
      . rfl
      . rfl
      . rfl
    . next front rest heq =>
      have hfront : front < s.heap.length := by
        apply hqueue
        rw [heq]
        apply List.mem_cons_self
      have hheap : Answers client s { s with controller := some front, controlQueue := rest } [] :=
        answers_of_heap rfl rfl rfl
      have hlt : front < { s with controller := some front, controlQueue := rest }.heap.length :=
        hfront
      exact hheap.trans (answers_notify hlt (by decide) client)
  . apply answers_of_heap
    . rfl
    . rfl
    . rfl

theorem answers_drop {s : CSirServer} (hqueue : ∀ c ∈ s.controlQueue, c < s.heap.length)
    {d : ClientPtr} (hlt : d < s.heap.length) (client : ClientPtr)
    : Answers client s (s.drop d).1 (s.drop d).2 := by
  have hrelease := answers_releaseControl hqueue d client
  have hlength := hrelease.length
  have hdrop : Answers client (s.releaseControl d).1 (s.drop d).1 [] := by
    have hmodify : Answers client (s.onDrop d).1 (s.drop d).1 [] := by
      apply answers_modify
      . exact hlength.symm ▸ hlt
      . exact fun _ => rfl
      . rintro - c halive
        rw [Client.isDead_drop] at halive
        simp at halive
    have honDrop : Answers client (s.releaseControl d).1 (s.onDrop d).1 [] := answers_of_heap rfl rfl rfl
    exact honDrop.trans hmodify
  have htrans := hrelease.trans hdrop
  rwa [List.append_nil] at htrans

theorem answers_processCommand {s : CSirServer} (hqueue : ∀ c ∈ s.controlQueue, c < s.heap.length)
    (radio : Radio) {issuer : ClientPtr} (hlt : issuer < s.heap.length) (line : List UInt8)
    (client : ClientPtr)
    : Answers client s (s.processCommand radio issuer line).1
        (s.processCommand radio issuer line).2 := by
  have heffect := commandEffect_processCommand radio s issuer line
  have hreplies := replies_processCommand radio s issuer line
  generalize strTokenize line 0x20 true = tokens at heffect
  generalize s.processCommand radio issuer line = r at heffect hreplies
  have hnotify : ∀ (s' : CSirServer) (msg : List UInt8),
      msg ∈ sentTo issuer r.2 → s'.heap.length = s.heap.length →
        Answers client s' (s'.notify (some issuer) msg).1 (s'.notify (some issuer) msg).2 := by
    intro s' msg hmsg hlength
    apply answers_notify (hlength.symm ▸ hlt) (hreplies.short hmsg)
  cases heffect with
  | get _ data | set _ data =>
    apply Answers.send
    apply hnotify s _ _ rfl
    simp [request, notifyResult, sentTo_notify]
  | acquire =>
    have hacquire : Answers client s (s.acquireControl issuer).1 [] := by
      obtain ⟨controller, controlQueue, heq⟩ := s.acquireControl_eq issuer
      apply answers_of_heap
      . rw [heq]
      . apply (onlyOutput_acquireControl s issuer).clients
      . apply (onlyOutput_acquireControl s issuer).bufsize
    apply hacquire.trans
    apply hnotify _ _ _ hacquire.length
    simp [sentTo_notify]
  | release =>
    have hrelease := answers_releaseControl hqueue issuer client
    apply hrelease.trans
    apply hnotify _ _ _ hrelease.length
    simp [sentTo_append, sentTo_notify]
  | quit => apply answers_drop hqueue hlt
  | other _ _ _ _ _ _ _ hr =>
    rcases hr with rfl | ⟨msg, rfl⟩
    . apply answers_of_heap rfl rfl rfl
    . apply hnotify s _ _ rfl
      simp [sentTo_notify]

theorem Informed.lt_of_standing {effects : List Effect} {s : CSirServer} (h : Informed effects s)
    {c : ClientPtr} (hc : s.standing c ≠ .outside)
    : c < s.heap.length := by
  by_contra hge
  apply hc
  apply (h.heard.fresh c (Nat.le_of_not_lt hge)).2

theorem Informed.lt_of_mem_queue {effects : List Effect} {s : CSirServer} (h : Informed effects s)
    : ∀ c ∈ s.controlQueue, c < s.heap.length := by
  intro c hc
  apply h.lt_of_standing
  unfold standing
  split
  . simp
  . simp

theorem answers_foldl_exec {effects₀ : List Effect} (radio : Nat → Radio) {issuer : ClientPtr}
    (lines : List (List UInt8)) {s : CSirServer} (k : Nat) {effects : List Effect}
    (h : Informed (effects₀ ++ effects) s) (hlt : issuer < s.heap.length) (client : ClientPtr)
    : ∃ new, (lines.foldl (exec radio issuer) (s, k, effects)).2.2 = effects ++ new
        ∧ Answers client s (lines.foldl (exec radio issuer) (s, k, effects)).1 new := by
  induction lines generalizing s k effects with
  | nil => exact ⟨[], by simp, answers_of_heap rfl rfl rfl⟩
  | cons line lines ih =>
    have hanswers := answers_processCommand h.lt_of_mem_queue (radio k) hlt line client
    have hnext := h.processCommand (radio k) hlt line
    rw [List.append_assoc] at hnext
    rw [List.foldl_cons]
    rcases ih (k + 1) hnext (by rw [hanswers.length]; exact hlt) with ⟨new, hnew, hrest⟩
    refine ⟨(s.processCommand (radio k) issuer line).2 ++ new, ?_, hanswers.trans hrest⟩
    rw [← List.append_assoc]
    apply hnew

theorem Serving.receiveData_eq {s s' : CSirServer} (h : Serving s) {fuel : Nat}
    {radio : Nat → Radio} {issuer : ClientPtr} {result : Client.RecvResult} {more : Bool}
    {new : List Effect} (hstep : s.receiveData fuel radio issuer result = some (s', new, more))
    : issuer < s.heap.length ∧ ∃ s₁ k rxbuf,
        result.lines.foldl (exec radio issuer) (s, 0, []) = (s₁, k, new)
          ∧ s' = { s₁ with heap := s₁.heap.modify issuer fun c => { c with rxbuf } } := by
  simp only [CSirServer.receiveData, Option.bind_eq_bind, Option.bind_eq_some_iff] at hstep
  obtain ⟨c, hc, ⟨⟨s₁, k, new₁⟩, rxbuf, lines, more₁⟩, hrecv, heq⟩ := hstep
  obtain ⟨rfl, hnew⟩ := Prod.mk.inj (Option.some.inj heq)
  obtain ⟨rfl, -⟩ := Prod.mk.inj hnew
  have hmem : c.rxbuf ∈ s.rxbufs := List.mem_map_of_mem (List.mem_of_getElem? hc)
  obtain ⟨-, hlines, -⟩ := (h.drained _ hmem).receiveData_some h.bufsize hrecv
  obtain ⟨hlt, -⟩ := List.getElem?_eq_some_iff.mp hc
  exact ⟨hlt, s₁, k, rxbuf, hlines.symm, rfl⟩

theorem answers_receiveData {effects₀ new : List Effect} {s s' : CSirServer}
    (h : Informed effects₀ s) {fuel : Nat} {radio : Nat → Radio} {issuer : ClientPtr}
    {result : Client.RecvResult} {more : Bool}
    (hstep : s.receiveData fuel radio issuer result = some (s', new, more)) (client : ClientPtr)
    : Answers client s s' new := by
  obtain ⟨hlt, s₁, k, rxbuf, hfold, rfl⟩ := h.serving.receiveData_eq hstep
  have hstart : Informed (effects₀ ++ []) s := by
    rw [List.append_nil]
    apply h
  rcases answers_foldl_exec radio result.lines 0 hstart hlt client with ⟨new', hnew, hanswers⟩
  rw [hfold, List.nil_append] at hnew
  rw [hfold] at hanswers
  dsimp only at hnew hanswers
  rw [hnew]
  have hread : Answers client s₁ { s₁ with
      heap := s₁.heap.modify issuer fun c => { c with rxbuf } } [] := by
    apply answers_modify
    . rw [hanswers.length]
      exact hlt
    . exact fun _ => rfl
    . rintro - c halive
      exact ⟨halive, rfl⟩
  have htrans := hanswers.trans hread
  rwa [List.append_nil] at htrans

theorem reply_of_foldl_exec (radio : Nat → Radio) (issuer client : ClientPtr)
    (lines : List (List UInt8)) (s : CSirServer) (k : Nat) {effects : List Effect}
    (h : ∀ msg ∈ sentTo client effects, ∃ r : Reply, msg = r.line)
    : ∀ msg ∈ sentTo client (lines.foldl (exec radio issuer) (s, k, effects)).2.2,
        ∃ r : Reply, msg = r.line := by
  induction lines generalizing s k effects with
  | nil => exact h
  | cons line lines ih =>
    rw [List.foldl_cons]
    apply ih
    intro msg hmsg
    rw [sentTo_append, List.mem_append] at hmsg
    cases hmsg with
    | inl hmsg => apply h msg hmsg
    | inr hmsg => exact (replies_processCommand (radio k) s issuer line client msg hmsg).2

theorem reply_of_step {s s' : CSirServer} (h : Serving s) {a : Input} {effects : List Effect}
    (hstep : serverMachine.step s a = some (s', effects)) (client : ClientPtr)
    : ∀ msg ∈ sentTo client effects, ∃ r : Reply, msg = r.line := by
  intro msg hmsg
  cases a with
  | connect sock =>
    simp only [serverMachine] at hstep
    split at hstep
    . simp at hstep
    . obtain ⟨-, rfl⟩ := Prod.mk.inj (Option.some.inj hstep)
      simp at hmsg
  | receive fuel radio issuer result =>
    simp only [serverMachine] at hstep
    split at hstep
    . simp only [Option.bind_eq_bind, Option.bind_eq_some_iff] at hstep
      obtain ⟨⟨s₁, new, more⟩, hrecv, heq⟩ := hstep
      obtain ⟨-, rfl⟩ := Prod.mk.inj (Option.some.inj heq)
      obtain ⟨-, s₂, k, rxbuf, hfold, -⟩ := h.receiveData_eq hrecv
      have hnil : ∀ msg ∈ sentTo client [], ∃ r : Reply, msg = r.line := by simp
      have hreply := reply_of_foldl_exec radio issuer client result.lines s 0 hnil
      rw [hfold] at hreply
      apply hreply msg hmsg
    . simp at hstep
  | transmit c sent =>
    simp only [serverMachine] at hstep
    split at hstep
    . simp only [Option.bind_eq_bind, Option.bind_eq_some_iff] at hstep
      obtain ⟨⟨s₁, more⟩, -, heq⟩ := hstep
      obtain ⟨-, rfl⟩ := Prod.mk.inj (Option.some.inj heq)
      simp at hmsg
    . simp at hstep
  | drop d =>
    simp only [serverMachine] at hstep
    split at hstep
    . obtain ⟨-, rfl⟩ := Prod.mk.inj (Option.some.inj hstep)
      exact (replies_releaseControl s d client msg hmsg).2
    . simp at hstep
  | broadcast text =>
    obtain ⟨-, rfl⟩ := Prod.mk.inj (Option.some.inj hstep)
    simp at hmsg

theorem sentTo_map_notify {clients : List ClientPtr} (hnodup : clients.Nodup) (msg : List UInt8)
    (client : ClientPtr)
    : sentTo client (clients.map fun c => .notify c msg) = if client ∈ clients then [msg] else [] := by
  induction clients with
  | nil => rfl
  | cons c clients ih =>
    rw [List.nodup_cons] at hnodup
    rw [List.map_cons, sentTo_cons_notify, ih hnodup.2]
    by_cases hc : c = client
    . subst hc
      simp [hnodup.1]
    . simp [hc, Ne.symm hc]

theorem answers_broadcast {s : CSirServer} (hnodup : s.clients.Nodup)
    (hvalid : ∀ c ∈ s.clients, c < s.heap.length) {msg : List UInt8}
    (hshort : msg.length < UInt8.size) (client : ClientPtr)
    : Answers client s (s.broadcast msg) (s.clients.map fun c => .notify c msg) where
  length := (onlyOutput_broadcast s msg).length
  clients := by
    rw [(onlyOutput_broadcast s msg).clients]
  bufsize := (onlyOutput_broadcast s msg).bufsize
  gets c' hc' halive := by
    have hbuf : msg.take (msg.length % 256) = msg := by
      rw [Nat.mod_eq_of_lt hshort, List.take_length]
    have hheap : (s.broadcast msg).heap[client]?
        = if client ∈ s.clients then s.heap[client]?.map fun c => (c.send msg).1 else s.heap[client]? := by
      unfold broadcast
      rw [hbuf]
      apply heap_sendAll s msg hnodup
    rw [hheap] at hc'
    rw [sentTo_map_notify hnodup]
    split at hc'
    . next hmem =>
      rw [Option.mem_def, Option.map_eq_some_iff] at hc'
      rcases hc' with ⟨c, hc, rfl⟩
      rw [isDead_send] at halive
      rw [if_pos hmem]
      exact ⟨c, hc, halive, rfl⟩
    . next hmem =>
      rw [if_neg hmem]
      exact ⟨c', hc', halive, rfl⟩
  fresh hfresh := by
    rw [sentTo_map_notify hnodup, if_neg]
    intro hmem
    exact Nat.not_lt_of_le hfresh (hvalid client hmem)

end CSirServer
