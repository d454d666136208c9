import Sircond.SirServer.Lemmas.Frame
import Sircond.SirServer.Sending

/-!
This module contains the output of the server: what the clients get to read is made of whole
messages, as long as the length of a message survives the parameter it is passed in.

The steps of `outputMachine` are those that touch the transmit buffers. Nobody asks for control in
it: a message about control is a step of `notify` like any other. The outputs are the bytes taken by
the sockets.
-/

namespace CSirServer

open Machine

inductive OutputInput where
  | connect (sock : Int)
  | notify (client : ClientPtr) (msg : List UInt8)
  | notifyAll (msg : List UInt8)
  | transmitData (client : ClientPtr) (sent : Option Nat)
  | quit (client : ClientPtr)
  | drop (client : ClientPtr)
  deriving DecidableEq, Repr

abbrev OutputEntry := Entry CSirServer OutputInput (ClientPtr × List UInt8)

def taken (s : CSirServer) (client : ClientPtr) (sent : Option Nat) : List UInt8 :=
  (s.heap[client]?.map fun cl => cl.taken sent).getD []

def outputMachine : Machine CSirServer OutputInput (ClientPtr × List UInt8) where
  step s
    | .connect sock => some (s.onConnect sock, [])
    | .notify client msg =>
      if client < s.heap.length then some ((s.notify (some client) msg).1, []) else none
    | .notifyAll msg => some (s.broadcast msg, [])
    | .transmitData client sent =>
      if client ∈ s.clients && !s.isDead client then
        (s.transmitData client sent).map fun (s', _) => (s', [(client, s.taken client sent)])
      else
        none
    | .quit client => if client ∈ s.clients then some ((s.drop client).1, []) else none
    | .drop client =>
      if client ∈ s.clients then
        some ({ (s.drop client).1 with clients := s.clients.erase client }, [])
      else
        none

def addressed (c : ClientPtr) (s : CSirServer) : OutputInput → List (List UInt8)
  | .notify client msg => if client = c then [msg] else []
  | .notifyAll msg => if c ∈ s.clients then [msg] else []
  | .connect _ | .transmitData _ _ | .quit _ | .drop _ => []

def messagesTo (c : ClientPtr) (tr : List OutputEntry)
    : List (List UInt8) :=
  tr.flatMap fun e => addressed c e.pre e.input

def bytesOf (c : ClientPtr) (out : List (ClientPtr × List UInt8)) : List UInt8 :=
  (out.filter fun r => r.1 = c).flatMap fun r => r.2

/--
A message of which `Send` is told the length in `width` values: nothing of it gets lost, or nothing
is left, or what is left does not fit.
-/
def Uncut (cl : Client) (width : Nat) (msg : List UInt8) : Prop :=
  msg.length < width ∨ msg.length % width = 0 ∨ cl.txbuf.getWriteLen.1 < msg.length % width

instance (cl : Client) (width : Nat) (msg : List UInt8) : Decidable (Uncut cl width msg) := by
  unfold Uncut
  infer_instance

def WholeStep (c : ClientPtr) (s : CSirServer) : OutputInput → Prop
  | .notify client msg => client = c → ∀ cl ∈ s.heap[c]?, Uncut cl UInt32.size msg
  | .notifyAll msg => c ∈ s.clients → ∀ cl ∈ s.heap[c]?, Uncut cl UInt8.size msg
  | .connect _ | .transmitData _ _ | .quit _ | .drop _ => True

instance (c : ClientPtr) (s : CSirServer) (a : OutputInput) : Decidable (WholeStep c s a) := by
  unfold WholeStep
  cases a with
  | connect | transmitData | quit | drop => exact isTrue trivial
  | notify | notifyAll => infer_instance

structure Registered (s : CSirServer) : Prop where
  nodup : s.clients.Nodup
  valid : ∀ c ∈ s.clients, c < s.heap.length
  uncontrolled : s.controller = none ∧ s.controlQueue = []

theorem registered_new (sock : Int) : Registered (new sock) where
  nodup := List.nodup_nil
  valid := by simp [new]
  uncontrolled := ⟨rfl, rfl⟩

inductive OutputEffect (c : ClientPtr) (s s' : CSirServer) (a : OutputInput)
    : List (List UInt8) → List UInt8 → Prop
  | keep (hheap : s'.heap[c]? = s.heap[c]?) (hwhole : WholeStep c s a) : OutputEffect c s s' a [] []
  | connect (sock : Int) (rxblock txblock : List UInt8) (hfresh : s.heap.length = c)
      (hpost : s'.heap[c]? = some (.new sock rxblock txblock)) (hwhole : WholeStep c s a)
    : OutputEffect c s s' a [] []
  | send (cl : Client) (msg : List UInt8) (width : Nat) (hpre : s.heap[c]? = some cl)
      (hpost : s'.heap[c]? = some (cl.send (msg.take (msg.length % width))).1)
      (hwidth : 0 < width) (hwhole : WholeStep c s a ↔ Uncut cl width msg)
    : OutputEffect c s s' a [msg] []
  | transmit (cl cl' : Client) (bytes : List UInt8) (hpre : s.heap[c]? = some cl)
      (hpost : s'.heap[c]? = some cl') (hdead : cl'.isDead = cl.isDead)
      (hbytes : bytes ++ cl'.pending = cl.pending) (hwhole : WholeStep c s a)
    : OutputEffect c s s' a [] bytes
  | drop (cl : Client) (hpost : s'.heap[c]? = some cl) (hdead : cl.isDead = true)
      (hpre : c < s.heap.length) (hwhole : WholeStep c s a)
    : OutputEffect c s s' a [] []

def sendAll (buf : List UInt8) (s : CSirServer) (clients : List ClientPtr) : CSirServer :=
  clients.foldl
    (fun s client => { s with heap := s.heap.modify client fun cl => (cl.send buf).1 }) s

theorem heap_sendAll (s : CSirServer) (buf : List UInt8) {clients : List ClientPtr}
    (hnodup : clients.Nodup) (c : ClientPtr)
    : (sendAll buf s clients).heap[c]?
        =
      if c ∈ clients then s.heap[c]?.map fun cl => (cl.send buf).1 else s.heap[c]? := by
  induction clients generalizing s with
  | nil => rfl
  | cons client clients ih =>
    rw [List.nodup_cons] at hnodup
    unfold sendAll at ih ⊢
    rw [List.foldl_cons]
    rw [ih _ hnodup.2]
    dsimp only
    rw [List.getElem?_modify]
    by_cases hc : client = c
    . subst hc
      rw [if_neg hnodup.1]
      simp
    . simp [hc, Ne.symm hc]

theorem heap_broadcast {s : CSirServer} (h : Registered s) (msg : List UInt8) (c : ClientPtr)
    : (s.broadcast msg).heap[c]?
        =
      if c ∈ s.clients then
        s.heap[c]?.map fun cl => (cl.send (msg.take (msg.length % UInt8.size))).1
      else
        s.heap[c]? := by
  apply heap_sendAll
  apply h.nodup

theorem heap_drop {s : CSirServer} (h : Registered s) (client : ClientPtr)
    : (s.drop client).1.heap = s.heap.modify client Client.drop
        ∧ (s.drop client).1.clients = s.clients ∧ (s.drop client).1.controller = none
        ∧ (s.drop client).1.controlQueue = [] := by
  obtain ⟨hcontroller, hqueue⟩ := h.uncontrolled
  simp [CSirServer.drop, onDrop, releaseControl, hasControl, hcontroller, hqueue, fdClr]

theorem Registered.of_onlyOutput {s s' : CSirServer} (h : Registered s) (honly : OnlyOutput s s')
    (hcontrol : s'.controller = s.controller ∧ s'.controlQueue = s.controlQueue)
    : Registered s' where
  nodup := by
    rw [honly.clients]
    apply h.nodup
  valid := by
    rw [honly.clients, honly.length]
    apply h.valid
  uncontrolled := by
    rw [hcontrol.1, hcontrol.2]
    apply h.uncontrolled

theorem Registered.step {s s' : CSirServer} {a : OutputInput} {out : List (ClientPtr × List UInt8)}
    (h : Registered s) (hstep : outputMachine.step s a = some (s', out))
    : Registered s' := by
  cases a with
  | connect sock =>
    obtain ⟨rfl, -⟩ := Prod.mk.inj (Option.some.inj hstep)
    obtain ⟨hcontroller, hqueue, -, hheap⟩ := s.onConnect_eq sock
    have hclients := s.clients_onConnect sock
    refine ⟨?_, ?_, ?_⟩
    . rw [hclients, List.nodup_append]
      refine ⟨h.nodup, by simp, ?_⟩
      intro c hc d hd
      rw [List.mem_singleton.mp hd]
      apply Nat.ne_of_lt (h.valid c hc)
    . rw [hclients, hheap]
      intro c hc
      rw [List.mem_append, List.mem_singleton] at hc
      rw [List.length_append, List.length_singleton]
      cases hc with
      | inl hold => apply Nat.lt_succ_of_lt (h.valid c hold)
      | inr hnew =>
        rw [hnew]
        apply Nat.lt_succ_self
    . rw [hcontroller, hqueue]
      apply h.uncontrolled
  | notify client msg =>
    simp only [outputMachine] at hstep
    split at hstep
    . obtain ⟨rfl, -⟩ := Prod.mk.inj (Option.some.inj hstep)
      apply h.of_onlyOutput (onlyOutput_notify s (some client) msg)
      exact ⟨controller_notify .., controlQueue_notify ..⟩
    . simp at hstep
  | notifyAll msg =>
    obtain ⟨rfl, -⟩ := Prod.mk.inj (Option.some.inj hstep)
    apply h.of_onlyOutput (onlyOutput_broadcast s msg) (control_broadcast s msg)
  | transmitData client sent =>
    simp only [outputMachine] at hstep
    split at hstep
    . simp only [Option.map_eq_some_iff, Prod.mk.injEq] at hstep
      obtain ⟨⟨s₁, result⟩, htransmit, rfl, -⟩ := hstep
      obtain ⟨honly, hcontrol⟩ := onlyOutput_transmitData htransmit
      apply h.of_onlyOutput honly hcontrol
    . simp at hstep
  | quit client =>
    simp only [outputMachine] at hstep
    split at hstep
    . obtain ⟨rfl, -⟩ := Prod.mk.inj (Option.some.inj hstep)
      obtain ⟨hheap, hclients, hcontrol⟩ := heap_drop h client
      refine ⟨?_, ?_, hcontrol⟩
      . rw [hclients]
        apply h.nodup
      . rw [hclients, hheap, List.length_modify]
        apply h.valid
    . simp at hstep
  | drop client =>
    simp only [outputMachine] at hstep
    split at hstep
    . obtain ⟨rfl, -⟩ := Prod.mk.inj (Option.some.inj hstep)
      obtain ⟨hheap, hclients, hcontrol⟩ := heap_drop h client
      refine ⟨?_, ?_, hcontrol⟩
      . apply h.nodup.erase
      . dsimp only
        rw [hheap, List.length_modify]
        intro c hc
        apply h.valid c (List.mem_of_mem_erase hc)
    . simp at hstep

section OutputEffect

variable {s : CSirServer} (c : ClientPtr)

theorem outputEffect_drop {s' : CSirServer} {a : OutputInput} {client : ClientPtr}
    (hvalid : client < s.heap.length) (hheap : s'.heap = s.heap.modify client Client.drop)
    (hwhole : WholeStep c s a)
    : OutputEffect c s s' a [] [] := by
  by_cases hc : client = c
  . subst hc
    have hcl : s.heap[client]? = some s.heap[client] := List.getElem?_eq_getElem hvalid
    apply OutputEffect.drop s.heap[client].drop
    . rw [hheap, List.getElem?_modify]
      simp [hcl]
    . rfl
    . exact hvalid
    . exact hwhole
  . apply OutputEffect.keep
    . rw [hheap, List.getElem?_modify]
      simp [hc]
    . exact hwhole

theorem outputEffect_connect (sock : Int)
    : OutputEffect c s (s.onConnect sock) (.connect sock) [] [] := by
  obtain ⟨-, -, -, hheap⟩ := s.onConnect_eq sock
  cases Nat.lt_trichotomy c s.heap.length with
  | inl hlt =>
    apply OutputEffect.keep
    . rw [hheap, List.getElem?_append_left hlt]
    . trivial
  | inr hge =>
    cases hge with
    | inl heq =>
      apply OutputEffect.connect sock (List.replicate s.bufsize 0) (List.replicate s.bufsize 0)
      . exact heq.symm
      . rw [hheap, heq]
        simp
      . trivial
    | inr hgt =>
      apply OutputEffect.keep
      . rw [List.getElem?_eq_none, List.getElem?_eq_none]
        . omega
        . rw [hheap, List.length_append, List.length_singleton]
          omega
      . trivial

theorem outputEffect_notify {client : ClientPtr} (hvalid : client < s.heap.length)
    (msg : List UInt8)
    : OutputEffect c s (s.notify (some client) msg).1 (.notify client msg)
        (if client = c then [msg] else []) [] := by
  have hcl : s.heap[client]? = some s.heap[client] := List.getElem?_eq_getElem hvalid
  split
  . next hc =>
    subst hc
    apply OutputEffect.send s.heap[client] msg UInt32.size
    . exact hcl
    . simp [CSirServer.notify, hcl]
    . decide
    . simp [WholeStep, hcl]
  . next hc =>
    apply OutputEffect.keep
    . simp [CSirServer.notify, hc]
    . simp [WholeStep, hc]

theorem outputEffect_broadcast (h : Registered s) (msg : List UInt8)
    : OutputEffect c s (s.broadcast msg) (.notifyAll msg) (if c ∈ s.clients then [msg] else [])
        [] := by
  have hheap := heap_broadcast h msg c
  split
  . next hc =>
    obtain ⟨client, hcl⟩ : ∃ client, s.heap[c]? = some client :=
      ⟨_, List.getElem?_eq_getElem (h.valid c hc)⟩
    apply OutputEffect.send client msg UInt8.size
    . exact hcl
    . rw [hheap, if_pos hc, hcl]
      rfl
    . decide
    . simp [WholeStep, hc, hcl]
  . next hc =>
    apply OutputEffect.keep
    . rw [hheap, if_neg hc]
    . simp [WholeStep, hc]

theorem outputEffect_transmitData {s' : CSirServer} {client : ClientPtr} {sent : Option Nat}
    {result : Bool} (h : s.transmitData client sent = some (s', result))
    : OutputEffect c s s' (.transmitData client sent) []
        (bytesOf c [(client, s.taken client sent)]) := by
  obtain ⟨cl, cl', hcl, htransmit, rfl⟩ := transmitData_eq h
  by_cases hc : client = c
  . subst hc
    apply OutputEffect.transmit cl cl'
    . exact hcl
    . simp [hcl]
    . unfold Client.isDead
      rw [Client.sock_transmitData htransmit]
    . simp [bytesOf, taken, hcl, (Client.transmitData_spec htransmit).1]
    . trivial
  . have hnone : bytesOf c [(client, s.taken client sent)] = [] := by
      simp [bytesOf, hc]
    rw [hnone]
    apply OutputEffect.keep
    . simp [hc]
    . trivial

theorem outputEffect {s' : CSirServer} {a : OutputInput} {out : List (ClientPtr × List UInt8)}
    (h : Registered s) (hstep : outputMachine.step s a = some (s', out))
    : OutputEffect c s s' a (addressed c s a) (bytesOf c out) := by
  cases a with
  | connect sock =>
    obtain ⟨rfl, rfl⟩ := Prod.mk.inj (Option.some.inj hstep)
    apply outputEffect_connect
  | notify client msg =>
    simp only [outputMachine] at hstep
    split at hstep
    . next hvalid =>
      obtain ⟨rfl, rfl⟩ := Prod.mk.inj (Option.some.inj hstep)
      apply outputEffect_notify c hvalid
    . simp at hstep
  | notifyAll msg =>
    obtain ⟨rfl, rfl⟩ := Prod.mk.inj (Option.some.inj hstep)
    apply outputEffect_broadcast c h
  | transmitData client sent =>
    simp only [outputMachine] at hstep
    split at hstep
    . simp only [Option.map_eq_some_iff, Prod.mk.injEq] at hstep
      obtain ⟨⟨s₁, result⟩, htransmit, rfl, rfl⟩ := hstep
      apply outputEffect_transmitData c htransmit
    . simp at hstep
  | quit client | drop client =>
    simp only [outputMachine] at hstep
    split at hstep
    . next hmem =>
      obtain ⟨rfl, rfl⟩ := Prod.mk.inj (Option.some.inj hstep)
      apply outputEffect_drop c (h.valid client hmem)
      . apply (heap_drop h client).1
      . trivial
    . simp at hstep

end OutputEffect

def QueuedWhole (c : ClientPtr) (e : OutputEntry) : Prop :=
  ∀ cl ∈ e.pre.heap[c]?, ∀ cl' ∈ e.post.heap[c]?, ∀ msg ∈ addressed c e.pre e.input,
    cl'.pending = cl.pending ∨ cl'.pending = cl.pending ++ msg

instance (c : ClientPtr) (e : OutputEntry)
    : Decidable (QueuedWhole c e) := by
  unfold QueuedWhole
  infer_instance

theorem uncut_iff (cl : Client) (msg : List UInt8) {width : Nat} (hwidth : 0 < width)
    : Uncut cl width msg
        ↔
      (cl.send (msg.take (msg.length % width))).1.pending = cl.pending
        ∨ (cl.send (msg.take (msg.length % width))).1.pending = cl.pending ++ msg := by
  have hlen : (msg.take (msg.length % width)).length = msg.length % width := by
    rw [List.length_take]
    have := Nat.mod_le msg.length width
    omega
  have hmod := Nat.mod_lt msg.length hwidth
  cases Nat.lt_or_ge cl.txbuf.getWriteLen.1 (msg.length % width) with
  | inl hroom =>
    rw [← hlen] at hroom
    rw [(Client.send_of_lt hroom).2.1]
    rw [hlen] at hroom
    simp [Uncut, hroom]
  | inr hroom =>
    rw [← hlen] at hroom
    rw [(Client.send_of_le hroom).2.1]
    rw [List.append_right_eq_self, List.append_cancel_left_eq]
    rw [hlen] at hroom
    constructor
    . rintro (hshort | hzero | hrefused)
      . right
        rw [Nat.mod_eq_of_lt hshort]
        apply List.take_length
      . left
        rw [hzero]
        apply List.take_zero
      . omega
    . rintro (hnil | hall)
      . right
        left
        rw [hnil] at hlen
        exact hlen.symm
      . left
        rw [hall] at hlen
        omega

theorem OutputEffect.whole_iff {c : ClientPtr} {s s' : CSirServer} {a : OutputInput}
    {out : List (ClientPtr × List UInt8)} {bytes : List UInt8}
    (h : OutputEffect c s s' a (addressed c s a) bytes)
    : WholeStep c s a ↔ QueuedWhole c ⟨s, a, out, s'⟩ := by
  unfold QueuedWhole
  dsimp only
  generalize addressed c s a = msgs at h ⊢
  cases h with
  | keep _ hwhole | connect _ _ _ _ _ hwhole | transmit _ _ _ _ _ _ _ hwhole
  | drop _ _ _ _ hwhole => simp [hwhole]
  | send cl msg width hpre hpost hwidth hwhole =>
    rw [hwhole, uncut_iff cl msg hwidth]
    simp [hpre, hpost]

def WholeMessages (msgs : List (List UInt8)) (bytes : List UInt8) : Prop :=
  ∃ part : List (List UInt8), part.Sublist msgs ∧ bytes = part.flatten

/--
What the history `tr` of a run says about a client that is connected: the bytes its socket has taken
and those pending are the messages of a part of those addressed to it, in order.
-/
structure Delivered (c : ClientPtr) (tr : List OutputEntry)
    (s : CSirServer)
    : Prop where
  fresh : s.heap[c]? = none → messagesTo c tr = [] ∧ bytesOf c (outputs tr) = []
  whole : ∀ cl ∈ s.heap[c]?, cl.isDead = false →
    WholeMessages (messagesTo c tr) (bytesOf c (outputs tr) ++ cl.pending)

theorem delivered_new (c : ClientPtr) (sock : Int) : Delivered c [] (new sock) where
  fresh _ := ⟨rfl, rfl⟩
  whole := by simp [new]

theorem bytesOf_append (c : ClientPtr) (out₁ out₂ : List (ClientPtr × List UInt8))
    : bytesOf c (out₁ ++ out₂) = bytesOf c out₁ ++ bytesOf c out₂ := by
  simp [bytesOf]

theorem Delivered.step {c : ClientPtr}
    {tr : List OutputEntry} {s s' : CSirServer}
    {a : OutputInput} {out : List (ClientPtr × List UInt8)} (h : Delivered c tr s)
    (heffect : OutputEffect c s s' a (addressed c s a) (bytesOf c out)) (hwhole : WholeStep c s a)
    : Delivered c (tr ++ [⟨s, a, out, s'⟩]) s' := by
  have hmsgs : messagesTo c (tr ++ [⟨s, a, out, s'⟩]) = messagesTo c tr ++ addressed c s a := by
    simp [messagesTo]
  have hbytes : bytesOf c (outputs (tr ++ [⟨s, a, out, s'⟩]))
      = bytesOf c (outputs tr) ++ bytesOf c out := by
    rw [outputs_append, outputs_singleton, bytesOf_append]
  constructor
  . intro hnone
    rw [hmsgs, hbytes]
    generalize addressed c s a = msgs, bytesOf c out = bytes at heffect ⊢
    cases heffect with
    | keep hheap =>
      rw [List.append_nil, List.append_nil]
      apply h.fresh (hheap.symm.trans hnone)
    | connect sock rxblock txblock hfresh hpost => simp [hpost] at hnone
    | send cl msg width hpre hpost => simp [hpost] at hnone
    | transmit cl cl' bytes hpre hpost => simp [hpost] at hnone
    | drop cl hpost => simp [hpost] at hnone
  . intro cl' hcl' halive
    rw [hmsgs, hbytes]
    generalize addressed c s a = msgs, bytesOf c out = bytes at heffect ⊢
    cases heffect with
    | keep hheap =>
      rw [List.append_nil, List.append_nil]
      rw [hheap] at hcl'
      apply h.whole cl' hcl' halive
    | connect sock rxblock txblock hfresh hpost =>
      obtain rfl : Client.new sock rxblock txblock = cl' := Option.some.inj (hpost.symm.trans hcl')
      obtain ⟨hmsgs₀, hbytes₀⟩ := h.fresh (List.getElem?_eq_none (Nat.le_of_eq hfresh))
      rw [hmsgs₀, hbytes₀]
      exact ⟨[], List.nil_sublist _, SOBuffer.readData_new txblock⟩
    | send cl msg width hpre hpost hwidth hiff =>
      obtain rfl := Option.some.inj (hpost.symm.trans hcl')
      rw [Client.isDead_send] at halive
      obtain ⟨old, hsub, hold⟩ := h.whole cl hpre halive
      rw [List.append_nil]
      rw [hiff, uncut_iff cl msg hwidth] at hwhole
      cases hwhole with
      | inl hrefused =>
        rw [hrefused]
        exact ⟨old, hsub.trans (List.sublist_append_left _ _), hold⟩
      | inr hqueued =>
        refine ⟨old ++ [msg], hsub.append (List.Sublist.refl _), ?_⟩
        rw [hqueued]
        rw [← List.append_assoc]
        rw [hold]
        simp
    | transmit cl cl₁ bytes hpre hpost hdead hsent =>
      obtain rfl := Option.some.inj (hpost.symm.trans hcl')
      rw [hdead] at halive
      obtain ⟨old, hsub, hold⟩ := h.whole cl hpre halive
      refine ⟨old, ?_, ?_⟩
      . rw [List.append_nil]
        exact hsub
      . rw [List.append_assoc]
        rw [hsent]
        exact hold
    | drop cl hpost hdead =>
      obtain rfl := Option.some.inj (hpost.symm.trans hcl')
      simp [hdead] at halive

/--
The output to a client is made of whole messages: a step leaves every message addressed to the client
whole if and only if the length parameter does not cut it, and if that holds for all steps of a run,
then what the client has been sent and has pending is a sequence of messages addressed to it.
-/
theorem output_whole {sock : Int}
    {tr : List OutputEntry} {s : CSirServer}
    (hrun : outputMachine.Run (new sock) tr s) (c : ClientPtr)
    : ((∀ e ∈ tr, WholeStep c e.pre e.input) ↔ ∀ e ∈ tr, QueuedWhole c e)
        ∧
      ((∀ e ∈ tr, WholeStep c e.pre e.input) →
        ∀ cl ∈ s.heap[c]?, cl.isDead = false →
          WholeMessages (messagesTo c tr) (bytesOf c (outputs tr) ++ cl.pending)) := by
  have hiff : (∀ e ∈ tr, WholeStep c e.pre e.input) ↔ ∀ e ∈ tr, QueuedWhole c e := by
    apply hrun.forall_iff (I := Registered)
    . apply registered_new
    . intro s a s' out hregistered hstep
      exact ⟨(outputEffect c hregistered hstep).whole_iff, fun _ => hregistered.step hstep⟩
  refine ⟨hiff, ?_⟩
  intro hall
  have hdelivered : Registered s ∧ Delivered c tr s := by
    apply hrun.invariant_of_forall (C := fun e => WholeStep c e.pre e.input)
      (I := fun tr s => Registered s ∧ Delivered c tr s)
    . exact ⟨registered_new sock, delivered_new c sock⟩
    . intro tr s a s' out hwhole ih hstep
      exact ⟨ih.1.step hstep, ih.2.step (outputEffect c ih.1 hstep) hwhole⟩
    . exact hall
  apply hdelivered.2.whole

theorem output_whole_partial
    : ∃ tr s,
        outputMachine.Run (new 3) tr s
          ∧ inputs tr
              = [.connect 5, .connect 6, .notifyAll (ascii "POWER,FULL\n"),
                  .notify 1 (ascii "OK\n"), .transmitData 1 (some 4),
                  .notifyAll (List.replicate 256 0x41), .quit 0, .notifyAll (ascii "MUTE,OFF\n")]
          ∧ (∀ e ∈ tr, QueuedWhole 1 e)
          ∧ ∀ cl ∈ s.heap[1]?, cl.isDead = false →
              WholeMessages (messagesTo 1 tr) (bytesOf 1 (outputs tr) ++ cl.pending) := by
  obtain ⟨tr, s, hrun, hin, hcheck⟩ := exists_run (show (outputMachine.exec (new 3)
    [.connect 5, .connect 6, .notifyAll (ascii "POWER,FULL\n"), .notify 1 (ascii "OK\n"),
      .transmitData 1 (some 4), .notifyAll (List.replicate 256 0x41), .quit 0,
      .notifyAll (ascii "MUTE,OFF\n")]).any
    (fun r => ∀ e ∈ r.1, WholeStep 1 e.pre e.input) = true by decide +kernel)
  have hwhole := output_whole hrun 1
  exact ⟨tr, s, hrun, hin, hwhole.1.mp hcheck, hwhole.2 hcheck⟩

theorem output_cut
    : ∃ tr s cl,
        outputMachine.Run (new 3) tr s
          ∧ inputs tr
              = [.connect 5, .notifyAll (List.replicate 299 0x41 ++ [0x0A])]
          ∧ s.heap[0]? = some cl ∧ cl.isDead = false
          ∧ messagesTo 0 tr = [List.replicate 299 0x41 ++ [0x0A]]
          ∧ bytesOf 0 (outputs tr) ++ cl.pending = List.replicate 44 0x41
          ∧ ¬ WholeMessages (messagesTo 0 tr) (bytesOf 0 (outputs tr) ++ cl.pending) := by
  obtain ⟨tr, s, hrun, hin, hcheck⟩ := exists_run (show (outputMachine.exec (new 3)
    [.connect 5, .notifyAll (List.replicate 299 0x41 ++ [0x0A])]).any
    (fun r => messagesTo 0 r.1 = [List.replicate 299 0x41 ++ [0x0A]]
      ∧ ∃ cl ∈ r.2.heap[0]?, cl.isDead = false
        ∧ bytesOf 0 (outputs r.1) ++ cl.pending = List.replicate 44 0x41) = true by decide +kernel)
  obtain ⟨hmsgs, cl, hcl, halive, hbytes⟩ := hcheck
  refine ⟨tr, s, cl, hrun, hin, hcl, halive, hmsgs, hbytes, ?_⟩
  rw [hmsgs, hbytes]
  rintro ⟨msgs, hsub, hflat⟩
  rw [List.sublist_singleton] at hsub
  cases hsub with
  | inl hnil =>
    subst hnil
    revert hflat
    decide
  | inr hone =>
    subst hone
    revert hflat
    decide

end CSirServer
