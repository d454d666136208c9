import Sircond.SirServer.Lemmas.Command
import Sircond.SirServer.Impl.OnRun

/-!
This module contains what the functions of the server leave alone. Only `Drop` makes a client dead,
only its own `ReceiveData` touches its receive buffer, and only a new connection and a drop change
the table of clients: what the other functions do is seen in the transmit buffers and the control.
-/

namespace CSirServer

def rxbufs (s : CSirServer) : List SOBuffer := s.heap.map Client.rxbuf

structure SameTable (s s' : CSirServer) : Prop where
  getSock : ∀ c, s'.getSock c = s.getSock c
  fds : s'.fds = s.fds
  clients : s'.clients = s.clients
  sock : s'.sock = s.sock
  length : s'.heap.length = s.heap.length

theorem SameTable.refl (s : CSirServer) : SameTable s s where
  getSock _ := rfl
  fds := rfl
  clients := rfl
  sock := rfl
  length := rfl

theorem SameTable.trans {s₁ s₂ s₃ : CSirServer} (h₁ : SameTable s₁ s₂) (h₂ : SameTable s₂ s₃)
    : SameTable s₁ s₃ where
  getSock c := (h₂.getSock c).trans (h₁.getSock c)
  fds := h₂.fds.trans h₁.fds
  clients := h₂.clients.trans h₁.clients
  sock := h₂.sock.trans h₁.sock
  length := h₂.length.trans h₁.length

theorem isDead_eq (s : CSirServer) (c : ClientPtr) : s.isDead c = decide (s.getSock c = -1) := by
  unfold isDead getSock
  cases s.heap[c]? with
  | none => rfl
  | some cl => rfl

theorem SameTable.isDead {s s' : CSirServer} (h : SameTable s s') (c : ClientPtr)
    : s'.isDead c = s.isDead c := by
  rw [isDead_eq, isDead_eq, h.getSock]

theorem getSock_modify (s : CSirServer) (client c : ClientPtr) (f : Client → Client)
    : { s with heap := s.heap.modify client f }.getSock c
        =
      if client = c then (s.heap[c]?.map fun cl => (f cl).sock).getD (-1) else s.getSock c := by
  unfold getSock
  dsimp only
  rw [List.getElem?_modify]
  split
  . next h =>
    cases s.heap[c]? with
    | none => rfl
    | some cl => rfl
  . next h =>
    cases s.heap[c]? with
    | none => rfl
    | some cl => rfl

theorem sameTable_modify (s : CSirServer) (client : ClientPtr) {f : Client → Client}
    (hf : ∀ cl, s.heap[client]? = some cl → (f cl).sock = cl.sock)
    : SameTable s { s with heap := s.heap.modify client f } where
  getSock c := by
    rw [getSock_modify]
    split
    . next h =>
      subst h
      unfold getSock
      cases hcl : s.heap[client]? with
      | none => rfl
      | some cl =>
        rw [Option.map_some, Option.map_some]
        rw [hf cl hcl]
    . rfl
  fds := rfl
  clients := rfl
  sock := rfl
  length := List.length_modify ..

structure SameClients (s s' : CSirServer) : Prop where
  isDead : ∀ client, s'.isDead client = s.isDead client
  rxbufs : s'.rxbufs = s.rxbufs
  bufsize : s'.bufsize = s.bufsize

theorem SameClients.trans {s₁ s₂ s₃ : CSirServer} (h₁ : SameClients s₁ s₂)
    (h₂ : SameClients s₂ s₃)
    : SameClients s₁ s₃ where
  isDead client := (h₂.isDead client).trans (h₁.isDead client)
  rxbufs := h₂.rxbufs.trans h₁.rxbufs
  bufsize := h₂.bufsize.trans h₁.bufsize

theorem isDead_modify (s : CSirServer) (client d : ClientPtr) (f : Client → Client)
    : { s with heap := s.heap.modify client f }.isDead d
        =
      if d = client then (s.heap[d]?.all fun c => (f c).isDead) else s.isDead d := by
  unfold isDead
  dsimp only
  rw [List.getElem?_modify]
  split
  . next h =>
    subst h
    cases s.heap[client]? with
    | none => simp
    | some c => simp
  . next h =>
    rw [if_neg (Ne.symm h)]
    cases s.heap[d]? with
    | none => rfl
    | some c => rfl

theorem rxbufs_modify (s : CSirServer) (client : ClientPtr) {f : Client → Client}
    (hf : ∀ c, s.heap[client]? = some c → (f c).rxbuf = c.rxbuf)
    : { s with heap := s.heap.modify client f }.rxbufs = s.rxbufs := by
  unfold rxbufs
  apply List.ext_getElem?
  intro i
  simp only [List.getElem?_map, List.getElem?_modify]
  cases hi : s.heap[i]? with
  | none => rfl
  | some c =>
    simp only [Option.map_eq_map, Option.map_some]
    split
    . next h => rw [hf c (h ▸ hi)]
    . rfl

theorem rxbuf_send (c : Client) (buf : List UInt8) : (c.send buf).1.rxbuf = c.rxbuf := by
  unfold Client.send
  split
  . rfl
  . rfl

theorem rxbuf_transmitData {c c' : Client} {sent : Option Nat} {result : Bool}
    (h : c.transmitData sent = some (c', result))
    : c'.rxbuf = c.rxbuf := by
  unfold Client.transmitData at h
  repeat' split at h
  all_goals
    first
    | obtain ⟨rfl, -⟩ := Prod.mk.inj (Option.some.inj h)
      rfl
    | simp at h

/-- Nothing but the transmit buffers and the control is different. -/
structure OnlyOutput (s s' : CSirServer) : Prop extends SameTable s s' where
  rxbufs : s'.rxbufs = s.rxbufs
  bufsize : s'.bufsize = s.bufsize

theorem OnlyOutput.refl (s : CSirServer) : OnlyOutput s s := ⟨.refl s, rfl, rfl⟩

theorem OnlyOutput.trans {s₁ s₂ s₃ : CSirServer} (h₁ : OnlyOutput s₁ s₂) (h₂ : OnlyOutput s₂ s₃)
    : OnlyOutput s₁ s₃ :=
  ⟨h₁.toSameTable.trans h₂.toSameTable, h₂.rxbufs.trans h₁.rxbufs, h₂.bufsize.trans h₁.bufsize⟩

theorem OnlyOutput.sameClients {s s' : CSirServer} (h : OnlyOutput s s') : SameClients s s' :=
  ⟨h.isDead, h.rxbufs, h.bufsize⟩

theorem onlyOutput_modify (s : CSirServer) (client : ClientPtr) {f : Client → Client}
    (hf : ∀ c, s.heap[client]? = some c → (f c).sock = c.sock ∧ (f c).rxbuf = c.rxbuf)
    : OnlyOutput s { s with heap := s.heap.modify client f } where
  toSameTable := sameTable_modify s client fun c hc => (hf c hc).1
  rxbufs := rxbufs_modify s client fun c hc => (hf c hc).2
  bufsize := rfl

theorem onlyOutput_control (s : CSirServer) (controller : Option ClientPtr)
    (controlQueue : List ClientPtr)
    : OnlyOutput s { s with controller, controlQueue } :=
  ⟨⟨fun _ => rfl, rfl, rfl, rfl, rfl⟩, rfl, rfl⟩

theorem onlyOutput_notify (s : CSirServer) (client : Option ClientPtr) (msg : List UInt8)
    : OnlyOutput s (s.notify client msg).1 := by
  cases client with
  | none => apply OnlyOutput.refl
  | some client =>
    apply onlyOutput_modify
    intro c _
    exact ⟨c.sock_send _, rxbuf_send c _⟩

theorem acquireControl_eq (s : CSirServer) (client : ClientPtr)
    : ∃ controller controlQueue, (s.acquireControl client).1 = { s with controller, controlQueue } := by
  unfold acquireControl
  split
  . exact ⟨some client, s.controlQueue, rfl⟩
  . split
    . exact ⟨s.controller, s.controlQueue, rfl⟩
    . split
      . exact ⟨s.controller, s.controlQueue ++ [client], rfl⟩
      . exact ⟨s.controller, s.controlQueue, rfl⟩

theorem onlyOutput_acquireControl (s : CSirServer) (client : ClientPtr)
    : OnlyOutput s (s.acquireControl client).1 := by
  obtain ⟨controller, controlQueue, heq⟩ := s.acquireControl_eq client
  rw [heq]
  apply onlyOutput_control

theorem onlyOutput_releaseControl (s : CSirServer) (client : ClientPtr)
    : OnlyOutput s (s.releaseControl client).1 := by
  unfold releaseControl
  split
  . split
    . apply onlyOutput_control
    . next front rest _ =>
      apply (onlyOutput_control s (some front) rest).trans
      apply onlyOutput_notify
  . apply onlyOutput_control

theorem onlyOutput_request (data : Scp.Payload) (radio : Radio) (s : CSirServer)
    (client : ClientPtr)
    : OnlyOutput s (request data radio s client).1 := by
  unfold request notifyResult
  apply onlyOutput_notify

theorem CommandEffect.onlyOutput {radio : Radio} {s : CSirServer} {client : ClientPtr}
    {tokens : Tokens} {r : CSirServer × List Effect} (h : CommandEffect radio s client tokens r)
    (hquit : tokens ≠ [ascii "QUIT"])
    : OnlyOutput s r.1 := by
  cases h with
  | get | set => apply onlyOutput_request
  | acquire => exact (onlyOutput_acquireControl s client).trans (onlyOutput_notify _ _ _)
  | release => exact (onlyOutput_releaseControl s client).trans (onlyOutput_notify _ _ _)
  | quit => exact absurd rfl hquit
  | other _ _ _ _ _ _ _ hr =>
    cases hr with
    | inl hnone =>
      rw [hnone]
      apply OnlyOutput.refl
    | inr hmsg =>
      obtain ⟨msg, rfl⟩ := hmsg
      apply onlyOutput_notify

theorem onlyOutput_broadcast (s : CSirServer) (msg : List UInt8)
    : OnlyOutput s (s.broadcast msg) := by
  unfold broadcast
  dsimp only
  generalize msg.take (msg.length % 256) = buf
  generalize s.clients = clients
  induction clients generalizing s with
  | nil => apply OnlyOutput.refl
  | cons client clients ih =>
    rw [List.foldl_cons]
    refine OnlyOutput.trans ?_ (ih _)
    apply onlyOutput_modify
    intro c _
    exact ⟨c.sock_send buf, rxbuf_send c buf⟩

theorem control_broadcast (s : CSirServer) (msg : List UInt8)
    : (s.broadcast msg).controller = s.controller
        ∧ (s.broadcast msg).controlQueue = s.controlQueue := by
  unfold broadcast
  dsimp only
  generalize msg.take (msg.length % 256) = buf
  generalize s.clients = clients
  induction clients generalizing s with
  | nil => exact ⟨rfl, rfl⟩
  | cons client clients ih => apply ih

theorem transmitData_eq {s s' : CSirServer} {client : ClientPtr} {sent : Option Nat}
    {result : Bool} (h : s.transmitData client sent = some (s', result))
    : ∃ c c', s.heap[client]? = some c ∧ c.transmitData sent = some (c', result)
        ∧ s' = { s with heap := s.heap.modify client fun _ => c' } := by
  unfold transmitData at h
  simp only [Option.bind_eq_bind, Option.bind_eq_some_iff] at h
  obtain ⟨c, hc, ⟨c', r⟩, htransmit, heq⟩ := h
  obtain ⟨rfl, rfl⟩ := Prod.mk.inj (Option.some.inj heq)
  exact ⟨c, c', hc, htransmit, rfl⟩

theorem onlyOutput_transmitData {s s' : CSirServer} {client : ClientPtr} {sent : Option Nat}
    {result : Bool} (h : s.transmitData client sent = some (s', result))
    : OnlyOutput s s' ∧ s'.controller = s.controller ∧ s'.controlQueue = s.controlQueue := by
  obtain ⟨c, c', hc, htransmit, rfl⟩ := transmitData_eq h
  refine ⟨?_, rfl, rfl⟩
  apply onlyOutput_modify
  intro d hd
  obtain rfl : c = d := Option.some.inj (hc.symm.trans hd)
  exact ⟨Client.sock_transmitData htransmit, rxbuf_transmitData htransmit⟩

theorem onConnect_eq (s : CSirServer) (sock : Int)
    : (s.onConnect sock).controller = s.controller
        ∧ (s.onConnect sock).controlQueue = s.controlQueue
        ∧ (s.onConnect sock).bufsize = s.bufsize
        ∧ (s.onConnect sock).heap = s.heap
            ++ [.new sock (List.replicate s.bufsize 0) (List.replicate s.bufsize 0)] := by
  unfold onConnect onNewClient
  dsimp only
  split
  . exact ⟨rfl, rfl, rfl, rfl⟩
  . exact ⟨rfl, rfl, rfl, rfl⟩

theorem clients_onConnect (s : CSirServer) (sock : Int)
    : (s.onConnect sock).clients = s.clients ++ [s.heap.length] := by
  unfold onConnect onNewClient
  dsimp only
  split
  . rfl
  . rfl

theorem sameClients_onDrop (s : CSirServer) (client : ClientPtr)
    : SameClients s (s.onDrop client).1 :=
  (onlyOutput_releaseControl s client).sameClients.trans ⟨fun _ => rfl, rfl, rfl⟩

theorem isDead_drop (s : CSirServer) (client d : ClientPtr)
    : (s.drop client).1.isDead d = (d = client || s.isDead d) := by
  have h := (sameClients_onDrop s client).isDead d
  unfold drop
  dsimp only
  rw [isDead_modify]
  split
  . next heq =>
    simp only [heq, Client.isDead_drop, decide_true, Bool.true_or]
    cases (s.onDrop client).1.heap[client]? <;> rfl
  . next hne => simp [h, hne]

theorem rxbufs_drop (s : CSirServer) (client : ClientPtr)
    : (s.drop client).1.rxbufs = s.rxbufs ∧ (s.drop client).1.bufsize = s.bufsize := by
  have h := sameClients_onDrop s client
  constructor
  . rw [← h.rxbufs]
    apply rxbufs_modify
    intro c _
    rfl
  . apply h.bufsize

end CSirServer
