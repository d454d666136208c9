import Sircond.SirServer.Gateway

/-!
This module contains when a client misses nothing. The transmit buffer takes a message only behind
what is pending, and the space in front of it is free again when all of it has been transmitted: so it
is the bytes sent to a client since it last had nothing pending that have to fit into the buffer.
-/

open Machine CSirServer

namespace Client

theorem size_send (c : Client) (msg : List UInt8) : (c.send msg).1.txbuf.size = c.txbuf.size := by
  cases Nat.lt_or_ge c.txbuf.getWriteLen.1 msg.length with
  | inl hlt => apply (send_of_lt hlt).2.2
  | inr hge => apply (send_of_le hge).2.2

theorem getWritePtr_send_le (c : Client) (msg : List UInt8)
    : (c.send msg).1.txbuf.getWritePtr ≤ c.txbuf.getWritePtr + msg.length := by
  have hslide := c.txbuf.getWritePtr_getWriteLen_le
  unfold send
  split
  . next hroom =>
    have happend := SOBuffer.getWritePtr_append_le
      (Option.some_get (SOBuffer.isSome_append c.txok hroom)).symm
    dsimp only
    omega
  . dsimp only
    omega

/-- Messages that fit behind what is pending are all accepted. -/
theorem sendEach_of_room {c : Client} {msgs : List (List UInt8)}
    (h : c.txbuf.getWritePtr + msgs.flatten.length ≤ c.txbuf.size)
    : (c.sendEach msgs).pending = c.pending ++ msgs.flatten
        ∧ (c.sendEach msgs).txbuf.size = c.txbuf.size
        ∧ (c.sendEach msgs).txbuf.getWritePtr ≤ c.txbuf.getWritePtr + msgs.flatten.length := by
  induction msgs generalizing c with
  | nil => simp [sendEach]
  | cons msg msgs ih =>
    have hroom := c.txbuf.sub_getWritePtr_le
    have hptr := c.getWritePtr_send_le msg
    have hsize := c.size_send msg
    rw [List.flatten_cons, List.length_append] at h
    obtain ⟨hpending, hsize', hptr'⟩ := ih (c := (c.send msg).1) (by omega)
    obtain ⟨-, haccepted, -⟩ := send_of_le (show msg.length ≤ c.txbuf.getWriteLen.1 by omega)
    refine ⟨?_, hsize'.trans hsize, ?_⟩
    . rw [List.flatten_cons, ← List.append_assoc, ← haccepted]
      exact hpending
    . rw [List.flatten_cons, List.length_append]
      have hsend : c.sendEach (msg :: msgs) = (c.send msg).1.sendEach msgs := rfl
      rw [hsend]
      omega

theorem getWritePtr_transmitData {c c' : Client} {sent : Option Nat} {result : Bool}
    (h : c.transmitData sent = some (c', result))
    : c'.txbuf.getWritePtr ≤ c.txbuf.getWritePtr
        ∧ (c.taken sent ≠ [] → c'.pending = [] → c'.txbuf.getWritePtr = 0) := by
  unfold transmitData at h
  split at h
  . next hpending =>
    cases sent with
    | none =>
      obtain ⟨rfl, -⟩ := Prod.mk.inj (Option.some.inj h)
      simp [taken]
    | some n =>
      dsimp only at h
      split at h
      . next b hmark =>
        obtain ⟨rfl, -⟩ := Prod.mk.inj (Option.some.inj h)
        have hok := SOBuffer.ok_of_markRead c.txok hmark
        refine ⟨SOBuffer.getWritePtr_markRead_le hmark, fun _ hempty => ?_⟩
        have hlen : b.buflen = 0 := by
          rw [← SOBuffer.length_readData hok]
          apply List.length_eq_zero_iff.mpr hempty
        unfold SOBuffer.getWritePtr
        rw [SOBuffer.bufpos_markRead hmark hlen, hlen]
      . simp at h
  . next hempty =>
    obtain ⟨rfl, -⟩ := Prod.mk.inj (Option.some.inj h)
    have hnil : c.txbuf.readData = [] := by
      rw [← List.length_eq_zero_iff, SOBuffer.length_readData c.txok]
      simpa [txPending, SOBuffer.getReadLen] using hempty
    refine ⟨Nat.le_refl _, ?_⟩
    cases sent with
    | none => simp [taken]
    | some n => simp [taken, hnil]

end Client

namespace Observer

/-- The socket of the client takes all that was pending. -/
def drains (client : ClientPtr) (e : Entry Observer Input Effect) : Bool :=
  takes client e.pre e.input ≠ [] && e.post.server.heap[client]?.all fun c => c.pending = []

/-- The number of bytes sent to a client since it last had nothing pending. -/
def backlog (client : ClientPtr) (tr : List (Entry Observer Input Effect)) : Nat :=
  tr.foldl (fun n e => if drains client e then 0 else n + (sentTo client e.out).flatten.length) 0

def KeepsUp (client : ClientPtr) (tr : List (Entry Observer Input Effect)) : Prop :=
  ∀ tr₁ ∈ tr.inits, backlog client tr₁ ≤ sircondBufsize

instance (client : ClientPtr) (tr : List (Entry Observer Input Effect))
    : Decidable (KeepsUp client tr) :=
  inferInstanceAs (Decidable (∀ tr₁ ∈ tr.inits, backlog client tr₁ ≤ sircondBufsize))

theorem backlog_append_singleton (client : ClientPtr) (tr : List (Entry Observer Input Effect))
    (e : Entry Observer Input Effect)
    : backlog client (tr ++ [e])
        =
      if drains client e then 0 else backlog client tr + (sentTo client e.out).flatten.length := by
  simp [backlog]

theorem KeepsUp.of_append {client : ClientPtr} {tr : List (Entry Observer Input Effect)}
    {e : Entry Observer Input Effect} (h : KeepsUp client (tr ++ [e]))
    : KeepsUp client tr ∧ backlog client (tr ++ [e]) ≤ sircondBufsize := by
  constructor
  . intro tr₁ htr₁
    apply h
    rw [List.mem_inits] at htr₁ ⊢
    exact htr₁.trans (List.prefix_append _ _)
  . apply h
    rw [List.mem_inits]

theorem ClientEffect.bufsize {client : ClientPtr} {s s' : CSirServer} {effects : List Effect}
    {bytes : List UInt8} (h : ClientEffect client s s' effects bytes)
    : s'.bufsize = s.bufsize := by
  cases h with
  | answers _ hanswers => apply hanswers.bufsize
  | connect _ _ _ _ hbufsize | transmit _ _ _ _ hbufsize => exact hbufsize

/--
As long as a client keeps up, all that was sent to it has been taken by its socket or is pending, and
the write position in its transmit buffer is behind no more than its backlog.
-/
structure Complete (client : ClientPtr) (tr : List (Entry Observer Input Effect)) (o : Observer)
    : Prop where
  bufsize : o.server.bufsize = sircondBufsize
  whole : ∀ c ∈ o.server.heap[client]?, c.isDead = false →
    (sentTo client (outputs tr)).flatten = taken client tr ++ c.pending
      ∧ c.txbuf.size = sircondBufsize ∧ c.txbuf.getWritePtr ≤ backlog client tr

theorem complete_new (client : ClientPtr) (sock : Int) : Complete client [] (new sock) where
  bufsize := rfl
  whole := by simp [new, CSirServer.new]

theorem Complete.step {client : ClientPtr} {tr : List (Entry Observer Input Effect)}
    {o o' : Observer} (h : Complete client tr o) (hreading : Reading client tr o) {a : Input}
    (hshort : Short a) {effects : List Effect} (hstep : machine.step o a = some (o', effects))
    (hbacklog : backlog client (tr ++ [⟨o, a, effects, o'⟩]) ≤ sircondBufsize)
    : Complete client (tr ++ [⟨o, a, effects, o'⟩]) o' := by
  obtain ⟨effects₀, hinformed⟩ := hreading.informed
  have heffect : ClientEffect client o.server o'.server effects (takes client o a) :=
    clientEffect hinformed hreading.nodup hshort hstep
  have htaken : taken client (tr ++ [⟨o, a, effects, o'⟩]) = taken client tr ++ takes client o a := by
    simp [taken]
  have hsent : sentTo client (outputs (tr ++ [⟨o, a, effects, o'⟩]))
      = sentTo client (outputs tr) ++ sentTo client effects := by
    rw [outputs_append, outputs_singleton, sentTo_append]
  refine ⟨heffect.bufsize.trans h.bufsize, fun c' hc' halive => ?_⟩
  rw [htaken, hsent, List.flatten_append]
  rw [backlog_append_singleton] at hbacklog ⊢
  unfold drains at hbacklog ⊢
  dsimp only at hbacklog ⊢
  generalize takes client o a = bytes at heffect hbacklog ⊢
  cases heffect with
  | answers _ hanswers =>
    obtain ⟨c, hc, hwas, hgets⟩ := hanswers.gets c' hc' halive
    obtain ⟨hwhole, hsize, hptr⟩ := h.whole c hc hwas
    simp only [ne_eq, not_true_eq_false, decide_false, Bool.false_and, Bool.false_eq_true,
      if_false] at hbacklog ⊢
    obtain ⟨hpending, hsize', hptr'⟩ := Client.sendEach_of_room
      (show c.txbuf.getWritePtr + (sentTo client effects).flatten.length ≤ c.txbuf.size by omega)
    rw [hgets.pending_eq, hgets, hpending, hsize', List.append_nil, hwhole, List.append_assoc]
    exact ⟨rfl, hsize, by omega⟩
  | connect sock rxblock txblock hlength _ hheap =>
    simp only [sentTo_nil, List.flatten_nil, List.append_nil, ne_eq, not_true_eq_false, decide_false,
      Bool.false_and, Bool.false_eq_true, if_false, List.length_nil, Nat.add_zero]
    rcases Nat.lt_or_ge client o.server.heap.length with hlt | hge
    . rw [hheap, List.getElem?_append_left hlt] at hc'
      apply h.whole c' hc' halive
    . obtain ⟨hnone, htook⟩ := hreading.fresh hge
      rw [hheap, Option.mem_def, List.getElem?_append_right hge] at hc'
      obtain rfl := List.mem_singleton.mp (List.mem_of_getElem? hc')
      rw [hnone, htook]
      refine ⟨?_, hlength.trans h.bufsize, Nat.zero_le _⟩
      apply (SOBuffer.readData_new txblock).symm
  | transmit c c₁ sent result _ _ _ hpre hpost hwas htransmit =>
    obtain rfl := Option.mem_unique hc' hpost
    obtain ⟨hwhole, hsize, hptr⟩ := h.whole c hpre hwas
    obtain ⟨hbytes, hsize'⟩ := Client.transmitData_spec htransmit
    obtain ⟨hptr', hzero⟩ := Client.getWritePtr_transmitData htransmit
    rw [hsize', sentTo_nil, List.flatten_nil, List.append_nil, hwhole, List.append_assoc, hbytes]
    refine ⟨rfl, hsize, ?_⟩
    split
    . next hdrains =>
      simp only [hpost, Option.all_some, Bool.and_eq_true, decide_eq_true_eq] at hdrains
      apply Nat.le_of_eq
      apply hzero hdrains.1 hdrains.2
    . apply Nat.le_trans hptr' hptr

theorem complete_of_run {sock : Int} {tr : List (Entry Observer Input Effect)} {o : Observer}
    (hrun : machine.Run (new sock) tr o) (hshort : ∀ a ∈ inputs tr, Short a) {client : ClientPtr}
    (hkeepsUp : KeepsUp client tr)
    : Complete client tr o := by
  induction hrun with
  | nil => apply complete_new
  | snoc hrun hstep ih =>
    obtain ⟨hkeepsUp, hbacklog⟩ := hkeepsUp.of_append
    rw [inputs_append, inputs_singleton, List.forall_mem_append, List.forall_mem_singleton]
      at hshort
    have hreading := reading_of_run hrun hshort.1 client
    apply (ih hshort.1 hkeepsUp).step hreading hshort.2 hstep hbacklog

/--
In every run of the server in which no result of a GET or SET request comes during a step of the server
thread, a client that is never sent more bytes than its buffer holds without catching up in between
misses nothing: what its socket has taken and what is pending are all messages that were sent to it, in
their order.
-/
theorem read_all {sock : Int} {tr : List (Entry Observer Input Effect)} {o : Observer}
    (hrun : machine.Run (new sock) tr o) (hshort : ∀ a ∈ inputs tr, Short a) {client : ClientPtr}
    {c : Client} (hclient : o.server.heap[client]? = some c) (halive : c.isDead = false)
    (hkeepsUp : KeepsUp client tr)
    : taken client tr ++ c.pending = (sentTo client (outputs tr)).flatten := by
  apply ((complete_of_run hrun hshort hkeepsUp).whole c hclient halive).1.symm

theorem read_all_catchUp
    : ∃ tr o c, machine.Run (new 3) tr o ∧ o.server.heap[0]? = some c
        ∧ (taken 0 tr).length = 543 ∧ c.pending = ascii "GAIN,-3\n"
        ∧ taken 0 tr ++ c.pending = (sentTo 0 (outputs tr)).flatten := by
  let song : SCEvent := .songInfo ⟨20, List.replicate 150 0x41, ascii "Pink", [], [], [], []⟩
  let as : List Input := [.server (.connect 5), .notice (.event song), .notice (.event song),
    .server (.transmit 0 (some 100)), .server (.transmit 0 (some 262)), .notice (.event song),
    .server (.transmit 0 (some 181)), .notice (.event (.gain ⟨-3⟩))]
  obtain ⟨tr, o, hrun, hin, hkeepsUp, hlength, hread⟩ := exists_run (show
    (machine.exec (new 3) as).any (fun r => KeepsUp 0 r.1 ∧ (taken 0 r.1).length = 543
      ∧ r.2.server.heap[0]?.map (fun c => (c.isDead, c.pending)) = some (false, ascii "GAIN,-3\n")) = true
    by decide +kernel)
  obtain ⟨c, hclient, heq⟩ := Option.map_eq_some_iff.mp hread
  obtain ⟨halive, hpending⟩ := Prod.mk.inj heq
  have hshort : ∀ a ∈ inputs tr, Short a := by
    rw [hin]
    simp only [as, List.forall_mem_cons, Short, true_and]
    have hline : (Notice.event song).line.length < UInt8.size := by decide +kernel
    exact ⟨hline, hline, hline, by decide, by simp⟩
  exact ⟨tr, o, c, hrun, hclient, hlength, hpending,
    read_all hrun hshort hclient halive hkeepsUp⟩

end Observer
