import Sircond.SirCon.Machine
import Mathlib.Data.List.Chain

/-!
This module contains the two threads that call `Send`, the server and the radio itself, and the two
steps a call consists of: `composeFrame` takes the next sequence number, and `push` queues the frame.
The lock of the queue covers the second step only, so that two calls may overlap.

The frames composed and not yet queued are kept in the order of their sequence numbers. A thread
makes one call at a time, and the radio thread receives no frame in the middle of a call.
-/

open Machine Scp

namespace CSirCon

def push (s : CSirCon) (bufptr : MsgBuf) : CSirCon :=
  { s with link.queue := s.link.queue ++ [bufptr] }

theorem send_eq_push (s : CSirCon) (data : Payload)
    : (s.send data).1 = (s.composeFrame data).2.push (s.composeFrame data).1 := rfl

inductive Caller where
  | server
  | radio
  deriving DecidableEq, Repr

structure Senders where
  sircon : CSirCon
  composed : List (Caller × MsgBuf)
  deriving DecidableEq

namespace Senders

inductive Input where
  | composeFrame (caller : Caller) (data : Payload)
  | push (caller : Caller)
  | timerProc
  | receive (msg : List UInt8)
  deriving DecidableEq

def start (sircon : CSirCon) : Senders where
  sircon := sircon
  composed := []

def machine : Machine Senders Input Action where
  step s
    | .composeFrame caller data =>
      if s.composed.lookup caller = none then
        let (bufptr, sircon) := s.sircon.composeFrame data
        some ({ sircon, composed := s.composed ++ [(caller, bufptr)] }, [])
      else
        none
    | .push caller =>
      match s.composed.lookup caller with
      | some bufptr =>
        some ({
          sircon := s.sircon.push bufptr
          composed := s.composed.filter fun r => r.1 ≠ caller
        }, [])
      | none => none
    | .timerProc =>
      (CSirCon.machine.step s.sircon .timerProc).map fun (sircon, acts) =>
        ({ s with sircon }, acts)
    | .receive msg =>
      if s.composed.lookup .radio = none then
        (CSirCon.machine.step s.sircon (.receive msg)).map fun (sircon, acts) =>
          ({ s with sircon }, acts)
      else
        none

/-- The frame a step queues is the oldest one composed and not yet queued. -/
def InOrder (s : Senders) : Input → Prop
  | .push caller => s.composed.head?.map Prod.fst = some caller
  | .composeFrame _ _ | .timerProc | .receive _ => True

instance (s : Senders) (a : Input) : Decidable (InOrder s a) := by
  unfold InOrder
  cases a with
  | push => infer_instance
  | composeFrame | timerProc | receive => exact isTrue trivial

/-- A positive acknowledgement of the frame in front finds it on the wire. -/
def Solicited (wire : List MsgBuf) (s : Senders) : Input → Prop
  | .receive msg =>
    ∀ front ∈ s.sircon.link.queue.head?, Acknowledges msg front → front.id ∈ wire.map MsgBuf.id
  | .composeFrame _ _ | .push _ | .timerProc => True

instance (wire : List MsgBuf) (s : Senders) (a : Input) : Decidable (Solicited wire s a) := by
  unfold Solicited
  cases a with
  | receive => infer_instance
  | composeFrame | push | timerProc => exact isTrue trivial

def Consecutive (seqs : List UInt8) : Prop := seqs.IsChain fun seq next => next = seq + 1

instance (seqs : List UInt8) : Decidable (Consecutive seqs) :=
  inferInstanceAs (Decidable (List.IsChain _ _))

def seqs (queue : List MsgBuf) : List UInt8 := queue.map MsgBuf.seq

def numbers (s : Senders) : List UInt8 :=
  seqs s.sircon.link.queue ++ (seqs (s.composed.map Prod.snd) ++ [s.sircon.seq])

/-- Each frame on the wire is the one before it, sent again, or carries the next number. -/
def Successive (wire : List MsgBuf) : Prop :=
  wire.IsChain fun frame next => next.id = frame.id ∨ next.seq = frame.seq + 1

instance (wire : List MsgBuf) : Decidable (Successive wire) :=
  inferInstanceAs (Decidable (List.IsChain _ _))

/--
What holds as long as frames are queued in order: the numbers of the frames queued and composed, in
this order, and the number that comes next are consecutive.
-/
structure Ordered (s : Senders) : Prop where
  chain : Consecutive s.numbers
  callers : (s.composed.map Prod.fst).Nodup

theorem Consecutive.snoc {seqs : List UInt8} {seq : UInt8} (h : Consecutive (seqs ++ [seq]))
    : Consecutive (seqs ++ [seq] ++ [seq + 1]) := by
  unfold Consecutive
  rw [List.isChain_append]
  refine ⟨h, List.isChain_singleton _, ?_⟩
  intro x hx y hy
  rw [List.getLast?_append, List.getLast?_singleton, Option.some_or] at hx
  rw [List.head?_cons] at hy
  rw [← Option.some.inj hx, ← Option.some.inj hy]

theorem Ordered.consecutive {s : Senders} (h : Ordered s) : Consecutive (seqs s.sircon.link.queue) :=
  List.IsChain.left_of_append h.chain

theorem ordered_start (block : List UInt8) (now : Nat) : Ordered (start (new block now)) where
  chain := List.isChain_singleton _
  callers := List.nodup_nil

theorem seqs_suffix {s s' : CSirCon} {a : CSirCon.Input} {acts : List Action}
    (hstep : CSirCon.machine.step s a = some (s', acts)) (ha : ∀ data, a ≠ .send data)
    : seqs s'.link.queue <:+ seqs s.link.queue := by
  have heffect := queueEffect hstep
  generalize s'.link.queue = queue', transmitted acts = tx, resolved acts = res at heffect ⊢
  cases heffect with
  | push data => exact absurd rfl (ha data)
  | keep => apply List.suffix_refl
  | transmit front rest hqueue | resend msg front rest hqueue => simp [hqueue, seqs]
  | timeout front rest hqueue | success msg front rest hqueue =>
    rw [hqueue]
    apply List.suffix_cons

theorem counters_eq_of_step {s s' : CSirCon} {a : CSirCon.Input} {acts : List Action}
    (hstep : CSirCon.machine.step s a = some (s', acts)) (ha : ∀ data, a ≠ .send data)
    : s'.allocs = s.allocs ∧ s'.seq = s.seq := by
  have := counters_step hstep
  cases a with
  | send data => exact absurd rfl (ha data)
  | timerProc | receive => simpa [Input.pushes] using this

theorem Ordered.of_sircon {s : Senders} (h : Ordered s) {sircon : CSirCon} {a : CSirCon.Input}
    {acts : List Action} (hstep : CSirCon.machine.step s.sircon a = some (sircon, acts))
    (ha : ∀ data, a ≠ .send data)
    : Ordered { s with sircon } := by
  have hseq := (counters_eq_of_step hstep ha).2
  obtain ⟨gone, hsuffix⟩ := seqs_suffix hstep ha
  have hnumbers := h.chain
  unfold numbers at hnumbers
  rw [← hsuffix, List.append_assoc] at hnumbers
  constructor
  . unfold numbers
    dsimp only
    rw [hseq]
    exact List.IsChain.right_of_append hnumbers
  . exact h.callers

theorem lookup_eq_some_of_nodup {composed : List (Caller × MsgBuf)} {caller : Caller}
    {bufptr : MsgBuf} (h : composed.lookup caller = some bufptr)
    (hhead : composed.head?.map Prod.fst = some caller)
    (hnodup : (composed.map Prod.fst).Nodup)
    : ∃ rest, composed = (caller, bufptr) :: rest
        ∧ composed.filter (fun r => r.1 ≠ caller) = rest := by
  cases composed with
  | nil => simp at hhead
  | cons r rest =>
    simp only [List.head?_cons, Option.map_some, Option.some.injEq] at hhead
    rw [List.map_cons, List.nodup_cons] at hnodup
    subst hhead
    rw [List.lookup_cons_self, Option.some.injEq] at h
    subst h
    refine ⟨rest, rfl, ?_⟩
    rw [List.filter_cons_of_neg (by simp), List.filter_eq_self]
    intro r' hr'
    rw [decide_eq_true_eq]
    intro heq
    apply hnodup.1
    rw [← heq]
    apply List.mem_map_of_mem hr'

theorem Ordered.step {s s' : Senders} {a : Input} {acts : List Action} (h : Ordered s)
    (ha : InOrder s a) (hstep : machine.step s a = some (s', acts))
    : Ordered s' := by
  cases a with
  | composeFrame caller data =>
    simp only [machine] at hstep
    split at hstep
    . next hfree =>
      obtain ⟨rfl, -⟩ := Prod.mk.inj (Option.some.inj hstep)
      constructor
      . have hnumbers := h.chain
        unfold numbers at hnumbers ⊢
        rw [← List.append_assoc] at hnumbers
        have hsnoc := hnumbers.snoc
        simpa [seqs, composeFrame] using hsnoc
      . rw [List.map_append, List.nodup_append]
        refine ⟨h.callers, by simp, ?_⟩
        intro c hc c' hc' heq
        obtain rfl : c' = caller := by simpa using hc'
        subst heq
        rw [List.lookup_eq_none_iff] at hfree
        obtain ⟨r, hr, rfl⟩ := List.mem_map.mp hc
        simpa using hfree r hr
    . simp at hstep
  | push caller =>
    simp only [machine] at hstep
    split at hstep
    . next bufptr hlookup =>
      obtain ⟨rfl, -⟩ := Prod.mk.inj (Option.some.inj hstep)
      obtain ⟨rest, hcomposed, hrest⟩ := lookup_eq_some_of_nodup hlookup ha h.callers
      rw [hrest]
      have hnumbers := h.chain
      have hcallers := h.callers
      unfold numbers at hnumbers
      rw [hcomposed] at hnumbers hcallers
      constructor
      . unfold numbers
        simpa [seqs, CSirCon.push] using hnumbers
      . rw [List.map_cons, List.nodup_cons] at hcallers
        exact hcallers.2
    . simp at hstep
  | timerProc =>
    simp only [machine, Option.map_eq_some_iff, Prod.mk.injEq] at hstep
    obtain ⟨⟨sircon, acts'⟩, hsircon, rfl, -⟩ := hstep
    apply h.of_sircon hsircon (by simp)
  | receive msg =>
    simp only [machine] at hstep
    split at hstep
    . simp only [Option.map_eq_some_iff, Prod.mk.injEq] at hstep
      obtain ⟨⟨sircon, acts'⟩, hsircon, rfl, -⟩ := hstep
      apply h.of_sircon hsircon (by simp)
    . simp at hstep

def InFront (s : Senders) (frame : MsgBuf) : Prop :=
  ∃ front ∈ s.sircon.link.queue.head?, front.id = frame.id ∧ front.seq = frame.seq

def pending (s : Senders) : List MsgBuf := s.sircon.link.queue ++ s.composed.map Prod.snd

/-- The frames that cannot have been transmitted. -/
def behind (s : Senders) : List MsgBuf := s.sircon.link.queue.tail ++ s.composed.map Prod.snd

/-- A frame has its own object, and it has to get to the front before it is transmitted. -/
structure Apart (wire : List MsgBuf) (s : Senders) : Prop where
  fresh : ∀ frame ∈ s.behind, frame.retries = 0 ∧ frame.id ∉ wire.map MsgBuf.id
  nodup : (s.pending.map MsgBuf.id).Nodup
  lt : ∀ id ∈ wire.map MsgBuf.id ++ s.pending.map MsgBuf.id, id < s.sircon.allocs

/--
What the frames on the wire say about the frames in the queue: the last one is still in front, or the
one in front carries the next number. The timer counts that it has transmitted a frame.
-/
structure Wired (wire : List MsgBuf) (s : Senders) : Prop extends Apart wire s where
  chain : Successive wire
  last : ∀ frame ∈ wire.getLast?, InFront s frame ∨ s.numbers.head? = some (frame.seq + 1)
  sent : ∀ front ∈ s.sircon.link.queue.head?, front.id ∈ wire.map MsgBuf.id →
    ∃ frame ∈ wire.getLast?, frame.id = front.id ∧ frame.seq = front.seq
  counted : ∀ front ∈ s.sircon.link.queue.head?, 0 < front.retries →
    front.id ∈ wire.map MsgBuf.id

theorem wired_start (block : List UInt8) (now : Nat) : Wired [] (start (new block now)) where
  fresh := by simp [behind, start, new]
  nodup := List.nodup_nil
  lt := by simp [pending, start, new]
  chain := List.isChain_nil
  last := by simp
  sent := by simp
  counted := by simp [start, new]

section Wired

variable {s : Senders} {wire : List MsgBuf} {sircon : CSirCon} {front : MsgBuf} {rest : List MsgBuf}

theorem numbers_of_queue (hqueue : s.sircon.link.queue = front :: rest)
    (hrest : sircon.link.queue = rest) (hseq : sircon.seq = s.sircon.seq)
    : s.numbers = front.seq :: numbers { s with sircon } := by
  simp [numbers, hqueue, hrest, hseq, seqs]

theorem pending_of_queue (hqueue : s.sircon.link.queue = front :: rest)
    : s.pending = front :: s.behind := by
  simp [pending, behind, hqueue]

theorem Apart.transmit (h : Apart wire s) (hqueue : s.sircon.link.queue = front :: rest)
    {frame : MsgBuf} (hqueue' : sircon.link.queue = frame :: rest) (hid : frame.id = front.id)
    (hallocs : sircon.allocs = s.sircon.allocs)
    : Apart (wire ++ [frame]) { s with sircon } := by
  have hbehind : behind { s with sircon } = s.behind := by
    simp [behind, hqueue, hqueue']
  have hpending : (pending { s with sircon }).map MsgBuf.id = s.pending.map MsgBuf.id := by
    simp [pending, hqueue, hqueue', hid]
  have hnodup := h.nodup
  rw [pending_of_queue hqueue, List.map_cons, List.nodup_cons] at hnodup
  constructor
  . intro f hf
    rw [hbehind] at hf
    obtain ⟨hretries, hnotMem⟩ := h.fresh f hf
    refine ⟨hretries, ?_⟩
    have hne : f.id ≠ frame.id := by
      intro heq
      apply hnodup.1
      rw [← hid, ← heq]
      exact List.mem_map_of_mem hf
    simpa [hne] using hnotMem
  . rw [hpending]
    exact h.nodup
  . intro id hmem
    rw [hpending, List.map_append, List.map_cons, List.map_nil, hid, List.append_assoc,
      List.mem_append, List.mem_append, List.mem_singleton] at hmem
    rw [hallocs]
    apply h.lt
    rw [List.mem_append]
    rcases hmem with hwire | rfl | hpending
    . exact .inl hwire
    . right
      rw [pending_of_queue hqueue]
      exact List.mem_cons_self
    . exact .inr hpending

theorem Wired.transmit (h : Wired wire s) (hqueue : s.sircon.link.queue = front :: rest)
    {frame : MsgBuf} (hqueue' : sircon.link.queue = frame :: rest) (hid : frame.id = front.id)
    (hnumber : frame.seq = front.seq) (hallocs : sircon.allocs = s.sircon.allocs)
    : Wired (wire ++ [frame]) { s with sircon } := by
  have hhead : s.numbers.head? = some front.seq := by
    simp [numbers, hqueue, seqs]
  have hfront : ∀ f ∈ sircon.link.queue.head?, f = frame := by
    intro f hf
    simpa [hqueue', eq_comm] using hf
  refine ⟨h.toApart.transmit hqueue hqueue' hid hallocs, ?_, ?_, ?_, ?_⟩
  . unfold Successive
    rw [List.isChain_append]
    refine ⟨h.chain, List.isChain_singleton _, ?_⟩
    intro f hf next hnext
    obtain rfl : frame = next := by simpa using hnext
    rcases h.last f hf with ⟨front', hfront', hsame, -⟩ | hnext
    . left
      obtain rfl : front = front' := by simpa [hqueue] using hfront'
      rw [hid, hsame]
    . right
      rw [hhead, Option.some.injEq] at hnext
      rw [hnumber, hnext]
  . intro f hf
    obtain rfl : frame = f := by simpa using hf
    left
    exact ⟨frame, by simp [hqueue'], rfl, rfl⟩
  . intro f hf _
    obtain rfl := hfront f hf
    exact ⟨f, by simp, rfl, rfl⟩
  . intro f hf _
    obtain rfl := hfront f hf
    simp

theorem mem_behind_of_rest (hqueue : s.sircon.link.queue = front :: rest) {frame : MsgBuf}
    (hframe : frame ∈ rest.head?)
    : frame ∈ s.behind := by
  unfold behind
  rw [hqueue, List.tail_cons, List.mem_append]
  left
  exact List.mem_of_mem_head? hframe

theorem Apart.leave (h : Apart wire s) (hqueue : s.sircon.link.queue = front :: rest)
    (hrest : sircon.link.queue = rest) (hallocs : sircon.allocs = s.sircon.allocs)
    : Apart wire { s with sircon } := by
  have hpending : s.pending = front :: pending { s with sircon } := by
    simp [pending, hqueue, hrest]
  constructor
  . intro frame hframe
    apply h.fresh
    unfold behind at hframe ⊢
    rw [hqueue, List.tail_cons, ← hrest]
    rw [List.mem_append] at hframe ⊢
    exact hframe.imp_left List.mem_of_mem_tail
  . have hnodup := h.nodup
    rw [hpending, List.map_cons, List.nodup_cons] at hnodup
    exact hnodup.2
  . intro id hid
    rw [hallocs]
    apply h.lt
    rw [hpending, List.map_cons]
    rw [List.mem_append] at hid ⊢
    exact hid.imp_right (List.mem_cons_of_mem _)

theorem Wired.leave (h : Wired wire s) (hordered : Ordered s)
    (hqueue : s.sircon.link.queue = front :: rest) (hwire : front.id ∈ wire.map MsgBuf.id)
    (hrest : sircon.link.queue = rest) (hseq : sircon.seq = s.sircon.seq)
    (hallocs : sircon.allocs = s.sircon.allocs)
    : Wired wire { s with sircon } := by
  obtain ⟨last, hlast, -, hnumber⟩ := h.sent front (by simp [hqueue]) hwire
  have hfresh : ∀ next ∈ sircon.link.queue.head?,
      next.retries = 0 ∧ next.id ∉ wire.map MsgBuf.id := by
    intro next hnext
    rw [hrest] at hnext
    exact h.fresh next (mem_behind_of_rest hqueue hnext)
  refine ⟨h.toApart.leave hqueue hrest hallocs, h.chain, ?_, ?_, ?_⟩
  . intro frame hframe
    obtain rfl := Option.mem_unique hframe hlast
    right
    have hchain := hordered.chain
    rw [numbers_of_queue hqueue hrest hseq] at hchain
    cases hnumbers : numbers { s with sircon } with
    | nil => simp [numbers] at hnumbers
    | cons next later =>
      unfold Consecutive at hchain
      rw [hnumbers, List.isChain_cons_cons] at hchain
      rw [List.head?_cons, hchain.1, hnumber]
  . intro next hnext hmem
    exact absurd hmem (hfresh next hnext).2
  . intro next hnext hpos
    have hretries := (hfresh next hnext).1
    omega

theorem Wired.of_sircon (h : Wired wire s) (hordered : Ordered s) {a : CSirCon.Input}
    {acts : List Action} (hstep : CSirCon.machine.step s.sircon a = some (sircon, acts))
    (ha : ∀ data, a ≠ .send data)
    (hsolicited : ∀ msg, a = .receive msg → Solicited wire s (.receive msg))
    : Wired (wire ++ transmitted acts) { s with sircon } := by
  obtain ⟨hallocs, hseq⟩ := counters_eq_of_step hstep ha
  have heffect := queueEffect hstep
  generalize hqueue' : sircon.link.queue = queue', transmitted acts = tx, resolved acts = res
    at heffect ⊢
  cases heffect with
  | push data => exact absurd rfl (ha data)
  | keep =>
    rw [List.append_nil]
    refine ⟨⟨?_, ?_, ?_⟩, h.chain, ?_, ?_, ?_⟩
    . simpa [behind, hqueue'] using h.fresh
    . simpa [pending, hqueue'] using h.nodup
    . simpa [pending, hqueue', hallocs] using h.lt
    . simpa [InFront, numbers, hqueue', hseq] using h.last
    . simpa [hqueue'] using h.sent
    . simpa [hqueue'] using h.counted
  | transmit front rest hqueue | resend msg front rest hqueue =>
    apply h.transmit hqueue hqueue' rfl rfl hallocs
  | timeout front rest hqueue _ hmax =>
    rw [List.append_nil]
    apply h.leave hordered hqueue _ hqueue' hseq hallocs
    apply h.counted front (by simp [hqueue])
    apply Nat.lt_of_lt_of_le _ hmax
    decide
  | success msg front rest hqueue hack =>
    rw [List.append_nil]
    apply h.leave hordered hqueue _ hqueue' hseq hallocs
    apply hsolicited msg rfl front _ hack
    simp [hqueue]

end Wired

theorem head?_snoc {numbers : List UInt8} {seq next : UInt8}
    : (numbers ++ [seq] ++ [next]).head? = (numbers ++ [seq]).head? := by
  cases numbers <;> rfl

theorem Apart.composeFrame {s : Senders} {wire : List MsgBuf} (h : Apart wire s) (caller : Caller)
    (data : Payload)
    : Apart wire {
        sircon := (s.sircon.composeFrame data).2
        composed := s.composed ++ [(caller, (s.sircon.composeFrame data).1)]
      } := by
  have hid : (s.sircon.composeFrame data).1.id = s.sircon.allocs := rfl
  have hpending : (pending {
        sircon := (s.sircon.composeFrame data).2
        composed := s.composed ++ [(caller, (s.sircon.composeFrame data).1)]
      }).map MsgBuf.id = s.pending.map MsgBuf.id ++ [s.sircon.allocs] := by
    simp [pending, CSirCon.composeFrame]
  have hnew : ∀ id ∈ wire.map MsgBuf.id ++ s.pending.map MsgBuf.id, id ≠ s.sircon.allocs := by
    intro id hmem
    exact Nat.ne_of_lt (h.lt id hmem)
  constructor
  . intro frame hframe
    unfold behind at hframe
    rw [List.map_append, ← List.append_assoc, List.mem_append] at hframe
    cases hframe with
    | inl hold => exact h.fresh frame hold
    | inr hlast =>
      obtain rfl : frame = (s.sircon.composeFrame data).1 := by simpa using hlast
      refine ⟨rfl, ?_⟩
      intro hmem
      exact hnew _ (List.mem_append_left _ hmem) hid
  . rw [hpending, List.nodup_append]
    refine ⟨h.nodup, by simp, ?_⟩
    intro id hmem id' hmem'
    obtain rfl := List.mem_singleton.mp hmem'
    exact hnew id (List.mem_append_right _ hmem)
  . intro id hmem
    rw [hpending, ← List.append_assoc, List.mem_append, List.mem_singleton] at hmem
    rcases hmem with hold | rfl
    . exact Nat.lt_succ_of_lt (h.lt id hold)
    . exact Nat.lt_succ_self _

theorem Wired.composeFrame {s : Senders} {wire : List MsgBuf} (h : Wired wire s) (caller : Caller)
    (data : Payload)
    : Wired wire {
        sircon := (s.sircon.composeFrame data).2
        composed := s.composed ++ [(caller, (s.sircon.composeFrame data).1)]
      } := by
  refine ⟨h.toApart.composeFrame caller data, h.chain, ?_, h.sent, h.counted⟩
  intro frame hframe
  apply (h.last frame hframe).imp_right
  intro hnext
  rw [← hnext]
  unfold numbers
  simp only [CSirCon.composeFrame, List.map_append, List.map_cons, List.map_nil, seqs]
  rw [← List.append_assoc, ← List.append_assoc]
  apply head?_snoc

section Push

variable {s : Senders} {wire : List MsgBuf} {caller : Caller} {bufptr : MsgBuf}
variable {rest : List (Caller × MsgBuf)}

theorem Apart.push (h : Apart wire s) (hcomposed : s.composed = (caller, bufptr) :: rest)
    : Apart wire { sircon := s.sircon.push bufptr, composed := rest } := by
  have hpending : pending { sircon := s.sircon.push bufptr, composed := rest } = s.pending := by
    simp [pending, hcomposed, CSirCon.push]
  constructor
  . intro frame hframe
    apply h.fresh
    unfold behind at hframe ⊢
    rw [hcomposed]
    cases hqueue : s.sircon.link.queue with
    | nil =>
      simp only [CSirCon.push, hqueue, List.nil_append, List.tail_cons] at hframe
      simpa using Or.inr hframe
    | cons first queue =>
      simp only [CSirCon.push, hqueue, List.cons_append, List.tail_cons] at hframe
      simpa using hframe
  . rw [hpending]
    exact h.nodup
  . rw [hpending]
    exact h.lt

/-- A frame that is queued gets to the front at once, or the one in front stays there. -/
theorem front_push {front : MsgBuf} (hfront : front ∈ (s.sircon.push bufptr).link.queue.head?)
    : front = bufptr ∨ front ∈ s.sircon.link.queue.head? := by
  cases hqueue : s.sircon.link.queue with
  | nil =>
    left
    simpa [CSirCon.push, hqueue, eq_comm] using hfront
  | cons first queue =>
    right
    simpa [CSirCon.push, hqueue] using hfront

theorem InFront.push {frame : MsgBuf} (h : InFront s frame)
    : InFront { sircon := s.sircon.push bufptr, composed := rest } frame := by
  obtain ⟨front, hfront, hsame⟩ := h
  refine ⟨front, ?_, hsame⟩
  cases hqueue : s.sircon.link.queue with
  | nil => simp [hqueue] at hfront
  | cons first queue => simpa [CSirCon.push, hqueue] using hfront

theorem Wired.push (h : Wired wire s) (hcomposed : s.composed = (caller, bufptr) :: rest)
    : Wired wire { sircon := s.sircon.push bufptr, composed := rest } := by
  have hnumbers : numbers { sircon := s.sircon.push bufptr, composed := rest } = s.numbers := by
    simp [numbers, hcomposed, CSirCon.push, seqs]
  have hfresh := h.fresh bufptr (by simp [behind, hcomposed])
  refine ⟨h.toApart.push hcomposed, h.chain, ?_, ?_, ?_⟩
  . intro frame hframe
    rw [hnumbers]
    exact (h.last frame hframe).imp_left InFront.push
  . intro front hfront hwire
    rcases front_push hfront with rfl | hold
    . exact absurd hwire hfresh.2
    . exact h.sent front hold hwire
  . intro front hfront hpos
    rcases front_push hfront with rfl | hold
    . omega
    . exact h.counted front hold hpos

end Push

theorem Wired.step {s s' : Senders} {wire : List MsgBuf} {a : Input} {acts : List Action}
    (h : Wired wire s) (hordered : Ordered s) (ha : InOrder s a) (hsolicited : Solicited wire s a)
    (hstep : machine.step s a = some (s', acts))
    : Wired (wire ++ transmitted acts) s' := by
  cases a with
  | composeFrame caller data =>
    simp only [machine] at hstep
    split at hstep
    . obtain ⟨rfl, rfl⟩ := Prod.mk.inj (Option.some.inj hstep)
      simpa [transmitted] using h.composeFrame caller data
    . simp at hstep
  | push caller =>
    simp only [machine] at hstep
    split at hstep
    . next bufptr hlookup =>
      obtain ⟨rfl, rfl⟩ := Prod.mk.inj (Option.some.inj hstep)
      obtain ⟨rest, hcomposed, hrest⟩ := lookup_eq_some_of_nodup hlookup ha hordered.callers
      rw [hrest]
      simpa [transmitted] using h.push hcomposed
    . simp at hstep
  | timerProc =>
    simp only [machine, Option.map_eq_some_iff, Prod.mk.injEq] at hstep
    obtain ⟨⟨sircon, acts'⟩, hsircon, rfl, rfl⟩ := hstep
    apply h.of_sircon hordered hsircon
    . simp
    . simp
  | receive msg =>
    simp only [machine] at hstep
    split at hstep
    . simp only [Option.map_eq_some_iff, Prod.mk.injEq] at hstep
      obtain ⟨⟨sircon, acts'⟩, hsircon, rfl, rfl⟩ := hstep
      apply h.of_sircon hordered hsircon
      . simp
      . rintro msg' heq
        obtain rfl := CSirCon.Input.receive.inj heq
        exact hsolicited
    . simp at hstep

theorem composed_eq_of_not_inOrder {composed : List (Caller × MsgBuf)} {caller : Caller}
    {bufptr : MsgBuf} (h : composed.lookup caller = some bufptr)
    (hhead : composed.head?.map Prod.fst ≠ some caller)
    (hnodup : (composed.map Prod.fst).Nodup)
    : ∃ oldest rest, composed = oldest :: (caller, bufptr) :: rest := by
  cases composed with
  | nil => simp at h
  | cons oldest rest =>
    have hne : (caller == oldest.1) = false := by
      rw [beq_eq_false_iff_ne]
      intro heq
      apply hhead
      rw [heq]
      rfl
    rw [List.lookup_cons] at h
    simp only [hne] at h
    cases rest with
    | nil => simp at h
    | cons second rest =>
      simp only [List.map_cons, List.nodup_cons, List.mem_cons, not_or] at hnodup
      -- There are but two callers.
      have hsecond : second.1 = caller := by
        cases hc : second.1 <;> cases hc' : caller <;> cases ho : oldest.1 <;> simp_all
      subst hsecond
      rw [List.lookup_cons_self, Option.some.injEq] at h
      subst h
      exact ⟨oldest, rest, rfl⟩

theorem Ordered.not_consecutive_push {s s' : Senders} {caller : Caller} {acts : List Action}
    (h : Ordered s) (ha : ¬ InOrder s (.push caller)) (hqueue : s.sircon.link.queue ≠ [])
    (hstep : machine.step s (.push caller) = some (s', acts))
    : ¬ Consecutive (seqs s'.sircon.link.queue) := by
  simp only [machine] at hstep
  split at hstep
  . next bufptr hlookup =>
    obtain ⟨rfl, -⟩ := Prod.mk.inj (Option.some.inj hstep)
    obtain ⟨oldest, rest, hcomposed⟩ := composed_eq_of_not_inOrder hlookup ha h.callers
    obtain ⟨queue, last, hlast⟩ := (List.eq_nil_or_concat' s.sircon.link.queue).resolve_left hqueue
    have hchain := h.chain
    unfold numbers at hchain
    rw [hcomposed, hlast] at hchain
    simp only [seqs, List.map_append, List.map_cons, List.map_nil, List.append_assoc,
      List.cons_append, List.nil_append] at hchain
    have hnext := List.IsChain.right_of_append hchain
    simp only [List.isChain_cons_cons] at hnext
    intro hqueued
    simp only [seqs, CSirCon.push, hlast, List.map_append, List.map_cons, List.map_nil,
      List.append_assoc, List.cons_append, List.nil_append] at hqueued
    have hskipped := List.IsChain.right_of_append hqueued
    rw [List.isChain_cons_cons] at hskipped
    have heq : oldest.2.seq + 1 = oldest.2.seq := by
      rw [← hnext.2.1, hskipped.1, hnext.1]
    have hmod := congrArg UInt8.toNat heq
    have hlt := oldest.2.seq.toNat_lt
    have hone : (1 : UInt8).toNat = 1 := rfl
    rw [UInt8.toNat_add] at hmod
    omega
  . simp at hstep

theorem ordered_of_inOrder {block : List UInt8} {now : Nat}
    {tr : List (Entry Senders Input Action)} {s : Senders}
    (hrun : machine.Run (start (new block now)) tr s) (hall : ∀ e ∈ tr, InOrder e.pre e.input)
    : Ordered s := by
  apply hrun.invariant_of_forall (C := fun e => InOrder e.pre e.input) (I := fun _ s => Ordered s)
  . apply ordered_start
  . intro tr s a s' acts ha hordered hstep
    apply hordered.step ha hstep
  . exact hall

theorem wired_of_inOrder {block : List UInt8} {now : Nat}
    {tr : List (Entry Senders Input Action)} {s : Senders}
    (hrun : machine.Run (start (new block now)) tr s) (hall : ∀ e ∈ tr, InOrder e.pre e.input)
    (hsolicited : ∀ tr₁ e tr₂, tr = tr₁ ++ e :: tr₂ →
      Solicited (transmitted (outputs tr₁)) e.pre e.input)
    : Wired (transmitted (outputs tr)) s := by
  induction hrun with
  | nil => apply wired_start
  | @snoc tr s s' a acts hrun hstep ih =>
    have hall' : ∀ e ∈ tr, InOrder e.pre e.input := fun e he => hall e (List.mem_append_left _ he)
    have hwired := ih hall' (by
      intro tr₁ e tr₂ htr
      apply hsolicited tr₁ e (tr₂ ++ [⟨s, a, acts, s'⟩])
      rw [htr, List.append_assoc, List.cons_append])
    rw [outputs_append, transmitted_append, outputs_singleton]
    apply hwired.step (ordered_of_inOrder hrun hall') _ (hsolicited tr _ [] rfl) hstep
    exact hall ⟨s, a, acts, s'⟩ (by simp)

/--
The frames in the send queue carry consecutive sequence numbers in every run in which frames are
queued in the order in which they have been composed, and the first frame that overtakes another
ends this unless the queue is empty. The frames on the wire carry successive numbers in such a run
if no frame is acknowledged before it has been transmitted.
-/
theorem consecutive_of_inOrder {block : List UInt8} {now : Nat}
    {tr : List (Entry Senders Input Action)} {s : Senders}
    (hrun : machine.Run (start (new block now)) tr s) (hall : ∀ e ∈ tr, InOrder e.pre e.input)
    : Consecutive (seqs s.sircon.link.queue)
        ∧
      ((∀ tr₁ e tr₂, tr = tr₁ ++ e :: tr₂ → Solicited (transmitted (outputs tr₁)) e.pre e.input) →
        Successive (transmitted (outputs tr)))
        ∧
      ∀ caller s' acts, machine.step s (.push caller) = some (s', acts) →
        ¬ InOrder s (.push caller) → s.sircon.link.queue ≠ [] →
          ¬ Consecutive (seqs s'.sircon.link.queue) := by
  have hordered := ordered_of_inOrder hrun hall
  refine ⟨hordered.consecutive, ?_, ?_⟩
  . intro hsolicited
    apply (wired_of_inOrder hrun hall hsolicited).chain
  . intro caller s' acts hstep hinOrder hqueue
    apply hordered.not_consecutive_push hinOrder hqueue hstep

theorem consecutive_of_inOrder_overlap
    : ∃ tr s,
        machine.Run (start (new (List.replicate stageBufSize 0) 1)) tr s
          ∧ inputs tr
              = [.composeFrame .server getGain, .composeFrame .radio getRSSI, .push .server,
                  .push .radio, .timerProc, .receive (ackBytes 0x00 sfAck), .timerProc, .timerProc]
          ∧ seqs s.sircon.link.queue = [1] ∧ Consecutive (seqs s.sircon.link.queue)
          ∧ seqs (transmitted (outputs tr)) = [0, 1, 1] ∧ Successive (transmitted (outputs tr)) := by
  obtain ⟨tr, s, hrun, hin, hcheck⟩ := exists_run (show (machine.exec
    (start (new (List.replicate stageBufSize 0) 1))
    [.composeFrame .server getGain, .composeFrame .radio getRSSI, .push .server, .push .radio,
      .timerProc, .receive (ackBytes 0x00 sfAck), .timerProc, .timerProc]).any
    (fun r => (seqs r.2.sircon.link.queue = [1] ∧ seqs (transmitted (outputs r.1)) = [0, 1, 1])
      ∧ (∀ e ∈ r.1, InOrder e.pre e.input)
      ∧ ∀ n < r.1.length, ∀ e ∈ r.1[n]?,
        Solicited (transmitted (outputs (r.1.take n))) e.pre e.input) = true
    by decide +kernel)
  obtain ⟨⟨hqueue, hwire⟩, hinOrder, hsolicited⟩ := hcheck
  have h := consecutive_of_inOrder hrun hinOrder
  refine ⟨tr, s, hrun, hin, hqueue, h.1, hwire, h.2.1 ?_⟩
  intro tr₁ e tr₂ htr
  have hprefix := hsolicited tr₁.length (by simp [htr]) e (by simp [htr])
  rwa [htr, List.take_left] at hprefix

-- Frame 1 is acknowledged before it has been transmitted: the wire goes on with frame 2.
example
    : (machine.exec (start (new (List.replicate stageBufSize 0) 1))
        [.composeFrame .server getGain, .push .server, .timerProc, .receive (ackBytes 0x00 sfAck),
          .composeFrame .server getGain, .push .server, .receive (ackBytes 0x01 sfAck),
          .composeFrame .server getGain, .push .server, .timerProc]).any
        (fun r => (∀ e ∈ r.1, InOrder e.pre e.input)
          ∧ seqs (transmitted (outputs r.1)) = [0, 2]) = true := by
  decide +kernel

theorem overtaken_frame
    : (∃ tr s,
        machine.Run (start (new (List.replicate stageBufSize 0) 1)) tr s
          ∧ inputs tr
              = [.composeFrame .server getGain, .composeFrame .radio getRSSI, .push .radio,
                  .push .server]
          ∧ seqs s.sircon.link.queue = [1, 0] ∧ ¬ Consecutive (seqs s.sircon.link.queue))
        ∧
      ∃ tr s,
        machine.Run (start (new (List.replicate stageBufSize 0) 1)) tr s
          ∧ inputs tr
              = [.composeFrame .server getGain, .composeFrame .radio getRSSI, .push .radio,
                  .timerProc, .receive (ackBytes 0x01 sfAck), .push .server, .timerProc]
          ∧ seqs (transmitted (outputs tr)) = [1, 0] ∧ ¬ Successive (transmitted (outputs tr)) := by
  constructor
  . obtain ⟨tr, s, hrun, hin, hcheck⟩ := exists_run (show (machine.exec
      (start (new (List.replicate stageBufSize 0) 1))
      [.composeFrame .server getGain, .composeFrame .radio getRSSI, .push .radio,
        .push .server]).any
      (fun r => seqs r.2.sircon.link.queue = [1, 0] ∧ ¬ Consecutive (seqs r.2.sircon.link.queue))
      = true by decide +kernel)
    exact ⟨tr, s, hrun, hin, hcheck⟩
  . obtain ⟨tr, s, hrun, hin, hcheck⟩ := exists_run (show (machine.exec
      (start (new (List.replicate stageBufSize 0) 1))
      [.composeFrame .server getGain, .composeFrame .radio getRSSI, .push .radio, .timerProc,
        .receive (ackBytes 0x01 sfAck), .push .server, .timerProc]).any
      (fun r => seqs (transmitted (outputs r.1)) = [1, 0] ∧ ¬ Successive (transmitted (outputs r.1)))
      = true by decide +kernel)
    exact ⟨tr, s, hrun, hin, hcheck⟩

end Senders

end CSirCon
