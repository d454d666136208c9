import Sircond.SirServer.Backlog

/-!
This module contains of which notices a client is told: of those that go to everybody, all since it is
connected, and of the results of requests, those while it has control.
-/

open Machine CSirServer

def Notice.isBroadcast (n : Notice) : Bool := Observer.handling n = .notifyAll

def Message.notice? : Message → Option Notice
  | .notice n => some n
  | .reply _ => none

namespace Observer

/-- The client is among those that are told of a notice. -/
def tells (o : Observer) (client : ClientPtr) (n : Notice) : Bool :=
  match handling n with
  | .notifyAll => client ∈ o.server.clients
  | .notify => o.server.controller = some client
  | .setPower | .unhandled => false

def noticeOf : Input → Option Notice
  | .notice n => some n
  | .server _ => none

def notices (tr : List (Entry Observer Input Effect)) : List Notice :=
  tr.filterMap fun e => noticeOf e.input

def noticesTo (client : ClientPtr) (tr : List (Entry Observer Input Effect)) : List Notice :=
  tr.filterMap fun e => (noticeOf e.input).filter fun n => e.pre.tells client n

/-- The notices that came while the client was not connected. -/
def noticesWithout (client : ClientPtr) (tr : List (Entry Observer Input Effect)) : List Notice :=
  notices (tr.filter fun e => client ∉ e.pre.server.clients)

section Append

variable (client : ClientPtr) (tr : List (Entry Observer Input Effect))
  (e : Entry Observer Input Effect)

theorem notices_append_singleton
    : notices (tr ++ [e]) = notices tr ++ (noticeOf e.input).toList := by
  unfold notices
  rw [List.filterMap_append]
  cases h : noticeOf e.input with
  | none => simp [h]
  | some n => simp [h]

theorem noticesTo_append_singleton
    : noticesTo client (tr ++ [e])
        =
      noticesTo client tr ++ ((noticeOf e.input).filter fun n => e.pre.tells client n).toList := by
  unfold noticesTo
  rw [List.filterMap_append]
  cases h : (noticeOf e.input).filter fun n => e.pre.tells client n with
  | none => simp [h]
  | some n => simp [h]

theorem noticesWithout_append_singleton
    : noticesWithout client (tr ++ [e])
        =
      noticesWithout client tr
        ++ if client ∈ e.pre.server.clients then [] else (noticeOf e.input).toList := by
  unfold noticesWithout
  rw [List.filter_append]
  by_cases h : client ∈ e.pre.server.clients
  . simp [h]
  . simp only [List.filter_singleton, h, not_false_eq_true, decide_true, if_false]
    apply notices_append_singleton

end Append

theorem sentTo_update {o : Observer} (hnodup : o.server.clients.Nodup) (n : Notice)
    (client : ClientPtr)
    : sentTo client (o.update n).2 = if o.tells client n then [n.line] else [] := by
  have hhandles := o.handles n
  unfold tells
  generalize handling n = k at hhandles ⊢
  cases hhandles with
  | notifyAll _ heffects =>
    rw [heffects, sentTo_map_notify hnodup]
    simp
  | notify _ heffects =>
    rw [heffects]
    cases hcontroller : o.server.controller with
    | none => simp [CSirServer.notify]
    | some c =>
      rw [sentTo_notify]
      simp
  | setPower _ heffects | unhandled _ heffects =>
    rw [heffects]
    simp

theorem tells_lt {effects : List Effect} {o : Observer} (h : Informed effects o.server)
    {client : ClientPtr} {n : Notice} (htells : o.tells client n)
    : client < o.server.heap.length := by
  unfold tells at htells
  split at htells
  . apply h.clients
    exact of_decide_eq_true htells
  . apply h.lt_of_standing
    simp [standing, of_decide_eq_true htells]
  . simp at htells
  . simp at htells

theorem exists_replies {msgs : List (List UInt8)} (h : ∀ msg ∈ msgs, ∃ r : Reply, msg = r.line)
    : ∃ ms : List Message, msgs = ms.map Message.line ∧ ms.filterMap Message.notice? = [] := by
  have hmessages : ∀ msg ∈ msgs, ∃ m : Message, msg = m.line ∧ m.notice? = none := by
    intro msg hmsg
    obtain ⟨r, rfl⟩ := h msg hmsg
    exact ⟨.reply r, rfl, rfl⟩
  obtain ⟨ms, hms, hreplies⟩ := exists_messages hmessages
  exact ⟨ms, hms, List.filterMap_eq_nil_iff.mpr hreplies⟩

/-- The lines sent to a client are replies and, in their order, the notices it is told of. -/
theorem exists_messages_of_run {sock : Int} {tr : List (Entry Observer Input Effect)} {o : Observer}
    (hrun : machine.Run (new sock) tr o) (hshort : ∀ a ∈ inputs tr, Short a) (client : ClientPtr)
    : ∃ ms : List Message, sentTo client (outputs tr) = ms.map Message.line
        ∧ ms.filterMap Message.notice? = noticesTo client tr := by
  induction hrun with
  | nil => exact ⟨[], rfl, rfl⟩
  | @snoc tr o o' a effects hrun hstep ih =>
    rw [inputs_append, inputs_singleton, List.forall_mem_append, List.forall_mem_singleton]
      at hshort
    have hreading := reading_of_run hrun hshort.1 client
    obtain ⟨ms, hms, hnotices⟩ := ih hshort.1
    have hnew : ∃ ms' : List Message, sentTo client effects = ms'.map Message.line
        ∧ ms'.filterMap Message.notice?
            = ((noticeOf a).filter fun n => o.tells client n).toList := by
      cases a with
      | server a =>
        obtain ⟨effects₀, hinformed⟩ := hreading.informed
        apply exists_replies
        apply reply_of_step hinformed.serving (server_step hstep).2
      | notice n =>
        have heffects : (o.update n).2 = effects := congrArg Prod.snd (Option.some.inj hstep)
        rw [← heffects, sentTo_update hreading.nodup]
        by_cases htells : o.tells client n
        . rw [if_pos htells]
          refine ⟨[.notice n], rfl, ?_⟩
          simp [noticeOf, Message.notice?, Option.filter_some, htells]
        . rw [if_neg htells]
          refine ⟨[], rfl, ?_⟩
          simp [noticeOf, htells]
    obtain ⟨ms', hms', hnotices'⟩ := hnew
    refine ⟨ms ++ ms', ?_, ?_⟩
    . rw [outputs_append, outputs_singleton, sentTo_append, hms, hms', List.map_append]
    . rw [List.filterMap_append, hnotices, hnotices', noticesTo_append_singleton]

/-- What came before a client connected and what it has been told of since. -/
structure Told (client : ClientPtr) (tr : List (Entry Observer Input Effect)) (o : Observer)
    : Prop where
  fresh : o.server.heap.length ≤ client →
    noticesTo client tr = [] ∧ noticesWithout client tr = notices tr
  broadcasts : client ∈ o.server.clients →
    (notices tr).filter Notice.isBroadcast
      = (noticesWithout client tr ++ noticesTo client tr).filter Notice.isBroadcast

theorem told_new (client : ClientPtr) (sock : Int) : Told client [] (new sock) where
  fresh _ := ⟨rfl, rfl⟩
  broadcasts _ := rfl

theorem ClientEffect.mem_clients {client : ClientPtr} {s s' : CSirServer} {effects : List Effect}
    {bytes : List UInt8} (h : ClientEffect client s s' effects bytes) (hmem : client ∈ s'.clients)
    : client ∈ s.clients ∨ client = s.heap.length := by
  cases h with
  | answers _ hanswers => exact .inl (hanswers.clients.subset hmem)
  | connect _ _ _ _ _ _ hclients =>
    rw [hclients, List.mem_append, List.mem_singleton] at hmem
    exact hmem
  | transmit _ _ _ _ _ _ hclients =>
    rw [hclients] at hmem
    exact .inl hmem

theorem ClientEffect.length_le {client : ClientPtr} {s s' : CSirServer} {effects : List Effect}
    {bytes : List UInt8} (h : ClientEffect client s s' effects bytes)
    : s.heap.length ≤ s'.heap.length := by
  cases h with
  | answers _ hanswers => apply Nat.le_of_eq hanswers.length.symm
  | connect _ _ _ _ _ hheap => simp [hheap]
  | transmit _ _ _ _ _ hlength => apply Nat.le_of_eq hlength.symm

theorem Told.step {client : ClientPtr} {tr : List (Entry Observer Input Effect)} {o o' : Observer}
    (h : Told client tr o) (hreading : Reading client tr o) {a : Input} (hshort : Short a)
    {effects : List Effect} (hstep : machine.step o a = some (o', effects))
    : Told client (tr ++ [⟨o, a, effects, o'⟩]) o' := by
  obtain ⟨effects₀, hinformed⟩ := hreading.informed
  have heffect : ClientEffect client o.server o'.server effects (takes client o a) :=
    clientEffect hinformed hreading.nodup hshort hstep
  have hfresh : o.server.heap.length ≤ client → client ∉ o.server.clients
      ∧ ((noticeOf a).filter fun n => o.tells client n) = none := by
    intro hge
    refine ⟨fun hmem => Nat.not_lt_of_le hge (hinformed.clients client hmem), ?_⟩
    rw [Option.filter_eq_none_iff]
    intro n _ htells
    exact Nat.not_lt_of_le hge (tells_lt hinformed htells)
  constructor
  . intro hge
    have hge := Nat.le_trans heffect.length_le hge
    obtain ⟨habsent, hnone⟩ := hfresh hge
    obtain ⟨hto, hwithout⟩ := h.fresh hge
    rw [noticesTo_append_singleton, noticesWithout_append_singleton, notices_append_singleton, hto,
      hwithout, if_neg habsent, hnone]
    exact ⟨rfl, rfl⟩
  . intro hmem
    rw [notices_append_singleton, noticesTo_append_singleton, noticesWithout_append_singleton]
    dsimp only
    rcases heffect.mem_clients hmem with hwas | rfl
    . have hnew : ((noticeOf a).filter fun n => o.tells client n).toList.filter Notice.isBroadcast
          = (noticeOf a).toList.filter Notice.isBroadcast := by
        cases noticeOf a with
        | none => rfl
        | some n =>
          by_cases hbroadcast : n.isBroadcast
          . have htells : o.tells client n := by
              unfold tells
              rw [of_decide_eq_true hbroadcast]
              exact decide_eq_true hwas
            rw [Option.filter_some, if_pos htells]
          . rw [Option.filter_some]
            split
            . rfl
            . simp [hbroadcast]
      rw [if_pos hwas, List.append_nil, ← List.append_assoc, List.filter_append, List.filter_append,
        h.broadcasts hwas, hnew]
    . obtain ⟨habsent, hnone⟩ := hfresh (Nat.le_refl _)
      obtain ⟨hto, hwithout⟩ := h.fresh (Nat.le_refl _)
      rw [hto, hwithout, if_neg habsent, hnone]
      simp

theorem told_of_run {sock : Int} {tr : List (Entry Observer Input Effect)} {o : Observer}
    (hrun : machine.Run (new sock) tr o) (hshort : ∀ a ∈ inputs tr, Short a) (client : ClientPtr)
    : Told client tr o := by
  induction hrun with
  | nil => apply told_new
  | snoc hrun hstep ih =>
    rw [inputs_append, inputs_singleton, List.forall_mem_append, List.forall_mem_singleton]
      at hshort
    apply (ih hshort.1).step (reading_of_run hrun hshort.1 client) hshort.2 hstep

end Observer
