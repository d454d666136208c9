import Sircond.SirServer.Impl.Control
import Sircond.Lib.WaitList

/-!
This module contains the refinement of control arbitration by a waiting list of clients: the
controller is the one in front, the control queue is the rest.
-/

open Machine

namespace CSirServer

inductive ControlCall where
  | acquireControl (client : ClientPtr)
  | releaseControl (client : ClientPtr)
  | onDrop (client : ClientPtr)
  deriving DecidableEq, Repr

inductive ControlReply where
  | returned (client : ClientPtr) (result : Bool)
  | notified (client : ClientPtr) (msg : List UInt8)
  deriving DecidableEq, Repr

def notifications (effects : List Effect) : List ControlReply :=
  effects.filterMap fun
    | .notify client msg => some (.notified client msg)
    | .send _ => none

def controlMachine : Machine CSirServer ControlCall ControlReply where
  step s
    | .acquireControl client =>
      let (s, result) := s.acquireControl client
      some (s, [.returned client result])
    | .releaseControl client =>
      let (s, effects) := s.releaseControl client
      some (s, notifications effects)
    | .onDrop client =>
      let (s, effects) := s.onDrop client
      some (s, notifications effects)

structure Represents (s : CSirServer) (l : WaitList ClientPtr) : Prop where
  controller : s.controller = l.holder
  controlQueue : s.controlQueue = l.waiting

def ControlCall.op : ControlCall → WaitList.Op ClientPtr
  | .acquireControl client => .acquire client
  | .releaseControl client => .release client
  | .onDrop client => .release client

def controlReply : WaitList.Reply ClientPtr → ControlReply
  | .answer client granted => .returned client granted
  | .acquired client => .notified client (ascii "CONTROL,ACQUIRED\n")

theorem Represents.acquireControl {s : CSirServer} {l : WaitList ClientPtr} (h : Represents s l)
    (client : ClientPtr)
    : Represents (s.acquireControl client).1 (l.acquire client)
        ∧ (s.acquireControl client).2 = decide ((l.acquire client).holder = some client) := by
  obtain ⟨hcontroller, hqueue⟩ := h
  have hacquire := l.toList_acquire client
  unfold CSirServer.acquireControl
  unfold WaitList.holder at hcontroller ⊢
  unfold WaitList.waiting at hqueue
  cases hl : l.toList with
  | nil =>
    rw [hl] at hcontroller hqueue hacquire
    simp only [List.head?_nil, List.tail_nil] at hcontroller hqueue
    rw [if_pos (by simp [hcontroller, hqueue])]
    refine ⟨⟨?_, ?_⟩, ?_⟩
    . simp [hacquire, WaitList.holder]
    . simp [hacquire, hqueue, WaitList.waiting]
    . simp [hacquire]
  | cons x xs =>
    rw [hl] at hcontroller hqueue hacquire
    simp only [List.head?_cons, List.tail_cons] at hcontroller hqueue
    rw [if_neg (by simp [hcontroller])]
    by_cases hx : client = x
    . subst hx
      rw [if_pos (by simp [hasControl, hcontroller])]
      refine ⟨⟨?_, ?_⟩, ?_⟩
      . simp [hacquire, hcontroller, WaitList.holder]
      . simp [hacquire, hqueue, WaitList.waiting]
      . simp [hacquire]
    . rw [if_neg (by simpa [hasControl, hcontroller] using hx)]
      by_cases hxs : client ∈ xs
      . rw [if_neg (by simp [isWaitingForControl, hqueue, hxs])]
        refine ⟨⟨?_, ?_⟩, ?_⟩
        . simp [hacquire, hxs, hcontroller, WaitList.holder]
        . simp [hacquire, hxs, hqueue, WaitList.waiting]
        . simpa [hacquire, hxs, eq_comm] using hx
      . rw [if_pos (by simp [isWaitingForControl, hqueue, hxs])]
        refine ⟨⟨?_, ?_⟩, ?_⟩
        . simp [hacquire, hx, hxs, hcontroller, WaitList.holder]
        . simp [hacquire, hx, hxs, hqueue, WaitList.waiting]
        . simp [hacquire, hx, hxs, eq_comm]

theorem Represents.releaseControl {s : CSirServer} {l : WaitList ClientPtr} (h : Represents s l)
    (client : ClientPtr)
    : Represents (s.releaseControl client).1 (l.release client)
        ∧
      (s.releaseControl client).2
        =
      (if (l.release client).holder = l.holder then
        []
      else
        (l.release client).holder.toList.map fun c => .notify c (ascii "CONTROL,ACQUIRED\n")) := by
  obtain ⟨hcontroller, hqueue⟩ := h
  have hnodup := l.nodup
  unfold CSirServer.releaseControl
  unfold WaitList.holder at hcontroller
  unfold WaitList.waiting at hqueue
  cases hl : l.toList with
  | nil =>
    rw [hl] at hcontroller hqueue
    simp only [List.head?_nil, List.tail_nil] at hcontroller hqueue
    rw [if_neg (by simp [hasControl, hcontroller])]
    refine ⟨⟨?_, ?_⟩, ?_⟩
    . simp [hl, hcontroller, WaitList.release, WaitList.holder]
    . simp [hl, hqueue, WaitList.release, WaitList.waiting]
    . simp [hl, WaitList.release, WaitList.holder]
  | cons x xs =>
    rw [hl] at hcontroller hqueue hnodup
    rw [List.nodup_cons] at hnodup
    simp only [List.head?_cons, List.tail_cons] at hcontroller hqueue
    by_cases hx : client = x
    . subst hx
      rw [if_pos (by simp [hasControl, hcontroller])]
      cases xs with
      | nil =>
        rw [hqueue]
        refine ⟨⟨?_, ?_⟩, ?_⟩
        . simp [hl, WaitList.release, WaitList.holder]
        . simp [hl, WaitList.release, WaitList.waiting]
        . simp [hl, WaitList.release, WaitList.holder]
      | cons front rest =>
        have hne : front ≠ client := by
          rintro rfl
          simp at hnodup
        rw [hqueue]
        refine ⟨⟨?_, ?_⟩, ?_⟩
        . simp [hl, WaitList.release, WaitList.holder]
        . simp [hl, WaitList.release, WaitList.waiting]
        . simp only [notify, WaitList.release, WaitList.holder, hl, List.erase_cons_head,
            List.head?_cons, Option.some.injEq]
          rw [if_neg hne]
          rfl
    . rw [if_neg (by simpa [hasControl, hcontroller] using hx)]
      have herase : (x :: xs).erase client = x :: xs.erase client := by
        rw [List.erase_cons_tail]
        simpa using Ne.symm hx
      refine ⟨⟨?_, ?_⟩, ?_⟩
      . simp [hl, herase, hcontroller, WaitList.release, WaitList.holder]
      . simp only [hl, herase, WaitList.release, WaitList.waiting, List.tail_cons]
        rw [hqueue, hnodup.2.erase_eq_filter]
        congr 1
        funext c
        simp [bne, beq_eq_decide]
      . simp [hl, herase, WaitList.release, WaitList.holder]

theorem Represents.onDrop {s : CSirServer} {l : WaitList ClientPtr} (h : Represents s l)
    (client : ClientPtr)
    : Represents (s.onDrop client).1 (l.release client) where
  controller := (h.releaseControl client).1.controller
  controlQueue := (h.releaseControl client).1.controlQueue

theorem controlMachine_simulates
    : Simulates controlMachine (WaitList.machine.map ControlCall.op controlReply) Represents := by
  have hrelease : ∀ (s : CSirServer) (l : WaitList ClientPtr) (client : ClientPtr),
      Represents s l →
        notifications (s.releaseControl client).2
          =
        (if (l.release client).holder = l.holder then
          []
        else
          (l.release client).holder.toList.map WaitList.Reply.acquired).map controlReply := by
    intro s l client h
    rw [(h.releaseControl client).2]
    split
    . rfl
    . cases (l.release client).holder with
      | none => rfl
      | some c => rfl
  intro s l call s' out h hstep
  cases call with
  | acquireControl client =>
    simp only [controlMachine, Option.some.injEq, Prod.mk.injEq] at hstep
    obtain ⟨rfl, rfl⟩ := hstep
    obtain ⟨hrep, hresult⟩ := h.acquireControl client
    refine ⟨_, ?_, hrep⟩
    rw [hresult]
    rfl
  | releaseControl client =>
    simp only [controlMachine, Option.some.injEq, Prod.mk.injEq] at hstep
    obtain ⟨rfl, rfl⟩ := hstep
    refine ⟨_, ?_, (h.releaseControl client).1⟩
    rw [hrelease s l client h]
    rfl
  | onDrop client =>
    simp only [controlMachine, Option.some.injEq, Prod.mk.injEq] at hstep
    obtain ⟨rfl, rfl⟩ := hstep
    refine ⟨_, ?_, h.onDrop client⟩
    simp only [CSirServer.onDrop]
    rw [hrelease s l client h]
    rfl

theorem represents_new (sock : Int) : Represents (new sock) WaitList.empty where
  controller := rfl
  controlQueue := rfl

def history (tr : List (Entry CSirServer ControlCall ControlReply)) : List (WaitList.Op ClientPtr) :=
  ((inputs tr).map ControlCall.op).reverse

theorem represents_of_run {sock : Int} {tr : List (Entry CSirServer ControlCall ControlReply)}
    {s : CSirServer} (hrun : controlMachine.Run (new sock) tr s)
    : Represents s (WaitList.after (history tr)) := by
  obtain ⟨tr₁, l, hrun₁, hrep, hin₁, -⟩ :=
    controlMachine_simulates.run (represents_new sock) hrun
  obtain ⟨tr₂, hrun₂, hin₂, -⟩ := hrun₁.of_map
  rw [WaitList.run_machine hrun₂, hin₂, hin₁] at hrep
  apply hrep

theorem Represents.mem_controlQueue_iff {s : CSirServer} {l : WaitList ClientPtr}
    (h : Represents s l) {client : ClientPtr}
    : client ∈ s.controlQueue ↔ client ∈ l.toList ∧ s.controller ≠ some client := by
  rw [h.controller, h.controlQueue]
  apply WaitList.mem_waiting_iff

theorem Represents.controlQueue_eq_nil {s : CSirServer} {l : WaitList ClientPtr}
    (h : Represents s l) (hnone : s.controller = none)
    : s.controlQueue = [] := by
  rw [h.controller, WaitList.holder, List.head?_eq_none_iff] at hnone
  rw [h.controlQueue, WaitList.waiting, hnone]
  rfl

theorem returned_not_mem (effects : List Effect) (client : ClientPtr) (result : Bool)
    : .returned client result ∉ notifications effects := by
  unfold notifications
  rw [List.mem_filterMap]
  rintro ⟨effect, -, heffect⟩
  cases effect with
  | notify client msg => simp at heffect
  | send data => simp at heffect

theorem notified_mem_iff {s : CSirServer} {l : WaitList ClientPtr} (h : Represents s l)
    {client c : ClientPtr} {msg : List UInt8}
    : .notified c msg ∈ notifications (s.releaseControl client).2
        ↔
      msg = ascii "CONTROL,ACQUIRED\n" ∧ c ∈ s.controlQueue
        ∧ (s.releaseControl client).1.controller = some c ∧ client ≠ c := by
  obtain ⟨hrep, heffects⟩ := h.releaseControl client
  have hiff := l.holder_release_iff (x := client) (y := c)
  rw [hrep.controller, h.controlQueue, heffects]
  split
  . next hsame =>
    simp only [notifications, List.filterMap_nil, List.not_mem_nil, false_iff]
    rintro ⟨-, hwait, hholder, hne⟩
    apply (hiff.mpr ⟨hne, hwait, hholder⟩).1 hsame
  . next hchanged =>
    have hmem : .notified c msg ∈ notifications ((l.release client).holder.toList.map fun c =>
        .notify c (ascii "CONTROL,ACQUIRED\n"))
        ↔ msg = ascii "CONTROL,ACQUIRED\n" ∧ (l.release client).holder = some c := by
      cases (l.release client).holder with
      | none => simp [notifications]
      | some d =>
        simp only [notifications, Option.toList_some, List.map_cons, List.map_nil,
          List.filterMap_cons, List.filterMap_nil, List.mem_singleton, ControlReply.notified.injEq,
          Option.some.injEq]
        constructor
        . rintro ⟨rfl, rfl⟩
          exact ⟨rfl, rfl⟩
        . rintro ⟨rfl, rfl⟩
          exact ⟨rfl, rfl⟩
    rw [hmem]
    constructor
    . rintro ⟨hmsg, hholder⟩
      obtain ⟨hne, hwait, -⟩ := hiff.mp ⟨hchanged, hholder⟩
      exact ⟨hmsg, hwait, hholder, hne⟩
    . rintro ⟨hmsg, -, hholder, -⟩
      exact ⟨hmsg, hholder⟩

/--
Control arbitration refines a waiting list: the controller and the queue are the list of the
outstanding requests in their order, `AcquireControl` returns whether the caller is in front, and a
client is notified exactly when it gets to the front by the release or the drop of another one.
-/
theorem control_refines_waitList {sock : Int}
    {tr : List (Entry CSirServer ControlCall ControlReply)} {s : CSirServer}
    (hrun : controlMachine.Run (new sock) tr s)
    : Represents s (WaitList.after (history tr))
        ∧
      ((WaitList.after (history tr)).toList.Pairwise fun c d =>
        ∀ m ∈ WaitList.requestedAt c (history tr), ∀ n ∈ WaitList.requestedAt d (history tr), m < n)
        ∧
      (s.controller = none → s.controlQueue = [])
        ∧
      (∀ c, s.controller = some c → c ∉ s.controlQueue) ∧ s.controlQueue.Nodup
        ∧
      ∀ tr₁ e tr₂, tr = tr₁ ++ e :: tr₂ →
        (∀ c result, .returned c result ∈ e.out ↔
          e.input = .acquireControl c ∧ result = decide (e.post.controller = some c))
          ∧
        (∀ c msg, .notified c msg ∈ e.out ↔
          msg = ascii "CONTROL,ACQUIRED\n" ∧ c ∈ e.pre.controlQueue ∧ e.post.controller = some c
            ∧ ∃ d, d ≠ c ∧ (e.input = .releaseControl d ∨ e.input = .onDrop d)) := by
  have hrep := represents_of_run hrun
  refine ⟨hrep, WaitList.after_sorted _, hrep.controlQueue_eq_nil, ?_, ?_, ?_⟩
  . intro c hc hmem
    exact (hrep.mem_controlQueue_iff.mp hmem).2 hc
  . rw [hrep.controlQueue]
    apply (WaitList.after (history tr)).nodup.tail
  . rintro tr₁ ⟨pre, call, out, post⟩ tr₂ htr
    obtain ⟨hrun₁, hstep⟩ := hrun.of_prefix tr₁ _ tr₂ htr
    have hrep₁ := represents_of_run hrun₁
    cases call with
    | acquireControl client =>
      simp only [controlMachine, Option.some.injEq, Prod.mk.injEq] at hstep
      obtain ⟨rfl, rfl⟩ := hstep
      obtain ⟨hrep', hresult⟩ := hrep₁.acquireControl client
      rw [← hrep'.controller] at hresult
      constructor
      . intro c result
        simp only [List.mem_singleton, ControlReply.returned.injEq, ControlCall.acquireControl.injEq]
        constructor
        . rintro ⟨rfl, rfl⟩
          exact ⟨rfl, hresult⟩
        . rintro ⟨rfl, rfl⟩
          exact ⟨rfl, hresult.symm⟩
      . simp
    | releaseControl client =>
      simp only [controlMachine, Option.some.injEq, Prod.mk.injEq] at hstep
      obtain ⟨rfl, rfl⟩ := hstep
      refine ⟨?_, ?_⟩
      . simp [returned_not_mem]
      . intro c msg
        rw [notified_mem_iff hrep₁]
        simp
    | onDrop client =>
      simp only [controlMachine, Option.some.injEq, Prod.mk.injEq] at hstep
      obtain ⟨rfl, rfl⟩ := hstep
      refine ⟨?_, ?_⟩
      . simp [CSirServer.onDrop, returned_not_mem]
      . intro c msg
        simp only [CSirServer.onDrop]
        rw [notified_mem_iff hrep₁]
        simp [fdClr]

theorem control_refines_waitList_handover
    : ∃ tr s,
        controlMachine.Run (new 3) tr s
          ∧ inputs tr
              = [.acquireControl 7, .acquireControl 8, .acquireControl 9, .acquireControl 8,
                  .onDrop 8, .acquireControl 8, .releaseControl 7]
          ∧ outputs tr
              = [.returned 7 true, .returned 8 false, .returned 9 false, .returned 8 false,
                  .returned 8 false, .notified 9 (ascii "CONTROL,ACQUIRED\n")]
          ∧ (s.controller = none → s.controlQueue = [])
          ∧ (∀ c, s.controller = some c → c ∉ s.controlQueue) ∧ s.controlQueue.Nodup := by
  obtain ⟨tr, s, hrun, hin, hcheck⟩ := exists_run (show (controlMachine.exec (new 3)
    [.acquireControl 7, .acquireControl 8, .acquireControl 9, .acquireControl 8, .onDrop 8,
      .acquireControl 8, .releaseControl 7]).any
    (fun r => outputs r.1 = [.returned 7 true, .returned 8 false, .returned 9 false,
      .returned 8 false, .returned 8 false, .notified 9 (ascii "CONTROL,ACQUIRED\n")])
    = true by decide +kernel)
  obtain ⟨-, -, hempty, hnotin, hnodup, -⟩ := control_refines_waitList hrun
  exact ⟨tr, s, hrun, hin, hcheck, hempty, hnotin, hnodup⟩

end CSirServer
