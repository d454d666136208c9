import Sircond.Uplink.Command
import Sircond.SirCon.StopAndWait.Agreement

/-!
This module contains what it means for a client to be told that a request was successful: the peer of
the radio interface has received it, once.
-/

open Scp Machine CSirCon CSirServer

namespace CSirCon.Net

variable {sent : List Payload} {nums : List Nat} {log : List (Option Nat × List UInt8)} {i : Nat}

end CSirCon.Net

namespace Uplink

/-- The requests for which a frame has been queued, in the order of the frames. -/
def sends (tr : List (Entry Uplink Input Event)) : List Payload :=
  tr.flatMap fun e =>
    match e.input with
    | .net a => Net.sends [a]
    | .command client cmd currChannel => (e.pre.server.asks client cmd currChannel).toList
    | .connect _ | .resume => []

def dispatches (out : List Event) : List (Option Nat × List UInt8) :=
  Net.dispatches (out.filterMap fun
    | .net e => some e
    | .effect _ => none)

theorem sends_append (tr : List (Entry Uplink Input Event)) (e : Entry Uplink Input Event)
    : sends (tr ++ [e]) = sends tr ++ sends [e] := by
  simp [sends]

theorem dispatches_append (out out' : List Event)
    : dispatches (out ++ out') = dispatches out ++ dispatches out' := by
  simp [dispatches, Net.dispatches]

theorem dispatches_map_effect (effects : List Effect) : dispatches (effects.map .effect) = [] := by
  unfold dispatches
  rw [List.filterMap_map]
  have hnone : effects.filterMap (fun _ => (none : Option Net.Event)) = [] := by simp
  exact congrArg Net.dispatches hnone

theorem dispatches_map_net (events : List Net.Event)
    : dispatches (events.map .net) = Net.dispatches events := by
  unfold dispatches
  rw [List.filterMap_map]
  have hsome : events.filterMap some = events := List.filterMap_some
  exact congrArg Net.dispatches hsome

/-- A client has been waiting since its command `cmd`, which asks for `data`. -/
def Asked (tr : List (Entry Uplink Input Event)) (w : Waiting) (cmd : List UInt8)
    (currChannel : UInt8) (data : Payload)
    : Prop :=
  ∃ tr₀ e tr₁, tr = tr₀ ++ e :: tr₁ ∧ e.input = .command w.client cmd currChannel
    ∧ e.pre.server.asks w.client cmd currChannel = some data
    ∧ ∀ e' ∈ e :: tr₁, e'.post.waiting = some w

theorem Asked.append {tr : List (Entry Uplink Input Event)} {w : Waiting} {cmd : List UInt8}
    {currChannel : UInt8} {data : Payload} (h : Asked tr w cmd currChannel data)
    {e : Entry Uplink Input Event} (he : e.post.waiting = some w)
    : Asked (tr ++ [e]) w cmd currChannel data := by
  obtain ⟨tr₀, e₀, tr₁, rfl, hinput, hasks, hwaiting⟩ := h
  refine ⟨tr₀, e₀, tr₁ ++ [e], ?_, hinput, hasks, ?_⟩
  . rw [List.append_assoc, List.cons_append]
  . rw [← List.cons_append]
    intro e' he'
    rw [List.mem_append, List.mem_singleton] at he'
    cases he' with
    | inl he' => exact hwaiting e' he'
    | inr he' =>
      rw [he']
      exact he

/--
What is known after a history: the peer has received the frames with the numbers `nums`, the requests
done with success among them, and the client that waits has asked for the request with its number. The
server is as the command has found it.
-/
structure Answering (nums : List Nat) (tr : List (Entry Uplink Input Event)) (s : Uplink)
    : Prop where
  agreement : Net.Agreement (sends tr) nums s.net
  received : Net.Matches (sends tr) nums (dispatches (outputs tr))
  done : ∀ id, (id, .success) ∈ s.done → id ∈ nums
  waiting : ∀ w ∈ s.waiting, ∃ cmd currChannel data, Asked tr w cmd currChannel data
    ∧ s.server.asks w.client cmd currChannel = some data ∧ (sends tr)[w.id]? = some data

section Step

variable {nums : List Nat} {tr : List (Entry Uplink Input Event)} {s s' : Uplink} {a : Input}
  {out : List Event}

/-- A step that leaves the network alone, after which nobody waits. -/
theorem Answering.keep (h : Answering nums tr s) (hsends : sends [⟨s, a, out, s'⟩] = [])
    (hdispatches : dispatches out = []) (hnet : s'.net = s.net) (hdone : s'.done = s.done)
    (hwaiting : s'.waiting = none)
    : Answering nums (tr ++ [⟨s, a, out, s'⟩]) s' := by
  constructor
  . rw [sends_append, hsends, List.append_nil, hnet]
    exact h.agreement
  . rw [sends_append, hsends, List.append_nil, outputs_append, outputs_singleton,
      dispatches_append, hdispatches, List.append_nil]
    exact h.received
  . rw [hdone]
    exact h.done
  . simp [hwaiting]

theorem getElem?_sends_append {i : Nat} {data : Payload} (h : (sends tr)[i]? = some data)
    (e : Entry Uplink Input Event)
    : (sends (tr ++ [e]))[i]? = some data := by
  obtain ⟨hlt, -⟩ := List.getElem?_eq_some_iff.mp h
  rw [sends_append, List.getElem?_append_left hlt]
  exact h

theorem Answering.net (h : Answering nums tr s) (hwindow : Net.InWindow s.net) {b : Net.Input}
    {net : Net} {events : List Net.Event} (hstep : Net.machine.step s.net b = some (net, events))
    (hs' : s' = { s with net, done := s.done ++ results events })
    : ∃ nums', Answering nums' (tr ++ [⟨s, .net b, events.map .net, s'⟩]) s' := by
  subst hs'
  obtain ⟨⟨new, hagreement, hnew⟩, hsuccess⟩ := h.agreement.step hwindow hstep
  refine ⟨nums ++ new, ?_, ?_, ?_, ?_⟩
  . rw [sends_append]
    simpa [sends] using hagreement
  . have hboth := List.rel_append (h.received.append_sent (Net.sends [b]))
      (hnew.append_sent (Net.sends [b]))
    rw [sends_append, outputs_append, outputs_singleton, dispatches_append, dispatches_map_net]
    simpa [sends, Net.Matches] using hboth
  . intro id hid
    rw [List.mem_append] at hid ⊢
    cases hid with
    | inl hid => exact .inl (h.done id hid)
    | inr hid =>
      left
      apply hsuccess
      unfold results at hid
      rw [List.mem_filterMap] at hid
      obtain ⟨event, hevent, heq⟩ := hid
      cases event with
      | dispatch => simp at heq
      | resolve id' rc =>
        obtain ⟨rfl, rfl⟩ := Prod.mk.inj (Option.some.inj heq)
        exact hevent
  . intro w hw
    obtain ⟨cmd, currChannel, data, hasked, hasks, hdata⟩ := h.waiting w hw
    exact ⟨cmd, currChannel, data, hasked.append hw, hasks, getElem?_sends_append hdata _⟩

theorem Answering.ask (h : Answering nums tr s) (hwindow : Net.InWindow s.net) {client : ClientPtr}
    {cmd : List UInt8} {currChannel : UInt8} {data : Payload}
    (hasks : s.server.asks client cmd currChannel = some data)
    (hs' : s' = { s with
      net := { s.net with a := (s.net.a.send data).1 }
      waiting := some ⟨client, (s.net.a.send data).2⟩ })
    : ∃ nums', Answering nums' (tr ++ [⟨s, .command client cmd currChannel, [], s'⟩]) s' := by
  subst hs'
  have hstep : Net.machine.step s.net (.send data)
      = some ({ s.net with a := (s.net.a.send data).1 }, []) :=
    rfl
  obtain ⟨⟨new, hagreement, hnew⟩, -⟩ := h.agreement.step hwindow hstep
  obtain rfl : new = [] := List.forall₂_nil_right_iff.mp hnew
  have hsends : ∀ e : Entry Uplink Input Event, e.pre = s → e.input = .command client cmd currChannel →
      sends (tr ++ [e]) = sends tr ++ [data] := by
    rintro e rfl hinput
    rw [sends_append]
    simp [sends, hinput, hasks]
  refine ⟨nums, ?_, ?_, h.done, ?_⟩
  . rw [hsends _ rfl rfl]
    simpa [Net.sends] using hagreement
  . rw [hsends _ rfl rfl, outputs_append, outputs_singleton, List.append_nil]
    apply h.received.append_sent
  . rintro w hw
    obtain rfl := Option.some.inj hw
    refine ⟨cmd, currChannel, data, ⟨tr, _, [], rfl, rfl, hasks, by simp⟩, hasks, ?_⟩
    have hid : (s.net.a.send data).2 = (sends tr).length := h.agreement.allocs
    rw [hsends _ rfl rfl, hid, List.getElem?_concat_length]

theorem Answering.step (h : Answering nums tr s) (hwindow : Net.InWindow s.net)
    (hstep : machine.step s a = some (s', out))
    : ∃ nums', Answering nums' (tr ++ [⟨s, a, out, s'⟩]) s' := by
  cases a with
  | net b =>
    simp only [machine, Option.map_eq_some_iff] at hstep
    obtain ⟨⟨net, events⟩, hnet, heq⟩ := hstep
    obtain ⟨rfl, rfl⟩ := Prod.mk.inj heq
    apply h.net hwindow hnet rfl
  | connect sock =>
    simp only [machine] at hstep
    split at hstep
    . next hguard =>
      obtain ⟨rfl, rfl⟩ := Prod.mk.inj (Option.some.inj hstep)
      refine ⟨nums, ?_⟩
      apply h.keep
      . rfl
      . rfl
      . rfl
      . rfl
      . exact hguard.1
    . simp at hstep
  | command client cmd currChannel =>
    simp only [machine] at hstep
    split at hstep
    . next hguard =>
      split at hstep
      . next data hasks =>
        obtain ⟨rfl, rfl⟩ := Prod.mk.inj (Option.some.inj hstep)
        apply h.ask hwindow hasks rfl
      . next hasks =>
        obtain ⟨rfl, rfl⟩ := Prod.mk.inj (Option.some.inj hstep)
        refine ⟨nums, ?_⟩
        apply h.keep
        . simp [sends, hasks]
        . apply dispatches_map_effect
        . rfl
        . rfl
        . exact hguard.1
    . simp at hstep
  | resume =>
    simp only [machine] at hstep
    split at hstep
    . split at hstep
      . obtain ⟨rfl, rfl⟩ := Prod.mk.inj (Option.some.inj hstep)
        refine ⟨nums, ?_⟩
        apply h.keep
        . rfl
        . apply dispatches_map_effect
        . rfl
        . rfl
        . rfl
      . simp at hstep
    . simp at hstep

end Step

end Uplink
