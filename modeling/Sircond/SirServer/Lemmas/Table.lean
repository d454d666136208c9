import Sircond.SirServer.Impl.Turn
import Sircond.SirServer.Lemmas.Presence

/-!
This module contains what the functions of the server do to its table of clients: the sockets, the
descriptor set and the list of clients. Only a new connection and a drop change any of them.
-/

namespace CSirServer

theorem onlyOutput_processCommand (radio : Radio) (s : CSirServer) (client : ClientPtr)
    {line : List UInt8} (h : ¬ IsQuit line)
    : OnlyOutput s (s.processCommand radio client line).1 :=
  (commandEffect_processCommand radio s client line).onlyOutput h

theorem onlyOutput_foldl_exec (radio : Nat → Radio) (client : ClientPtr) {lines : List (List UInt8)}
    (h : ∀ line ∈ lines, ¬ IsQuit line) (s : CSirServer) (k : Nat) (effects : List Effect)
    : OnlyOutput s (lines.foldl (exec radio client) (s, k, effects)).1 := by
  induction lines generalizing s k effects with
  | nil => apply OnlyOutput.refl
  | cons line lines ih =>
    rw [List.forall_mem_cons] at h
    exact (onlyOutput_processCommand (radio k) s client h.1).trans (ih h.2 _ _ _)

theorem table_drop (s : CSirServer) (client : ClientPtr)
    : (∀ c, (s.drop client).1.getSock c = if client = c then -1 else s.getSock c)
        ∧ (s.drop client).1.fds = s.fds.filter (fun fd => fd ≠ s.getSock client)
        ∧ (s.drop client).1.clients = s.clients ∧ (s.drop client).1.sock = s.sock
        ∧ (s.drop client).1.heap.length = s.heap.length := by
  have hrelease := onlyOutput_releaseControl s client
  refine ⟨?_, ?_, hrelease.clients, hrelease.sock, ?_⟩
  . intro c
    unfold CSirServer.drop
    dsimp only
    rw [getSock_modify]
    split
    . cases (s.onDrop client).1.heap[c]? with
      | none => rfl
      | some cl => rfl
    . exact hrelease.getSock c
  . unfold CSirServer.drop onDrop fdClr
    dsimp only
    rw [hrelease.fds, hrelease.getSock]
  . unfold CSirServer.drop onDrop fdClr
    dsimp only
    rw [List.length_modify]
    exact hrelease.length

theorem table_onConnect (s : CSirServer) {sock : Int} (h : sock ∉ s.fds)
    : (∀ c, (s.onConnect sock).getSock c = if c = s.heap.length then sock else s.getSock c)
        ∧ (s.onConnect sock).fds = s.fds ++ [sock]
        ∧ (s.onConnect sock).clients = s.clients ++ [s.heap.length]
        ∧ (s.onConnect sock).sock = s.sock
        ∧ (s.onConnect sock).heap.length = s.heap.length + 1 := by
  obtain ⟨-, -, -, hheap⟩ := s.onConnect_eq sock
  have hsock : ∀ c, (s.onConnect sock).getSock c
      = if c = s.heap.length then sock else s.getSock c := by
    intro c
    unfold getSock
    rw [hheap]
    split
    . next h =>
      rw [h, List.getElem?_concat_length]
      rfl
    . next h =>
      cases Nat.lt_or_gt_of_ne h with
      | inl hlt => rw [List.getElem?_append_left hlt]
      | inr hgt =>
        rw [List.getElem?_eq_none, List.getElem?_eq_none]
        . omega
        . rw [List.length_append, List.length_singleton]
          omega
  refine ⟨hsock, ?_, s.clients_onConnect sock, ?_, ?_⟩
  . unfold onConnect onNewClient fdSet getSock
    simp only [List.length_append, List.length_singleton, Nat.add_sub_cancel,
      List.getElem?_concat_length, Option.map_some, Option.getD_some]
    split
    . exact if_neg h
    . exact if_neg h
  . unfold onConnect onNewClient
    dsimp only
    split
    . rfl
    . rfl
  . rw [hheap, List.length_append, List.length_singleton]

end CSirServer
