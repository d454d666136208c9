import Sircond.SirServer.Connected
import Sircond.SirServer.Lemmas.Table
import Sircond.Lib.Indexed

/-!
This module contains the consistency of the client table: whoever is in it is connected, and the
descriptor set is the listening socket and the sockets of the clients. `Tabled` is what a new
connection and the drop of a client of the table preserve.
-/

open Machine

namespace CSirServer

structure Consistent (s : CSirServer) : Prop where
  alive : ∀ c ∈ s.clients, s.isDead c = false
  fds : ∀ fd, fd ∈ s.fds ↔ fd = s.sock ∨ ∃ c ∈ s.clients, s.getSock c = fd

structure Tabled (s : CSirServer) : Prop where
  serving : Serving s
  consistent : Consistent s
  nodup : s.clients.Nodup
  registered : ∀ c, s.isDead c = false → c ∈ s.clients
  distinct : ∀ c ∈ s.clients, ∀ d ∈ s.clients, s.getSock c = s.getSock d → c = d
  listening : ∀ c ∈ s.clients, s.getSock c ≠ s.sock

theorem tabled_new (sock : Int) : Tabled (new sock) where
  serving := serving_new sock
  consistent := ⟨by simp [new], by simp [new]⟩
  nodup := List.nodup_nil
  registered := by simp [new, isDead]
  distinct := by simp [new]
  listening := by simp [new]

theorem Tabled.indexed {s : CSirServer} (h : Tabled s)
    : Indexed s.clients s.getSock s.sock s.fds where
  nodup := h.nodup
  distinct := h.distinct
  ne_base := h.listening
  mem_index := h.consistent.fds

theorem Tabled.of_indexed {s : CSirServer} (hserving : Serving s)
    (halive : ∀ c ∈ s.clients, s.isDead c = false)
    (hregistered : ∀ c, s.isDead c = false → c ∈ s.clients)
    (hindexed : Indexed s.clients s.getSock s.sock s.fds)
    : Tabled s where
  serving := hserving
  consistent := ⟨halive, hindexed.mem_index⟩
  nodup := hindexed.nodup
  registered := hregistered
  distinct := hindexed.distinct
  listening := hindexed.ne_base

theorem Tabled.of_sameTable {s s' : CSirServer} (h : Tabled s) (hsame : SameTable s s')
    (hserving : Serving s')
    : Tabled s' := by
  apply Tabled.of_indexed hserving
  . simp only [hsame.clients, hsame.isDead]
    apply h.consistent.alive
  . simp only [hsame.clients, hsame.isDead]
    apply h.registered
  . rw [hsame.clients, hsame.fds, hsame.sock, funext hsame.getSock]
    apply h.indexed

theorem lt_length_of_alive {s : CSirServer} {c : ClientPtr} (h : s.isDead c = false)
    : c < s.heap.length := by
  unfold isDead at h
  cases hc : s.heap[c]? with
  | none => simp [hc] at h
  | some cl => apply (List.getElem?_eq_some_iff.mp hc).1

theorem getSock_ne_of_alive {s : CSirServer} {c : ClientPtr} (h : s.isDead c = false)
    : s.getSock c ≠ -1 := by
  rw [isDead_eq, decide_eq_false_iff_not] at h
  exact h

theorem getSock_mem_opened {s : CSirServer} {c : ClientPtr} (h : s.isDead c = false)
    : s.getSock c ∈ s.opened := by
  unfold isDead at h
  unfold opened getSock
  rw [List.mem_cons]
  right
  cases hc : s.heap[c]? with
  | none => simp [hc] at h
  | some cl =>
    rw [hc, Option.all_some] at h
    apply List.mem_map_of_mem
    rw [List.mem_filter]
    exact ⟨List.mem_of_getElem? hc, by simp [h]⟩

theorem Tabled.onConnect {s : CSirServer} (h : Tabled s) {sock : Int} (hvalid : sock ≠ -1)
    (hfree : sock ∉ s.opened)
    : Tabled (s.onConnect sock) := by
  have hfds : sock ∉ s.fds := by
    rw [h.consistent.fds]
    rintro (rfl | ⟨c, hc, rfl⟩)
    . apply hfree
      apply List.mem_cons_self
    . apply hfree
      apply getSock_mem_opened (h.consistent.alive c hc)
  have hne : ∀ c ∈ s.clients, c ≠ s.heap.length := by
    intro c hc
    apply Nat.ne_of_lt (lt_length_of_alive (h.consistent.alive c hc))
  obtain ⟨hsock, hfds', hclients, hlisten, -⟩ := table_onConnect s hfds
  have hold : ∀ c ∈ s.clients, (s.onConnect sock).getSock c = s.getSock c := by
    intro c hc
    rw [hsock, if_neg (hne c hc)]
  have hnew : (s.onConnect sock).getSock s.heap.length = sock := by
    rw [hsock, if_pos rfl]
  apply Tabled.of_indexed (h.serving.onConnect sock).1
  . intro c hc
    rw [isDead_eq, decide_eq_false_iff_not]
    rw [hclients, List.mem_append, List.mem_singleton] at hc
    cases hc with
    | inl hc =>
      rw [hold c hc]
      apply getSock_ne_of_alive (h.consistent.alive c hc)
    | inr hc =>
      rw [hc, hnew]
      exact hvalid
  . intro c hc
    rw [hclients, List.mem_append, List.mem_singleton]
    rw [isDead_eq, hsock] at hc
    split at hc
    . next heq =>
      right
      exact heq
    . left
      apply h.registered
      rw [isDead_eq]
      exact hc
  . rw [hclients, hfds', hlisten]
    apply h.indexed.concat
    . intro hc
      exact hne _ hc rfl
    . exact hfds
    . exact hnew
    . exact hold

theorem Tabled.drop {s : CSirServer} (h : Tabled s) {client : ClientPtr} (hmem : client ∈ s.clients)
    : Tabled { (s.drop client).1 with clients := s.clients.erase client } := by
  obtain ⟨hsock, hfds, -, hlisten, -⟩ := table_drop s client
  have hother : ∀ c, c ≠ client → (s.drop client).1.getSock c = s.getSock c := by
    intro c hc
    rw [hsock, if_neg hc.symm]
  apply Tabled.of_indexed (h.serving.drop client _).1
  . intro c hc
    change (s.drop client).1.isDead c = false
    rw [h.nodup.mem_erase_iff] at hc
    rw [isDead_drop, h.consistent.alive c hc.2, Bool.or_false, decide_eq_false_iff_not]
    exact hc.1
  . intro c hc
    change (s.drop client).1.isDead c = false at hc
    change c ∈ s.clients.erase client
    rw [isDead_drop, Bool.or_eq_false_iff, decide_eq_false_iff_not] at hc
    rw [h.nodup.mem_erase_iff]
    exact ⟨hc.1, h.registered c hc.2⟩
  . change Indexed (s.clients.erase client) (s.drop client).1.getSock (s.drop client).1.sock
      (s.drop client).1.fds
    rw [hfds, hlisten]
    apply h.indexed.erase hmem
    intro c _
    apply hother c

end CSirServer
