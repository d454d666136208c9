import Sircond.SirServer.TextProtocol
import Sircond.SirServer.Lemmas.Command

/-!
This module contains what `Notify` is called with while the server processes a command: the text of a
reply, for the issuer of the command or for somebody who waits for control.
-/

open Scp

namespace CSirServer

/-- The messages to a client among the effects. -/
def sentTo (client : ClientPtr) (effects : List Effect) : List (List UInt8) :=
  effects.filterMap fun
    | .notify c msg => if c = client then some msg else none
    | .send _ => none

section SentTo

variable (client : ClientPtr)

@[simp]
theorem sentTo_nil : sentTo client [] = [] := rfl

theorem sentTo_append (effects₁ effects₂ : List Effect)
    : sentTo client (effects₁ ++ effects₂) = sentTo client effects₁ ++ sentTo client effects₂ := by
  simp [sentTo]

@[simp]
theorem sentTo_send (data : Payload) (effects : List Effect)
    : sentTo client (.send data :: effects) = sentTo client effects := by
  simp [sentTo]

theorem sentTo_cons_notify (c : ClientPtr) (msg : List UInt8) (effects : List Effect)
    : sentTo client (.notify c msg :: effects)
        = (if c = client then [msg] else []) ++ sentTo client effects := by
  unfold sentTo
  by_cases hc : c = client
  . simp [hc]
  . simp [hc]

theorem sentTo_notify (s : CSirServer) (c : ClientPtr) (msg : List UInt8)
    : sentTo client (s.notify (some c) msg).2 = if c = client then [msg] else [] := by
  rw [CSirServer.notify, sentTo_cons_notify, sentTo_nil, List.append_nil]

end SentTo

/-- Every message is a reply, and it goes to the issuer or to somebody in the queue. -/
def Replies (s : CSirServer) (issuer : ClientPtr) (effects : List Effect) : Prop :=
  ∀ client, ∀ msg ∈ sentTo client effects,
    (client = issuer ∨ client ∈ s.controlQueue) ∧ ∃ r : Reply, msg = r.line

theorem replies_nil (s : CSirServer) (issuer : ClientPtr) : Replies s issuer [] := by
  simp [Replies, sentTo]

theorem Replies.append {s : CSirServer} {issuer : ClientPtr} {effects₁ effects₂ : List Effect}
    (h₁ : Replies s issuer effects₁) (h₂ : Replies s issuer effects₂)
    : Replies s issuer (effects₁ ++ effects₂) := by
  intro client msg hmsg
  rw [sentTo_append, List.mem_append] at hmsg
  cases hmsg with
  | inl hmsg => apply h₁ client msg hmsg
  | inr hmsg => apply h₂ client msg hmsg

theorem replies_notify (s s' : CSirServer) {issuer c : ClientPtr} (r : Reply)
    (hc : c = issuer ∨ c ∈ s.controlQueue)
    : Replies s issuer (s'.notify (some c) r.line).2 := by
  intro client msg hmsg
  rw [sentTo_notify] at hmsg
  split at hmsg
  . next hclient =>
    rw [← hclient]
    exact ⟨hc, r, List.mem_singleton.mp hmsg⟩
  . simp at hmsg

theorem replies_request (data : Payload) (radio : Radio) (s : CSirServer) (issuer : ClientPtr)
    : Replies s issuer (request data radio s issuer).2 := by
  intro client msg hmsg
  unfold request notifyResult at hmsg
  rw [sentTo_send] at hmsg
  revert client msg
  cases radio.result with
  | success => apply replies_notify s s .ok (.inl rfl)
  | timeout => apply replies_notify s s .timeout (.inl rfl)
  | noMemory => apply replies_notify s s .error (.inl rfl)

theorem replies_processWith {kind : UInt8} {handlers : HandlerTable}
    {arities : List (List UInt8 × Nat)} (h : Serves kind handlers arities) (radio : Radio)
    (s : CSirServer) (issuer : ClientPtr) (tokens : Tokens)
    : Replies s issuer (processWith handlers radio s issuer tokens).2 := by
  rcases h.processWith_cases radio s issuer tokens with ⟨-, data, -, heq⟩ | ⟨-, heq⟩
  . rw [heq]
    apply replies_request
  . rw [heq]
    apply replies_nil

theorem replies_releaseControl (s : CSirServer) (issuer : ClientPtr)
    : Replies s issuer (s.releaseControl issuer).2 := by
  unfold releaseControl
  split
  . split
    . apply replies_nil
    . next front rest hqueue =>
      apply replies_notify s _ .acquired
      right
      rw [hqueue]
      apply List.mem_cons_self
  . apply replies_nil

theorem replies_processControl (radio : Radio) (s : CSirServer) (issuer : ClientPtr)
    (tokens : Tokens)
    : Replies s issuer (processControl radio s issuer tokens).2 := by
  unfold processControl
  split
  . dsimp only
    split
    . apply replies_notify s _ .acquired (.inl rfl)
    . apply replies_notify s _ .pending (.inl rfl)
  . split
    . apply (replies_releaseControl s issuer).append
      apply replies_notify s _ .released (.inl rfl)
    . apply replies_notify s s .blank (.inl rfl)

theorem replies_processCommand (radio : Radio) (s : CSirServer) (issuer : ClientPtr)
    (line : List UInt8)
    : Replies s issuer (s.processCommand radio issuer line).2 := by
  unfold processCommand
  dsimp only
  generalize strTokenize line 0x20 true = tokens
  split
  . split
    . next v p hlookup =>
      rw [List.lookup_eq_some_iff] at hlookup
      obtain ⟨front, rest, heq, -⟩ := hlookup
      have hmem : (token tokens 0, v, p) ∈ cmdHandlers := by simp [heq]
      simp only [cmdHandlers, List.mem_cons, List.not_mem_nil, or_false, Prod.mk.injEq] at hmem
      split
      . rcases hmem with ⟨-, -, rfl⟩ | ⟨-, -, rfl⟩ | ⟨-, -, rfl⟩ | ⟨-, -, rfl⟩
        . apply replies_processWith serves_getHandlers
        . apply replies_processWith serves_setHandlers
        . apply replies_processControl
        . apply replies_releaseControl
      . apply replies_notify s s .error (.inl rfl)
    . apply replies_nil
  . apply replies_nil

end CSirServer
