import Sircond.Uplink.Impl
import Sircond.SirServer.Lemmas.Replies

/-!
This module contains the two kinds of commands: those that make a request, which is the same whatever
its result will be and is answered with the result, and those that are processed at once.
-/

open Scp CSirCon

namespace CSirServer

/-- No request, and no message that says that a request was successful. -/
structure Plain (effects : List Effect) : Prop where
  sent : sent effects = []
  replies : ∀ c, ascii "OK\n" ∉ sentTo c effects

theorem plain_nil : Plain [] where
  sent := rfl
  replies := by simp

theorem Plain.append {effects₁ effects₂ : List Effect} (h₁ : Plain effects₁) (h₂ : Plain effects₂)
    : Plain (effects₁ ++ effects₂) where
  sent := by rw [sent_append, h₁.sent, h₂.sent, List.append_nil]
  replies c := by
    rw [sentTo_append, List.mem_append, not_or]
    exact ⟨h₁.replies c, h₂.replies c⟩

/-- What a command does, as a function of the result that its request will have. -/
inductive Processes (s : CSirServer) (client : ClientPtr)
    (f : SCResult → CSirServer × List Effect) : Prop
  | request (data : Payload)
      (h : ∀ rc, f rc = ((s.notifyResult client rc).1, .send data :: (s.notifyResult client rc).2))
  | plain (r : CSirServer × List Effect) (h : ∀ rc, f rc = r) (hplain : Plain r.2)

def Requests (handlers : HandlerTable) : Prop :=
  ∀ handler ∈ handlers, ∀ currChannel s client tokens, ∃ data, ∀ rc,
    handler.2.2 ⟨currChannel, rc⟩ s client tokens = request data ⟨currChannel, rc⟩ s client

section Commands

variable (s : CSirServer) (client : ClientPtr) (currChannel : UInt8)

theorem Requests.processWith {handlers : HandlerTable} (h : Requests handlers) (tokens : Tokens)
    : s.Processes client fun rc => processWith handlers ⟨currChannel, rc⟩ s client tokens := by
  unfold CSirServer.processWith
  cases hlookup : handlers.lookup (token tokens 1) with
  | none => exact .plain (s, []) (fun _ => rfl) plain_nil
  | some entry =>
    obtain ⟨front, rest, hhandlers, -⟩ := List.lookup_eq_some_iff.mp hlookup
    obtain ⟨data, hdata⟩ := h (token tokens 1, entry) (by simp [hhandlers]) currChannel s client tokens
    dsimp only at hdata ⊢
    split
    . exact .request data hdata
    . exact .plain (s, []) (fun _ => rfl) plain_nil

end Commands

end CSirServer
