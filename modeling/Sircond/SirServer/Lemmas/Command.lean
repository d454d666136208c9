import Sircond.SirServer.Impl.Command
import Mathlib.Data.List.Forall2

/-!
This module contains what a command line can do. The entries of the two request tables all work
alike: each checks the number of tokens and makes one request of the table's kind. `CommandEffect`
says once what any command does, and with which tokens.
-/

open Scp CSirCon

namespace CSirServer

theorem request_eq (data : Payload) (radio : Radio) (s : CSirServer) (client : ClientPtr)
    : ∃ msg, request data radio s client
        = ((s.notify (some client) msg).1, .send data :: (s.notify (some client) msg).2) := by
  exact ⟨_, rfl⟩

theorem control_request (data : Payload) (radio : Radio) (s : CSirServer) (client : ClientPtr)
    : (request data radio s client).1.controller = s.controller
        ∧ (request data radio s client).1.controlQueue = s.controlQueue := by
  obtain ⟨msg, hmsg⟩ := request_eq data radio s client
  rw [hmsg]
  exact ⟨rfl, rfl⟩

def getArities : List (List UInt8 × Nat) := [
  (ascii "GAIN", 2), (ascii "MUTE", 2), (ascii "POWER", 2), (ascii "CHANNEL", 2),
  (ascii "CHANNELINFO", 2), (ascii "SONGINFO", 2), (ascii "SID", 2), (ascii "TZINFO", 2),
  (ascii "TIME", 2), (ascii "STATUS", 3), (ascii "RSSI", 2)
]

def setArities : List (List UInt8 × Nat) := [
  (ascii "RESET", 2), (ascii "GAIN", 3), (ascii "MUTE", 3), (ascii "POWER", 3),
  (ascii "CHANNEL", 3), (ascii "TZINFO", 4), (ascii "ASYNC", 3)
]

def Serves (kind : UInt8) (handlers : HandlerTable) (arities : List (List UInt8 × Nat)) : Prop :=
  List.Forall₂
    (fun h a => h.1 = a.1 ∧ h.2.1 = tokenCount a.2 ∧ ∀ radio s client tokens, ∃ data,
      data.bytes.head? = some kind ∧ h.2.2 radio s client tokens = request data radio s client)
    handlers arities

theorem serves_getHandlers : Serves msgGet getHandlers getArities := by
  unfold Serves getHandlers getArities
  repeat' apply List.Forall₂.cons
  any_goals apply List.Forall₂.nil
  all_goals
    refine ⟨rfl, rfl, ?_⟩
    intro radio s client tokens
    exact ⟨_, rfl, rfl⟩

theorem serves_setHandlers : Serves msgSet setHandlers setArities := by
  unfold Serves setHandlers setArities
  repeat' apply List.Forall₂.cons
  any_goals apply List.Forall₂.nil
  all_goals
    refine ⟨rfl, rfl, ?_⟩
    intro radio s client tokens
    exact ⟨_, rfl, rfl⟩

theorem Serves.lookup {kind : UInt8} {handlers : HandlerTable} {arities : List (List UInt8 × Nat)}
    (h : Serves kind handlers arities) (name : List UInt8)
    : handlers.lookup name = none ∧ arities.lookup name = none
        ∨
      ∃ v p n, handlers.lookup name = some (v, p) ∧ arities.lookup name = some n
        ∧ v = tokenCount n ∧ ∀ radio s client tokens, ∃ data,
          data.bytes.head? = some kind ∧ p radio s client tokens = request data radio s client := by
  induction h with
  | nil =>
    left
    exact ⟨rfl, rfl⟩
  | @cons handler arity _ _ hentry _ ih =>
    obtain ⟨name', v, p⟩ := handler
    obtain ⟨name'', n⟩ := arity
    dsimp only at hentry
    obtain ⟨rfl, rfl, hp⟩ := hentry
    rw [List.lookup_cons, List.lookup_cons]
    cases name == name' with
    | true =>
      right
      exact ⟨_, _, _, rfl, rfl, rfl, hp⟩
    | false => apply ih

theorem Serves.processWith_cases {kind : UInt8} {handlers : HandlerTable}
    {arities : List (List UInt8 × Nat)} (h : Serves kind handlers arities) (radio : Radio)
    (s : CSirServer) (client : ClientPtr) (tokens : Tokens)
    : (arities.lookup (token tokens 1) = some tokens.length ∧ ∃ data,
        data.bytes.head? = some kind
          ∧ processWith handlers radio s client tokens = request data radio s client)
        ∨
      (arities.lookup (token tokens 1) ≠ some tokens.length
        ∧ processWith handlers radio s client tokens = (s, [])) := by
  unfold processWith
  rcases h.lookup (token tokens 1) with ⟨hnone, harity⟩ | ⟨v, p, n, hsome, harity, rfl, hp⟩
  . right
    rw [hnone, harity]
    exact ⟨by simp, rfl⟩
  . rw [hsome, harity]
    dsimp only
    by_cases hn : tokens.length = n
    . left
      obtain ⟨data, hdata, hrequest⟩ := hp radio s client tokens
      refine ⟨by rw [hn], data, hdata, ?_⟩
      rw [if_pos (by simpa [tokenCount] using hn), hrequest]
    . right
      refine ⟨by simpa using Ne.symm hn, ?_⟩
      rw [if_neg (by simpa [tokenCount] using hn)]

inductive CommandEffect (radio : Radio) (s : CSirServer) (client : ClientPtr)
    : Tokens → CSirServer × List Effect → Prop
  | get (tokens : Tokens) (data : Payload) (hcmd : token tokens 0 = ascii "GET")
      (harity : getArities.lookup (token tokens 1) = some tokens.length)
      (hkind : data.bytes.head? = some msgGet)
    : CommandEffect radio s client tokens (request data radio s client)
  | set (tokens : Tokens) (data : Payload) (hcmd : token tokens 0 = ascii "SET")
      (hcontrol : s.hasControl client = true)
      (harity : setArities.lookup (token tokens 1) = some tokens.length)
      (hkind : data.bytes.head? = some msgSet)
    : CommandEffect radio s client tokens (request data radio s client)
  | acquire
    : CommandEffect radio s client [ascii "CONTROL", ascii "ACQUIRE"]
        ((s.acquireControl client).1.notify (some client)
          (if (s.acquireControl client).2 then
            ascii "CONTROL,ACQUIRED\n"
          else
            ascii "CONTROL,PENDING\n"))
  | release
    : CommandEffect radio s client [ascii "CONTROL", ascii "RELEASE"]
        (((s.releaseControl client).1.notify (some client) (ascii "CONTROL,RELEASED\n")).1,
          (s.releaseControl client).2 ++ ((s.releaseControl client).1.notify (some client)
            (ascii "CONTROL,RELEASED\n")).2)
  | quit : CommandEffect radio s client [ascii "QUIT"] (s.drop client)
  | other (tokens : Tokens) (r : CSirServer × List Effect)
      (hget : ¬ (token tokens 0 = ascii "GET"
        ∧ getArities.lookup (token tokens 1) = some tokens.length))
      (hset : ¬ (token tokens 0 = ascii "SET" ∧ s.hasControl client = true
        ∧ setArities.lookup (token tokens 1) = some tokens.length))
      (hacquire : tokens ≠ [ascii "CONTROL", ascii "ACQUIRE"])
      (hrelease : tokens ≠ [ascii "CONTROL", ascii "RELEASE"]) (hquit : tokens ≠ [ascii "QUIT"])
      (hr : r = (s, []) ∨ ∃ msg, r = s.notify (some client) msg)
    : CommandEffect radio s client tokens r

theorem le_of_lookup {arities : List (List UInt8 × Nat)} {k : Nat} (hall : ∀ a ∈ arities, k ≤ a.2)
    {name : List UInt8} {n : Nat} (h : arities.lookup name = some n)
    : k ≤ n := by
  obtain ⟨l₁, l₂, heq, -⟩ := List.lookup_eq_some_iff.mp h
  apply hall (name, n)
  rw [heq]
  simp

section Handlers

variable {radio : Radio} {s : CSirServer} {client : ClientPtr} {tokens : Tokens}

theorem commandEffect_of_head {name : List UInt8} {r : CSirServer × List Effect}
    (hcmd : token tokens 0 = name)
    (hget : name = ascii "GET" → getArities.lookup (token tokens 1) ≠ some tokens.length)
    (hset : name = ascii "SET" →
      ¬ (s.hasControl client = true ∧ setArities.lookup (token tokens 1) = some tokens.length))
    (hcontrol : name = ascii "CONTROL" → tokens ≠ [ascii "CONTROL", ascii "ACQUIRE"]
      ∧ tokens ≠ [ascii "CONTROL", ascii "RELEASE"])
    (hquit : name = ascii "QUIT" → tokens ≠ [ascii "QUIT"])
    (hr : r = (s, []) ∨ ∃ msg, r = s.notify (some client) msg)
    : CommandEffect radio s client tokens r := by
  subst hcmd
  apply CommandEffect.other
  . rintro ⟨h, harity⟩
    apply hget h harity
  . rintro ⟨h, hvalid⟩
    apply hset h hvalid
  . rintro rfl
    apply (hcontrol rfl).1 rfl
  . rintro rfl
    apply (hcontrol rfl).2 rfl
  . rintro rfl
    apply hquit rfl rfl
  . apply hr

theorem commandEffect_get (hcmd : token tokens 0 = ascii "GET")
    : CommandEffect radio s client tokens
        (if validateGet s client tokens then
          processGet radio s client tokens
        else
          s.notify (some client) (ascii "ERROR\n")) := by
  have hother : ∀ r : CSirServer × List Effect,
      getArities.lookup (token tokens 1) ≠ some tokens.length →
        (r = (s, []) ∨ ∃ msg, r = s.notify (some client) msg) →
          CommandEffect radio s client tokens r := by
    intro r harity hr
    apply commandEffect_of_head hcmd
    . exact fun _ => harity
    . exact fun h => absurd h (by decide)
    . exact fun h => absurd h (by decide)
    . exact fun h => absurd h (by decide)
    . apply hr
  split
  . rcases serves_getHandlers.processWith_cases radio s client tokens with
      ⟨harity, data, hkind, heq⟩ | ⟨harity, heq⟩
    . rw [processGet, heq]
      apply CommandEffect.get tokens data hcmd harity hkind
    . rw [processGet, heq]
      apply hother _ harity
      left
      rfl
  . next hvalid =>
    apply hother
    . intro harity
      apply hvalid
      have := le_of_lookup (k := 2) (by decide) harity
      simpa [validateGet] using this
    . right
      exact ⟨_, rfl⟩

theorem commandEffect_set (hcmd : token tokens 0 = ascii "SET")
    : CommandEffect radio s client tokens
        (if validateSet s client tokens then
          processSet radio s client tokens
        else
          s.notify (some client) (ascii "ERROR\n")) := by
  have hother : ∀ r : CSirServer × List Effect,
      ¬ (s.hasControl client = true ∧ setArities.lookup (token tokens 1) = some tokens.length) →
        (r = (s, []) ∨ ∃ msg, r = s.notify (some client) msg) →
          CommandEffect radio s client tokens r := by
    intro r hinvalid hr
    apply commandEffect_of_head hcmd
    . exact fun h => absurd h (by decide)
    . exact fun _ => hinvalid
    . exact fun h => absurd h (by decide)
    . exact fun h => absurd h (by decide)
    . apply hr
  split
  . next hvalid =>
    rcases serves_setHandlers.processWith_cases radio s client tokens with
      ⟨harity, data, hkind, heq⟩ | ⟨harity, heq⟩
    . rw [processSet, heq]
      apply CommandEffect.set tokens data hcmd _ harity hkind
      simp only [validateSet, Bool.and_eq_true] at hvalid
      apply hvalid.2
    . rw [processSet, heq]
      apply hother _ (fun h => harity h.2)
      left
      rfl
  . next hvalid =>
    apply hother
    . rintro ⟨hcontrol, harity⟩
      apply hvalid
      have := le_of_lookup (k := 2) (by decide) harity
      simpa [validateSet, hcontrol] using this
    . right
      exact ⟨_, rfl⟩

theorem commandEffect_control (hcmd : token tokens 0 = ascii "CONTROL")
    : CommandEffect radio s client tokens
        (if validateControl s client tokens then
          processControl radio s client tokens
        else
          s.notify (some client) (ascii "ERROR\n")) := by
  have hother : ∀ msg, tokens ≠ [ascii "CONTROL", ascii "ACQUIRE"] →
      tokens ≠ [ascii "CONTROL", ascii "RELEASE"] →
        CommandEffect radio s client tokens (s.notify (some client) msg) := by
    intro msg hacquire hrelease
    apply commandEffect_of_head hcmd
    . exact fun h => absurd h (by decide)
    . exact fun h => absurd h (by decide)
    . exact fun _ => ⟨hacquire, hrelease⟩
    . exact fun h => absurd h (by decide)
    . right
      exact ⟨_, rfl⟩
  unfold validateControl tokenCount
  by_cases hlen : tokens.length = 2
  . rw [if_pos (by simpa using hlen)]
    rw [List.length_eq_two] at hlen
    obtain ⟨cmd, arg, rfl⟩ := hlen
    obtain rfl : cmd = ascii "CONTROL" := hcmd
    unfold processControl
    split
    . next harg =>
      obtain rfl : arg = ascii "ACQUIRE" := harg
      apply CommandEffect.acquire
    . next hacquire =>
      split
      . next harg =>
        obtain rfl : arg = ascii "RELEASE" := harg
        apply CommandEffect.release
      . next hrelease =>
        apply hother
        . rintro ⟨⟩
          apply hacquire rfl
        . rintro ⟨⟩
          apply hrelease rfl
  . rw [if_neg (by simpa using hlen)]
    apply hother
    . rintro rfl
      apply hlen rfl
    . rintro rfl
      apply hlen rfl

theorem commandEffect_quit (hcmd : token tokens 0 = ascii "QUIT")
    : CommandEffect radio s client tokens
        (if validateQuit s client tokens then
          processQuit radio s client tokens
        else
          s.notify (some client) (ascii "ERROR\n")) := by
  unfold validateQuit tokenCount
  by_cases hlen : tokens.length = 1
  . rw [if_pos (by simpa using hlen)]
    rw [List.length_eq_one_iff] at hlen
    obtain ⟨cmd, rfl⟩ := hlen
    obtain rfl : cmd = ascii "QUIT" := hcmd
    apply CommandEffect.quit
  . rw [if_neg (by simpa using hlen)]
    apply commandEffect_of_head hcmd
    . exact fun h => absurd h (by decide)
    . exact fun h => absurd h (by decide)
    . exact fun h => absurd h (by decide)
    . rintro - rfl
      apply hlen rfl
    . right
      exact ⟨_, rfl⟩

theorem commandEffect_unknown (hget : token tokens 0 ≠ ascii "GET")
    (hset : token tokens 0 ≠ ascii "SET") (hcontrol : token tokens 0 ≠ ascii "CONTROL")
    (hquit : token tokens 0 ≠ ascii "QUIT")
    : CommandEffect radio s client tokens (s, []) := by
  apply commandEffect_of_head rfl
  . exact fun h => absurd h hget
  . exact fun h => absurd h hset
  . exact fun h => absurd h hcontrol
  . exact fun h => absurd h hquit
  . left
    rfl

end Handlers

theorem commandEffect_processCommand (radio : Radio) (s : CSirServer) (client : ClientPtr)
    (cmd : List UInt8)
    : CommandEffect radio s client (strTokenize cmd 0x20 true)
        (processCommand radio s client cmd) := by
  unfold processCommand
  dsimp only
  generalize strTokenize cmd 0x20 true = tokens
  split
  . by_cases hget : token tokens 0 = ascii "GET"
    . have hlookup : cmdHandlers.lookup (ascii "GET") = some (validateGet, processGet) := rfl
      rw [hget, hlookup]
      apply commandEffect_get hget
    . by_cases hset : token tokens 0 = ascii "SET"
      . have hlookup : cmdHandlers.lookup (ascii "SET") = some (validateSet, processSet) := rfl
        rw [hset, hlookup]
        apply commandEffect_set hset
      . by_cases hcontrol : token tokens 0 = ascii "CONTROL"
        . have hlookup : cmdHandlers.lookup (ascii "CONTROL")
              = some (validateControl, processControl) := rfl
          rw [hcontrol, hlookup]
          apply commandEffect_control hcontrol
        . by_cases hquit : token tokens 0 = ascii "QUIT"
          . have hlookup : cmdHandlers.lookup (ascii "QUIT") = some (validateQuit, processQuit) := rfl
            rw [hquit, hlookup]
            apply commandEffect_quit hquit
          . have hlookup : cmdHandlers.lookup (token tokens 0) = none := by
              simp only [cmdHandlers, List.lookup_cons, beq_false_of_ne hget,
                beq_false_of_ne hset, beq_false_of_ne hcontrol, beq_false_of_ne hquit,
                List.lookup_nil]
            rw [hlookup]
            apply commandEffect_unknown hget hset hcontrol hquit
  . next hlen =>
    obtain rfl : tokens = [] := by simpa using hlen
    apply commandEffect_unknown
    . decide
    . decide
    . decide
    . decide

end CSirServer
