import Sircond.SirServer.Lemmas.Command
import Sircond.Lib.Machine

/-!
This module contains the access rules of the command language: everybody may ask the radio for
settings, only the controller may change them, and only three lines touch the arbitration of
control.
-/

open Scp Machine

namespace CSirServer

def sent (effects : List Effect) : List Payload :=
  effects.filterMap fun
    | .send data => some data
    | .notify _ _ => none

theorem sent_append (effects₁ effects₂ : List Effect)
    : sent (effects₁ ++ effects₂) = sent effects₁ ++ sent effects₂ := by
  simp [sent]

@[simp]
theorem sent_notify (s : CSirServer) (client : Option ClientPtr) (msg : List UInt8)
    : sent (s.notify client msg).2 = [] := by
  cases client <;> rfl

@[simp]
theorem sent_releaseControl (s : CSirServer) (client : ClientPtr)
    : sent (s.releaseControl client).2 = [] := by
  unfold releaseControl
  split
  . split
    . rfl
    . apply sent_notify
  . rfl

@[simp]
theorem sent_drop (s : CSirServer) (client : ClientPtr) : sent (s.drop client).2 = [] := by
  apply sent_releaseControl

@[simp]
theorem sent_request (data : Payload) (radio : Radio) (s : CSirServer) (client : ClientPtr)
    : sent (request data radio s client).2 = [data] := by
  obtain ⟨msg, hmsg⟩ := request_eq data radio s client
  rw [hmsg]
  rfl

variable {radio : Radio} {s : CSirServer} {client : ClientPtr} {tokens : Tokens}
variable {r : CSirServer × List Effect}

theorem CommandEffect.length_sent_le (h : CommandEffect radio s client tokens r)
    : (sent r.2).length ≤ 1 := by
  cases h with
  | get | set | acquire | quit => simp
  | release => simp [sent_append]
  | other _ _ hget hset hacquire hrelease hquit hr =>
    rcases hr with rfl | ⟨msg, rfl⟩
    . simp [sent]
    . simp

/-- The lines that make a request are those of the two request commands, each of its own kind. -/
theorem CommandEffect.sent_iff (h : CommandEffect radio s client tokens r) (kind : UInt8)
    : (∃ data ∈ sent r.2, data.bytes.head? = some kind)
        ↔
      (kind = msgGet ∧ token tokens 0 = ascii "GET"
          ∧ getArities.lookup (token tokens 1) = some tokens.length)
        ∨
      (kind = msgSet ∧ token tokens 0 = ascii "SET" ∧ s.hasControl client = true
          ∧ setArities.lookup (token tokens 1) = some tokens.length) := by
  have hdistinct : ascii "GET" ≠ ascii "SET" := by decide
  have hnone : ∀ cmd, sent r.2 = [] → token tokens 0 = cmd → cmd ≠ ascii "GET" → cmd ≠ ascii "SET" →
      ((∃ data ∈ sent r.2, data.bytes.head? = some kind)
        ↔
      (kind = msgGet ∧ token tokens 0 = ascii "GET"
          ∧ getArities.lookup (token tokens 1) = some tokens.length)
        ∨
      (kind = msgSet ∧ token tokens 0 = ascii "SET" ∧ s.hasControl client = true
          ∧ setArities.lookup (token tokens 1) = some tokens.length)) := by
    rintro cmd hsent hcmd hget hset
    simp [hsent, hcmd, hget, hset]
  cases h with
  | get _ data hcmd harity hkind =>
    have hcomm : msgGet = kind ↔ kind = msgGet := eq_comm
    simp [hcmd, hkind, harity, hdistinct, hcomm]
  | set _ data hcmd hcontrol harity hkind =>
    have hcomm : msgSet = kind ↔ kind = msgSet := eq_comm
    simp [hcmd, hkind, hcontrol, harity, Ne.symm hdistinct, hcomm]
  | acquire => exact hnone (ascii "CONTROL") (by simp) rfl (by decide) (by decide)
  | release => exact hnone (ascii "CONTROL") (by simp [sent_append]) rfl (by decide) (by decide)
  | quit => exact hnone (ascii "QUIT") (by simp) rfl (by decide) (by decide)
  | other _ _ hget hset hacquire hrelease hquit hr =>
    have hsent : sent r.2 = [] := by
      rcases hr with rfl | ⟨msg, rfl⟩
      . rfl
      . simp
    simp only [hsent, List.not_mem_nil, false_and, exists_false, false_iff, not_or]
    exact ⟨fun h => hget h.2, fun h => hset h.2⟩

theorem CommandEffect.sent_set_iff (h : CommandEffect radio s client tokens r)
    : (∃ data ∈ sent r.2, data.bytes.head? = some msgSet)
        ↔
      token tokens 0 = ascii "SET" ∧ s.controller = some client
        ∧ setArities.lookup (token tokens 1) = some tokens.length := by
  have hcontrol : s.hasControl client = true ↔ s.controller = some client := by
    simp [hasControl, eq_comm]
  have hkinds : msgSet ≠ msgGet := by decide
  simp [h.sent_iff, hcontrol, hkinds]

theorem CommandEffect.sent_get_iff (h : CommandEffect radio s client tokens r)
    : (∃ data ∈ sent r.2, data.bytes.head? = some msgGet)
        ↔
      token tokens 0 = ascii "GET" ∧ getArities.lookup (token tokens 1) = some tokens.length := by
  have hkinds : msgGet ≠ msgSet := by decide
  simp [h.sent_iff, hkinds]

theorem CommandEffect.control_changed (h : CommandEffect radio s client tokens r)
    (hchanged : r.1.controller ≠ s.controller ∨ r.1.controlQueue ≠ s.controlQueue)
    : tokens = [ascii "CONTROL", ascii "ACQUIRE"] ∨ tokens = [ascii "CONTROL", ascii "RELEASE"]
        ∨ tokens = [ascii "QUIT"] := by
  cases h with
  | get _ data | set _ data =>
    obtain ⟨hcontroller, hqueue⟩ := control_request data radio s client
    simp [hcontroller, hqueue] at hchanged
  | acquire => simp
  | release => simp
  | quit => simp
  | other _ _ hget hset hacquire hrelease hquit hr =>
    rcases hr with rfl | ⟨msg, rfl⟩
    . simp at hchanged
    . simp at hchanged

inductive CommandInput where
  | line (radio : Radio) (client : ClientPtr) (cmd : List UInt8)
  | drop (client : ClientPtr)
  deriving DecidableEq

def commandMachine : Machine CSirServer CommandInput Effect where
  step s
    | .line radio client cmd => some (processCommand radio s client cmd)
    | .drop client => some (s.drop client)

structure Access (s : CSirServer) (client : ClientPtr) (tokens : Tokens)
    (r : CSirServer × List Effect) : Prop where
  once : (sent r.2).length ≤ 1
  set : (∃ data ∈ sent r.2, data.bytes.head? = some msgSet) ↔
    token tokens 0 = ascii "SET" ∧ s.controller = some client
      ∧ setArities.lookup (token tokens 1) = some tokens.length
  get : (∃ data ∈ sent r.2, data.bytes.head? = some msgGet) ↔
    token tokens 0 = ascii "GET" ∧ getArities.lookup (token tokens 1) = some tokens.length
  control : r.1.controller ≠ s.controller ∨ r.1.controlQueue ≠ s.controlQueue →
    tokens = [ascii "CONTROL", ascii "ACQUIRE"] ∨ tokens = [ascii "CONTROL", ascii "RELEASE"]
      ∨ tokens = [ascii "QUIT"]

/--
Read-only and read/write access: every line keeps the access rules, and over any interleaving of
lines every SET request comes from the client that is the controller at that moment.
-/
theorem processCommand_access
    : (∀ (radio : Radio) (s : CSirServer) (client : ClientPtr) (cmd : List UInt8),
        Access s client (strTokenize cmd 0x20 true) (processCommand radio s client cmd))
        ∧
      ∀ (s₀ s : CSirServer) (tr : List (Entry CSirServer CommandInput Effect)),
        commandMachine.Run s₀ tr s → ∀ e ∈ tr, ∀ data ∈ sent e.out,
          data.bytes.head? = some msgSet →
            ∃ radio client cmd, e.input = .line radio client cmd
              ∧ e.pre.controller = some client := by
  constructor
  . intro radio s client cmd
    have h := commandEffect_processCommand radio s client cmd
    exact ⟨h.length_sent_le, h.sent_set_iff, h.sent_get_iff, h.control_changed⟩
  . intro s₀ s tr hrun e he data hdata hkind
    obtain ⟨-, -, hstep⟩ := hrun.of_mem he
    cases hinput : e.input with
    | line radio client cmd =>
      simp only [hinput, commandMachine, Option.some.injEq] at hstep
      have h := commandEffect_processCommand radio e.pre client cmd
      rw [hstep] at h
      exact ⟨radio, client, cmd, rfl, (h.sent_set_iff.mp ⟨data, hdata, hkind⟩).2.1⟩
    | drop client =>
      simp only [hinput, commandMachine, Option.some.injEq] at hstep
      have hnone := sent_drop e.pre client
      rw [hstep] at hnone
      simp [hnone] at hdata

theorem processCommand_access_gain
    : ∃ tr s,
        commandMachine.Run (new 3) tr s
          ∧ outputs tr
              = [.notify 0 (ascii "CONTROL,ACQUIRED\n"), .send (CSirCon.setGain (-2)),
                  .notify 0 (ascii "OK\n"), .notify 1 (ascii "ERROR\n"), .send CSirCon.getGain,
                  .notify 1 (ascii "OK\n")]
          ∧ ∀ e ∈ tr, ∀ data ∈ sent e.out, data.bytes.head? = some msgSet →
              ∃ radio client cmd, e.input = .line radio client cmd
                ∧ e.pre.controller = some client := by
  obtain ⟨tr, s, hrun, -, hcheck⟩ := exists_run (show (commandMachine.exec (new 3)
    [.line ⟨255, .success⟩ 0 (ascii "CONTROL ACQUIRE"),
      .line ⟨255, .success⟩ 0 (ascii "SET GAIN -2"),
      .line ⟨255, .success⟩ 1 (ascii "SET GAIN 7"),
      .line ⟨255, .success⟩ 1 (ascii "GET GAIN ")]).any
    (fun r => outputs r.1 = [.notify 0 (ascii "CONTROL,ACQUIRED\n"), .send (CSirCon.setGain (-2)),
      .notify 0 (ascii "OK\n"), .notify 1 (ascii "ERROR\n"), .send CSirCon.getGain,
      .notify 1 (ascii "OK\n")])
    = true by decide +kernel)
  refine ⟨tr, s, hrun, hcheck, ?_⟩
  apply processCommand_access.2 _ _ _ hrun

end CSirServer
