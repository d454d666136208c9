import Sircond.SirServer.Lemmas.Presence

/-!
This module contains what a command tells the clients about control: who issues a CONTROL line is told
its standing, and whoever gets to the front of the line by it. The other commands announce nothing.
-/

open Scp WaitList

namespace CSirServer

def standing (s : CSirServer) (client : ClientPtr) : Standing :=
  if s.controller = some client then
    .holding
  else if client ∈ s.controlQueue then
    .waiting
  else
    .outside

theorem Represents.standing_eq {s : CSirServer} {l : WaitList ClientPtr} (h : Represents s l)
    (client : ClientPtr)
    : s.standing client = l.standing client := by
  unfold standing WaitList.standing
  simp only [h.mem_controlQueue_iff, h.controller]
  split
  . rfl
  . next hne => simp [hne]

def announced (msg : List UInt8) : Option Standing :=
  if msg = ascii "CONTROL,ACQUIRED\n" then
    some .holding
  else if msg = ascii "CONTROL,PENDING\n" then
    some .waiting
  else if msg = ascii "CONTROL,RELEASED\n" then
    some .outside
  else
    none

theorem announced_acquired : announced (ascii "CONTROL,ACQUIRED\n") = some .holding := by decide

theorem announced_pending : announced (ascii "CONTROL,PENDING\n") = some .waiting := by decide

theorem announced_released : announced (ascii "CONTROL,RELEASED\n") = some .outside := by decide

def announcements (client : ClientPtr) (effects : List Effect) : List Standing :=
  effects.filterMap fun
    | .notify c msg => if c = client then announced msg else none
    | .send _ => none

def lastAnnounced (client : ClientPtr) (effects : List Effect) : Standing :=
  ((announcements client effects).getLast?).getD .outside

section Announcements

variable (client : ClientPtr)

@[simp]
theorem announcements_append (effects₁ effects₂ : List Effect)
    : announcements client (effects₁ ++ effects₂)
        = announcements client effects₁ ++ announcements client effects₂ := by
  simp [announcements]

@[simp]
theorem announcements_send (data : Payload) (effects : List Effect)
    : announcements client (.send data :: effects) = announcements client effects := by
  simp [announcements]

theorem announcements_notify (s : CSirServer) (c : ClientPtr) (msg : List UInt8)
    : announcements client (s.notify (some c) msg).2
        = if c = client then (announced msg).toList else [] := by
  simp only [announcements, CSirServer.notify]
  split
  . next hc =>
    simp only [List.filterMap_cons, if_pos hc, List.filterMap_nil]
    cases announced msg with
    | none => rfl
    | some st => rfl
  . next hc => simp [hc]

theorem announcements_notify_of_none {msg : List UInt8} (h : announced msg = none) (s : CSirServer)
    (c : ClientPtr)
    : announcements client (s.notify (some c) msg).2 = [] := by
  rw [announcements_notify, h]
  split
  . rfl
  . rfl

theorem announcements_request (data : Payload) (radio : Radio) (s : CSirServer) (c : ClientPtr)
    : announcements client (request data radio s c).2 = [] := by
  unfold request notifyResult
  rw [announcements_send]
  apply announcements_notify_of_none
  cases radio.result with
  | success => decide
  | timeout => decide
  | noMemory => decide

theorem announcements_processWith {kind : UInt8} {handlers : HandlerTable}
    {arities : List (List UInt8 × Nat)} (h : Serves kind handlers arities) (radio : Radio)
    (s : CSirServer) (c : ClientPtr) (tokens : Tokens)
    : announcements client (processWith handlers radio s c tokens).2 = [] := by
  rcases h.processWith_cases radio s c tokens with ⟨-, data, -, heq⟩ | ⟨-, heq⟩
  . rw [heq, announcements_request]
  . rw [heq]
    rfl

theorem announcements_processControl {radio : Radio} {s : CSirServer} {c : ClientPtr}
    {tokens : Tokens} (hacquire : token tokens 1 ≠ ascii "ACQUIRE")
    (hrelease : token tokens 1 ≠ ascii "RELEASE")
    : announcements client (processControl radio s c tokens).2 = [] := by
  unfold processControl
  rw [if_neg hacquire, if_neg hrelease]
  apply announcements_notify_of_none
  decide

theorem announcements_processCommand (radio : Radio) (s : CSirServer) (c : ClientPtr)
    {line : List UInt8} (hacquire : ¬ IsAcquire line) (hrelease : ¬ IsRelease line)
    (hquit : ¬ IsQuit line)
    : announcements client (s.processCommand radio c line).2 = [] := by
  unfold IsAcquire at hacquire
  unfold IsRelease at hrelease
  unfold IsQuit at hquit
  unfold processCommand
  dsimp only
  generalize strTokenize line 0x20 true = tokens at *
  have herror : announcements client (s.notify (some c) (ascii "ERROR\n")).2 = [] :=
    announcements_notify_of_none client (by decide) s c
  split
  . split
    . next v p hlookup =>
      obtain ⟨l₁, l₂, heq, -⟩ := List.lookup_eq_some_iff.mp hlookup
      have hmem : (token tokens 0, v, p) ∈ cmdHandlers := by simp [heq]
      simp only [cmdHandlers, List.mem_cons, List.not_mem_nil, or_false, Prod.mk.injEq] at hmem
      split
      . next hvalid =>
        rcases hmem with ⟨-, -, rfl⟩ | ⟨-, -, rfl⟩ | ⟨hcmd, rfl, rfl⟩ | ⟨hcmd, rfl, rfl⟩
        . apply announcements_processWith client serves_getHandlers
        . apply announcements_processWith client serves_setHandlers
        . simp only [validateControl, tokenCount, decide_eq_true_eq, List.length_eq_two] at hvalid
          obtain ⟨cmd, arg, rfl⟩ := hvalid
          obtain rfl : cmd = ascii "CONTROL" := hcmd
          apply announcements_processControl
          . rintro rfl
            apply hacquire rfl
          . rintro rfl
            apply hrelease rfl
        . simp only [validateQuit, tokenCount, decide_eq_true_eq, List.length_eq_one_iff] at hvalid
          obtain ⟨cmd, rfl⟩ := hvalid
          obtain rfl : cmd = ascii "QUIT" := hcmd
          exact absurd rfl hquit
      . apply herror
    . rfl
  . rfl

end Announcements

theorem lastAnnounced_append (client : ClientPtr) (effects new : List Effect)
    : lastAnnounced client (effects ++ new)
        = ((announcements client new).getLast?).getD (lastAnnounced client effects) := by
  unfold lastAnnounced
  rw [announcements_append, List.getLast?_append]
  cases (announcements client new).getLast? with
  | none => rfl
  | some st => rfl

/--
`client` is told of its new standing when it issues a line or is in line, or it has kept its standing.
-/
inductive Announces (issuer client : ClientPtr) (s s' : CSirServer) (effects : List Effect) : Prop
  | last (hclient : client = issuer ∨ s.standing client ≠ .outside)
      (hlast : (announcements client effects).getLast? = some (s'.standing client))
  | silent (hsilent : announcements client effects = [])
      (hstanding : s'.standing client = s.standing client)

theorem Announces.of_standing_eq {issuer client : ClientPtr} {s s' s'' : CSirServer}
    {effects : List Effect} (h : Announces issuer client s s' effects)
    (hstanding : s''.standing client = s'.standing client)
    : Announces issuer client s s'' effects := by
  cases h with
  | last hclient hlast =>
    apply Announces.last hclient
    rw [hstanding, hlast]
  | silent hsilent hs =>
    apply Announces.silent hsilent
    rw [hstanding, hs]

theorem announces_releaseControl {s : CSirServer} {l : WaitList ClientPtr} (h : Represents s l)
    {issuer client : ClientPtr} (hne : client ≠ issuer)
    : Announces issuer client s (s.releaseControl issuer).1 (s.releaseControl issuer).2 := by
  obtain ⟨hrep, heffects⟩ := h.releaseControl issuer
  have hstanding := l.standing_release issuer client
  rw [if_neg hne, ← hrep.standing_eq, ← h.standing_eq] at hstanding
  rw [heffects]
  by_cases hsame : (l.release issuer).holder = l.holder
  . rw [if_pos hsame]
    apply Announces.silent rfl
    rw [hstanding]
    split
    . next hholder =>
      rw [h.standing_eq, WaitList.standing, if_pos (hsame.symm.trans hholder)]
    . rfl
  . rw [if_neg hsame]
    by_cases hholder : (l.release issuer).holder = some client
    . rw [if_pos hholder] at hstanding
      apply Announces.last
      . right
        have hwait := (l.holder_release_iff.mp ⟨hsame, hholder⟩).2.1
        rw [h.standing_eq, WaitList.standing]
        rw [mem_waiting_iff] at hwait
        rw [if_neg hwait.2, if_pos hwait.1]
        simp
      . rw [hstanding, hholder]
        simp [announcements, announced_acquired]
    . rw [if_neg hholder] at hstanding
      apply Announces.silent _ hstanding
      cases hfront : (l.release issuer).holder with
      | none => rfl
      | some d =>
        have hd : d ≠ client := by
          rintro rfl
          apply hholder hfront
        simp [announcements, hd]

theorem announces_notify {s s' : CSirServer} {issuer client : ClientPtr} {effects : List Effect}
    {msg : List UInt8} (hown : client = issuer → announced msg = some (s'.standing client))
    (hother : client ≠ issuer → Announces issuer client s s' effects)
    : Announces issuer client s (s'.notify (some issuer) msg).1
        (effects ++ (s'.notify (some issuer) msg).2) := by
  suffices h : Announces issuer client s s' (effects ++ (s'.notify (some issuer) msg).2) by
    exact h.of_standing_eq rfl
  by_cases hclient : client = issuer
  . apply Announces.last (.inl hclient)
    rw [announcements_append, announcements_notify, if_pos hclient.symm, hown hclient]
    simp
  . have hnone : announcements client (s'.notify (some issuer) msg).2 = [] := by
      rw [announcements_notify, if_neg (Ne.symm hclient)]
    cases hother hclient with
    | last hin hlast =>
      apply Announces.last hin
      rw [announcements_append, hnone, List.append_nil, hlast]
    | silent hsilent hs =>
      apply Announces.silent _ hs
      rw [announcements_append, hsilent, hnone]
      rfl

theorem announces_processCommand {s : CSirServer} {l : WaitList ClientPtr} (h : Represents s l)
    (radio : Radio) (issuer client : ClientPtr) {line : List UInt8}
    (hquit : client = issuer → ¬ IsQuit line)
    : Announces issuer client s (s.processCommand radio issuer line).1
        (s.processCommand radio issuer line).2 := by
  have heffect := commandEffect_processCommand radio s issuer line
  have hsilent (hacquire : ¬ IsAcquire line) (hrelease : ¬ IsRelease line) (hquit : ¬ IsQuit line) :=
    announcements_processCommand client radio s issuer hacquire hrelease hquit
  unfold IsAcquire IsRelease IsQuit at hsilent
  unfold IsQuit at hquit
  generalize strTokenize line 0x20 true = tokens at heffect hsilent hquit
  generalize s.processCommand radio issuer line = r at heffect hsilent
  cases heffect with
  | get _ data hcmd | set _ data hcmd =>
    apply Announces.silent
    . apply announcements_request
    . obtain ⟨hcontroller, hqueue⟩ := control_request data radio s issuer
      unfold standing
      rw [hcontroller, hqueue]
  | acquire =>
    obtain ⟨hrep, hresult⟩ := h.acquireControl issuer
    have hstanding := l.standing_acquire issuer client
    rw [← hrep.standing_eq, ← h.standing_eq] at hstanding
    have hquiet
        : client ≠ issuer → Announces issuer client s (s.acquireControl issuer).1 [] := by
      intro hne
      rw [if_neg hne] at hstanding
      apply Announces.silent rfl hstanding
    apply announces_notify _ hquiet
    intro hclient
    rw [hstanding, if_pos hclient, hresult]
    split
    . next hholder => rw [if_pos (of_decide_eq_true hholder), announced_acquired]
    . next hholder =>
      rw [if_neg (fun h => hholder (decide_eq_true h)), announced_pending]
  | release =>
    have hstanding := l.standing_release issuer client
    rw [← (h.releaseControl issuer).1.standing_eq] at hstanding
    apply announces_notify
    . intro hclient
      rw [hstanding, if_pos hclient, announced_released]
    . apply announces_releaseControl h
  | quit =>
    by_cases hclient : client = issuer
    . exact absurd rfl (hquit hclient)
    . exact (announces_releaseControl h hclient).of_standing_eq rfl
  | other _ _ _ _ hacquire hrelease hquit hr =>
    apply Announces.silent (hsilent hacquire hrelease hquit)
    cases hr with
    | inl hnone => rw [hnone]
    | inr hmsg =>
      obtain ⟨msg, rfl⟩ := hmsg
      rfl

end CSirServer
