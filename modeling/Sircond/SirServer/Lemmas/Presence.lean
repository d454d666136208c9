import Sircond.SirServer.Lemmas.Frame
import Sircond.SirServer.Arbitration
import Mathlib.Data.List.Induction

/-!
This module contains what the lines of a client do to its presence: whether the client is dead, and
whether it is in line for control. A line changes the presence of the client that issued it only,
and how depends on the line alone. `Orphans` are the lines that leave a client in line and dead: a
QUIT line is followed by a CONTROL ACQUIRE line that no later line takes back.
-/

structure Presence where
  dead : Bool
  inLine : Bool
  deriving DecidableEq, Repr

def IsQuit (line : List UInt8) : Prop := strTokenize line 0x20 true = [ascii "QUIT"]

def IsAcquire (line : List UInt8) : Prop :=
  strTokenize line 0x20 true = [ascii "CONTROL", ascii "ACQUIRE"]

def IsRelease (line : List UInt8) : Prop :=
  strTokenize line 0x20 true = [ascii "CONTROL", ascii "RELEASE"]

instance : DecidablePred IsQuit := fun _ => inferInstanceAs (Decidable (_ = _))

instance : DecidablePred IsAcquire := fun _ => inferInstanceAs (Decidable (_ = _))

instance : DecidablePred IsRelease := fun _ => inferInstanceAs (Decidable (_ = _))

theorem IsAcquire.not_isQuit {line : List UInt8} (h : IsAcquire line) : ¬ IsQuit line := by
  unfold IsQuit
  rw [h]
  decide

theorem IsRelease.not_isQuit {line : List UInt8} (h : IsRelease line) : ¬ IsQuit line := by
  unfold IsQuit
  rw [h]
  decide

theorem IsRelease.not_isAcquire {line : List UInt8} (h : IsRelease line) : ¬ IsAcquire line := by
  unfold IsAcquire
  rw [h]
  decide

namespace Presence

def after (p : Presence) (line : List UInt8) : Presence :=
  if IsQuit line then
    ⟨true, false⟩
  else if IsAcquire line then
    ⟨p.dead, true⟩
  else if IsRelease line then
    ⟨p.dead, false⟩
  else
    p

theorem after_of_isQuit {line : List UInt8} (h : IsQuit line) (p : Presence)
    : p.after line = ⟨true, false⟩ := by
  apply if_pos h

theorem after_of_isAcquire {line : List UInt8} (h : IsAcquire line) (p : Presence)
    : p.after line = ⟨p.dead, true⟩ := by
  unfold after
  rw [if_neg h.not_isQuit, if_pos h]

theorem after_of_isRelease {line : List UInt8} (h : IsRelease line) (p : Presence)
    : p.after line = ⟨p.dead, false⟩ := by
  unfold after
  rw [if_neg h.not_isQuit, if_neg h.not_isAcquire, if_pos h]

theorem after_of_not {line : List UInt8} (hquit : ¬ IsQuit line) (hacquire : ¬ IsAcquire line)
    (hrelease : ¬ IsRelease line) (p : Presence)
    : p.after line = p := by
  unfold after
  rw [if_neg hquit, if_neg hacquire, if_neg hrelease]

end Presence

def Orphans (lines : List (List UInt8)) : Prop :=
  ∃ before acquire after, lines = before ++ acquire :: after ∧ (∃ quit ∈ before, IsQuit quit)
    ∧ IsAcquire acquire ∧ ∀ line ∈ after, ¬ IsQuit line ∧ ¬ IsRelease line

theorem not_orphans_nil : ¬ Orphans [] := by
  rintro ⟨before, acquire, after, h, -⟩
  simp at h

theorem orphans_concat {lines : List (List UInt8)} {line : List UInt8}
    : Orphans (lines ++ [line])
        ↔
      (∃ quit ∈ lines, IsQuit quit) ∧ IsAcquire line
        ∨
      Orphans lines ∧ ¬ IsQuit line ∧ ¬ IsRelease line := by
  constructor
  . rintro ⟨before, acquire, after, h, hquit, hacquire, hafter⟩
    rcases List.eq_nil_or_concat' after with rfl | ⟨after, last, rfl⟩
    . left
      obtain ⟨rfl, h⟩ := List.append_inj' h rfl
      obtain rfl : line = acquire := by simpa using h
      exact ⟨hquit, hacquire⟩
    . right
      rw [← List.cons_append, ← List.append_assoc] at h
      obtain ⟨rfl, h⟩ := List.append_inj' h rfl
      obtain rfl : line = last := by simpa using h
      refine ⟨⟨before, acquire, after, rfl, hquit, hacquire, ?_⟩, hafter line (by simp)⟩
      intro x hx
      apply hafter x (by simp [hx])
  . rintro (⟨hquit, hacquire⟩ | ⟨⟨before, acquire, after, rfl, hquit, hacquire, hafter⟩, hline⟩)
    . exact ⟨lines, line, [], rfl, hquit, hacquire, by simp⟩
    . refine ⟨before, acquire, after ++ [line], by simp, hquit, hacquire, ?_⟩
      intro x hx
      rw [List.mem_append, List.mem_singleton] at hx
      rcases hx with hx | rfl
      . apply hafter x hx
      . apply hline

theorem dead_foldl_after (lines : List (List UInt8)) (inLine : Bool)
    : (lines.foldl Presence.after ⟨false, inLine⟩).dead = true ↔ ∃ quit ∈ lines, IsQuit quit := by
  induction lines using List.reverseRecOn with
  | nil => simp
  | append_singleton lines line ih =>
    rw [List.foldl_append, List.foldl_cons, List.foldl_nil]
    simp only [List.mem_append, List.mem_singleton, or_and_right, exists_or, exists_eq_left]
    rw [← ih]
    unfold Presence.after
    split
    . next h => simp [h]
    . next h => split <;> [skip; split] <;> simp [h]

theorem foldl_after_eq_iff (lines : List (List UInt8)) (inLine : Bool)
    : lines.foldl Presence.after ⟨false, inLine⟩ = ⟨true, true⟩ ↔ Orphans lines := by
  induction lines using List.reverseRecOn with
  | nil => simp [not_orphans_nil]
  | append_singleton lines line ih =>
    have hdead := dead_foldl_after lines inLine
    rw [List.foldl_append, List.foldl_cons, List.foldl_nil, orphans_concat, ← ih, ← hdead]
    generalize lines.foldl Presence.after ⟨false, inLine⟩ = p
    by_cases hquit : IsQuit line
    . have hacquire : ¬ IsAcquire line := fun h => h.not_isQuit hquit
      simp [Presence.after_of_isQuit hquit, hquit, hacquire]
    . by_cases hacquire : IsAcquire line
      . have hrelease : ¬ IsRelease line := fun h => h.not_isAcquire hacquire
        cases p
        simp only [Presence.after_of_isAcquire hacquire, Presence.mk.injEq, hacquire, hquit,
          hrelease, and_true, not_false_eq_true]
        constructor
        . exact .inl
        . rintro (h | h)
          . apply h
          . apply h.1
      . by_cases hrelease : IsRelease line
        . simp [Presence.after_of_isRelease hrelease, hacquire, hrelease]
        . simp [Presence.after_of_not hquit hacquire hrelease, hquit, hacquire, hrelease]

namespace CSirServer

def InLine (s : CSirServer) (client : ClientPtr) : Prop :=
  s.controller = some client ∨ client ∈ s.controlQueue

instance (s : CSirServer) (client : ClientPtr) : Decidable (InLine s client) :=
  inferInstanceAs (Decidable (_ ∨ _))

def presence (s : CSirServer) (client : ClientPtr) : Presence where
  dead := s.isDead client
  inLine := InLine s client

theorem Represents.inLine_iff {s : CSirServer} {l : WaitList ClientPtr} (h : Represents s l)
    {client : ClientPtr}
    : InLine s client ↔ client ∈ l.toList := by
  unfold InLine
  rw [h.mem_controlQueue_iff, h.controller]
  constructor
  . rintro (hholder | ⟨hmem, -⟩)
    . apply WaitList.holder_mem hholder
    . apply hmem
  . intro hmem
    by_cases hholder : l.holder = some client
    . left
      apply hholder
    . right
      exact ⟨hmem, hholder⟩

theorem Represents.of_control_eq {s s' : CSirServer} {l : WaitList ClientPtr} (h : Represents s l)
    (hcontroller : s'.controller = s.controller) (hqueue : s'.controlQueue = s.controlQueue)
    : Represents s' l where
  controller := hcontroller.trans h.controller
  controlQueue := hqueue.trans h.controlQueue

theorem Represents.notify {s : CSirServer} {l : WaitList ClientPtr} (h : Represents s l)
    (client : Option ClientPtr) (msg : List UInt8)
    : Represents (s.notify client msg).1 l :=
  h.of_control_eq (controller_notify s client msg) (controlQueue_notify s client msg)

theorem Represents.drop {s : CSirServer} {l : WaitList ClientPtr} (h : Represents s l)
    (client : ClientPtr)
    : Represents (s.drop client).1 (l.release client) ∧ ∀ d,
        (s.drop client).1.presence d = if d = client then ⟨true, false⟩ else s.presence d := by
  have hrep : Represents (s.drop client).1 (l.release client) :=
    (h.onDrop client).of_control_eq rfl rfl
  refine ⟨hrep, ?_⟩
  intro d
  simp only [presence, isDead_drop, hrep.inLine_iff, WaitList.mem_release, h.inLine_iff]
  split
  . next hd => simp [hd]
  . next hd => simp [hd]

structure LineEffect (s : CSirServer) (client : ClientPtr) (lines : List (List UInt8))
    (s' : CSirServer) : Prop where
  represents : ∃ l, Represents s' l
  rxbufs : s'.rxbufs = s.rxbufs
  bufsize : s'.bufsize = s.bufsize
  own : s'.presence client = lines.foldl Presence.after (s.presence client)
  other : ∀ d, d ≠ client → s'.presence d = s.presence d

theorem lineEffect_of_sameClients {s s' : CSirServer} {client : ClientPtr} {line : List UInt8}
    {l' : WaitList ClientPtr} (hrep : Represents s' l') (hsame : SameClients s s')
    (hown : ⟨s.isDead client, client ∈ l'.toList⟩ = (s.presence client).after line)
    (hother : ∀ d, d ≠ client → (d ∈ l'.toList ↔ InLine s d))
    : LineEffect s client [line] s' where
  represents := ⟨l', hrep⟩
  rxbufs := hsame.rxbufs
  bufsize := hsame.bufsize
  own := by
    rw [List.foldl_cons, List.foldl_nil, ← hown]
    simp only [presence, hsame.isDead, hrep.inLine_iff]
  other d hd := by
    simp only [presence, hsame.isDead, hrep.inLine_iff, hother d hd]

theorem lineEffect_of_not {s s' : CSirServer} {l : WaitList ClientPtr} {client : ClientPtr}
    {line : List UInt8} (h : Represents s l) (hquit : ¬ IsQuit line) (hacquire : ¬ IsAcquire line)
    (hrelease : ¬ IsRelease line) (hsame : SameClients s s')
    (hcontrol : s'.controller = s.controller ∧ s'.controlQueue = s.controlQueue)
    : LineEffect s client [line] s' := by
  apply lineEffect_of_sameClients (h.of_control_eq hcontrol.1 hcontrol.2) hsame
  . rw [Presence.after_of_not hquit hacquire hrelease]
    simp only [presence, h.inLine_iff]
  . intro d _
    rw [h.inLine_iff]

theorem ne_of_token {tokens tokens' : Tokens} (h : token tokens 0 ≠ token tokens' 0)
    : tokens ≠ tokens' := by
  rintro rfl
  apply h rfl

theorem lineEffect_processCommand {s : CSirServer} {l : WaitList ClientPtr} (h : Represents s l)
    (radio : Radio) (client : ClientPtr) (line : List UInt8)
    : LineEffect s client [line] (s.processCommand radio client line).1 := by
  have heffect := commandEffect_processCommand radio s client line
  have hne : ∀ {tokens tokens' : Tokens}, strTokenize line 0x20 true = tokens →
      token tokens 0 ≠ token tokens' 0 → strTokenize line 0x20 true ≠ tokens' :=
    fun htokens h => htokens ▸ ne_of_token h
  generalize htokens : strTokenize line 0x20 true = tokens at heffect
  generalize s.processCommand radio client line = r at heffect
  have honly : tokens ≠ [ascii "QUIT"] → OnlyOutput s r.1 := heffect.onlyOutput
  cases heffect with
  | get _ data hcmd | set _ data hcmd =>
    apply lineEffect_of_not h
    . exact hne htokens (by rw [hcmd]; decide)
    . exact hne htokens (by rw [hcmd]; decide)
    . exact hne htokens (by rw [hcmd]; decide)
    . exact (honly (ne_of_token (by rw [hcmd]; decide))).sameClients
    . apply control_request
  | acquire =>
    apply lineEffect_of_sameClients ((h.acquireControl client).1.notify _ _)
    . exact (honly (by decide)).sameClients
    . rw [Presence.after_of_isAcquire htokens]
      simp [presence, WaitList.mem_acquire]
    . intro d hd
      rw [h.inLine_iff, WaitList.mem_acquire]
      simp [hd]
  | release =>
    apply lineEffect_of_sameClients ((h.releaseControl client).1.notify _ _)
    . exact (honly (by decide)).sameClients
    . rw [Presence.after_of_isRelease htokens]
      simp [presence, WaitList.mem_release]
    . intro d hd
      rw [h.inLine_iff, WaitList.mem_release]
      simp [hd]
  | quit =>
    obtain ⟨hrep, hpresence⟩ := h.drop client
    refine ⟨⟨_, hrep⟩, (rxbufs_drop s client).1, (rxbufs_drop s client).2, ?_, ?_⟩
    . rw [List.foldl_cons, List.foldl_nil, Presence.after_of_isQuit htokens, hpresence, if_pos rfl]
    . intro d hd
      rw [hpresence, if_neg hd]
  | other _ _ hget hset hacquire hrelease hquit hr =>
    apply lineEffect_of_not h
    . exact fun h => hquit (htokens.symm.trans h)
    . exact fun h => hacquire (htokens.symm.trans h)
    . exact fun h => hrelease (htokens.symm.trans h)
    . exact (honly hquit).sameClients
    . rcases hr with rfl | ⟨msg, rfl⟩
      . exact ⟨rfl, rfl⟩
      . exact ⟨controller_notify .., controlQueue_notify ..⟩

theorem lineEffect_foldl_exec (radio : Nat → Radio) (client : ClientPtr)
    (lines : List (List UInt8)) {s : CSirServer} {l : WaitList ClientPtr} (h : Represents s l)
    (k : Nat) (effects : List Effect)
    : LineEffect s client lines (lines.foldl (exec radio client) (s, k, effects)).1 := by
  induction lines generalizing s l k effects with
  | nil => exact ⟨⟨l, h⟩, rfl, rfl, rfl, fun _ _ => rfl⟩
  | cons line lines ih =>
    have hline := lineEffect_processCommand h (radio k) client line
    obtain ⟨l', hrep⟩ := hline.represents
    have hlines := ih hrep (k + 1) (effects ++ (s.processCommand (radio k) client line).2)
    rw [List.foldl_cons]
    refine ⟨hlines.represents, hlines.rxbufs.trans hline.rxbufs,
      hlines.bufsize.trans hline.bufsize, ?_, ?_⟩
    . rw [List.foldl_cons]
      have hown := hline.own
      rw [List.foldl_cons, List.foldl_nil] at hown
      rw [← hown]
      apply hlines.own
    . intro d hd
      exact (hlines.other d hd).trans (hline.other d hd)

end CSirServer
