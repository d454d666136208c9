import Sircond.SirServer.Lemmas.Presence
import Sircond.SirServer.Lines

/-!
This module contains the invariant that only connected clients are in line for control, and what
breaks it: a client may go on issuing lines after its own QUIT. Between two steps no client has a
line half read, so that the lines of a step are those of the buffer received in it.
-/

open Machine Client

namespace CSirServer

def Connected (s : CSirServer) : Prop :=
  (∀ c ∈ s.controller, s.isDead c = false) ∧ ∀ c ∈ s.controlQueue, s.isDead c = false

instance (s : CSirServer) : Decidable (Connected s) := inferInstanceAs (Decidable (_ ∧ _))

theorem connected_iff {s : CSirServer} : Connected s ↔ ∀ c, s.presence c ≠ ⟨true, true⟩ := by
  have hpresence : ∀ c, s.presence c ≠ ⟨true, true⟩ ↔ (InLine s c → s.isDead c = false) := by
    intro c
    simp only [presence, ne_eq, Presence.mk.injEq, decide_eq_true_eq, not_and]
    cases s.isDead c <;> simp
  simp only [hpresence, InLine, or_imp, forall_and]
  rfl

theorem connected_of_presence {s s' : CSirServer} (hs : Connected s)
    (h : ∀ c, s'.presence c = ⟨true, true⟩ → s.presence c = ⟨true, true⟩)
    : Connected s' := by
  rw [connected_iff] at hs ⊢
  exact fun c hc => hs c (h c hc)

structure Serving (s : CSirServer) : Prop where
  represents : ∃ l, Represents s l
  bufsize : 0 < s.bufsize
  drained : ∀ rxbuf ∈ s.rxbufs, Drained s.bufsize rxbuf

theorem serving_new (sock : Int) : Serving (new sock) where
  represents := ⟨_, represents_new sock⟩
  bufsize := Nat.zero_lt_succ 511
  drained := by simp [new, rxbufs]

theorem connected_new (sock : Int) : Connected (new sock) := by
  simp [Connected, new]

theorem Serving.of_same {s s' : CSirServer} (h : Serving s) (hsame : SameClients s s')
    (hcontrol : s'.controller = s.controller ∧ s'.controlQueue = s.controlQueue)
    : Serving s' ∧ ∀ d, s'.presence d = s.presence d := by
  obtain ⟨l, hrep⟩ := h.represents
  have hrep' := hrep.of_control_eq hcontrol.1 hcontrol.2
  constructor
  . refine ⟨⟨l, hrep'⟩, ?_, ?_⟩
    . rw [hsame.bufsize]
      apply h.bufsize
    . rw [hsame.rxbufs, hsame.bufsize]
      apply h.drained
  . intro d
    simp only [presence, hsame.isDead, hrep'.inLine_iff, hrep.inLine_iff]

theorem Serving.onConnect {s : CSirServer} (h : Serving s) (sock : Int)
    : Serving (s.onConnect sock)
        ∧ ∀ d, (s.onConnect sock).presence d = ⟨true, true⟩ → s.presence d = ⟨true, true⟩ := by
  obtain ⟨l, hrep⟩ := h.represents
  obtain ⟨hcontroller, hqueue, hbufsize, hheap⟩ := s.onConnect_eq sock
  constructor
  . refine ⟨⟨l, hrep.of_control_eq hcontroller hqueue⟩, ?_, ?_⟩
    . rw [hbufsize]
      apply h.bufsize
    . unfold rxbufs
      rw [hheap, hbufsize, List.map_append]
      intro rxbuf hmem
      rw [List.mem_append] at hmem
      rcases hmem with hold | hnew
      . apply h.drained rxbuf hold
      . obtain rfl : rxbuf = .new (List.replicate s.bufsize 0) := List.mem_singleton.mp hnew
        have := drained_new (List.replicate s.bufsize 0)
        rwa [List.length_replicate] at this
  . intro d
    simp only [presence, InLine, hcontroller, hqueue, Presence.mk.injEq]
    rintro ⟨hdead, hline⟩
    refine ⟨?_, hline⟩
    -- Whoever was alive still is: the new client comes last.
    unfold isDead at hdead ⊢
    rw [hheap] at hdead
    cases hd : s.heap[d]? with
    | none => rfl
    | some c =>
      obtain ⟨hlt, -⟩ := List.getElem?_eq_some_iff.mp hd
      rw [List.getElem?_append_left hlt, hd] at hdead
      apply hdead

theorem Serving.receiveData {s s' : CSirServer} (h : Serving s) {fuel : Nat} {radio : Nat → Radio}
    {client : ClientPtr} {result : RecvResult} {effects : List Effect} {more : Bool}
    (hstep : s.receiveData fuel radio client result = some (s', effects, more))
    : Serving s' ∧ s'.presence client = result.lines.foldl Presence.after (s.presence client)
        ∧ ∀ d, d ≠ client → s'.presence d = s.presence d := by
  obtain ⟨l, hrep⟩ := h.represents
  simp only [CSirServer.receiveData, Option.bind_eq_bind, Option.bind_eq_some_iff] at hstep
  obtain ⟨c, hc, ⟨⟨s₁, k, effects₁⟩, rxbuf, lines, more₁⟩, hrecv, heq⟩ := hstep
  obtain ⟨rfl, -⟩ := Prod.mk.inj (Option.some.inj heq)
  have hmem : c.rxbuf ∈ s.rxbufs := List.mem_map_of_mem (List.mem_of_getElem? hc)
  obtain ⟨hdrained, hlines, -⟩ := (h.drained _ hmem).receiveData_some h.bufsize hrecv
  have heffect := lineEffect_foldl_exec radio client result.lines hrep 0 []
  rw [← hlines] at heffect
  dsimp only at heffect
  obtain ⟨l', hrep'⟩ := heffect.represents
  have hpresence : ∀ d, { s₁ with
      heap := s₁.heap.modify client fun c => { c with rxbuf } }.presence d = s₁.presence d := by
    intro d
    simp only [presence, InLine, isDead_modify]
    split
    . next hd =>
      subst hd
      rfl
    . rfl
  refine ⟨⟨⟨l', hrep'.of_control_eq rfl rfl⟩, ?_, ?_⟩, ?_, ?_⟩
  . dsimp only
    rw [heffect.bufsize]
    apply h.bufsize
  . intro b hb
    dsimp only
    rw [heffect.bufsize]
    simp only [rxbufs, List.mem_map] at hb
    obtain ⟨d, hd, rfl⟩ := hb
    rw [List.mem_iff_getElem?] at hd
    obtain ⟨i, hi⟩ := hd
    simp only [List.getElem?_modify, Option.map_eq_map, Option.map_eq_some_iff] at hi
    obtain ⟨e, he, rfl⟩ := hi
    split
    . apply hdrained
    . apply h.drained
      rw [← heffect.rxbufs]
      apply List.mem_map_of_mem (List.mem_of_getElem? he)
  . rw [hpresence, heffect.own]
  . intro d hd
    rw [hpresence, heffect.other d hd]

theorem Serving.drop {s : CSirServer} (h : Serving s) (client : ClientPtr) (clients : List ClientPtr)
    : Serving { (s.drop client).1 with clients }
        ∧ ∀ d, { (s.drop client).1 with clients }.presence d
            = if d = client then ⟨true, false⟩ else s.presence d := by
  obtain ⟨l, hrep⟩ := h.represents
  obtain ⟨hrep', hpresence⟩ := hrep.drop client
  obtain ⟨hrxbufs, hbufsize⟩ := s.rxbufs_drop client
  have hserving : Serving (s.drop client).1 := by
    refine ⟨⟨_, hrep'⟩, ?_, ?_⟩
    . rw [hbufsize]
      apply h.bufsize
    . rw [hrxbufs, hbufsize]
      apply h.drained
  have hsame : SameClients (s.drop client).1 { (s.drop client).1 with clients } :=
    ⟨fun _ => rfl, rfl, rfl⟩
  obtain ⟨hserving', hpresence'⟩ := hserving.of_same hsame ⟨rfl, rfl⟩
  exact ⟨hserving', fun d => (hpresence' d).trans (hpresence d)⟩

theorem Serving.connected_receiveData {s s' : CSirServer} (h : Serving s) (hs : Connected s)
    {fuel : Nat} {radio : Nat → Radio} {client : ClientPtr} {result : RecvResult}
    {effects : List Effect} {more : Bool} (halive : s.isDead client = false)
    (hstep : s.receiveData fuel radio client result = some (s', effects, more))
    : Serving s' ∧ (Connected s' ↔ ¬ Orphans result.lines) := by
  obtain ⟨hserving, hown, hother⟩ := h.receiveData hstep
  refine ⟨hserving, ?_⟩
  have hbefore : s.presence client = ⟨false, (s.presence client).inLine⟩ := by
    simp [presence, halive]
  rw [hbefore] at hown
  rw [← foldl_after_eq_iff _ (s.presence client).inLine, ← hown, connected_iff]
  rw [connected_iff] at hs
  constructor
  . intro hall
    apply hall client
  . intro hclient d
    by_cases hd : d = client
    . rw [hd]
      apply hclient
    . rw [hother d hd]
      apply hs d

def Input.lines : Input → List (List UInt8)
  | .receive _ _ _ result => result.lines
  | _ => []

theorem connected_step {s s' : CSirServer} {a : Input} {effects : List Effect} (h : Serving s)
    (hs : Connected s) (hstep : serverMachine.step s a = some (s', effects))
    : Serving s' ∧ (Connected s' ↔ ¬ Orphans a.lines) := by
  have hquiet : a.lines = [] → Connected s' → (Connected s' ↔ ¬ Orphans a.lines) := by
    intro ha hs'
    rw [ha]
    exact iff_of_true hs' not_orphans_nil
  cases a with
  | connect sock =>
    simp only [serverMachine] at hstep
    split at hstep
    . simp at hstep
    . obtain ⟨rfl, -⟩ := Prod.mk.inj (Option.some.inj hstep)
      obtain ⟨hserving, hpresence⟩ := h.onConnect sock
      exact ⟨hserving, hquiet rfl (connected_of_presence hs hpresence)⟩
  | receive fuel radio client result =>
    simp only [serverMachine] at hstep
    split at hstep
    . next hclient =>
      simp only [Option.bind_eq_bind, Option.bind_eq_some_iff] at hstep
      obtain ⟨⟨s₁, effects₁, more⟩, hrecv, heq⟩ := hstep
      obtain ⟨rfl, -⟩ := Prod.mk.inj (Option.some.inj heq)
      simp only [Bool.and_eq_true, Bool.not_eq_true'] at hclient
      apply h.connected_receiveData hs hclient.2 hrecv
    . simp at hstep
  | transmit client sent =>
    simp only [serverMachine] at hstep
    split at hstep
    . simp only [Option.bind_eq_bind, Option.bind_eq_some_iff] at hstep
      obtain ⟨⟨s₁, more⟩, htransmit, heq⟩ := hstep
      obtain ⟨rfl, -⟩ := Prod.mk.inj (Option.some.inj heq)
      obtain ⟨honly, hcontrol⟩ := onlyOutput_transmitData htransmit
      obtain ⟨hserving, hpresence⟩ := h.of_same honly.sameClients hcontrol
      refine ⟨hserving, hquiet rfl (connected_of_presence hs ?_)⟩
      exact fun d hd => (hpresence d).symm.trans hd
    . simp at hstep
  | drop client =>
    simp only [serverMachine] at hstep
    split at hstep
    . obtain ⟨rfl, -⟩ := Prod.mk.inj (Option.some.inj hstep)
      obtain ⟨hserving, hpresence⟩ := h.drop client ((s.drop client).1.clients.erase client)
      refine ⟨hserving, hquiet rfl (connected_of_presence hs ?_)⟩
      intro d hd
      rw [hpresence] at hd
      split at hd
      . simp at hd
      . apply hd
    . simp at hstep
  | broadcast msg =>
    obtain ⟨rfl, -⟩ := Prod.mk.inj (Option.some.inj hstep)
    obtain ⟨hserving, hpresence⟩ :=
      h.of_same (onlyOutput_broadcast s msg).sameClients (control_broadcast s msg)
    refine ⟨hserving, hquiet rfl (connected_of_presence hs ?_)⟩
    exact fun d hd => (hpresence d).symm.trans hd

/--
In a run of the server, only connected clients are in line for control after every step if and only
if no buffer received has a CONTROL ACQUIRE line behind a QUIT line that no later line takes back.
-/
theorem connected_iff_not_orphans {sock : Int} {tr : List (Entry CSirServer Input Effect)}
    {s : CSirServer} (hrun : serverMachine.Run (new sock) tr s)
    : (∀ e ∈ tr, Connected e.post) ↔ ∀ e ∈ tr, ¬ Orphans e.input.lines := by
  apply hrun.forall_iff (I := fun s => Serving s ∧ Connected s)
  . exact ⟨serving_new sock, connected_new sock⟩
  . intro s a s' effects hstate hstep
    obtain ⟨hserving, hiff⟩ := connected_step hstate.1 hstate.2 hstep
    exact ⟨hiff, fun hlines => ⟨hserving, hiff.mpr hlines⟩⟩

theorem connected_iff_not_orphans_handover
    : ∃ tr s, serverMachine.Run (new 3) tr s
        ∧ inputs tr
            = [.connect 5, .connect 6,
                .receive 99 (fun _ => ⟨255, .success⟩) 0 (.received (ascii "CONTROL ACQUIRE\n")),
                .receive 99 (fun _ => ⟨255, .success⟩) 1
                  (.received (ascii "CONTROL ACQUIRE\nGET GAIN\n")),
                .receive 99 (fun _ => ⟨255, .success⟩) 0
                  (.received (ascii "SET GAIN 3\nQUIT\n")),
                .transmit 1 (some 4), .drop 1]
        ∧ (∀ e ∈ tr, Connected e.post) ∧ ∀ e ∈ tr, ¬ Orphans e.input.lines := by
  obtain ⟨tr, s, hrun, hin, hcheck⟩ := exists_run (show (serverMachine.exec (new 3)
    [.connect 5, .connect 6,
      .receive 99 (fun _ => ⟨255, .success⟩) 0 (.received (ascii "CONTROL ACQUIRE\n")),
      .receive 99 (fun _ => ⟨255, .success⟩) 1 (.received (ascii "CONTROL ACQUIRE\nGET GAIN\n")),
      .receive 99 (fun _ => ⟨255, .success⟩) 0 (.received (ascii "SET GAIN 3\nQUIT\n")),
      .transmit 1 (some 4), .drop 1]).any
    (fun r => ∀ e ∈ r.1, Connected e.post)
    = true by decide +kernel)
  exact ⟨tr, s, hrun, hin, hcheck,
    (connected_iff_not_orphans hrun).mp hcheck⟩

theorem orphaned_controller
    : ∃ tr s, serverMachine.Run (new 3) tr s
        ∧ inputs tr
            = [.connect 5,
                .receive 99 (fun _ => ⟨255, .success⟩) 0
                  (.received (ascii "QUIT\nCONTROL ACQUIRE\n"))]
        ∧ s.controller = some 0 ∧ s.isDead 0 = true ∧ ¬ ∀ e ∈ tr, Connected e.post := by
  obtain ⟨tr, s, hrun, hin, hcheck⟩ := exists_run (show (serverMachine.exec (new 3)
    [.connect 5,
      .receive 99 (fun _ => ⟨255, .success⟩) 0 (.received (ascii "QUIT\nCONTROL ACQUIRE\n"))]).any
    (fun r => r.2.controller = some 0 ∧ r.2.isDead 0 = true ∧ ¬ ∀ e ∈ r.1, Connected e.post)
    = true by decide +kernel)
  exact ⟨tr, s, hrun, hin, hcheck⟩

end CSirServer
