import Sircond.SirServer.Lemmas.Consistent

/-!
This module contains what the turns of the main loop make of the client table. What breaks its
consistency is a client that drops itself from within its own `ReceiveData`: the loop takes no notice
of it and leaves it in the table, or drops it once more.
-/

open Machine

namespace CSirServer

def Ready.lines (ready : Ready) : List (List UInt8) :=
  match ready.recv with
  | some result => result.lines
  | none => []

theorem quitCalls_eq_nil (radio : Nat → Radio) (client : ClientPtr) {lines : List (List UInt8)}
    (h : ∀ line ∈ lines, ¬ IsQuit line) (s : CSirServer) (k : Nat)
    : quitCalls radio client s k lines = [] := by
  induction lines generalizing s k with
  | nil => rfl
  | cons line lines ih =>
    rw [List.forall_mem_cons] at h
    have hline : strTokenize line 0x20 true ≠ [ascii "QUIT"] := h.1
    unfold quitCalls
    dsimp only
    rw [ih h.2, if_neg hline]
    rfl

theorem clients_foldl_exec (radio : Nat → Radio) (client : ClientPtr) (lines : List (List UInt8))
    (s : CSirServer) (k : Nat) (effects : List Effect)
    : (lines.foldl (exec radio client) (s, k, effects)).1.clients = s.clients := by
  induction lines generalizing s k effects with
  | nil => rfl
  | cons line lines ih =>
    rw [List.foldl_cons]
    refine (ih _ _ _).trans ?_
    by_cases hquit : IsQuit line
    . have heffect := commandEffect_processCommand (radio k) s client line
      rw [hquit] at heffect
      change (s.processCommand (radio k) client line).1.clients = s.clients
      generalize s.processCommand (radio k) client line = r at heffect
      cases heffect with
      | get _ _ hcmd | set _ _ hcmd => exact absurd hcmd (by decide)
      | quit => apply (table_drop s client).2.2.1
      | other _ _ _ _ _ _ hne => exact absurd rfl hne
    . apply (onlyOutput_processCommand (radio k) s client hquit).clients

/--
What `ReceiveData` does to the table: the lines without a QUIT leave it alone, and a line with it makes
the client dead.
-/
structure ReceiveEffect (s : CSirServer) (client : ClientPtr) (lines : List (List UInt8))
    (calls : List DropCall) (s' : CSirServer) : Prop where
  serving : Serving s'
  clients : s'.clients = s.clients
  other : ∀ d, d ≠ client → s'.isDead d = s.isDead d
  quiet : (∀ line ∈ lines, ¬ IsQuit line) → SameTable s s' ∧ calls = []
  quits : s.isDead client = false → (∃ line ∈ lines, IsQuit line) → s'.isDead client = true

theorem ReceiveEffect.refl {s : CSirServer} (h : Serving s) (client : ClientPtr)
    {lines : List (List UInt8)} (hlines : s.isDead client = false → lines = [])
    : ReceiveEffect s client lines [] s where
  serving := h
  clients := rfl
  other _ _ := rfl
  quiet _ := ⟨SameTable.refl s, rfl⟩
  quits halive := by simp [hlines halive]

theorem receiveEffect_receiveTurn {s s' : CSirServer} (h : Serving s) {client : ClientPtr}
    {ready : Ready} {calls : List DropCall} {drop : Bool}
    (heq : s.receiveTurn client ready = some (s', calls, drop))
    : ReceiveEffect s client ready.lines calls s' := by
  unfold receiveTurn at heq
  unfold Ready.lines
  cases hrecv : ready.recv with
  | none =>
    simp only [hrecv, Option.some.injEq, Prod.mk.injEq] at heq
    obtain ⟨rfl, rfl, -⟩ := heq
    apply ReceiveEffect.refl h
    intro _
    rfl
  | some result =>
    simp only [hrecv] at heq
    split at heq
    . next halive =>
      simp only [Option.bind_eq_bind, Option.bind_eq_some_iff] at heq
      obtain ⟨c, hc, ⟨r₁, b₁, lines, m₁⟩, hlines, ⟨s₁, effects, more⟩, hreceive, heq⟩ := heq
      simp only [Option.pure_def, Option.some.injEq, Prod.mk.injEq] at heq
      obtain ⟨rfl, rfl, -⟩ := heq
      have hmem : c.rxbuf ∈ s.rxbufs := List.mem_map_of_mem (List.mem_of_getElem? hc)
      obtain ⟨-, -, rfl⟩ := (h.drained _ hmem).receiveData_some h.bufsize hlines
      obtain ⟨hserving, hown, hother⟩ := h.receiveData hreceive
      -- The state is that after the lines, but for the receive buffer of the client.
      have hstate : SameTable (result.lines.foldl (exec ready.radio client) (s, 0, [])).1 s₁ := by
        simp only [CSirServer.receiveData, Option.bind_eq_bind, Option.bind_eq_some_iff] at hreceive
        obtain ⟨c', hc', ⟨⟨s₂, k, effects₂⟩, b₂, lines₂, m₂⟩, hrecv₂, heq₂⟩ := hreceive
        obtain ⟨rfl, -⟩ := Prod.mk.inj (Option.some.inj heq₂)
        obtain rfl : c = c' := Option.some.inj (hc.symm.trans hc')
        obtain ⟨-, hfold, -⟩ := (h.drained _ hmem).receiveData_some h.bufsize hrecv₂
        rw [← hfold]
        apply sameTable_modify
        intro cl _
        rfl
      refine ⟨hserving, ?_, ?_, ?_, ?_⟩
      . rw [hstate.clients]
        apply clients_foldl_exec
      . intro d hd
        exact congrArg Presence.dead (hother d hd)
      . intro hquiet
        refine ⟨?_, quitCalls_eq_nil ready.radio client hquiet s 0⟩
        exact (onlyOutput_foldl_exec ready.radio client hquiet s 0 []).toSameTable.trans hstate
      . intro hdead hquit
        have hbefore : s.presence client = ⟨false, (s.presence client).inLine⟩ := by
          simp [presence, hdead]
        rw [hbefore] at hown
        have hafter := (dead_foldl_after result.lines (s.presence client).inLine).mpr hquit
        rw [← hown] at hafter
        exact hafter
    . next hdead =>
      simp only [Option.some.injEq, Prod.mk.injEq] at heq
      obtain ⟨rfl, rfl, -⟩ := heq
      apply ReceiveEffect.refl h
      intro halive
      simp [halive] at hdead

theorem serving_transmitTurn {s s' : CSirServer} (h : Serving s) {client : ClientPtr} {ready : Ready}
    {drop drop' : Bool} (heq : s.transmitTurn client ready drop = some (s', drop'))
    : Serving s' ∧ SameTable s s' := by
  unfold transmitTurn at heq
  split at heq
  . simp only [Option.bind_eq_bind, Option.bind_eq_some_iff] at heq
    obtain ⟨⟨s₁, result⟩, htransmit, heq⟩ := heq
    obtain ⟨rfl, -⟩ := Prod.mk.inj (Option.some.inj heq)
    obtain ⟨honly, hcontrol⟩ := onlyOutput_transmitData htransmit
    exact ⟨(h.of_same honly.sameClients hcontrol).1, honly.toSameTable⟩
  . obtain ⟨rfl, -⟩ := Prod.mk.inj (Option.some.inj heq)
    exact ⟨h, SameTable.refl s⟩

/--
What the turn of a client comes to: after `ReceiveData` and `TransmitData` the client is dropped and
erased from the table, or it is left in it.
-/
inductive TurnEffect (s : CSirServer) (client : ClientPtr) (ready : Ready)
    : CSirServer → List DropCall → Prop
  | keep (s₁ s₂ : CSirServer) (calls : List DropCall)
      (hreceive : ReceiveEffect s client ready.lines calls s₁) (hserving : Serving s₂)
      (hsame : SameTable s₁ s₂)
    : TurnEffect s client ready s₂ calls
  | drop (s₁ s₂ : CSirServer) (calls : List DropCall)
      (hreceive : ReceiveEffect s client ready.lines calls s₁) (hserving : Serving s₂)
      (hsame : SameTable s₁ s₂)
    : TurnEffect s client ready { (s₂.drop client).1 with clients := s₂.clients.erase client }
        (calls ++ [⟨client, s₂.isDead client⟩])

theorem turnEffect_clientTurn {s s' : CSirServer} (h : Serving s) {client : ClientPtr}
    {ready : Ready} {calls : List DropCall} (heq : s.clientTurn client ready = some (s', calls))
    : TurnEffect s client ready s' calls := by
  unfold clientTurn at heq
  simp only [Option.bind_eq_bind, Option.bind_eq_some_iff] at heq
  obtain ⟨⟨s₁, calls₁, failed⟩, hreceive, ⟨s₂, drop⟩, htransmit, heq⟩ := heq
  have heffect := receiveEffect_receiveTurn h hreceive
  have hsame := serving_transmitTurn heffect.serving htransmit
  dsimp only at heq
  split at heq
  . obtain ⟨rfl, rfl⟩ := Prod.mk.inj (Option.some.inj heq)
    apply TurnEffect.drop s₁ s₂ calls₁ heffect hsame.1 hsame.2
  . obtain ⟨rfl, rfl⟩ := Prod.mk.inj (Option.some.inj heq)
    apply TurnEffect.keep s₁ s₂ calls₁ heffect hsame.1 hsame.2

section TurnEffect

variable {s s' : CSirServer} {client : ClientPtr} {ready : Ready} {calls : List DropCall}

theorem TurnEffect.other (h : TurnEffect s client ready s' calls)
    : Serving s' ∧ ∀ d, d ≠ client →
        s'.isDead d = s.isDead d ∧ (d ∈ s.clients → d ∈ s'.clients) := by
  cases h with
  | keep s₁ _ _ hreceive hserving hsame =>
    refine ⟨hserving, ?_⟩
    intro d hd
    rw [hsame.isDead, hreceive.other d hd, hsame.clients, hreceive.clients]
    exact ⟨rfl, id⟩
  | drop s₁ s₂ _ hreceive hserving hsame =>
    refine ⟨(hserving.drop client _).1, ?_⟩
    intro d hd
    constructor
    . change (s₂.drop client).1.isDead d = s.isDead d
      rw [isDead_drop, hsame.isDead, hreceive.other d hd]
      simp [hd]
    . intro hmem
      change d ∈ s₂.clients.erase client
      rw [hsame.clients, hreceive.clients]
      exact (List.mem_erase_of_ne hd).mpr hmem

theorem Tabled.clientTurn (htable : Tabled s) (hmem : client ∈ s.clients)
    (h : TurnEffect s client ready s' calls) (hquiet : ∀ line ∈ ready.lines, ¬ IsQuit line)
    : Tabled s' ∧ ∀ call ∈ calls, call.dead = false := by
  cases h with
  | keep s₁ _ _ hreceive hserving hsame =>
    obtain ⟨hsame₁, rfl⟩ := hreceive.quiet hquiet
    exact ⟨htable.of_sameTable (hsame₁.trans hsame) hserving, by simp⟩
  | drop s₁ s₂ _ hreceive hserving hsame =>
    obtain ⟨hsame₁, rfl⟩ := hreceive.quiet hquiet
    have hsame₂ := hsame₁.trans hsame
    refine ⟨(htable.of_sameTable hsame₂ hserving).drop ?_, ?_⟩
    . rw [hsame₂.clients]
      exact hmem
    . intro call hcall
      obtain rfl : call = ⟨client, s₂.isDead client⟩ := by simpa using hcall
      dsimp only
      rw [hsame₂.isDead]
      apply htable.consistent.alive client hmem

theorem TurnEffect.broken (h : TurnEffect s client ready s' calls) (halive : s.isDead client = false)
    (hmem : client ∈ s.clients) (hquit : ∃ line ∈ ready.lines, IsQuit line)
    : (client ∈ s'.clients ∧ s'.isDead client = true) ∨ ∃ call ∈ calls, call.dead = true := by
  cases h with
  | keep s₁ _ _ hreceive hserving hsame =>
    left
    rw [hsame.clients, hreceive.clients, hsame.isDead]
    exact ⟨hmem, hreceive.quits halive hquit⟩
  | drop s₁ s₂ _ hreceive hserving hsame =>
    right
    refine ⟨⟨client, s₂.isDead client⟩, by simp, ?_⟩
    dsimp only
    rw [hsame.isDead]
    apply hreceive.quits halive hquit

end TurnEffect

theorem turn_persists {ready : ClientPtr → Ready} {clients : List ClientPtr} {s s' : CSirServer}
    {calls : List DropCall} (h : Serving s) (heq : turn ready s clients = some (s', calls))
    {c : ClientPtr} (hc : c ∉ clients)
    : s'.isDead c = s.isDead c ∧ (c ∈ s.clients → c ∈ s'.clients) := by
  induction clients generalizing s calls with
  | nil =>
    obtain ⟨rfl, -⟩ := Prod.mk.inj (Option.some.inj heq)
    exact ⟨rfl, id⟩
  | cons client clients ih =>
    rw [List.mem_cons, not_or] at hc
    simp only [turn, Option.bind_eq_bind, Option.bind_eq_some_iff] at heq
    obtain ⟨⟨s₁, calls₁⟩, hfirst, ⟨s₂, calls₂⟩, hrest, heq⟩ := heq
    obtain ⟨rfl, -⟩ := Prod.mk.inj (Option.some.inj heq)
    obtain ⟨hserving, hother⟩ := (turnEffect_clientTurn h hfirst).other
    obtain ⟨hdead, hmem⟩ := hother c hc.1
    obtain ⟨hdead', hmem'⟩ := ih hserving hrest hc.2
    exact ⟨hdead'.trans hdead, fun h => hmem' (hmem h)⟩

theorem turn_cases {ready : ClientPtr → Ready} {clients : List ClientPtr} {s s' : CSirServer}
    {calls : List DropCall} (h : Tabled s) (hnodup : clients.Nodup)
    (hsub : ∀ c ∈ clients, c ∈ s.clients) (heq : turn ready s clients = some (s', calls))
    : (∀ c ∈ clients, ∀ line ∈ (ready c).lines, ¬ IsQuit line)
          ∧ Tabled s' ∧ (∀ call ∈ calls, call.dead = false)
        ∨
      (∃ c ∈ clients, ∃ line ∈ (ready c).lines, IsQuit line)
        ∧ ((∃ c ∈ s'.clients, s'.isDead c = true) ∨ ∃ call ∈ calls, call.dead = true) := by
  induction clients generalizing s calls with
  | nil =>
    left
    obtain ⟨rfl, rfl⟩ := Prod.mk.inj (Option.some.inj heq)
    exact ⟨by simp, h, by simp⟩
  | cons client clients ih =>
    rw [List.nodup_cons] at hnodup
    rw [List.forall_mem_cons] at hsub
    simp only [turn, Option.bind_eq_bind, Option.bind_eq_some_iff] at heq
    obtain ⟨⟨s₁, calls₁⟩, hfirst, ⟨s₂, calls₂⟩, hrest, heq⟩ := heq
    obtain ⟨rfl, rfl⟩ := Prod.mk.inj (Option.some.inj heq)
    have heffect := turnEffect_clientTurn h.serving hfirst
    obtain ⟨hserving, hother⟩ := heffect.other
    dsimp only at hrest
    by_cases hquiet : ∀ line ∈ (ready client).lines, ¬ IsQuit line
    . obtain ⟨htable, hcalls⟩ := h.clientTurn hsub.1 heffect hquiet
      have hsub₁ : ∀ c ∈ clients, c ∈ s₁.clients := by
        intro c hc
        apply (hother c _).2 (hsub.2 c hc)
        rintro rfl
        exact hnodup.1 hc
      cases ih htable hnodup.2 hsub₁ hrest with
      | inl hgood =>
        left
        refine ⟨?_, hgood.2.1, ?_⟩
        . rw [List.forall_mem_cons]
          exact ⟨hquiet, hgood.1⟩
        . intro call hcall
          rw [List.mem_append] at hcall
          exact hcall.elim (hcalls call) (hgood.2.2 call)
      | inr hbad =>
        right
        obtain ⟨⟨c, hc, hquit⟩, hbroken⟩ := hbad
        refine ⟨⟨c, List.mem_cons_of_mem _ hc, hquit⟩, ?_⟩
        cases hbroken with
        | inl hzombie => exact .inl hzombie
        | inr hcall =>
          obtain ⟨call, hcall, hdead⟩ := hcall
          exact .inr ⟨call, List.mem_append_right _ hcall, hdead⟩
    . right
      have hquit : ∃ line ∈ (ready client).lines, IsQuit line := by simpa using hquiet
      refine ⟨⟨client, List.mem_cons_self, hquit⟩, ?_⟩
      cases heffect.broken (h.consistent.alive client hsub.1) hsub.1 hquit with
      | inl hzombie =>
        -- Nobody else touches the client that is dead in the table.
        left
        obtain ⟨hdead, hmem⟩ := turn_persists hserving hrest hnodup.1
        exact ⟨client, hmem hzombie.1, hdead.trans hzombie.2⟩
      | inr hcall =>
        right
        obtain ⟨call, hcall, hdead⟩ := hcall
        exact ⟨call, List.mem_append_left _ hcall, hdead⟩

theorem dropAll_alive {clients : List ClientPtr} {s : CSirServer} (hnodup : clients.Nodup)
    (halive : ∀ c ∈ clients, s.isDead c = false)
    : ∀ call ∈ (onExit.dropAll s clients).2, call.dead = false := by
  induction clients generalizing s with
  | nil => simp [onExit.dropAll]
  | cons client clients ih =>
    rw [List.nodup_cons] at hnodup
    rw [List.forall_mem_cons] at halive
    unfold onExit.dropAll
    dsimp only
    rw [List.forall_mem_cons]
    refine ⟨halive.1, ih hnodup.2 ?_⟩
    intro c hc
    change (s.drop client).1.isDead c = false
    rw [isDead_drop, halive.2 c hc, Bool.or_false, decide_eq_false_iff_not]
    rintro rfl
    exact hnodup.1 hc

def served (s : CSirServer) : Option Int → List ClientPtr
  | some _ => s.clients ++ [s.heap.length]
  | none => s.clients

/-- No client served in a turn sends a QUIT line. -/
def NoQuit (l : Loop) : LoopInput → Prop
  | .turn connect ready =>
    ∀ c ∈ l.server.served connect, ∀ line ∈ (ready c).lines, ¬ IsQuit line
  | .broadcast _ | .exit => True

instance (l : Loop) (a : LoopInput) : Decidable (NoQuit l a) := by
  unfold NoQuit
  cases a with
  | turn => infer_instance
  | broadcast | exit => exact isTrue trivial

/--
What a step of the loop is to leave behind: a consistent table at the top of the next turn, and no
call of `OnDrop` for a client that was dead already.
-/
structure Sound (e : Entry Loop LoopInput DropCall) : Prop where
  consistent : e.post.running = true → Consistent e.post.server
  once : ∀ call ∈ e.out, call.dead = false

theorem Tabled.accept {s s' : CSirServer} (h : Tabled s) {connect : Option Int}
    (heq : s.accept connect = some s')
    : Tabled s' ∧ s'.clients = s.served connect := by
  unfold CSirServer.accept at heq
  cases connect with
  | none =>
    obtain rfl := Option.some.inj heq
    exact ⟨h, rfl⟩
  | some sock =>
    dsimp only at heq
    split at heq
    . next hsock =>
      obtain rfl := Option.some.inj heq
      exact ⟨h.onConnect hsock.1 hsock.2, s.clients_onConnect sock⟩
    . simp at heq

theorem sound_step {l l' : Loop} {a : LoopInput} {calls : List DropCall}
    (h : l.running = true → Tabled l.server) (hstep : loopMachine.step l a = some (l', calls))
    : (Sound ⟨l, a, calls, l'⟩ ↔ NoQuit l a)
        ∧ (NoQuit l a → l'.running = true → Tabled l'.server) := by
  simp only [loopMachine] at hstep
  split at hstep
  . next hrunning =>
    have htable := h hrunning
    cases a with
    | turn connect ready =>
      simp only [Option.bind_eq_bind, Option.bind_eq_some_iff] at hstep
      obtain ⟨s₁, haccept, ⟨s₂, calls₂⟩, hturn, heq⟩ := hstep
      obtain ⟨rfl, rfl⟩ := Prod.mk.inj (Option.some.inj heq)
      obtain ⟨htable₁, hserved⟩ := htable.accept haccept
      have hcases := turn_cases htable₁ htable₁.nodup (fun _ => id) hturn
      rw [hserved] at hcases
      cases hcases with
      | inl hgood =>
        refine ⟨iff_of_true ⟨fun _ => hgood.2.1.consistent, hgood.2.2⟩ hgood.1, ?_⟩
        exact fun _ _ => hgood.2.1
      | inr hbad =>
        have hnot : ¬ NoQuit l (.turn connect ready) := by
          intro hquiet
          obtain ⟨⟨c, hc, line, hline, hquit⟩, -⟩ := hbad
          exact hquiet c hc line hline hquit
        refine ⟨iff_of_false ?_ hnot, fun hquiet => absurd hquiet hnot⟩
        intro hsound
        cases hbad.2 with
        | inl hzombie =>
          obtain ⟨c, hc, hdead⟩ := hzombie
          have := (hsound.consistent rfl).alive c hc
          rw [hdead] at this
          contradiction
        | inr hcall =>
          obtain ⟨call, hcall, hdead⟩ := hcall
          have := hsound.once call hcall
          rw [hdead] at this
          contradiction
    | broadcast msg =>
      obtain ⟨rfl, rfl⟩ := Prod.mk.inj (Option.some.inj hstep)
      have htable' : Tabled (l.server.broadcast msg) := by
        have honly := onlyOutput_broadcast l.server msg
        apply htable.of_sameTable honly.toSameTable
        exact (htable.serving.of_same honly.sameClients (control_broadcast l.server msg)).1
      exact ⟨iff_of_true ⟨fun _ => htable'.consistent, by simp⟩ trivial, fun _ _ => htable'⟩
    | exit =>
      obtain ⟨rfl, rfl⟩ := Prod.mk.inj (Option.some.inj hstep)
      refine ⟨iff_of_true ⟨by simp, ?_⟩ trivial, by simp⟩
      exact dropAll_alive htable.nodup htable.consistent.alive
  . simp at hstep

/--
In every run of the server loop, its final `OnExit` included, the client table is consistent at the
top of each turn and no client is dropped that is dead already if and only if no client served in a
turn sends a QUIT line.
-/
theorem sound_iff_noQuit {sock : Int} {tr : List (Entry Loop LoopInput DropCall)} {l : Loop}
    (hrun : loopMachine.Run (.start sock) tr l)
    : (∀ e ∈ tr, Sound e) ↔ ∀ e ∈ tr, NoQuit e.pre e.input := by
  apply hrun.forall_iff (I := fun l => l.running = true → Tabled l.server)
  . intro _
    apply tabled_new
  . intro l a l' calls hstate hstep
    apply sound_step hstate hstep

theorem sound_iff_noQuit_errors
    : ∃ tr l, loopMachine.Run (.start 3) tr l
        ∧ inputs tr
            = [.turn (some 5) fun _ => ⟨false, none, none, fun _ => ⟨255, .success⟩, 99⟩,
                .broadcast (ascii "POWER,FULL\n"),
                .turn (some 6) fun _ => ⟨false, some (.received (ascii "CONTROL ACQUIRE\nGET RSSI\n")),
                  some 4, fun _ => ⟨255, .success⟩, 99⟩,
                .turn (some 7) fun c => ⟨decide (c = 0), none, none, fun _ => ⟨255, .success⟩, 99⟩,
                .exit]
        ∧ l.server.heap.length = 3 ∧ ∀ e ∈ tr, Sound e := by
  obtain ⟨tr, l, hrun, hin, hcheck⟩ := exists_run (show (loopMachine.exec (.start 3)
    [.turn (some 5) fun _ => ⟨false, none, none, fun _ => ⟨255, .success⟩, 99⟩,
      .broadcast (ascii "POWER,FULL\n"),
      .turn (some 6) fun _ => ⟨false, some (.received (ascii "CONTROL ACQUIRE\nGET RSSI\n")),
        some 4, fun _ => ⟨255, .success⟩, 99⟩,
      .turn (some 7) fun c => ⟨decide (c = 0), none, none, fun _ => ⟨255, .success⟩, 99⟩,
      .exit]).any
    (fun r => r.2.server.heap.length = 3 ∧ ∀ e ∈ r.1, NoQuit e.pre e.input) = true
    by decide +kernel)
  refine ⟨tr, l, hrun, ?_, hcheck.1, ?_⟩
  . apply hin
  . apply (sound_iff_noQuit hrun).mpr
    apply hcheck.2

theorem zombie_client
    : ∃ tr l, loopMachine.Run (.start 3) tr l
        ∧ inputs tr
            = [.turn (some 5) fun _ => ⟨false, none, none, fun _ => ⟨255, .success⟩, 99⟩,
                .turn none fun _ => ⟨false, some (.received (ascii "QUIT\n")), none,
                  fun _ => ⟨255, .success⟩, 99⟩,
                .exit]
        ∧ outputs tr = [⟨0, false⟩, ⟨0, true⟩] ∧ ¬ ∀ e ∈ tr, Sound e := by
  obtain ⟨tr, l, hrun, hin, hcheck⟩ := exists_run (show (loopMachine.exec (.start 3)
    [.turn (some 5) fun _ => ⟨false, none, none, fun _ => ⟨255, .success⟩, 99⟩,
      .turn none fun _ => ⟨false, some (.received (ascii "QUIT\n")), none,
        fun _ => ⟨255, .success⟩, 99⟩,
      .exit]).any
    (fun r => outputs r.1 = [⟨0, false⟩, ⟨0, true⟩]
      ∧ ∃ e ∈ r.1, ∃ call ∈ e.out, call.dead = true) = true by decide +kernel)
  refine ⟨tr, l, hrun, hin, hcheck.1, ?_⟩
  intro hall
  obtain ⟨-, e, he, call, hcall, hdead⟩ := hcheck
  have honce := (hall e he).once call hcall
  rw [hdead] at honce
  simp at honce

end CSirServer
