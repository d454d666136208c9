import Sircond.SirServer.Lemmas.Announcements
import Sircond.SirServer.Lemmas.Replies
import Sircond.SirServer.Lemmas.Table
import Sircond.SirServer.Access
import Sircond.SirServer.Connected
import Sircond.SirServer.Sending

/-!
This module contains that the clients know who is in control. `told` is what the last CONTROL line says
that `Send` has accepted for a client, and it is the standing of the client as long as the client is
connected and none of its CONTROL lines has been refused for lack of room. Nobody is told of its own
drop: what a dropped client was told may be out of date.
-/

open Scp Machine WaitList

namespace CSirServer

def dropped (s : CSirServer) (client : ClientPtr) : Bool := s.heap[client]?.any Client.isDead

theorem dropped_eq (s : CSirServer) (client : ClientPtr)
    : s.dropped client = (decide (client < s.heap.length) && s.isDead client) := by
  unfold dropped isDead
  by_cases h : client < s.heap.length
  . rw [List.getElem?_eq_getElem h]
    simp [h]
  . rw [List.getElem?_eq_none (Nat.le_of_not_lt h)]
    simp [h]

/-- Nobody who was connected or dropped becomes new. -/
structure Ages (s s' : CSirServer) : Prop where
  length : s.heap.length ≤ s'.heap.length
  dropped : ∀ client, s.dropped client = true → s'.dropped client = true

theorem ages_of_sameTable {s s' : CSirServer} (h : SameTable s s') : Ages s s' where
  length := Nat.le_of_eq h.length.symm
  dropped client hdropped := by
    rw [dropped_eq] at hdropped ⊢
    rw [h.length, h.isDead]
    apply hdropped

theorem ages_drop (s : CSirServer) (client : ClientPtr) : Ages s (s.drop client).1 where
  length := Nat.le_of_eq (table_drop s client).2.2.2.2.symm
  dropped c hc := by
    rw [dropped_eq] at hc ⊢
    rw [(table_drop s client).2.2.2.2, isDead_drop]
    simp only [Bool.and_eq_true, decide_eq_true_eq, Bool.or_eq_true] at hc ⊢
    exact ⟨hc.1, .inr hc.2⟩

theorem dropped_drop {s : CSirServer} {client : ClientPtr} (h : client < s.heap.length)
    : (s.drop client).1.dropped client = true := by
  rw [dropped_eq, (table_drop s client).2.2.2.2, isDead_drop]
  simp [h]

/--
Everybody has been told of its standing, but for those who were dropped.
-/
structure Heard (effects : List Effect) (s : CSirServer) : Prop where
  last : ∀ client, lastAnnounced client effects = s.standing client
    ∨ s.dropped client = true ∧ s.standing client = .outside
  fresh : ∀ client, s.heap.length ≤ client →
    announcements client effects = [] ∧ s.standing client = .outside

theorem heard_new (sock : Int) : Heard [] (new sock) where
  last _ := .inl rfl
  fresh _ _ := ⟨rfl, rfl⟩

theorem Heard.step {effects new : List Effect} {s s' : CSirServer} {issuer : ClientPtr}
    (h : Heard effects s) (hages : Ages s s') (hissuer : issuer < s.heap.length)
    (hclient : ∀ client, Announces issuer client s s' new
      ∨ s'.dropped client = true ∧ s'.standing client = .outside)
    : Heard (effects ++ new) s' where
  last client := by
    rcases hclient client with hannounces | hdropped
    . rw [lastAnnounced_append]
      cases hannounces with
      | last hin hlast =>
        left
        rw [hlast]
        rfl
      | silent hsilent hs =>
        rw [hsilent, hs]
        rcases h.last client with hlast | hout
        . exact .inl hlast
        . exact .inr ⟨hages.dropped client hout.1, hout.2⟩
    . exact .inr hdropped
  fresh client hfresh := by
    obtain ⟨hnone, hout⟩ := h.fresh client (Nat.le_trans hages.length hfresh)
    rcases hclient client with hannounces | hdropped
    . cases hannounces with
      | last hin hlast =>
        rcases hin with rfl | hne
        . exact absurd (Nat.lt_of_lt_of_le hissuer hages.length) (Nat.not_lt_of_le hfresh)
        . exact absurd hout hne
      | silent hsilent hs =>
        rw [announcements_append, hnone, hsilent, hs]
        exact ⟨rfl, hout⟩
    . rw [dropped_eq] at hdropped
      simp only [Bool.and_eq_true, decide_eq_true_eq] at hdropped
      exact absurd hdropped.1.1 (Nat.not_lt_of_le hfresh)

/--
Who a SET request was made for was told to be the controller, and others who had been told the same
have been dropped.
-/
def Exclusive (effects : List Effect) (s : CSirServer) : Prop :=
  ∀ pre data post, effects = pre ++ .send data :: post → data.bytes.head? = some msgSet →
    ∃ client msg rest, post = .notify client msg :: rest ∧ lastAnnounced client pre = .holding
      ∧ ∀ d, d ≠ client → lastAnnounced d pre = .holding → s.dropped d = true

/-- Either there is no SET request, or there is one by the controller, which is told of its result. -/
inductive Changes (s : CSirServer) (new : List Effect) : Prop
  | none (hsent : ∀ data ∈ sent new, data.bytes.head? ≠ some msgSet)
  | one (client : ClientPtr) (data : Payload) (msg : List UInt8)
      (hnew : new = [.send data, .notify client msg]) (hcontroller : s.controller = some client)

theorem mem_sent {effects : List Effect} {data : Payload} (h : .send data ∈ effects)
    : data ∈ sent effects :=
  List.mem_filterMap.mpr ⟨_, h, rfl⟩

theorem changes_of_sent_eq_nil {s : CSirServer} {new : List Effect} (h : sent new = [])
    : Changes s new := by
  apply Changes.none
  simp [h]

theorem changes_processCommand (radio : Radio) (s : CSirServer) (client : ClientPtr)
    (line : List UInt8)
    : Changes s (s.processCommand radio client line).2 := by
  have heffect := commandEffect_processCommand radio s client line
  generalize s.processCommand radio client line = r at heffect
  generalize strTokenize line 0x20 true = tokens at heffect
  cases heffect with
  | get _ data _ _ hkind =>
    apply Changes.none
    have hkinds : msgGet ≠ msgSet := by decide
    simp [hkind, hkinds]
  | set _ data _ hcontrol _ hkind =>
    have hcontroller : s.controller = some client := by
      simpa [hasControl, eq_comm] using hcontrol
    obtain ⟨msg, hrequest⟩ := request_eq data radio s client
    rw [hrequest]
    apply Changes.one client data msg rfl hcontroller
  | acquire => apply changes_of_sent_eq_nil (sent_notify _ _ _)
  | release =>
    apply changes_of_sent_eq_nil
    rw [sent_append, sent_releaseControl, sent_notify]
    rfl
  | quit => apply changes_of_sent_eq_nil (sent_drop s client)
  | other _ _ _ _ _ _ _ hr =>
    apply changes_of_sent_eq_nil
    cases hr with
    | inl hnone =>
      rw [hnone]
      rfl
    | inr hmsg =>
      obtain ⟨msg, rfl⟩ := hmsg
      apply sent_notify

theorem lastAnnounced_of_controller {effects : List Effect} {s : CSirServer} (h : Heard effects s)
    {client : ClientPtr} (hcontroller : s.controller = some client)
    : lastAnnounced client effects = .holding
        ∧ ∀ d, d ≠ client → lastAnnounced d effects = .holding → s.dropped d = true := by
  constructor
  . have hstanding : s.standing client = .holding := if_pos hcontroller
    rcases h.last client with hlast | hout
    . rw [hlast, hstanding]
    . rw [hstanding] at hout
      simp at hout
  . intro d hd hlast
    rcases h.last d with hstanding | hout
    . rw [hlast, standing, hcontroller, if_neg (by simpa [eq_comm] using hd)] at hstanding
      split at hstanding
      . simp at hstanding
      . simp at hstanding
    . apply hout.1

theorem Exclusive.step {effects new : List Effect} {s s' : CSirServer} (h : Exclusive effects s)
    (hheard : Heard effects s) (hages : Ages s s') (hchanges : Changes s new)
    : Exclusive (effects ++ new) s' := by
  intro pre data post heq hkind
  rw [List.append_eq_append_iff] at heq
  have hlast : ∀ pre', new = pre' ++ .send data :: post → pre = effects ++ pre' →
      ∃ client msg rest, post = .notify client msg :: rest ∧ lastAnnounced client pre = .holding
        ∧ ∀ d, d ≠ client → lastAnnounced d pre = .holding → s'.dropped d = true := by
    intro pre' hnew hpre
    cases hchanges with
    | none hsent =>
      apply absurd hkind (hsent data (mem_sent _))
      simp [hnew]
    | one client data' msg hnew' hcontroller =>
      obtain ⟨hown, hother⟩ := lastAnnounced_of_controller hheard hcontroller
      rw [hnew'] at hnew
      cases pre' with
      | nil =>
        simp only [List.nil_append, List.cons.injEq] at hnew
        rw [List.append_nil] at hpre
        rw [hpre]
        exact ⟨client, msg, [], hnew.2.symm, hown,
          fun d hd hlast => hages.dropped d (hother d hd hlast)⟩
      | cons e pre' => cases pre' with
        | nil => simp at hnew
        | cons e' pre' => simp at hnew
  rcases heq with ⟨pre', hpre, hnew⟩ | ⟨mid, heffects, hpost⟩
  . apply hlast pre' hnew hpre
  . cases mid with
    | nil =>
      apply hlast []
      . rw [List.nil_append, hpost]
        rfl
      . rw [heffects, List.append_nil, List.append_nil]
    | cons e mid =>
      simp only [List.cons_append, List.cons.injEq] at hpost
      obtain ⟨rfl, rfl⟩ := hpost
      obtain ⟨client, msg, rest, rfl, hown, hother⟩ := h pre data mid heffects hkind
      exact ⟨client, msg, rest ++ new, rfl, hown,
        fun d hd hlast => hages.dropped d (hother d hd hlast)⟩

theorem Heard.of_standing_eq {effects : List Effect} {s s' : CSirServer} (h : Heard effects s)
    (hages : Ages s s') (hstanding : ∀ client, s'.standing client = s.standing client)
    : Heard effects s' where
  last client := by
    rw [hstanding]
    rcases h.last client with hlast | hout
    . exact .inl hlast
    . exact .inr ⟨hages.dropped client hout.1, hout.2⟩
  fresh client hfresh := by
    rw [hstanding]
    apply h.fresh client (Nat.le_trans hages.length hfresh)

structure Informed (effects : List Effect) (s : CSirServer) : Prop where
  serving : Serving s
  clients : ∀ client ∈ s.clients, client < s.heap.length
  heard : Heard effects s
  exclusive : Exclusive effects s

theorem informed_new (sock : Int) : Informed [] (new sock) where
  serving := serving_new sock
  clients := by simp [new]
  heard := heard_new sock
  exclusive := by
    intro pre data post heq
    simp at heq

theorem standing_eq_of_control {s s' : CSirServer}
    (h : s'.controller = s.controller ∧ s'.controlQueue = s.controlQueue) (client : ClientPtr)
    : s'.standing client = s.standing client := by
  unfold standing
  rw [h.1, h.2]

theorem Informed.quiet {effects : List Effect} {s s' : CSirServer} (h : Informed effects s)
    (hserving : Serving s') (hages : Ages s s')
    (hclients : ∀ client ∈ s'.clients, client < s'.heap.length)
    (hcontrol : s'.controller = s.controller ∧ s'.controlQueue = s.controlQueue)
    : Informed effects s' where
  serving := hserving
  clients := hclients
  heard := h.heard.of_standing_eq hages (standing_eq_of_control hcontrol)
  exclusive := by
    have hsilent : Changes s [] := changes_of_sent_eq_nil rfl
    have hnew := h.exclusive.step h.heard hages hsilent
    rwa [List.append_nil] at hnew

theorem Informed.of_onlyOutput {effects : List Effect} {s s' : CSirServer} (h : Informed effects s)
    (honly : OnlyOutput s s')
    (hcontrol : s'.controller = s.controller ∧ s'.controlQueue = s.controlQueue)
    : Informed effects s' := by
  apply h.quiet (h.serving.of_same honly.sameClients hcontrol).1
    (ages_of_sameTable honly.toSameTable) _ hcontrol
  intro client hclient
  rw [honly.length]
  rw [honly.clients] at hclient
  apply h.clients client hclient

theorem Informed.connect {effects : List Effect} {s : CSirServer} (h : Informed effects s)
    (sock : Int)
    : Informed effects (s.onConnect sock) := by
  obtain ⟨hcontroller, hqueue, -, hheap⟩ := s.onConnect_eq sock
  apply h.quiet (h.serving.onConnect sock).1 _ _ ⟨hcontroller, hqueue⟩
  . constructor
    . simp [hheap]
    . intro client hclient
      unfold dropped at hclient ⊢
      rw [Option.any_eq_true] at hclient ⊢
      obtain ⟨c, hc, hdead⟩ := hclient
      obtain ⟨hlt, -⟩ := List.getElem?_eq_some_iff.mp hc
      rw [hheap, List.getElem?_append_left hlt]
      exact ⟨c, hc, hdead⟩
  . intro client hclient
    rw [clients_onConnect, List.mem_append, List.mem_singleton] at hclient
    rw [hheap, List.length_append, List.length_singleton]
    rcases hclient with hold | rfl
    . exact Nat.lt_succ_of_lt (h.clients client hold)
    . exact Nat.lt_succ_self _

theorem Informed.drop {effects : List Effect} {s : CSirServer} (h : Informed effects s)
    {client : ClientPtr} (hclient : client < s.heap.length)
    : Informed (effects ++ (s.drop client).2) (s.drop client).1 := by
  obtain ⟨l, hrep⟩ := h.serving.represents
  have hages := ages_drop s client
  have hserving := (h.serving.drop client (s.drop client).1.clients).1
  refine ⟨hserving, ?_, ?_, ?_⟩
  . intro c hc
    obtain ⟨-, -, hclients, -, hlength⟩ := table_drop s client
    rw [hlength]
    rw [hclients] at hc
    apply h.clients c hc
  . apply h.heard.step hages hclient
    intro c
    by_cases hc : c = client
    . right
      rw [hc, dropped_drop hclient, (hrep.drop client).1.standing_eq, standing_release, if_pos rfl]
      exact ⟨rfl, rfl⟩
    . left
      exact (announces_releaseControl hrep hc).of_standing_eq rfl
  . apply h.exclusive.step h.heard hages
    apply changes_of_sent_eq_nil (sent_drop s client)

theorem processCommand_of_isQuit (radio : Radio) (s : CSirServer) (client : ClientPtr)
    {line : List UInt8} (h : IsQuit line)
    : s.processCommand radio client line = s.drop client := by
  unfold IsQuit at h
  unfold processCommand
  rw [h]
  rfl

theorem ages_processCommand (radio : Radio) (s : CSirServer) (client : ClientPtr)
    (line : List UInt8)
    : Ages s (s.processCommand radio client line).1 := by
  by_cases h : IsQuit line
  . rw [processCommand_of_isQuit radio s client h]
    apply ages_drop
  . apply ages_of_sameTable (onlyOutput_processCommand radio s client h).toSameTable

theorem Informed.processCommand {effects : List Effect} {s : CSirServer} (h : Informed effects s)
    (radio : Radio) {client : ClientPtr} (hclient : client < s.heap.length) (line : List UInt8)
    : Informed (effects ++ (s.processCommand radio client line).2)
        (s.processCommand radio client line).1 := by
  obtain ⟨l, hrep⟩ := h.serving.represents
  have hline := lineEffect_processCommand hrep radio client line
  by_cases hquit : IsQuit line
  . rw [processCommand_of_isQuit radio s client hquit]
    apply h.drop hclient
  . have honly := onlyOutput_processCommand radio s client hquit
    have hages := ages_processCommand radio s client line
    refine ⟨⟨hline.represents, ?_, ?_⟩, ?_, ?_, ?_⟩
    . rw [hline.bufsize]
      apply h.serving.bufsize
    . rw [hline.rxbufs, hline.bufsize]
      apply h.serving.drained
    . intro c hc
      rw [honly.length]
      rw [honly.clients] at hc
      apply h.clients c hc
    . apply h.heard.step hages hclient
      intro c
      left
      apply announces_processCommand hrep
      exact fun _ => hquit
    . apply h.exclusive.step h.heard hages (changes_processCommand radio s client line)

theorem Informed.foldl_exec {effects₀ : List Effect} (radio : Nat → Radio) {client : ClientPtr}
    (lines : List (List UInt8)) {s : CSirServer} (k : Nat) {effects : List Effect}
    (h : Informed (effects₀ ++ effects) s) (hclient : client < s.heap.length)
    : Informed (effects₀ ++ (lines.foldl (exec radio client) (s, k, effects)).2.2)
        (lines.foldl (exec radio client) (s, k, effects)).1 := by
  induction lines generalizing s k effects with
  | nil => apply h
  | cons line lines ih =>
    rw [List.foldl_cons]
    apply ih
    . rw [← List.append_assoc]
      apply h.processCommand (radio k) hclient line
    . exact Nat.lt_of_lt_of_le hclient (ages_processCommand (radio k) s client line).length

theorem Informed.receiveData {effects new : List Effect} {s s' : CSirServer}
    (h : Informed effects s) {fuel : Nat} {radio : Nat → Radio} {client : ClientPtr}
    {result : Client.RecvResult} {more : Bool}
    (hstep : s.receiveData fuel radio client result = some (s', new, more))
    : Informed (effects ++ new) s' := by
  have hserving := (h.serving.receiveData hstep).1
  simp only [CSirServer.receiveData, Option.bind_eq_bind, Option.bind_eq_some_iff] at hstep
  obtain ⟨c, hc, ⟨⟨s₁, k, new₁⟩, rxbuf, lines, more₁⟩, hrecv, heq⟩ := hstep
  obtain ⟨rfl, hnew⟩ := Prod.mk.inj (Option.some.inj heq)
  obtain ⟨rfl, -⟩ := Prod.mk.inj hnew
  have hmem : c.rxbuf ∈ s.rxbufs := List.mem_map_of_mem (List.mem_of_getElem? hc)
  obtain ⟨-, hlines, -⟩ :=
    (h.serving.drained _ hmem).receiveData_some h.serving.bufsize hrecv
  obtain ⟨hclient, -⟩ := List.getElem?_eq_some_iff.mp hc
  have hstart : Informed (effects ++ []) s := by
    rw [List.append_nil]
    apply h
  have hfold := hstart.foldl_exec radio result.lines 0 hclient
  rw [← hlines] at hfold
  dsimp only at hfold
  have hsame : SameTable s₁ { s₁ with
      heap := s₁.heap.modify client fun c => { c with rxbuf } } :=
    sameTable_modify s₁ client fun _ _ => rfl
  apply hfold.quiet hserving (ages_of_sameTable hsame) _ ⟨rfl, rfl⟩
  intro d hd
  rw [hsame.length]
  apply hfold.clients d hd

theorem Informed.step {effects new : List Effect} {s s' : CSirServer} {a : Input}
    (h : Informed effects s) (hstep : serverMachine.step s a = some (s', new))
    : Informed (effects ++ new) s' := by
  cases a with
  | connect sock =>
    simp only [serverMachine] at hstep
    split at hstep
    . simp at hstep
    . obtain ⟨rfl, rfl⟩ := Prod.mk.inj (Option.some.inj hstep)
      rw [List.append_nil]
      apply h.connect sock
  | receive fuel radio client result =>
    simp only [serverMachine] at hstep
    split at hstep
    . simp only [Option.bind_eq_bind, Option.bind_eq_some_iff] at hstep
      obtain ⟨⟨s₁, new₁, more⟩, hrecv, heq⟩ := hstep
      obtain ⟨rfl, rfl⟩ := Prod.mk.inj (Option.some.inj heq)
      apply h.receiveData hrecv
    . simp at hstep
  | transmit client sent =>
    simp only [serverMachine] at hstep
    split at hstep
    . simp only [Option.bind_eq_bind, Option.bind_eq_some_iff] at hstep
      obtain ⟨⟨s₁, more⟩, htransmit, heq⟩ := hstep
      obtain ⟨rfl, rfl⟩ := Prod.mk.inj (Option.some.inj heq)
      obtain ⟨honly, hcontrol⟩ := onlyOutput_transmitData htransmit
      rw [List.append_nil]
      apply h.of_onlyOutput honly hcontrol
    . simp at hstep
  | drop client =>
    simp only [serverMachine] at hstep
    split at hstep
    . next hmem =>
      obtain ⟨rfl, rfl⟩ := Prod.mk.inj (Option.some.inj hstep)
      have hdrop := h.drop (h.clients client hmem)
      have hserving := (h.serving.drop client ((s.drop client).1.clients.erase client)).1
      apply hdrop.quiet hserving ⟨Nat.le_refl _, fun _ hc => hc⟩ _ ⟨rfl, rfl⟩
      intro c hc
      apply hdrop.clients c (List.mem_of_mem_erase hc)
    . simp at hstep
  | broadcast msg =>
    obtain ⟨rfl, rfl⟩ := Prod.mk.inj (Option.some.inj hstep)
    rw [List.append_nil]
    apply h.of_onlyOutput (onlyOutput_broadcast s msg) (control_broadcast s msg)

theorem informed_of_run {sock : Int} {tr : List (Entry CSirServer Input Effect)} {s : CSirServer}
    (hrun : serverMachine.Run (new sock) tr s)
    : Informed (outputs tr) s := by
  apply hrun.invariant (I := fun tr s => Informed (outputs tr) s)
  . apply informed_new
  . intro tr s a s' new h hstep
    rw [outputs_append, outputs_singleton]
    apply h.step hstep

/-- The lines for a client that `Send` accepts in a step. -/
def accepted (client : ClientPtr) (s : CSirServer) (effects : List Effect) : List (List UInt8) :=
  (s.heap[client]?.map fun c => c.accepted (sentTo client effects)).getD []

def acceptedIn (client : ClientPtr) (tr : List (Entry CSirServer Input Effect))
    : List (List UInt8) :=
  tr.flatMap fun e => accepted client e.pre e.out

def told (lines : List (List UInt8)) : Standing := ((lines.filterMap announced).getLast?).getD .outside

/-- No CONTROL line for the client is refused in a step. -/
def Hears (client : ClientPtr) (s : CSirServer) (effects : List Effect) : Prop :=
  (accepted client s effects).filterMap announced = (sentTo client effects).filterMap announced

instance (client : ClientPtr) (s : CSirServer) (effects : List Effect)
    : Decidable (Hears client s effects) :=
  inferInstanceAs (Decidable ((accepted client s effects).filterMap announced
    = (sentTo client effects).filterMap announced))

def HearsAll (client : ClientPtr) (tr : List (Entry CSirServer Input Effect)) : Prop :=
  ∀ e ∈ tr, Hears client e.pre e.out

instance (client : ClientPtr) (tr : List (Entry CSirServer Input Effect))
    : Decidable (HearsAll client tr) :=
  inferInstanceAs (Decidable (∀ e ∈ tr, Hears client e.pre e.out))

section Told

variable {client : ClientPtr}

theorem announcements_eq (effects : List Effect)
    : announcements client effects = (sentTo client effects).filterMap announced := by
  unfold announcements sentTo
  rw [List.filterMap_filterMap]
  congr
  funext e
  cases e with
  | notify c msg =>
    dsimp only
    split
    . rfl
    . rfl
  | send data => rfl

theorem Hears.of_prefix {s : CSirServer} {pre post : List Effect}
    (h : Hears client s (pre ++ post))
    : Hears client s pre := by
  unfold Hears accepted at *
  rw [sentTo_append, List.filterMap_append] at h
  cases hc : s.heap[client]? with
  | none =>
    rw [hc] at h
    exact (List.append_eq_nil_iff.mp h.symm).1.symm
  | some c =>
    simp only [hc, Option.map_some, Option.getD_some] at h ⊢
    rw [Client.accepted_append, List.filterMap_append] at h
    have hpre := (c.accepted_sublist (sentTo client pre)).filterMap announced
    have hpost := ((c.sendEach (sentTo client pre)).accepted_sublist
      (sentTo client post)).filterMap announced
    have hlength := congrArg List.length h
    rw [List.length_append, List.length_append] at hlength
    have hle := hpost.length_le
    apply hpre.eq_of_length_le
    omega

theorem filterMap_acceptedIn {tr : List (Entry CSirServer Input Effect)} (h : HearsAll client tr)
    : (acceptedIn client tr).filterMap announced = announcements client (outputs tr) := by
  induction tr with
  | nil => rfl
  | cons e tr ih =>
    unfold HearsAll at h
    rw [List.forall_mem_cons] at h
    have hcons : acceptedIn client (e :: tr) = accepted client e.pre e.out ++ acceptedIn client tr :=
      rfl
    have houtputs : outputs (e :: tr) = e.out ++ outputs tr := rfl
    rw [hcons, houtputs, List.filterMap_append, announcements_append, ih h.2, h.1,
      announcements_eq e.out]

end Told

/--
In every run of the server, the last CONTROL line queued for a connected client tells whether it is the
controller, waits for control, or neither, as long as its buffer has had room for its CONTROL lines.
-/
theorem told_eq_standing {sock : Int} {tr : List (Entry CSirServer Input Effect)} {s : CSirServer}
    (hrun : serverMachine.Run (new sock) tr s) {client : ClientPtr}
    (halive : s.isDead client = false) (hhears : HearsAll client tr)
    : told (acceptedIn client tr) = s.standing client := by
  have hlast : told (acceptedIn client tr) = lastAnnounced client (outputs tr) := by
    unfold told lastAnnounced
    rw [filterMap_acceptedIn hhears]
  rw [hlast]
  rcases (informed_of_run hrun).heard.last client with hstanding | hout
  . apply hstanding
  . rw [dropped_eq, halive, Bool.and_false] at hout
    simp at hout

theorem told_eq_standing_handover
    : ∃ tr s, serverMachine.Run (new 3) tr s
        ∧ inputs tr
            = [.connect 5, .connect 6,
                .receive 99 (fun _ => ⟨255, .success⟩) 0 (.received (ascii "CONTROL ACQUIRE\n")),
                .receive 99 (fun _ => ⟨255, .success⟩) 1 (.received (ascii "CONTROL ACQUIRE\n")),
                .drop 0]
        ∧ acceptedIn 1 tr = [ascii "CONTROL,PENDING\n", ascii "CONTROL,ACQUIRED\n"]
        ∧ s.standing 1 = .holding ∧ told (acceptedIn 1 tr) = .holding := by
  obtain ⟨tr, s, hrun, hin, halive, hstanding, haccepted, hhears⟩ := exists_run (show
    (serverMachine.exec (new 3)
      [.connect 5, .connect 6,
        .receive 99 (fun _ => ⟨255, .success⟩) 0 (.received (ascii "CONTROL ACQUIRE\n")),
        .receive 99 (fun _ => ⟨255, .success⟩) 1 (.received (ascii "CONTROL ACQUIRE\n")),
        .drop 0]).any
    (fun r => r.2.isDead 1 = false ∧ r.2.standing 1 = .holding
      ∧ acceptedIn 1 r.1 = [ascii "CONTROL,PENDING\n", ascii "CONTROL,ACQUIRED\n"]
      ∧ HearsAll 1 r.1)
    = true by decide +kernel)
  exact ⟨tr, s, hrun, hin, haccepted, hstanding,
    (told_eq_standing hrun halive hhears).trans hstanding⟩

-- A client that does not read is not told that it has given up control: its buffer is full.
example
    : (serverMachine.exec (new 3)
        ([.connect 5, .receive 99 (fun _ => ⟨255, .success⟩) 0 (.received (ascii "CONTROL ACQUIRE\n"))]
          ++ List.replicate 61 (.receive 99 (fun _ => ⟨255, .timeout⟩) 0
            (.received (ascii "GET GAIN\n")))
          ++ [.receive 99 (fun _ => ⟨255, .success⟩) 0
            (.received (ascii "CONTROL RELEASE\n"))])).any
        (fun r => told (acceptedIn 0 r.1) = .holding ∧ r.2.standing 0 = .outside) = true := by
  decide +kernel

end CSirServer
