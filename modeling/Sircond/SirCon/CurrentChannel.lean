import Sircond.SirCon.Caching

/-!
This module contains to which channel the radio is tuned according to the messages it has sent, and
that the cached channel is this one.
-/

open Scp Machine

namespace Cache

def tunedTo : List UInt8 → Option UInt8
  | kind :: id :: b₂ :: b₃ :: channel :: _ =>
    if kind = msgAsync ∧ id = scpAsyncStatus ∧ b₂ = stTune then
      some channel
    else if kind = msgGetResp ∧ id = scpGetChannel ∧ b₂ = 0 ∧ b₃ = 0 then
      some channel
    else if kind = msgSetResp ∧ id = scpSetChannel ∧ b₂ = 0 ∧ b₃ = 0 then
      some channel
    else
      none
  | _ => none

/--
The number of bytes a message must have for its kind, as far as the cached channel is concerned.
-/
def minLength (payload : List UInt8) : Nat :=
  if payload.getD 0 0 = msgSetResp then
    4
  else if payload.getD 0 0 = msgGetResp then
    if payload.getD 1 0 = scpGetChannel ∧ payload.getD 2 0 = 0 ∧ payload.getD 3 0 = 0 then 5 else 4
  else if payload.getD 0 0 = msgAsync then
    if payload.getD 1 0 = scpAsyncStatus then
      if payload.getD 2 0 = stTune then 5 else 3
    else
      2
  else
    1

def LongEnough (payload : List UInt8) : Prop := minLength payload ≤ payload.length

instance (payload : List UInt8) : Decidable (LongEnough payload) :=
  inferInstanceAs (Decidable (_ ≤ _))

section TunedTo

variable {payload : List UInt8} (after : Memory)

theorem tunedTo_eq_none (hshort : payload.length < 5) : tunedTo payload = none := by
  unfold tunedTo
  split
  . simp at hshort
    omega
  . rfl

theorem not_tunes (hlong : LongEnough payload) (hshort : payload.length < 5)
    : ¬ Tunes (memory payload after) payload.length := by
  have h₁ : msgAsync ≠ msgSetResp := by decide
  have h₂ : msgAsync ≠ msgGetResp := by decide
  have h₃ : msgGetResp ≠ msgSetResp := by decide
  unfold LongEnough minLength at hlong
  unfold Tunes memory
  rcases payload with _ | ⟨kind, _ | ⟨id, _ | ⟨b₂, _ | ⟨b₃, _ | ⟨channel, rest⟩⟩⟩⟩⟩
  . grind
  . grind
  . grind
  . grind
  . grind
  . simp at hshort
    omega

theorem tunedTo_eq (hlong : LongEnough payload)
    : (Tunes (memory payload after) payload.length ∧ tunedTo payload = some (memory payload after 4))
        ∨ (¬ Tunes (memory payload after) payload.length ∧ tunedTo payload = none) := by
  by_cases hlen : payload.length < 5
  . right
    exact ⟨not_tunes after hlong hlen, tunedTo_eq_none hlen⟩
  . rcases payload with _ | ⟨kind, _ | ⟨id, _ | ⟨b₂, _ | ⟨b₃, _ | ⟨channel, rest⟩⟩⟩⟩⟩
    iterate 5 simp at hlen
    have hmem : memory (kind :: id :: b₂ :: b₃ :: channel :: rest) after 4 = channel := rfl
    rw [hmem]
    have htunes : Tunes (memory (kind :: id :: b₂ :: b₃ :: channel :: rest) after)
          (kind :: id :: b₂ :: b₃ :: channel :: rest).length
        ↔ (kind = msgAsync ∧ id = scpAsyncStatus ∧ b₂ = stTune)
          ∨ (kind = msgGetResp ∧ id = scpGetChannel ∧ b₂ = 0 ∧ b₃ = 0)
          ∨ (kind = msgSetResp ∧ id = scpSetChannel ∧ b₂ = 0 ∧ b₃ = 0) := by
      simp [Tunes, memory]
    rw [htunes]
    unfold tunedTo
    grind

end TunedTo

section Follows

variable {c c' : Cache} {ds : List Dispatched}

theorem CacheEffect.currChannel {d : Dispatched} {after : Memory}
    (h : CacheEffect (memory d.payload after) d.payload.length c c' d.events)
    (hlong : LongEnough d.payload)
    : c'.currChannel = (tunedTo d.payload).getD c.currChannel
        ∧ ∀ channel, tunedTo d.payload = some channel → ∃ event ∈ d.events, Names channel event := by
  have htuned := tunedTo_eq after hlong
  generalize d.events = events at h ⊢
  cases h with
  | keep _ htunes =>
    cases htuned with
    | inl htuned => exact absurd htuned.1 htunes
    | inr htuned => simp [htuned.2]
  | tune _ htunes _ hnames =>
    cases htuned with
    | inl htuned =>
      rw [htuned.2]
      simpa using hnames
    | inr htuned => exact absurd htunes htuned.1
  | map htunes =>
    cases htuned with
    | inl htuned => exact absurd htuned.1 htunes
    | inr htuned => simp [htuned.2]

theorem Follows.currChannel (h : Follows c ds c') (hlong : ∀ d ∈ ds, LongEnough d.payload)
    : c'.currChannel = ((ds.filterMap fun d => tunedTo d.payload).getLast?).getD c.currChannel := by
  induction h with
  | nil => rfl
  | cons after heffect _ ih =>
    simp only [List.mem_cons, forall_eq_or_imp] at hlong
    rw [ih hlong.2, (heffect.currChannel hlong.1).1, List.filterMap_cons]
    split
    . next hnone => rw [hnone, Option.getD_none]
    . next channel hsome => simp [hsome, List.getLast?_cons]

theorem Follows.names (h : Follows c ds c') (hlong : ∀ d ∈ ds, LongEnough d.payload)
    : ∀ d ∈ ds, ∀ channel, tunedTo d.payload = some channel →
        ∃ event ∈ d.events, Names channel event := by
  induction h with
  | nil => simp
  | cons after heffect _ ih =>
    simp only [List.mem_cons, forall_eq_or_imp] at hlong ⊢
    exact ⟨(heffect.currChannel hlong.1).2, ih hlong.2⟩

/--
A change of the cached channel is notified: one of the messages names the new channel in an event.
-/
theorem Follows.notified (h : Follows c ds c') (hlong : ∀ d ∈ ds, LongEnough d.payload)
    (hne : c'.currChannel ≠ c.currChannel)
    : ∃ d ∈ ds, tunedTo d.payload = some c'.currChannel
        ∧ ∃ event ∈ d.events, Names c'.currChannel event := by
  have hlast := h.currChannel hlong
  cases htuned : (ds.filterMap fun d => tunedTo d.payload).getLast? with
  | none =>
    rw [htuned] at hlast
    exact absurd hlast hne
  | some channel =>
    rw [htuned, Option.getD_some] at hlast
    have hmem := List.mem_of_getLast? htuned
    rw [List.mem_filterMap, ← hlast] at hmem
    obtain ⟨d, hd, hchannel⟩ := hmem
    exact ⟨d, hd, hchannel, h.names hlong d hd _ hchannel⟩

end Follows

end Cache

namespace CSirCon

open Cache

/--
The current channel is the one carried by the most recent message that says to which channel the radio
is tuned, and invalid before the first one. Every such message comes with an event that names the
channel, no other message changes it, and a duplicate is not even dispatched.
-/
theorem getCurrentChannel_eq {block : List UInt8} {now : Nat}
    {tr : List (Entry (CSirCon × Cache) (Input × Memory) Dispatched)} {s : CSirCon} {c : Cache}
    (hrun : cachingMachine.Run (CSirCon.new block now, Cache.new) tr (s, c))
    (hlong : ∀ d ∈ outputs tr, LongEnough d.payload)
    : c.getCurrentChannel
          =
        (((outputs tr).filterMap fun d => tunedTo d.payload).getLast?).getD invalidChannel
        ∧
      ∀ e ∈ tr,
        (∀ d ∈ e.out, ∀ channel, tunedTo d.payload = some channel →
            ∃ event ∈ d.events, Names channel event)
          ∧ (e.post.2.getCurrentChannel ≠ e.pre.2.getCurrentChannel →
              ∃ d ∈ e.out, tunedTo d.payload = some e.post.2.getCurrentChannel
                ∧ ∃ event ∈ d.events, Names e.post.2.getCurrentChannel event)
          ∧ ((∀ d ∈ e.out, tunedTo d.payload = none) →
              e.post.2.getCurrentChannel = e.pre.2.getCurrentChannel)
          ∧ (∀ msg after, e.input = (.receive msg, after) →
              ((SHdr.ofBytes msg).seq.toNat : Int) = e.pre.1.link.lastSeq → e.out = []) := by
  refine ⟨(follows_of_run hrun).currChannel hlong, ?_⟩
  intro e he
  have hfollows := follows_of_mem hrun he
  have hlong' : ∀ d ∈ e.out, LongEnough d.payload := by
    intro d hd
    apply hlong
    exact List.mem_flatMap.mpr ⟨e, he, hd⟩
  refine ⟨hfollows.names hlong', hfollows.notified hlong', ?_, ?_⟩
  . intro hnone
    have hlast := hfollows.currChannel hlong'
    rw [List.filterMap_eq_nil_iff.mpr hnone] at hlast
    exact hlast
  . intro msg after hinput hseq
    obtain ⟨-, -, hstep⟩ := hrun.of_mem he
    rw [hinput] at hstep
    apply out_duplicate hstep hseq

theorem getCurrentChannel_eq_tuned
    : ∃ tr s c,
        cachingMachine.Run (CSirCon.new (List.replicate stageBufSize 0) 1, Cache.new) tr (s, c)
          ∧ (inputs tr).map Prod.fst
              = [.receive (frameBytes 0x05 ⟨[0x80, 0x04, 0x00, 0x00, 0x21], by decide⟩),
                  .receive (frameBytes 0x05 ⟨[0x60, 0x0A, 0x00, 0x00, 0x22], by decide⟩),
                  .receive (frameBytes 0x06 ⟨[0x60, 0x0A, 0x00, 0x01, 0x23], by decide⟩)]
          ∧ (outputs tr).map Dispatched.payload
              = [[0x80, 0x04, 0x00, 0x00, 0x21], [0x60, 0x0A, 0x00, 0x01, 0x23]]
          ∧ c.getCurrentChannel = 0x21
          ∧ c.getCurrentChannel
              = (((outputs tr).filterMap fun d => tunedTo d.payload).getLast?).getD
                  invalidChannel := by
  obtain ⟨tr, ⟨s, c⟩, hrun, hin, hcheck⟩ := exists_run (show (cachingMachine.exec
    (CSirCon.new (List.replicate stageBufSize 0) 1, Cache.new)
    [(.receive (frameBytes 0x05 ⟨[0x80, 0x04, 0x00, 0x00, 0x21], by decide⟩), fun _ => 0),
      (.receive (frameBytes 0x05 ⟨[0x60, 0x0A, 0x00, 0x00, 0x22], by decide⟩), fun _ => 0),
      (.receive (frameBytes 0x06 ⟨[0x60, 0x0A, 0x00, 0x01, 0x23], by decide⟩), fun _ => 0)]).any
    (fun r => (outputs r.1).map Dispatched.payload
        = [[0x80, 0x04, 0x00, 0x00, 0x21], [0x60, 0x0A, 0x00, 0x01, 0x23]]
      ∧ r.2.2.getCurrentChannel = 0x21 ∧ ∀ d ∈ outputs r.1, LongEnough d.payload) = true by
      decide +kernel)
  obtain ⟨hout, hchannel, hlong⟩ := hcheck
  exact ⟨tr, s, c, hrun, by rw [hin]; rfl, hout, hchannel, (getCurrentChannel_eq hrun hlong).1⟩

end CSirCon
