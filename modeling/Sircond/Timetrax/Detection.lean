import Sircond.Timetrax.Impl
import Mathlib.Data.List.GetD

/-!
This module contains for which replies the detection of a TTS-100 depends on nothing but the reply.
-/

open CString CSerialPort

namespace CTTS100

def reply (received : List UInt8) : List RecvResult → List UInt8
  | [] => received
  | result :: results =>
    if received.getLast? = some 0x0A then
      received
    else
      match result with
      | .error _ => received
      | .data bytes =>
        let data := bytes.take (bufSize - received.length)
        if data = [] then received else reply (received ++ data) results

namespace Stage

/--
The buffer holds what was received, and behind it what was there before.
-/
structure Holds (s : Stage) (received rest : List UInt8) : Prop where
  bytes : s.buf.bytes = received ++ rest
  buflen : s.buflen = received.length

theorem Holds.recv {s : Stage} {received rest : List UInt8} (h : s.Holds received rest)
    (bytes : List UInt8)
    : (s.recv bytes).Holds (received ++ bytes.take (bufSize - received.length))
        (rest.drop (bytes.take (bufSize - received.length)).length) where
  bytes := by
    unfold Stage.recv
    dsimp only
    rw [h.bytes, h.buflen, List.take_left, List.drop_append, List.drop_eq_nil_of_le (by omega)]
    simp
  buflen := by
    unfold Stage.recv
    simp [h.buflen]

theorem Holds.incomplete_iff {s : Stage} {received rest : List UInt8} (h : s.Holds received rest)
    : s.buflen = 0 ∨ s.buf.bytes.getD (s.buflen - 1) 0 ≠ 0x0A ↔ received.getLast? ≠ some 0x0A := by
  rw [h.bytes, h.buflen]
  rcases List.eq_nil_or_concat' received with rfl | ⟨init, b, rfl⟩
  . simp
  . simp

theorem Holds.readReply {results : List RecvResult}
    : ∀ {s : Stage} {received rest : List UInt8}, s.Holds received rest →
        ∃ rest', (s.readReply results).Holds (reply received results) rest' := by
  induction results with
  | nil =>
    intro s received rest h
    exact ⟨rest, h⟩
  | cons result results ih =>
    intro s received rest h
    unfold Stage.readReply reply
    by_cases hlast : received.getLast? = some 0x0A
    . rw [if_pos hlast, if_neg fun hinc => h.incomplete_iff.mp hinc hlast]
      exact ⟨rest, h⟩
    . rw [if_neg hlast, if_pos (h.incomplete_iff.mpr hlast)]
      cases result with
      | error rc => exact ⟨rest, h⟩
      | data bytes =>
        have hrecv := h.recv bytes
        dsimp only
        by_cases hdata : bytes.take (bufSize - received.length) = []
        . rw [if_pos hdata, if_pos (by rw [hrecv.buflen, h.buflen, hdata, List.append_nil])]
          rw [hdata, List.append_nil] at hrecv
          exact ⟨_, hrecv⟩
        . have hpos := List.length_pos_of_ne_nil hdata
          have hne : (s.recv bytes).buflen ≠ s.buflen := by
            rw [hrecv.buflen, h.buflen, List.length_append]
            omega
          rw [if_neg hdata, if_neg hne]
          exact ih hrecv

end Stage

/--
The search of the reply for the version in the reply alone.
-/
def parseReplyIn (received : List UInt8) : Option Version :=
  if received.length < 9 then
    return ⟨false, 0, 0⟩
  else do
    match ← strstrIn timeTrax received with
    | none => return ⟨false, 0, 0⟩
    | some _ =>
      match ← strstrIn version received with
      | none => return ⟨false, 0, 0⟩
      | some p =>
        match ← strtokIn majorDelims (p.drop 7) with
        | none => return ⟨true, 0, 0⟩
        | some (major, next) =>
          match ← strtokIn minorDelims next with
          | none => return ⟨true, (atoi major).toUInt32, 0⟩
          | some (minor, _) => return ⟨true, (atoi major).toUInt32, (atoi minor).toUInt32⟩

theorem agrees_parseReply {mem : Nat → UInt8} {received : List UInt8} {limit : Nat}
    (h : Points mem received.length 0 received) (hlimit : received.length < limit)
    : Agrees mem received.length Eq (parseReply limit received.length) (parseReplyIn received) := by
  refine .ite (fun _ => agrees_pure rfl) fun _ => ?_
  apply (agrees_strstr _ h hlimit).bind
  rintro _ _ - (_ | -)
  . apply (agrees_strstr _ h hlimit).bind
    rintro _ _ - (⟨hp, hpre⟩ | -)
    . have hlen := hpre.length_le
      have hdrop := hp.drop (k := 7) hlen
      apply (agrees_strtok majorDelims hdrop hlimit).bind
      rintro _ _ - (@⟨⟨major, next⟩, ⟨_, rest⟩, ⟨rfl, hnext⟩⟩ | -)
      . apply (agrees_strtok minorDelims hnext hlimit).bind
        rintro _ _ - (@⟨⟨minor, _⟩, _, ⟨rfl, -⟩⟩ | -)
        . exact agrees_pure rfl
        . exact agrees_pure rfl
      . exact agrees_pure rfl
    . exact agrees_pure rfl
  . exact agrees_pure rfl

/--
The reply is all that is needed: it is so short that it is not searched, or a zero ends it.
-/
def SelfContained (received : List UInt8) : Prop := received.length < 9 ∨ 0 ∈ received

instance (received : List UInt8) : Decidable (SelfContained received) :=
  inferInstanceAs (Decidable (_ ∨ _))

section SelfContained

variable {received : List UInt8}

theorem isSome_parseReplyIn_of_zero_mem (hlen : ¬ received.length < 9) (hzero : 0 ∈ received)
    : (parseReplyIn received).isSome = true := by
  have hmajor : 0 ∉ majorDelims := by decide
  have hminor : 0 ∉ minorDelims := by decide
  unfold parseReplyIn
  rw [if_neg hlen]
  obtain ⟨o, ho⟩ := Option.isSome_iff_exists.mp ((isSome_strstrIn_iff timeTrax received).mpr hzero)
  rw [ho]
  cases o with
  | none => rfl
  | some t =>
    obtain ⟨o', ho'⟩ := Option.isSome_iff_exists.mp ((isSome_strstrIn_iff version received).mpr hzero)
    simp only [ho', Option.bind_eq_bind, Option.bind_some]
    cases o' with
    | none => rfl
    | some p =>
      have hdrop : 0 ∈ p.drop 7 := zero_mem_of_strstrIn hzero ho'
      rcases strtokIn_of_zero_mem hmajor hdrop with hnone | ⟨major, next, hsome, hnext⟩
      . simp [hnone]
      . rcases strtokIn_of_zero_mem hminor hnext with hnone' | ⟨minor, rest, hsome', -⟩
        . simp [hsome, hnone']
        . simp [hsome, hsome']

theorem isSome_parseReplyIn_iff : (parseReplyIn received).isSome = true ↔ SelfContained received := by
  unfold SelfContained
  by_cases hlen : received.length < 9
  . simp [parseReplyIn, hlen]
  . simp only [hlen, false_or]
    constructor
    . intro hsome
      by_contra hzero
      have hnone : strstrIn timeTrax received = none := by
        rw [← Option.not_isSome_iff_eq_none, isSome_strstrIn_iff]
        exact hzero
      simp [parseReplyIn, hlen, hnone] at hsome
    . apply isSome_parseReplyIn_of_zero_mem hlen

end SelfContained

def Buffer.pad (bytes : List UInt8) : Buffer where
  bytes := (bytes ++ List.replicate bufSize 0).take bufSize
  size := by simp

section QueryVersion

variable (results : List RecvResult) (buf : Buffer) (stack : List UInt8)

theorem agrees_queryVersion
    : match parseReplyIn (reply [] results) with
      | none => ¬ ∀ pos ∈ (queryVersion true results buf stack).2, pos < (reply [] results).length
      | some v =>
        (∀ pos ∈ (queryVersion true results buf stack).2, pos < (reply [] results).length)
          ∧ (queryVersion true results buf stack).1 = v := by
  have hnew : (Stage.new buf).Holds [] buf.bytes := ⟨rfl, rfl⟩
  obtain ⟨rest, hstage⟩ : ∃ rest, ((Stage.new buf).readReply results).Holds (reply [] results) rest :=
    hnew.readReply
  have hpoints : Points
      (fun pos => (((Stage.new buf).readReply results).buf.bytes ++ stack).getD pos 0)
      (reply [] results).length 0 (reply [] results) := by
    refine ⟨?_, Nat.zero_add _⟩
    intro i hi
    rw [hstage.bytes, List.append_assoc, Nat.zero_add, List.getD_append _ _ _ _ hi,
      List.getD_eq_getElem _ _ hi]
  have hlimit : (reply [] results).length < bufSize + stack.length + 1 := by
    have hle := ((Stage.new buf).readReply results).le
    rw [hstage.buflen] at hle
    omega
  have hagrees := agrees_parseReply hpoints hlimit
  rw [← hstage.buflen] at hagrees ⊢
  cases hversion : parseReplyIn (reply [] results) with
  | none =>
    rw [hversion] at hagrees
    exact hagrees
  | some v =>
    rw [hversion] at hagrees
    exact hagrees

end QueryVersion

/--
For every two initial contents of the buffer the version is the same, and nothing behind the reply is
read, if and only if no request could be sent, or fewer than nine bytes were received, or a zero is
among them.
-/
theorem queryVersion_iff (sent : Bool) (results : List RecvResult)
    : (∀ (buf buf' : Buffer) (stack : List UInt8),
        (queryVersion sent results buf stack).1 = (queryVersion sent results buf' stack).1
          ∧ ∀ pos ∈ (queryVersion sent results buf stack).2, pos < (reply [] results).length)
        ↔
      sent = false ∨ SelfContained (reply [] results) := by
  cases sent with
  | false => simp [queryVersion]
  | true =>
    rw [← isSome_parseReplyIn_iff]
    simp only [Bool.true_eq_false, false_or]
    have hagrees := agrees_queryVersion results
    cases hversion : parseReplyIn (reply [] results) with
    | none =>
      simp only [hversion] at hagrees
      simp only [Option.isSome_none, Bool.false_eq_true, iff_false]
      intro h
      exact hagrees (.pad []) [] (h (.pad []) (.pad []) []).2
    | some v =>
      simp only [hversion] at hagrees
      simp only [Option.isSome_some, iff_true]
      intro buf buf' stack
      exact ⟨(hagrees buf stack).2.trans (hagrees buf' stack).2.symm, (hagrees buf stack).1⟩

theorem queryVersion_stale
    : (queryVersion true [.data (ascii "Time Trax\n")] (.pad []) []).1 = ⟨false, 0, 0⟩
        ∧ (queryVersion true [.data (ascii "Time Trax\n")]
          (.pad (List.replicate 10 0x3F ++ ascii "Version 1.20\r\n")) []).1 = ⟨true, 1, 20⟩
        ∧ ¬ ∀ (buf buf' : Buffer) (stack : List UInt8),
          (queryVersion true [.data (ascii "Time Trax\n")] buf stack).1
              = (queryVersion true [.data (ascii "Time Trax\n")] buf' stack).1
            ∧ ∀ pos ∈ (queryVersion true [.data (ascii "Time Trax\n")] buf stack).2,
              pos < (reply [] [.data (ascii "Time Trax\n")]).length := by
  have hzero : (queryVersion true [.data (ascii "Time Trax\n")] (.pad []) []).1 = ⟨false, 0, 0⟩ := by
    decide +kernel
  have hstale : (queryVersion true [.data (ascii "Time Trax\n")]
      (.pad (List.replicate 10 0x3F ++ ascii "Version 1.20\r\n")) []).1 = ⟨true, 1, 20⟩ := by
    decide +kernel
  refine ⟨hzero, hstale, ?_⟩
  intro h
  have hsame := (h (.pad []) (.pad (List.replicate 10 0x3F ++ ascii "Version 1.20\r\n")) []).1
  rw [hzero, hstale] at hsame
  simp at hsame

end CTTS100
