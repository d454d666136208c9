import Sircond.Timetrax.Authenticate
import Sircond.Timetrax.Detection

/-!
This module contains what the start of the radio interface depends on: the bytes received in each phase
of a query or dialog, and nothing that was on the stack before.
-/

open CSerialPort CString Retry

namespace CTTS100

/--
What a loop that waits for `n` bytes receives, and the results of `Recv` that are still to come. The
last piece is received as a whole.
-/
def gather (n : Nat) (received : List UInt8) : List RecvResult → List UInt8 × List RecvResult
  | [] => (received, [])
  | result :: results =>
    if received.length < n then
      match result with
      | .error _ => (received, results)
      | .data bytes =>
        let data := bytes.take (bufSize - received.length)
        if data = [] then (received, results) else gather n (received ++ data) results
    else
      (received, result :: results)

namespace Stage

theorem Holds.readAtLeast (n : Nat) (results : List RecvResult)
    : ∀ {s : Stage} {received rest : List UInt8}, s.Holds received rest →
        (s.readAtLeast n results).2 = (gather n received results).2
          ∧ ∃ rest', (s.readAtLeast n results).1.Holds (gather n received results).1 rest' := by
  induction results with
  | nil =>
    intro s received rest h
    exact ⟨rfl, rest, h⟩
  | cons result results ih =>
    intro s received rest h
    unfold Stage.readAtLeast gather
    rw [h.buflen]
    by_cases hless : received.length < n
    . rw [if_pos hless, if_pos hless]
      cases result with
      | error rc => exact ⟨rfl, rest, h⟩
      | data bytes =>
        have hrecv := h.recv bytes
        dsimp only
        rw [hrecv.buflen, List.length_append]
        by_cases hnone : bytes.take (bufSize - received.length) = []
        . rw [if_pos (by rw [hnone, List.length_nil, Nat.add_zero]), if_pos hnone]
          exact ⟨rfl, rest, h⟩
        . have hpos := List.length_pos_of_ne_nil hnone
          rw [if_neg (by omega), if_neg hnone]
          exact ih hrecv
    . rw [if_neg hless, if_neg hless]
      exact ⟨rfl, rest, h⟩

end Stage

/--
The dialog on the bytes received: the challenge, as far as it has come when the loop that waits for its
fifteen bytes ends, and the result, which begins with the piece after that.
-/
def exchange (requestSent responseSent : Bool) (results : List RecvResult) : Bool × List Call :=
  let request : List Call := [.setDataRate 9600, .send (ascii "A")]
  let (challenge, results) := gather 15 [] results
  let (result, _) := gather 3 [] results
  if requestSent ∧ 15 ≤ challenge.length ∧ [0x3E, 0x3E] <+: challenge then
    (responseSent && 3 ≤ result.length && (result.head? = some 0x50 || result.head? = some 0x70),
      request ++ [.send (response challenge)])
  else
    (false, request)

theorem prefix_iff_getD {challenge : List UInt8} (hlength : 15 ≤ challenge.length)
    : [0x3E, 0x3E] <+: challenge ↔ challenge.getD 0 0 = 0x3E ∧ challenge.getD 1 0 = 0x3E := by
  rcases challenge with _ | ⟨b₀, _ | ⟨b₁, challenge⟩⟩
  . simp at hlength
  . simp at hlength
  . simp [List.cons_prefix_cons, eq_comm]

theorem head?_eq_some_iff_getD {result : List UInt8} (hlength : 3 ≤ result.length) (b : UInt8)
    : result.head? = some b ↔ result.getD 0 0 = b := by
  cases result with
  | nil => simp at hlength
  | cons b' result => simp

theorem Stage.Holds.getD {s : Stage} {received rest : List UInt8} (h : s.Holds received rest)
    {i : Nat} (hi : i < received.length)
    : s.buf.bytes.getD i 0 = received.getD i 0 := by
  rw [h.bytes, List.getD_append _ _ _ _ hi]

theorem Stage.Holds.accepts_iff {s : Stage} {result rest : List UInt8} (h : s.Holds result rest)
    : (s.buflen ≥ 3 ∧ (s.buf.bytes.getD 0 0 = 0x50 ∨ s.buf.bytes.getD 0 0 = 0x70))
        ↔
      (3 ≤ result.length ∧ (result.head? = some 0x50 ∨ result.head? = some 0x70)) := by
  rw [ge_iff_le, h.buflen]
  apply and_congr_right
  intro hlength
  rw [h.getD (by omega), head?_eq_some_iff_getD hlength, head?_eq_some_iff_getD hlength]

theorem Stage.Holds.bad_iff {s : Stage} {challenge rest : List UInt8} (h : s.Holds challenge rest)
    : (s.buflen < 15 ∨ s.buf.bytes.getD 0 0 ≠ 0x3E ∨ s.buf.bytes.getD 1 0 ≠ 0x3E)
        ↔
      ¬ (15 ≤ challenge.length ∧ [0x3E, 0x3E] <+: challenge) := by
  rw [h.buflen, not_and, ← Nat.not_le]
  by_cases hlength : 15 ≤ challenge.length
  . simp only [hlength, not_true_eq_false, false_or, forall_const]
    rw [prefix_iff_getD hlength, h.getD (by omega), h.getD (by omega), not_and_or]
  . simp [hlength]

theorem Stage.Holds.response_eq {s : Stage} {challenge rest : List UInt8}
    (h : s.Holds challenge rest) (hlength : 15 ≤ challenge.length)
    : response s.buf.bytes = response challenge := by
  unfold response
  rw [h.getD (by omega), h.getD (by omega)]

/-- The dialog on the bytes that are received in it. -/
def Dialog.outcome (d : Dialog) : Bool × List Call :=
  exchange d.requestSent d.responseSent d.results

theorem authenticate_eq (d : Dialog) : authenticate d = d.outcome := by
  have hnew : ∀ buf : Buffer, (Stage.new buf).Holds [] buf.bytes := fun buf => ⟨rfl, rfl⟩
  obtain ⟨hresults, rest, hchallenge⟩ := (hnew d.buf).readAtLeast 15 d.results
  unfold authenticate Dialog.outcome exchange
  generalize (Stage.new d.buf).readAtLeast 15 d.results = read at *
  generalize gather 15 [] d.results = gathered at *
  obtain ⟨s, results⟩ := read
  obtain ⟨challenge, results⟩ := gathered
  dsimp only at *
  subst hresults
  obtain ⟨-, rest', hresult⟩ := (hnew s.buf).readAtLeast 3 results
  cases d.requestSent with
  | false => simp
  | true =>
    rw [if_pos rfl]
    by_cases hgood : 15 ≤ challenge.length ∧ [0x3E, 0x3E] <+: challenge
    . have hgoesOn : true = true ∧ 15 ≤ challenge.length ∧ [0x3E, 0x3E] <+: challenge := ⟨rfl, hgood⟩
      rw [if_neg (fun hbad => hchallenge.bad_iff.mp hbad hgood), if_pos hgoesOn,
        hchallenge.response_eq hgood.1]
      cases d.responseSent with
      | false => rfl
      | true =>
        rw [if_pos rfl]
        by_cases haccepts : 3 ≤ (gather 3 [] results).1.length
            ∧ ((gather 3 [] results).1.head? = some 0x50 ∨ (gather 3 [] results).1.head? = some 0x70)
        . rw [if_pos (hresult.accepts_iff.mpr haccepts)]
          simp [haccepts]
        . rw [if_neg (mt hresult.accepts_iff.mp haccepts)]
          simpa using haccepts
    . rw [if_pos (hchallenge.bad_iff.mpr hgood), if_neg (fun h => hgood h.2)]

-- What the piece that completes the challenge brings behind it is lost.
example
    : [[List.replicate 15 0x3E, ascii "P\r\n"], [List.replicate 15 0x3E ++ ascii "P", ascii "\r\n"]].map
        (fun pieces => (exchange true true (pieces.map .data)).1)
      = [true, false] := by
  decide +kernel

/--
The text of a reply is what comes before the first zero in it, and it is all that decides if it names
the device and announces a version.
-/
def Query.detects (q : Query) : Bool :=
  let received := reply [] q.results
  let text := received.takeWhile fun b => b ≠ 0
  q.sent && 9 ≤ received.length && timeTrax <:+: text && version <:+: text

/--
The reply decides by itself if a device is detected: it is self-contained, or it has both words, so that
it does not matter what comes behind it.
-/
def Decides (received : List UInt8) : Prop :=
  SelfContained received ∨ (timeTrax <:+: received ∧ version <:+: received)

instance (received : List UInt8) : Decidable (Decides received) :=
  inferInstanceAs (Decidable (_ ∨ (_ ∧ _)))

def query : List Call := [.setDataRate 9600, .send (ascii "V")]

theorem detected_parseReply (limit buflen : Nat) (mem : Nat → UInt8)
    : ((parseReply limit buflen).value mem).detected = true
        ↔ 9 ≤ buflen ∧ timeTrax <:+: (bytes mem limit 0).takeWhile (fun b => b ≠ 0)
          ∧ version <:+: (bytes mem limit 0).takeWhile fun b => b ≠ 0 := by
  rw [← isSome_value_strstr, ← isSome_value_strstr]
  unfold parseReply
  by_cases hlen : buflen < 9
  . rw [if_pos hlen]
    simp [hlen]
  . rw [if_neg hlen, Logged.value_bind]
    cases htimeTrax : (strstr timeTrax limit 0).value mem with
    | none => simp
    | some start =>
      dsimp only
      rw [Logged.value_bind]
      cases hversion : (strstr version limit 0).value mem with
      | none => simp
      | some p =>
        dsimp only
        rw [Logged.value_bind]
        have hle : 9 ≤ buflen := by omega
        cases (strtok majorDelims limit (p + 7)).value mem with
        | none => simp [hle]
        | some r =>
          dsimp only
          rw [Logged.value_bind]
          cases (strtok minorDelims limit r.2).value mem with
          | none => simp [hle]
          | some r' => simp [hle]

theorem infix_text_iff {needle received : List UInt8} (rest : List UInt8)
    (h : 0 ∈ received ∨ needle <:+: received)
    : needle <:+: (received ++ rest).takeWhile (fun b => b ≠ 0)
        ↔ needle <:+: received.takeWhile fun b => b ≠ 0 := by
  by_cases hzero : 0 ∈ received
  . have hstop : (received.takeWhile fun b => b ≠ 0).length ≠ received.length := by
      intro hlength
      have hall := (List.takeWhile_prefix (fun b => decide (b ≠ 0)) (l := received)).eq_of_length
        hlength
      rw [List.takeWhile_eq_self_iff] at hall
      simpa using hall 0 hzero
    rw [List.takeWhile_append, if_neg hstop]
  . have hall : (received.takeWhile fun b => b ≠ 0) = received := by
      rw [List.takeWhile_eq_self_iff]
      intro b hb
      rw [decide_eq_true_eq]
      rintro rfl
      exact hzero hb
    have hneedle := h.resolve_left hzero
    rw [List.takeWhile_append, hall, if_pos rfl]
    simp only [hneedle, iff_true]
    exact hneedle.trans (List.prefix_append _ _).isInfix

theorem bytes_getD (l : List UInt8)
    : bytes (fun pos => l.getD pos 0) (l.length + 1) 0 = l ++ [0] := by
  apply List.ext_getElem
  . simp [bytes]
  . intro i hi _
    simp only [bytes, List.length_map, List.length_range] at hi
    by_cases hlt : i < l.length
    . simp [bytes, List.getElem_append_left hlt, hlt]
    . obtain rfl : i = l.length := by omega
      simp [bytes]

theorem Query.run_eq {q : Query} (hdecides : q.sent = false ∨ Decides (reply [] q.results))
    : q.run = (q.detects, query) := by
  unfold Query.run Query.detects
  cases hsent : q.sent with
  | false => rfl
  | true =>
    have hdecides : Decides (reply [] q.results) := by simpa [hsent] using hdecides
    have hnew : (Stage.new q.buf).Holds [] q.buf.bytes := ⟨rfl, rfl⟩
    obtain ⟨rest, hstage⟩ :
        ∃ rest, ((Stage.new q.buf).readReply q.results).Holds (reply [] q.results) rest :=
      hnew.readReply
    generalize hreceived : reply [] q.results = received at *
    rw [Prod.mk.injEq]
    refine ⟨?_, rfl⟩
    rw [Bool.eq_iff_iff]
    have hmem : bytes (fun pos => (((Stage.new q.buf).readReply q.results).buf.bytes ++ q.stack).getD
          pos 0) (bufSize + q.stack.length + 1) 0
        = received ++ (rest ++ q.stack ++ [0]) := by
      have hlength : bufSize + q.stack.length
          = (((Stage.new q.buf).readReply q.results).buf.bytes ++ q.stack).length := by
        rw [List.length_append, Buffer.size]
      rw [hlength, bytes_getD, hstage.bytes]
      simp
    have hrun : (queryVersion true q.results q.buf q.stack).1
        = (parseReply (bufSize + q.stack.length + 1)
            ((Stage.new q.buf).readReply q.results).buflen).value fun pos =>
          (((Stage.new q.buf).readReply q.results).buf.bytes ++ q.stack).getD pos 0 := rfl
    rw [hrun, detected_parseReply, hmem, hstage.buflen]
    simp only [Bool.true_and, Bool.and_eq_true, decide_eq_true_eq, and_assoc]
    apply and_congr_right
    intro hlen
    rcases hdecides with (hshort | hzero) | ⟨htimeTrax, hversion⟩
    . omega
    . rw [infix_text_iff _ (.inl hzero), infix_text_iff _ (.inl hzero)]
    . rw [infix_text_iff _ (.inr htimeTrax), infix_text_iff _ (.inr hversion)]

/--
The start of the radio interface: it depends on the bytes that the queries and the two loops of each
dialog receive, and on nothing that was on the stack. The link is started, as the last thing, exactly if
no device is detected in the five attempts or one of the five dialogs with it ends well; before that
nothing is sent but the queries, up to the first that is answered, and in each dialog the request and
the response to the challenge that has just arrived.
-/
theorem onStart_determined (queries : Nat → Query) (dialogs : Nat → Dialog)
    (hdecides : ∀ i < maxAuthAttempts,
      (queries i).sent = false ∨ Decides (reply [] (queries i).results))
    : ((onStart true queries dialogs).1 = true
          ↔ ((∃ i < maxAuthAttempts, (queries i).detects = true) →
              ∃ i < maxAuthAttempts, (dialogs i).outcome.1 = true))
        ∧ (onStart true queries dialogs).2
            = (List.replicate (tries (fun i => (queries i).detects) maxAuthAttempts 0) query).flatten
              ++ (if ∃ i < maxAuthAttempts, (queries i).detects = true then
                  (List.range (tries (fun i => (dialogs i).outcome.1) maxAuthAttempts 0)).flatMap
                    fun i => (dialogs i).outcome.2
                      ++ if (dialogs i).outcome.1 then [] else [.sleep 1]
                else
                  [])
              ++ if (onStart true queries dialogs).1 then startLink.2 else [] := by
  have hdetect : retry (fun cnt => (queries cnt).run) [] maxAuthAttempts 0
      = retry (fun cnt => ((queries cnt).detects, query)) [] maxAuthAttempts 0 := by
    apply retry_congr
    intro i hi
    rw [Nat.zero_add]
    apply Query.run_eq (hdecides i hi)
  have hdialog : (fun cnt => authenticate (dialogs cnt)) = fun cnt => (dialogs cnt).outcome := by
    funext cnt
    apply authenticate_eq
  have hfound := retry_fst_iff (fun cnt => ((queries cnt).detects, query)) [] maxAuthAttempts 0
  have hqueries := retry_snd (fun cnt => ((queries cnt).detects, query)) [] maxAuthAttempts 0
  have haccepted := retry_fst_iff (fun cnt => (dialogs cnt).outcome) [.sleep 1] maxAuthAttempts 0
  have hexchanges := retry_snd (fun cnt => (dialogs cnt).outcome) [.sleep 1] maxAuthAttempts 0
  simp only [Nat.zero_add, ite_self, List.append_nil] at hfound hqueries haccepted hexchanges
  unfold onStart
  rw [if_pos rfl, hdetect, hdialog]
  generalize retry (fun cnt => ((queries cnt).detects, query)) [] maxAuthAttempts 0 = found at *
  generalize retry (fun cnt => (dialogs cnt).outcome) [.sleep 1] maxAuthAttempts 0 = ended at *
  obtain ⟨isTTS100, calls⟩ := found
  obtain ⟨auth, calls'⟩ := ended
  dsimp only at *
  rw [List.flatMap_def, List.map_const', List.length_range] at hqueries
  simp only [← hfound, ← haccepted, ← hexchanges, ← hqueries]
  cases isTTS100 with
  | false => simp [startLink]
  | true =>
    cases auth with
    | false => simp
    | true => simp [startLink]

theorem onStart_determined_retry
    : ∃ queries dialogs,
        (∀ i, (queries i : Query).buf.bytes = List.replicate bufSize 0x3F)
          ∧ (onStart true queries dialogs).1 = true
          ∧ (onStart true queries dialogs).2 = query ++ query
            ++ [.setDataRate 9600, .send (ascii "A"), .sleep 1, .setDataRate 9600, .send (ascii "A"),
              .send [0x22, 0xF1, 0x59, 0x37, 0xF6, 0xA7, 0xFA, 0x3F, 0xD8, 0x5E, 0x27, 0x06, 0x0E,
                0x39, 0xFA, 0xE8, 0x75, 0x29, 0xAC, 0x3E, 0x50]]
            ++ startLink.2 := by
  let junk : Buffer := ⟨List.replicate bufSize 0x3F, List.length_replicate⟩
  let queries : Nat → Query := fun i => {
    sent := true
    results := if i = 0 then [.error .errorTimeout] else
      [.data (ascii "Time Tr"), .data (ascii "ax Version 1.20\r\n")]
    buf := junk
    stack := []
  }
  let dialogs : Nat → Dialog := fun i => {
    requestSent := true
    responseSent := true
    results := if i = 0 then [.data [0x3E], .error .errorTimeout] else
      [.data [0x3E, 0x3E, 0x01], .data [0x02, 0x04, 0, 0, 0, 0, 0, 0, 0, 0, 0, 0, 0, 0],
        .data (ascii "P"), .data (ascii "\r\n")]
    buf := junk
  }
  have hdecides : ∀ i < maxAuthAttempts,
      (queries i).sent = false ∨ Decides (reply [] (queries i).results) := by
    decide +kernel
  obtain ⟨hstarted, hcalls⟩ := onStart_determined queries dialogs hdecides
  have htrue : (onStart true queries dialogs).1 = true := by
    rw [hstarted]
    intro _
    exact ⟨1, by decide, by decide +kernel⟩
  refine ⟨queries, dialogs, fun _ => rfl, htrue, ?_⟩
  rw [hcalls, htrue]
  decide +kernel

end CTTS100
