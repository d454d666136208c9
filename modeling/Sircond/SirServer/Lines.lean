import Sircond.SirServer.Impl.Receive
import Sircond.Lib.Scanner
import Sircond.Util.Basic

/-!
This module contains the line reader of a client. What it should do with a stream of bytes is given
by a transducer whose state is the line read so far: the code does the same exactly as long as no
chunk ends within a line.
-/

namespace Client

def lineReader : Transducer (List UInt8) UInt8 (List UInt8) := fun line b =>
  if b = newline then
    ([], [line])
  else
    (line ++ [b], [])

theorem lineReader_of_not_mem {line buf : List UInt8} (h : newline ∉ buf)
    : lineReader.run line buf = (line ++ buf, []) := by
  induction buf generalizing line with
  | nil => simp
  | cons b buf ih =>
    rw [List.mem_cons, not_or] at h
    rw [Transducer.run_cons]
    simp only [lineReader, if_neg (Ne.symm h.1)]
    rw [ih h.2]
    simp

theorem lineReader_rest_eq_nil_iff (stream : List UInt8)
    : (lineReader.run [] stream).1 = [] ↔ stream = [] ∨ stream.getLast? = some newline := by
  rcases List.eq_nil_or_concat' stream with rfl | ⟨stream, b, rfl⟩
  . simp
  . rw [Transducer.run_append, Transducer.run_cons]
    simp only [lineReader, Transducer.run_nil]
    split
    . next h => simp [h]
    . next h => simp [h]

theorem scan_eq_none {i : Nat} {line buf : List UInt8} (h : newline ∉ buf)
    : processData.scan i line buf = none := by
  induction buf generalizing i line with
  | nil => rfl
  | cons b buf ih =>
    rw [List.mem_cons, not_or] at h
    rw [processData.scan, if_neg (Ne.symm h.1)]
    apply ih h.2

theorem scan_append {i : Nat} {line text rest : List UInt8} (h : newline ∉ text)
    : processData.scan i line (text ++ newline :: rest)
        =
      some (line ++ text, i + text.length + 1) := by
  induction text generalizing i line with
  | nil => simp [processData.scan]
  | cons b text ih =>
    rw [List.mem_cons, not_or] at h
    rw [List.cons_append, processData.scan, if_neg (Ne.symm h.1), ih h.2]
    simp
    omega

theorem lineReader_append {text rest : List UInt8} (h : newline ∉ text)
    : lineReader.run [] (text ++ newline :: rest)
        =
      ((lineReader.run [] rest).1, text :: (lineReader.run [] rest).2) := by
  rw [Transducer.run_append, lineReader_of_not_mem h, Transducer.run_cons]
  simp [lineReader]

section ProcessData

variable {σ : Type} (exec : σ → List UInt8 → σ) (buf : List UInt8)

theorem processData_line (fuel : Nat) (s : σ) {offset : Nat} {text rest : List UInt8}
    (hbuf : buf.drop offset = text ++ newline :: rest) (htext : newline ∉ text)
    : buf.drop (offset + (text.length + 1)) = rest ∧ offset + (text.length + 1) ≤ buf.length
        ∧
      processData exec (fuel + 1) s buf offset
        =
      (processData exec fuel (exec s text) buf (offset + (text.length + 1))).map
        fun (s, lines, offset) => (s, text :: lines, offset) := by
  have hlen := congrArg List.length hbuf
  simp only [List.length_drop, List.length_append, List.length_cons] at hlen
  refine ⟨?_, by omega, ?_⟩
  . rw [← List.drop_drop, hbuf]
    simp
  . rw [processData, if_pos (by omega), hbuf, scan_append htext]
    simp only [List.nil_append, Nat.zero_add]
    cases processData exec fuel (exec s text) buf (offset + (text.length + 1)) with
    | none => rfl
    | some r => rfl

theorem processData_cases (fuel : Nat) {s : σ} {offset : Nat} (hoffset : offset ≤ buf.length)
    (hrest : (lineReader.run [] (buf.drop offset)).1 = [])
    : processData exec fuel s buf offset
        =
      some ((lineReader.run [] (buf.drop offset)).2.foldl exec s,
        (lineReader.run [] (buf.drop offset)).2, buf.length)
        ∨
      processData exec fuel s buf offset = none ∧ fuel ≤ buf.length - offset := by
  induction fuel generalizing s offset with
  | zero =>
    right
    exact ⟨rfl, by omega⟩
  | succ fuel ih =>
    by_cases hmem : newline ∈ buf.drop offset
    . obtain ⟨text, rest, hbuf, htext⟩ := List.eq_append_cons_of_mem hmem
      obtain ⟨hdrop, hle, hstep⟩ := processData_line exec buf fuel s hbuf htext
      rw [hbuf, lineReader_append htext, ← hdrop] at hrest ⊢
      rw [hstep]
      rcases ih (s := exec s text) hle hrest with h | ⟨h, hfuel⟩
      . left
        rw [h]
        rfl
      . right
        rw [h]
        exact ⟨rfl, by omega⟩
    . left
      rw [lineReader_of_not_mem hmem, List.nil_append] at hrest
      have hend : ¬ offset < buf.length := by
        rw [List.drop_eq_nil_iff] at hrest
        omega
      rw [lineReader_of_not_mem hmem, processData, if_neg hend]
      obtain rfl : offset = buf.length := by omega
      rfl

theorem processData_eq_none (fuel : Nat) {s : σ} {offset : Nat}
    (hrest : (lineReader.run [] (buf.drop offset)).1 ≠ [])
    : processData exec fuel s buf offset = none := by
  induction fuel generalizing s offset with
  | zero => rfl
  | succ fuel ih =>
    by_cases hmem : newline ∈ buf.drop offset
    . obtain ⟨text, rest, hbuf, htext⟩ := List.eq_append_cons_of_mem hmem
      obtain ⟨hdrop, hle, hstep⟩ := processData_line exec buf fuel s hbuf htext
      rw [hbuf, lineReader_append htext, ← hdrop] at hrest
      rw [hstep, ih hrest]
      rfl
    . -- No newline is left: every further turn of the loop is like this one.
      rw [processData]
      split
      . rw [scan_eq_none hmem]
        apply ih hrest
      . next hend =>
        exfalso
        apply hrest
        rw [List.drop_eq_nil_of_le (by omega)]
        rfl

end ProcessData

structure Drained (size : Nat) (rxbuf : SOBuffer) : Prop where
  ok : rxbuf.Ok
  size : rxbuf.size = size
  buflen : rxbuf.buflen = 0
  bufpos : rxbuf.bufpos = 0

theorem drained_new (block : List UInt8) : Drained block.length (.new block) where
  ok := SOBuffer.ok_new block
  size := rfl
  buflen := rfl
  bufpos := rfl

section ReceiveData

variable {σ : Type} {exec : σ → List UInt8 → σ} {size : Nat} {rxbuf : SOBuffer}

theorem Drained.readData (h : Drained size rxbuf) : rxbuf.readData = [] := by
  rw [← List.length_eq_zero_iff, SOBuffer.length_readData h.ok, h.buflen]

theorem Drained.getWriteLen (h : Drained size rxbuf) (hsize : 0 < size)
    : rxbuf.getWriteLen = (size, rxbuf) := by
  unfold SOBuffer.getWriteLen
  dsimp only
  rw [h.size, h.bufpos, h.buflen]
  rw [if_neg (by omega)]
  simp

variable (exec) in
theorem Drained.receiveData (h : Drained size rxbuf) {bytes : List UInt8} (hne : bytes ≠ [])
    (hlen : bytes.length ≤ size)
    : ∃ rxbuf' : SOBuffer, rxbuf'.Ok ∧ rxbuf'.size = size ∧ rxbuf'.readData = bytes
        ∧ ∀ (fuel : Nat) (s : σ), Client.receiveData exec fuel s rxbuf (.received bytes)
            =
          (processData exec fuel s bytes 0).bind fun (s, lines, offset) =>
            (rxbuf'.markRead offset).map fun rxbuf => (s, rxbuf, lines, true) := by
  have hpos := List.length_pos_of_ne_nil hne
  have hwrite := h.getWriteLen (by omega)
  have hroom : bytes.length ≤ rxbuf.getWriteLen.1 := by
    rw [hwrite]
    exact hlen
  obtain ⟨rxbuf', happend, hok, hsize, hread⟩ := SOBuffer.append_eq h.ok hroom
  rw [hwrite] at happend
  rw [h.readData, List.nil_append] at hread
  refine ⟨rxbuf', hok, hsize.trans h.size, hread, ?_⟩
  intro fuel s
  unfold Client.receiveData
  simp only [hwrite]
  rw [if_neg (by omega)]
  simp only [Option.bind_eq_bind, Option.bind_some]
  rw [if_pos hpos, happend]
  simp only [Option.bind_some, hread]
  cases processData exec fuel s bytes 0 with
  | none => rfl
  | some r =>
    simp only [Option.bind_some]
    cases rxbuf'.markRead r.2.2 with
    | none => rfl
    | some rxbuf => rfl

variable (exec) in
theorem Drained.receiveData_cases (h : Drained size rxbuf) {bytes : List UInt8}
    (hlast : bytes.getLast? = some newline) (hlen : bytes.length ≤ size)
    : ∃ rxbuf', Drained size rxbuf' ∧ ∀ (fuel : Nat) (s : σ),
        Client.receiveData exec fuel s rxbuf (.received bytes)
            =
          some ((lineReader.run [] bytes).2.foldl exec s, rxbuf', (lineReader.run [] bytes).2, true)
          ∨
        Client.receiveData exec fuel s rxbuf (.received bytes) = none ∧ fuel ≤ bytes.length := by
  have hne : bytes ≠ [] := by
    rintro rfl
    simp at hlast
  obtain ⟨rxbuf₁, hok, hsize, hread, heq⟩ := h.receiveData exec hne hlen
  have hall : bytes.length ≤ rxbuf₁.readData.length := Nat.le_of_eq (congrArg List.length hread.symm)
  obtain ⟨rxbuf₂, hmark, hok₂, hsize₂, hread₂⟩ := SOBuffer.markRead_eq hok hall
  rw [hread, List.drop_length] at hread₂
  have hempty : rxbuf₂.buflen = 0 := by
    rw [← SOBuffer.length_readData hok₂, hread₂]
    rfl
  refine ⟨rxbuf₂, ⟨hok₂, hsize₂.trans hsize, hempty, SOBuffer.bufpos_markRead hmark hempty⟩, ?_⟩
  intro fuel s
  rw [heq]
  rcases processData_cases exec bytes fuel (s := s) (Nat.zero_le _) (by
    rw [List.drop_zero, lineReader_rest_eq_nil_iff]
    right
    apply hlast) with hdata | ⟨hdata, hfuel⟩
  . left
    rw [hdata]
    simp [hmark]
  . right
    rw [hdata]
    exact ⟨rfl, by omega⟩

theorem Drained.receiveData_eq_none (h : Drained size rxbuf) {bytes : List UInt8} (hne : bytes ≠ [])
    (hlast : bytes.getLast? ≠ some newline) (hlen : bytes.length ≤ size) (fuel : Nat) (s : σ)
    : Client.receiveData exec fuel s rxbuf (.received bytes) = none := by
  obtain ⟨rxbuf', -, -, -, heq⟩ := h.receiveData exec hne hlen
  rw [heq, processData_eq_none]
  . rfl
  . rw [List.drop_zero, ne_eq, lineReader_rest_eq_nil_iff, not_or]
    exact ⟨hne, hlast⟩

theorem Drained.append_eq_none (h : Drained size rxbuf) {bytes : List UInt8}
    (hlen : size < bytes.length)
    : rxbuf.append bytes = none := by
  have hpoke : rxbuf.buf.length < rxbuf.getWritePtr + bytes.length := by
    rw [h.ok.alloc, h.size]
    omega
  unfold SOBuffer.append SOBuffer.store SOBuffer.poke
  rw [if_neg (by omega)]
  rfl

def RecvResult.lines : RecvResult → List (List UInt8)
  | .received bytes => (lineReader.run [] bytes).2
  | .error => []

theorem Drained.receiveData_some (h : Drained size rxbuf) (hsize : 0 < size) {fuel : Nat} {s s' : σ}
    {result : RecvResult} {rxbuf' : SOBuffer} {lines : List (List UInt8)} {more : Bool}
    (heq : Client.receiveData exec fuel s rxbuf result = some (s', rxbuf', lines, more))
    : Drained size rxbuf' ∧ s' = result.lines.foldl exec s ∧ lines = result.lines := by
  have hwrite := h.getWriteLen hsize
  have hidle : result = .error ∨ result = .received [] →
      Client.receiveData exec fuel s rxbuf result = some (s, rxbuf, [], false)
        ∧ result.lines = [] := by
    unfold Client.receiveData
    rw [hwrite]
    dsimp only
    rw [if_neg (by omega)]
    rintro (rfl | rfl)
    . exact ⟨rfl, rfl⟩
    . exact ⟨rfl, rfl⟩
  by_cases hnone : result = .error ∨ result = .received []
  . obtain ⟨heq', hlines⟩ := hidle hnone
    rw [heq'] at heq
    simp only [Option.some.injEq, Prod.mk.injEq] at heq
    obtain ⟨rfl, rfl, rfl, -⟩ := heq
    rw [hlines]
    exact ⟨h, rfl, rfl⟩
  . rw [not_or] at hnone
    cases result with
    | error => exact absurd rfl hnone.1
    | received bytes =>
      have hne : bytes ≠ [] := by
        rintro rfl
        exact hnone.2 rfl
      by_cases hlen : bytes.length ≤ size
      . by_cases hlast : bytes.getLast? = some newline
        . obtain ⟨rxbuf₁, h₁, hcases⟩ := h.receiveData_cases exec hlast hlen
          rcases hcases fuel s with heq' | ⟨heq', -⟩
          . rw [heq'] at heq
            simp only [Option.some.injEq, Prod.mk.injEq] at heq
            obtain ⟨rfl, rfl, rfl, -⟩ := heq
            exact ⟨h₁, rfl, rfl⟩
          . rw [heq'] at heq
            simp at heq
        . rw [h.receiveData_eq_none hne hlast hlen] at heq
          simp at heq
      . have hpos := List.length_pos_of_ne_nil hne
        unfold Client.receiveData at heq
        rw [hwrite] at heq
        dsimp only at heq
        rw [if_neg (by omega)] at heq
        simp only [Option.bind_eq_bind, Option.bind_some] at heq
        rw [if_pos hpos, h.append_eq_none (by omega)] at heq
        simp at heq

variable (exec) in
theorem Drained.receiveAll_eq (h : Drained size rxbuf) {chunks : List (List UInt8)}
    (hchunks : ∀ bytes ∈ chunks, bytes.length ≤ size)
    (hlast : ∀ bytes ∈ chunks, bytes.getLast? = some newline) {fuel : Nat}
    (hfuel : ∀ bytes ∈ chunks, bytes.length < fuel) (s : σ)
    : ∃ rxbuf',
        receiveAll exec fuel s rxbuf chunks
            =
          some ((lineReader.run [] chunks.flatten).2.foldl exec s, rxbuf',
            (lineReader.run [] chunks.flatten).2)
          ∧ (lineReader.run [] chunks.flatten).1 = [] ∧ rxbuf'.readData = [] := by
  induction chunks generalizing s rxbuf with
  | nil => exact ⟨rxbuf, rfl, rfl, h.readData⟩
  | cons bytes chunks ih =>
    obtain ⟨rxbuf₁, h₁, hcases⟩ := h.receiveData_cases exec (hlast bytes (by simp))
      (hchunks bytes (by simp))
    have heq := (hcases fuel s).resolve_right (fun hnone => by
      have := hfuel bytes (by simp)
      omega)
    have hrest : (lineReader.run [] bytes).1 = [] := by
      rw [lineReader_rest_eq_nil_iff]
      right
      apply hlast bytes (by simp)
    obtain ⟨rxbuf', hall, hnil, hread⟩ := ih h₁ (fun b hb => hchunks b (by simp [hb]))
      (fun b hb => hlast b (by simp [hb])) (fun b hb => hfuel b (by simp [hb]))
      ((lineReader.run [] bytes).2.foldl exec s)
    refine ⟨rxbuf', ?_, ?_, hread⟩
    . rw [receiveAll, heq]
      simp only [Option.bind_eq_bind, Option.bind_some]
      rw [hall, List.flatten_cons, Transducer.run_append, hrest, List.foldl_append]
      rfl
    . rw [List.flatten_cons, Transducer.run_append, hrest]
      apply hnil

theorem Drained.receiveAll_eq_none (h : Drained size rxbuf) {chunks : List (List UInt8)}
    (hchunks : ∀ bytes ∈ chunks, bytes ≠ [] ∧ bytes.length ≤ size)
    (hlast : ¬ ∀ bytes ∈ chunks, bytes.getLast? = some newline) (fuel : Nat) (s : σ)
    : receiveAll exec fuel s rxbuf chunks = none := by
  induction chunks generalizing s rxbuf with
  | nil => simp at hlast
  | cons bytes chunks ih =>
    rw [receiveAll]
    by_cases hbytes : bytes.getLast? = some newline
    . obtain ⟨rxbuf₁, h₁, hcases⟩ := h.receiveData_cases exec hbytes
        (hchunks bytes (by simp)).2
      have hlast' : ¬ ∀ b ∈ chunks, b.getLast? = some newline := by
        simpa [hbytes] using hlast
      rcases hcases fuel s with heq | ⟨hnone, -⟩
      . rw [heq]
        simp only [Option.bind_eq_bind, Option.bind_some]
        rw [ih h₁ (fun b hb => hchunks b (by simp [hb])) hlast']
        rfl
      . rw [hnone]
        rfl
    . obtain ⟨hne, hlen⟩ := hchunks bytes (by simp)
      rw [h.receiveData_eq_none hne hbytes hlen]
      rfl

/--
The line reader works if and only if every chunk ends with a newline: then every call returns, the
commands executed are the lines of the stream and the staging buffer holds the rest of it. On any other
stream one of the calls never returns.
-/
theorem receiveAll_iff (exec : σ → List UInt8 → σ) (s : σ) {block : List UInt8}
    {chunks : List (List UInt8)}
    (hchunks : ∀ bytes ∈ chunks, bytes ≠ [] ∧ bytes.length ≤ block.length)
    : (∃ fuel s' rxbuf lines, receiveAll exec fuel s (.new block) chunks = some (s', rxbuf, lines)
        ∧ (rxbuf.readData, lines) = lineReader.run [] chunks.flatten ∧ s' = lines.foldl exec s)
        ↔
      ∀ bytes ∈ chunks, bytes.getLast? = some newline := by
  have hdrained := drained_new block
  constructor
  . rintro ⟨fuel, s', rxbuf, lines, hall, -⟩
    by_contra hlast
    rw [hdrained.receiveAll_eq_none hchunks hlast] at hall
    simp at hall
  . intro hlast
    obtain ⟨rxbuf, hall, hrest, hread⟩ := hdrained.receiveAll_eq exec
      (fun b hb => (hchunks b hb).2) hlast (fun b hb => Nat.lt_succ_of_le (hchunks b hb).2) s
    refine ⟨_, _, rxbuf, _, hall, ?_, rfl⟩
    rw [hread]
    exact Prod.ext hrest.symm rfl

theorem receiveAll_iff_status
    : (∃ fuel s' rxbuf lines,
        receiveAll (fun (n : Nat) _ => n + 1) fuel 0 (.new (List.replicate 512 0))
            [ascii "GET GAIN\nGET MUTE\n", ascii "QUIT\n"]
            =
          some (s', rxbuf, lines)
          ∧ (rxbuf.readData, lines)
              = lineReader.run [] [ascii "GET GAIN\nGET MUTE\n", ascii "QUIT\n"].flatten
          ∧ s' = lines.foldl (fun n _ => n + 1) 0)
        ↔
      ∀ bytes ∈ [ascii "GET GAIN\nGET MUTE\n", ascii "QUIT\n"], bytes.getLast? = some newline :=
  receiveAll_iff _ 0 (by rw [List.length_replicate]; decide)

theorem receiveAll_partial_line
    : (∀ bytes ∈ [ascii "GET ", ascii "GAIN\n"], bytes ≠ [] ∧ bytes.length ≤ 512)
        ∧ lineReader.run [] [ascii "GET ", ascii "GAIN\n"].flatten = ([], [ascii "GET GAIN"])
        ∧ ∀ (fuel : Nat), receiveAll (fun (n : Nat) _ => n + 1) fuel 0 (.new (List.replicate 512 0))
            [ascii "GET ", ascii "GAIN\n"] = none := by
  refine ⟨by decide, by decide, ?_⟩
  intro fuel
  apply (drained_new (List.replicate 512 0)).receiveAll_eq_none
  . rw [List.length_replicate]
    decide
  . decide

end ReceiveData

end Client
