import Sircond.Lib.Retry
import Sircond.Timetrax.Impl

/-!
This module contains the start of a radio interface that may be behind a TTS-100: the detection, the
dialog in which the program answers the challenge of the device, and the start of the link.

What the serial port does in an attempt is given with the attempt, and so is what is in its buffer on
the stack before. The two loops of a dialog take their bytes from one sequence of results of `Recv`; what
the result that completes the challenge has brought behind it is overwritten.
-/

open CSerialPort

namespace CTTS100

def maxAuthAttempts : Nat := 5

inductive Call where
  | setDataRate (baud : Nat)
  | send (data : List UInt8)
  | sleep (seconds : Nat)
  | createTimer (interval : UInt32)
  | startTimer
  | notifyStartup
  deriving DecidableEq, Repr

structure Query where
  sent : Bool
  results : List RecvResult
  buf : Buffer
  stack : List UInt8

def Query.run (q : Query) : Bool × List Call :=
  ((queryVersion q.sent q.results q.buf q.stack).1.detected, [.setDataRate 9600, .send (ascii "V")])

structure Dialog where
  requestSent : Bool
  responseSent : Bool
  results : List RecvResult
  buf : Buffer

/-- The stage when the loop ends, and the results of `Recv` that are still to come. -/
def Stage.readAtLeast (n : Nat) (s : Stage) : List RecvResult → Stage × List RecvResult
  | [] => (s, [])
  | result :: results =>
    if s.buflen < n then
      match result with
      | .error _ => (s, results)
      | .data bytes =>
        if (s.recv bytes).buflen = s.buflen then
          (s, results)
        else
          (s.recv bytes).readAtLeast n results
    else
      (s, result :: results)

def cannedResponse : List UInt8 :=
  [0x22, 0xF1, 0x59, 0x37, 0xF6, 0xA7, 0xFA, 0x3F,
    0xD8, 0x5E, 0x27, 0x06, 0x0E, 0x39, 0xFA, 0xE8,
    0x75, 0x29, 0x2E, 0x16, 0x50]

def response (buf : List UInt8) : List UInt8 :=
  (cannedResponse.set 18 (buf.getD 2 0 ^^^ 0xAD)).set 19 (buf.getD 4 0 ^^^ 0x3A)

def authenticate (d : Dialog) : Bool × List Call :=
  let request : List Call := [.setDataRate 9600, .send (ascii "A")]
  if d.requestSent then
    let (s, results) := (Stage.new d.buf).readAtLeast 15 d.results
    if s.buflen < 15 ∨ s.buf.bytes.getD 0 0 ≠ 0x3E ∨ s.buf.bytes.getD 1 0 ≠ 0x3E then
      (false, request)
    else
      let calls := request ++ [.send (response s.buf.bytes)]
      if d.responseSent then
        let (s, _) := (Stage.new s.buf).readAtLeast 3 results
        -- P is for proceed.
        if s.buflen ≥ 3 ∧ (s.buf.bytes.getD 0 0 = 0x50 ∨ s.buf.bytes.getD 0 0 = 0x70) then
          (true, calls)
        else
          (false, calls)
      else
        (false, calls)
  else
    (false, request)

/-- `CSirCon::OnStart`, with a serial port. -/
def startLink : Bool × List Call :=
  (true, [.createTimer 100, .startTimer, .setDataRate 57600, .notifyStartup])

def onStart (port : Bool) (queries : Nat → Query) (dialogs : Nat → Dialog) : Bool × List Call :=
  if port then
    let (isTTS100, calls) := Retry.retry (fun cnt => (queries cnt).run) [] maxAuthAttempts 0
    if isTTS100 then
      let (auth, calls') :=
        Retry.retry (fun cnt => authenticate (dialogs cnt)) [.sleep 1] maxAuthAttempts 0
      if auth then
        (startLink.1, calls ++ calls' ++ startLink.2)
      else
        (false, calls ++ calls')
    else
      (startLink.1, calls ++ startLink.2)
  else
    (false, [])

end CTTS100
