import Sircond.SirCon.Impl.Queue
import Sircond.SirCon.Impl.Request
import Sircond.Lib.Scanner

/-!
This module contains the receiver: removing the escapes from what the serial port returns, and the
main loop that cuts the staged bytes into frames and handles them.

A `RecvEvent` is the result of one call of `Recv` and the time after it. An iteration of the main
loop asks for the free space once where the code asks again and again, which makes no difference
(`SOBuffer.getWriteLen_getWriteLen`). The loop of `parse` takes at least one byte in every turn, so
that its fuel is never used up. The result `none` stands for a failed assertion.

The clock is taken not to be set back. If it were, the code would convert a negative number of seconds
to `uint32_t`, where `getTimeSinceLastRx` gives 0.
-/

open Scp

namespace CSirCon

inductive RecvResult where
  | data (bytes : List UInt8)
  | timeout
  | error (code : Int)
  deriving DecidableEq, Repr

structure RecvEvent where
  result : RecvResult
  now : Nat
  deriving DecidableEq, Repr

def deEscape : Transducer Bool UInt8 UInt8 := fun inESC b =>
  if b = asciiEsc then
    if inESC then
      -- This is an escaped ESC.
      (false, [asciiEsc])
    else
      -- This is the first byte of an escape sequence.
      (true, [])
  else
    if inESC then
      if b = sentinelEsc then
        (false, [pktSentinel])
      else
        -- unknown escape sequence
        (false, [])
    else
      (false, [b])

def read (s : CSirCon) (e : RecvEvent) : Option (CSirCon × List UInt8) :=
  match e.result with
  | .error _ => none
  | .timeout => some (s, [])
  | .data bytes =>
    let (inESC, buf) := deEscape.run s.inESC bytes
    let lastRx := if bytes.length > 0 then e.now else s.lastRx
    some ({ s with inESC, lastRx }, buf)

def getTimeSinceLastRx (s : CSirCon) (now : Nat) : Nat :=
  if s.lastRx ≠ 0 then now - s.lastRx else 0

def afterRead (s : CSirCon) (now : Nat) (bytes : Nat) : CSirCon × List Action :=
  if bytes > 0 then
    if !s.linkAlive then
      ({ s with linkAlive := true, linkFailCnt := 0 }, [])
    else
      (s, [])
  else if s.getTimeSinceLastRx now > linkTimeout && s.linkAlive then
    -- Send an innocuous request as a keepalive probe and reset the activity timer.
    let (s, id) := s.send getRSSI
    ({ s with lastRx := now }, [.keepalive id])
  else
    (s, [])

def onMessage (l : Link) (msg : List UInt8) : Link × List Action × Nat :=
  let hdr := SHdr.ofBytes msg
  if validateChecksum msg then
    if hdr.flags &&& sfAck ≠ 0 then
      let (l, acts) := onAckFrame l hdr
      (l, .ack hdr.seq hdr.flags :: acts, msgLen hdr)
    else
      let payload := (msg.drop SHdr.size).take hdr.len.toNat
      let acts := if (hdr.seq.toNat : Int) ≠ l.lastSeq then [.dispatch payload] else []
      let l := { l with lastSeq := hdr.seq.toNat, seqExpected := hdr.seq + 1, busyTimer := 0 }
      (l, .sendACK hdr.seq sfAck :: acts, msgLen hdr)
  else
    -- Advancing by one byte forces a resync.
    (l, [.sendACK hdr.seq (sfAck ||| sfChksum)], 1)

def parse (s : CSirCon) : Nat → Option (CSirCon × List Action)
  | 0 => none
  | fuel + 1 =>
    if s.stagebuf.getReadLen ≥ SHdr.size then
      let hdr := SHdr.ofBytes s.stagebuf.readData
      if hdr.sentinel ≠ pktSentinel then do
        let stagebuf ← s.stagebuf.markRead 1
        let (s, acts) ← parse { s with stagebuf } fuel
        return (s, .markRead 1 :: acts)
      else if msgLen hdr > s.stagebuf.getReadLen then
        some (s, [])
      else do
        let (link, acts₁, len) := onMessage s.link (s.stagebuf.readData.take (msgLen hdr))
        let stagebuf ← s.stagebuf.markRead len
        let (s, acts₂) ← parse { s with link, stagebuf } fuel
        return (s, acts₁ ++ .markRead len :: acts₂)
    else
      some (s, [])

def iteration (s : CSirCon) (e : RecvEvent) : Option (CSirCon × List Action × Bool) :=
  let (room, stagebuf) := s.stagebuf.getWriteLen
  if room > 0 then
    match read { s with stagebuf } e with
    | none => some ({ s with stagebuf }, [], false)
    | some (s, buf) => do
      let stagebuf ← s.stagebuf.append buf
      let (s, acts₁) := afterRead { s with stagebuf } e.now buf.length
      let (s, acts₂) ← parse s (s.stagebuf.getReadLen + 1)
      return (s, acts₁ ++ acts₂, true)
  else
    none

def onRun (s : CSirCon) : List RecvEvent → Option (CSirCon × List Action)
  | [] => some (s, [])
  | e :: es =>
    if s.shutdown then
      some (s, [])
    else do
      let (s, acts₁, goesOn) ← s.iteration e
      if goesOn then do
        let (s, acts₂) ← onRun s es
        return (s, acts₁ ++ acts₂)
      else
        return (s, acts₁)

end CSirCon
