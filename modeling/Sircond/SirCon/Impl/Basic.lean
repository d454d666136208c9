import Sircond.Scp.Basic
import Sircond.SOBuf.Impl

/-!
This module contains the state of the radio interface object and the actions by which it shows to
its surroundings. Times are seconds. The counters of the link are natural numbers where the code has
`uint32_t`, whose bound none of them comes near: a frame is given up after `maxRetries`, and at the
eleventh failure of the link in a row the interface shuts down, the timer included.
-/

open Scp

inductive SCResult where
  | success
  | timeout
  | noMemory
  deriving DecidableEq, Repr

/--
A container for queued messages. `id` tells the objects made by `new MSGBUF` apart, the promise in
each of them included. `data` are the first `len` bytes of the frame buffer.
-/
structure MsgBuf where
  id : Nat
  retries : Nat
  seq : UInt8
  data : List UInt8
  deriving DecidableEq, Repr

namespace CSirCon

def maxRetries : Nat := 3

def maxLinkFailures : Nat := 10

def busyDelayCount : Nat := 1

def linkTimeout : Nat := 30

/--
What the radio interface does to the outside: calls of `Dispatch` with a payload and of `SendACK`,
acknowledgements handled against the send queue, frames passed to `TransmitFrame`, promises set,
frames queued by the keepalive, and bytes taken out of the staging buffer.
-/
inductive Action where
  | dispatch (payload : List UInt8)
  | sendACK (ack flags : UInt8)
  | ack (seq flags : UInt8)
  | transmit (frame : MsgBuf)
  | resolve (id : Nat) (rc : SCResult)
  | keepalive (id : Nat)
  | markRead (len : Nat)
  deriving DecidableEq, Repr

structure Link where
  busyTimer : Nat
  lastSeq : Int
  seqExpected : UInt8
  queue : List MsgBuf
  deriving DecidableEq, Repr

end CSirCon

open CSirCon

/--
The radio interface object. `inESC` is the static variable of `Read`, `allocs` the number of objects
`BufAlloc` has made so far.
-/
structure CSirCon where
  stagebuf : SOBuffer
  inESC : Bool
  lastRx : Nat
  link : Link
  seq : UInt8
  allocs : Nat
  linkAlive : Bool
  linkFailCnt : Nat
  shutdown : Bool
  deriving DecidableEq, Repr

namespace CSirCon

def new (block : List UInt8) (now : Nat) : CSirCon where
  stagebuf := .new block
  inESC := false
  lastRx := now
  link := { busyTimer := 0, lastSeq := -1, seqExpected := 0, queue := [] }
  seq := 0
  allocs := 0
  linkAlive := false
  linkFailCnt := 0
  shutdown := false

end CSirCon
