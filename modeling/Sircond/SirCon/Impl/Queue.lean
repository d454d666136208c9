import Sircond.SirCon.Impl.Frame

/-!
This module contains the send queue: queueing a frame, the timer that (re)transmits the frame in
front, the two ways in which a frame leaves the queue, and what becomes of the queue in the end. Each
function is what its caller does while it holds the lock of the queue.
-/

open Scp

namespace CSirCon

def send (s : CSirCon) (data : Payload) : CSirCon × Nat :=
  let (bufptr, s) := s.composeFrame data
  ({ s with link.queue := s.link.queue ++ [bufptr] }, bufptr.id)

def onACK (bufptr : MsgBuf) : List Action := [.resolve bufptr.id .success]

def onTimeout (s : CSirCon) (bufptr : MsgBuf) : CSirCon × List Action :=
  let linkFailCnt := s.linkFailCnt + 1
  let s := {
    s with
    linkAlive := false
    linkFailCnt := linkFailCnt
    shutdown := s.shutdown || linkFailCnt > maxLinkFailures
  }
  (s, [.resolve bufptr.id .timeout])

def timerProc (s : CSirCon) : CSirCon × List Action :=
  if s.link.busyTimer > 0 then
    ({ s with link.busyTimer := s.link.busyTimer - 1 }, [])
  else
    match s.link.queue with
    | [] => (s, [])
    | front :: rest =>
      let bufptr := { front with retries := front.retries + 1 }
      if bufptr.retries > maxRetries then
        -- giving up on this frame
        onTimeout { s with link.queue := rest } bufptr
      else
        ({ s with link.queue := bufptr :: rest }, [.transmit bufptr])

def onAckFrame (l : Link) (hdr : SHdr) : Link × List Action :=
  match l.queue with
  | [] => (l, [])
  | bufptr :: rest =>
    if hdr.seq = bufptr.seq then
      if hdr.flags &&& sfChksum ≠ 0 then
        -- The checksum failed over there, retransmit immediately.
        (l, [.transmit bufptr])
      else if hdr.flags &&& sfBusy ≠ 0 then
        ({ l with busyTimer := busyDelayCount }, [])
      else
        ({ l with queue := rest }, onACK bufptr)
    else
      (l, [])

def onExit.free : List MsgBuf → List MsgBuf × List Action
  | [] => ([], [])
  | _ :: queue =>
    -- The frame is deleted together with its promise, as it is.
    free queue

def onExit (s : CSirCon) : CSirCon × List Action :=
  let (queue, acts) := onExit.free s.link.queue
  ({ s with link.queue := queue }, acts)

end CSirCon
