import Sircond.Lib.CString
import Sircond.Util.Basic

/-!
This module contains the query for the version of a TTS-100: the loop that receives the reply into a
buffer on the stack, and the search of the reply for the version.

The results of `Recv` are given; after the last one it times out. It never returns more bytes than it
is asked for. `stack` are the bytes behind the buffer, up to a zero behind all of them.
-/

open CString

namespace CSerialPort

inductive Errors where
  | errorUnspecified
  | errorInvalidPort
  | errorPortInUse
  | errorInvalidSettings
  | errorTransmitError
  | errorReceiveError
  | errorTimeout
  deriving DecidableEq, Repr

inductive RecvResult where
  | data (bytes : List UInt8)
  | error (rc : Errors)
  deriving DecidableEq, Repr

end CSerialPort

namespace CTTS100

open CSerialPort

def bufSize : Nat := 256

structure Buffer where
  bytes : List UInt8
  size : bytes.length = bufSize

structure Stage where
  buf : Buffer
  buflen : Nat
  le : buflen ≤ bufSize

namespace Stage

def new (buf : Buffer) : Stage where
  buf := buf
  buflen := 0
  le := Nat.zero_le _

def recv (s : Stage) (bytes : List UInt8) : Stage :=
  let data := bytes.take (bufSize - s.buflen)
  {
    buf := {
      bytes := s.buf.bytes.take s.buflen ++ data ++ s.buf.bytes.drop (s.buflen + data.length)
      size := by
        have hsize := s.buf.size
        have hle := s.le
        simp only [List.length_append, List.length_take, List.length_drop, data]
        omega
    }
    buflen := s.buflen + data.length
    le := by
      have hle := s.le
      simp only [List.length_take, data]
      omega
  }

def readReply (s : Stage) : List RecvResult → Stage
  | [] => s
  | result :: results =>
    if s.buflen = 0 ∨ s.buf.bytes.getD (s.buflen - 1) 0 ≠ 0x0A then
      match result with
      | .error _ => s
      | .data bytes =>
        if (s.recv bytes).buflen = s.buflen then
          s.recv bytes
        else
          (s.recv bytes).readReply results
    else
      s

end Stage

structure Version where
  detected : Bool
  major : UInt32
  minor : UInt32
  deriving DecidableEq, Repr

def timeTrax : List UInt8 := ascii "Time Trax"

def version : List UInt8 := ascii "Version"

def majorDelims : List UInt8 := ascii ". \r\n"

def minorDelims : List UInt8 := ascii " \r\n"

def parseReply (limit buflen : Nat) : Search Version :=
  if buflen < 9 then
    return ⟨false, 0, 0⟩
  else do
    match ← strstr timeTrax limit 0 with
    | none => return ⟨false, 0, 0⟩
    | some _ =>
      match ← strstr version limit 0 with
      | none => return ⟨false, 0, 0⟩
      | some p =>
        match ← strtok majorDelims limit (p + 7) with
        | none => return ⟨true, 0, 0⟩
        | some (major, next) =>
          match ← strtok minorDelims limit next with
          | none => return ⟨true, (atoi major).toUInt32, 0⟩
          | some (minor, _) => return ⟨true, (atoi major).toUInt32, (atoi minor).toUInt32⟩

/--
The version, and the positions that the searches have read.
-/
def queryVersion (sent : Bool) (results : List RecvResult) (buf : Buffer) (stack : List UInt8)
    : Version × List Nat :=
  if sent then
    let s := (Stage.new buf).readReply results
    parseReply (bufSize + stack.length + 1) s.buflen fun pos => (s.buf.bytes ++ stack).getD pos 0
  else
    (⟨false, 0, 0⟩, [])

end CTTS100
