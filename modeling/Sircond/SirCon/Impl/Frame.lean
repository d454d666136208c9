import Sircond.SirCon.Impl.Basic

/-!
This module contains the construction of frames and their encoding for the serial line. The result
of `write` is what `Write` passes to the serial port, the contents of its temporary buffer.
-/

open Scp

namespace CSirCon

def byteSum (data : List UInt8) : UInt8 := data.foldl (· + ·) 0

def computeChecksum (data : List UInt8) : UInt8 := ~~~(byteSum data) + 1

def validateChecksum (data : List UInt8) : Bool := byteSum data == 0

def write.go (i : Nat) (tmpbuf : List UInt8) : List UInt8 → List UInt8
  | [] => tmpbuf
  | b :: buf =>
    if tmpbuf.length < stageBufSize then
      if b = pktSentinel then
        -- A packet sentinel anywhere other than the start of the packet gets escaped.
        if i > 0 then
          go (i + 1) (tmpbuf ++ [asciiEsc, sentinelEsc]) buf
        else
          go (i + 1) (tmpbuf ++ [b]) buf
      else if b = asciiEsc then
        go (i + 1) (tmpbuf ++ [asciiEsc, asciiEsc]) buf
      else
        go (i + 1) (tmpbuf ++ [b]) buf
    else
      tmpbuf

def write (buf : List UInt8) : List UInt8 := write.go 0 [] buf

def frameBytes (seq : UInt8) (data : Payload) : List UInt8 :=
  let hdr : SHdr := {
    sentinel := pktSentinel
    unk2 := 0x03
    unk3 := 0x00
    seq := seq
    flags := 0x00
    len := UInt8.ofNat data.bytes.length
  }
  let body := hdr.toBytes ++ data.bytes
  body ++ [computeChecksum body]

def composeFrame (s : CSirCon) (data : Payload) : MsgBuf × CSirCon :=
  let bufptr := { id := s.allocs, retries := 0, seq := s.seq, data := frameBytes s.seq data }
  (bufptr, { s with seq := s.seq + 1, allocs := s.allocs + 1 })

def ackBytes (ack flags : UInt8) : List UInt8 :=
  let hdr : SHdr := {
    sentinel := pktSentinel
    unk2 := 0x03
    unk3 := 0x00
    seq := ack
    flags := flags
    len := 0
  }
  hdr.toBytes ++ [computeChecksum hdr.toBytes]

end CSirCon
