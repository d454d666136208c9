import Mathlib.Data.List.GetD
import Mathlib.Tactic.Common

/-!
This module contains the definitions of the SiriusConnect Protocol: the bytes of its framing, the
frame header and the sizes derived from it.
-/

namespace Scp

def pktSentinel : UInt8 := 0xA4

def asciiEsc : UInt8 := 0x1B

def sentinelEsc : UInt8 := 0x53

def maxData : Nat := 255

def sfChksum : UInt8 := 0x01

def sfBusy : UInt8 := 0x02

def sfAck : UInt8 := 0x80

def msgSet : UInt8 := 0x00
def msgSetResp : UInt8 := 0x20
def msgGet : UInt8 := 0x40
def msgGetResp : UInt8 := 0x60
def msgAsync : UInt8 := 0x80

def scpGetGain : UInt8 := 0x02
def scpGetMute : UInt8 := 0x03
def scpGetPower : UInt8 := 0x07
def scpGetChannelInfo : UInt8 := 0x08
def scpGetChannel : UInt8 := 0x0a
def scpGetSongInfo : UInt8 := 0x0d
def scpGetChannelMap : UInt8 := 0x10
def scpGetSID : UInt8 := 0x11
def scpGetTZInfo : UInt8 := 0x12
def scpGetTime : UInt8 := 0x13
def scpGetStatus : UInt8 := 0x16
def scpGetRSSI : UInt8 := 0x18

def scpSetGain : UInt8 := 0x02
def scpSetMute : UInt8 := 0x03
def scpSetPower : UInt8 := 0x08
def scpSetReset : UInt8 := 0x09
def scpSetChannel : UInt8 := 0x0a
def scpSetTZInfo : UInt8 := 0x0c
def scpSetAsync : UInt8 := 0x0d

def scpAsyncReset : UInt8 := 0x00
def scpAsyncSongInfo : UInt8 := 0x01
def scpAsyncSongID : UInt8 := 0x02
def scpAsyncTime : UInt8 := 0x03
def scpAsyncStatus : UInt8 := 0x04
def scpAsyncSignal : UInt8 := 0x05

def stTune : UInt8 := 0x00
def stSignal : UInt8 := 0x01
def stAntenna : UInt8 := 0x02

def sitArtist : UInt8 := 0x01
def sitTitle : UInt8 := 0x02
def sitAlbum : UInt8 := 0x03
def sitComposer : UInt8 := 0x06
def sitSongID : UInt8 := 0x86
def sitArtistID : UInt8 := 0x88
def sitErase : UInt8 := 0xE0

def maxChannels : Nat := 224

def invalidChannel : UInt8 := 255

def channelBitmapSize : Nat := maxChannels / 8

-- Nine bytes of fields, and one of padding because of the year.
def sizeofDateTime : Nat := 10

structure SHdr where
  sentinel : UInt8
  unk2 : UInt8
  unk3 : UInt8
  seq : UInt8
  flags : UInt8
  len : UInt8
  deriving DecidableEq, Repr

namespace SHdr

def size : Nat := 6

def toBytes (hdr : SHdr) : List UInt8 :=
  [hdr.sentinel, hdr.unk2, hdr.unk3, hdr.seq, hdr.flags, hdr.len]

def ofBytes (data : List UInt8) : SHdr where
  sentinel := data.getD 0 0
  unk2 := data.getD 1 0
  unk3 := data.getD 2 0
  seq := data.getD 3 0
  flags := data.getD 4 0
  len := data.getD 5 0

@[simp]
theorem length_toBytes (hdr : SHdr) : hdr.toBytes.length = size := rfl

theorem ofBytes_append {data : List UInt8} (h : size ≤ data.length) (rest : List UInt8)
    : ofBytes (data ++ rest) = ofBytes data := by
  unfold size at h
  simp only [ofBytes]
  congr 1
  all_goals
    apply List.getD_append
    omega

theorem ofBytes_take {data : List UInt8} {n : Nat} (h : size ≤ n) (hn : n ≤ data.length)
    : ofBytes (data.take n) = ofBytes data := by
  conv => rhs; rw [← List.take_append_drop n data]
  rw [ofBytes_append]
  rw [List.length_take]
  omega

end SHdr

def msgLen (hdr : SHdr) : Nat := SHdr.size + hdr.len.toNat + 1

def maxPkt : Nat := SHdr.size + maxData + 1

def stageBufSize : Nat := 2 * maxPkt

theorem msgLen_le_maxPkt (hdr : SHdr) : msgLen hdr ≤ maxPkt := by
  have := hdr.len.toNat_lt
  simp only [msgLen, maxPkt, maxData]
  omega

structure Payload where
  bytes : List UInt8
  fits : bytes.length ≤ maxData
  deriving DecidableEq

end Scp
