import Sircond.Scp.Basic

/-!
This module contains the requests the radio interface can make of the radio, as the payloads that
its functions of the same names pass to `Send`.
-/

open Scp

namespace CSirCon

def getGain : Payload := ⟨[msgGet, scpGetGain], by decide⟩

def getMute : Payload := ⟨[msgGet, scpGetMute], by decide⟩

def getPower : Payload := ⟨[msgGet, scpGetPower], by decide⟩

def getChannel : Payload := ⟨[msgGet, scpGetChannel], by decide⟩

def getChannelMap : Payload := ⟨[msgGet, scpGetChannelMap, 0x00], by decide⟩

def getChannelInfo (channel : UInt8) : Payload :=
  ⟨[msgGet, scpGetChannelInfo, channel, 0x00, 0x00, 0x00], by simp [maxData]⟩

def getSongInfo (channel : UInt8) : Payload :=
  ⟨[msgGet, scpGetSongInfo, channel, 0x00], by simp [maxData]⟩

def getSID : Payload := ⟨[msgGet, scpGetSID], by decide⟩

def getTZ : Payload := ⟨[msgGet, scpGetTZInfo], by decide⟩

def getTime : Payload := ⟨[msgGet, scpGetTime], by decide⟩

def getStatus (statusType : UInt8) : Payload := ⟨[msgGet, scpGetStatus, statusType], by simp [maxData]⟩

def getRSSI : Payload := ⟨[msgGet, scpGetRSSI], by decide⟩

def reset : Payload := ⟨[msgSet, scpSetReset], by decide⟩

def setGain (db : Int8) : Payload := ⟨[msgSet, scpSetGain, db.toUInt8], by simp [maxData]⟩

def setMute (on : Bool) : Payload :=
  ⟨[msgSet, scpSetMute, if on then 0x01 else 0x00], by simp [maxData]⟩

def setPower (mode : UInt8) : Payload := ⟨[msgSet, scpSetPower, mode &&& 0x03], by simp [maxData]⟩

def setChannel (channel : UInt8) : Payload :=
  ⟨[msgSet, scpSetChannel, channel, 0x00, 0x00, 0x0b], by simp [maxData]⟩

def setTZ (offset : Int16) (dst : Bool) : Payload :=
  ⟨[msgSet, scpSetTZInfo, (offset >>> 8).toUInt16.toUInt8, (offset &&& 0xff).toUInt16.toUInt8,
    if dst then 0x01 else 0x00], by simp [maxData]⟩

def enableAsyncNotifications (flags : UInt8) : Payload :=
  ⟨[msgSet, scpSetAsync, 0x00, 0x00, 0x00, flags, 0x00], by simp [maxData]⟩

end CSirCon
