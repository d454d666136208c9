import Sircond.SirCon.Impl.Events

/-!
This module contains the dispatch of a payload to the handler of its kind, with the events passed to
`Notify` in their order and the two values that are cached: the current channel and the channel map.
A log message reads no byte that the function it stands in does not read anyway.
-/

open Scp Decoder

structure Cache where
  currChannel : UInt8
  channelMap : List UInt8
  deriving DecidableEq, Repr

namespace Cache

def new : Cache where
  currChannel := invalidChannel
  channelMap := List.replicate channelBitmapSize 0

def notifyDecoded {α : Type} (deserialize : Nat → Nat → Decoder (α × Nat)) (event : α → SCEvent)
    (c : Cache) (data len k : Nat)
    : Decoder (Cache × List SCEvent) := do
  let (e, _) ← deserialize (data + k) (← sub len k)
  return (c, [event e])

def notifyChannel (c : Cache) (data len : Nat) : Decoder (Cache × List SCEvent) := do
  let (e, _) ← SCEChannel.deserialize (data + 4) (← sub len 4)
  return ({ c with currChannel := e.channel }, [.channel e])

def notifySongInfo (c : Cache) (data len k : Nat) : Decoder (Cache × List SCEvent) := do
  let channel ← read (data + k)
  let (s, _) ← (SCESongInfo.new channel).deserialize (data + (k + 1)) (← sub len (k + 1))
  return (c, [.songInfo s])

def decodeChannelAndSong (data len : Nat) : Decoder (SCEChannelInfo × SCESongInfo) := do
  let offset := 4
  let (c, n) ← SCEChannelInfo.deserialize (data + offset) (← sub len offset)
  let offset := offset + n
  let (s, _) ← (SCESongInfo.new c.channel).deserialize (data + offset) (← sub len offset)
  return (c, s)

def asyncStatus (c : Cache) (data len : Nat) : Decoder (Cache × List SCEvent) := do
  let type ← read (data + 2)
  if type = stTune then
    c.notifyChannel data len
  else if type = stSignal then
    c.notifyDecoded SCESignal.deserialize .signal data len 3
  else if type = stAntenna then
    c.notifyDecoded SCEAntenna.deserialize .antenna data len 3
  else
    return (c, [])

def async (id : UInt8) (c : Cache) (data len : Nat) : Decoder (Cache × List SCEvent) :=
  if id = scpAsyncReset then
    return (c, [.reset])
  else if id = scpAsyncSongInfo then
    c.notifySongInfo data len 2
  else if id = scpAsyncSongID then
    c.notifyDecoded SCESongID.deserialize .songID data len 3
  else if id = scpAsyncTime then
    c.notifyDecoded SCETime.deserialize .time data len 2
  else if id = scpAsyncStatus then
    c.asyncStatus data len
  else if id = scpAsyncSignal then
    c.notifyDecoded SCERSSI.deserialize .rssi data len 2
  else
    return (c, [])

def dispatchAsync (c : Cache) (data len : Nat) : Decoder (Cache × List SCEvent) := do
  let id ← read (data + 1)
  async id c data len

def getChannelMap (c : Cache) (data len : Nat) : Decoder (Cache × List SCEvent) :=
  if len ≥ 32 then do
    let (m, _) ← SCEChannelMap.deserialize (data + 4) (← sub len 4)
    let channelMap ← copy (data + 4) channelBitmapSize
    return ({ c with channelMap }, [.channelMap m])
  else
    return (c, [])

def resultCode (data : Nat) : Decoder UInt16 := do
  let hi ← read (data + 2)
  let lo ← read (data + 3)
  return hi.toUInt16 <<< 8 ||| lo.toUInt16

def getResponse (id : UInt8) (c : Cache) (data len : Nat) : Decoder (Cache × List SCEvent) :=
  if id = scpGetGain then
    c.notifyDecoded SCEGain.deserialize .gain data len 4
  else if id = scpGetMute then
    c.notifyDecoded SCEMute.deserialize .mute data len 4
  else if id = scpGetPower then
    c.notifyDecoded SCEPower.deserialize .power data len 4
  else if id = scpGetChannel then
    c.notifyChannel data len
  else if id = scpGetChannelInfo then do
    let (i, s) ← decodeChannelAndSong data len
    return (c, [.channelInfo i, .songInfo s])
  else if id = scpGetSongInfo then
    c.notifySongInfo data len 4
  else if id = scpGetChannelMap then
    c.getChannelMap data len
  else if id = scpGetSID then
    c.notifyDecoded SCESiriusID.deserialize .siriusID data len 4
  else if id = scpGetTZInfo then
    c.notifyDecoded SCETimeZoneInfo.deserialize .timeZoneInfo data len 4
  else if id = scpGetTime then
    c.notifyDecoded SCETime.deserialize .time data len 4
  else if id = scpGetStatus then
    c.notifyDecoded SCEStatus.deserialize .status data len 4
  else if id = scpGetRSSI then
    c.notifyDecoded SCERSSI.deserialize .rssi data len 4
  else
    return (c, [])

def dispatchGetResponse (c : Cache) (data len : Nat) : Decoder (Cache × List SCEvent) := do
  let result ← resultCode data
  let id ← read (data + 1)
  if result = 0 then do
    let (c, events) ← getResponse id c data len
    return (c, .getResult result :: events)
  else
    return (c, [.getResult result])

def dispatchSetResponse (c : Cache) (data len : Nat) : Decoder (Cache × List SCEvent) := do
  let result ← resultCode data
  let id ← read (data + 1)
  if result = 0 then
    if id = scpSetChannel then
      if len > 4 then do
        let (i, s) ← decodeChannelAndSong data len
        return ({ c with currChannel := i.channel },
          [.setResult result, .channelInfo i, .songInfo s])
      else
        return (c, [.setResult result])
    else
      return (c, [.setResult result])
  else
    return (c, [.setResult result])

def dispatch (c : Cache) (data len : Nat) : Decoder (Cache × List SCEvent) := do
  let kind ← read data
  if kind = msgSetResp then
    c.dispatchSetResponse data len
  else if kind = msgGetResp then
    c.dispatchGetResponse data len
  else if kind = msgAsync then
    c.dispatchAsync data len
  else
    return (c, [])

def getCurrentChannel (c : Cache) : UInt8 := c.currChannel

def isValidChannel (c : Cache) (channel : UInt8) : Bool :=
  if channel.toNat < maxChannels then
    let idx := channelBitmapSize - channel.toNat / 8 - 1
    let mask : UInt8 := 1 <<< (channel % 8)
    c.channelMap.getD idx 0 &&& mask = mask
  else
    false

end Cache
