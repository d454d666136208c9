import Sircond.Lib.Logged
import Sircond.Scp.Basic

/-!
This module contains the events of the radio and their `deserialize` functions. A decoder reads the
memory from the payload on, with nothing to stop it from reading on behind the payload: what it
accesses is in its log. `data` is the position of the byte a pointer points to.

A subtraction of unsigned 32-bit numbers wraps. `SCESongInfo.new` takes the channel at once: its
`deserialize` neither reads nor sets it.
-/

open Scp

abbrev Memory := Nat → UInt8

/--
What a decoder does that may go wrong: it reads a byte, subtracts `k` from a length, returns from a
`deserialize` call that was given `len` bytes and says it has used `n`, or makes an assertion.
-/
inductive Access where
  | read (pos : Nat)
  | sub (len k : Nat)
  | ret (len n : Nat)
  | check (holds : Bool)
  deriving DecidableEq, Repr

abbrev Decoder := Logged Memory Access

namespace Decoder

def read (pos : Nat) : Decoder UInt8 := Logged.ask (fun mem => mem pos) (.read pos)

def sub (len k : Nat) : Decoder Nat :=
  Logged.ask (fun _ => if k ≤ len then len - k else len + UInt32.size - k) (.sub len k)

def ret {α : Type} (len : Nat) (event : α) (n : Nat) : Decoder (α × Nat) :=
  Logged.ask (fun _ => (event, n)) (.ret len n)

def check (holds : Bool) : Decoder Unit := Logged.ask (fun _ => ()) (.check holds)

def copy (data : Nat) : Nat → Decoder (List UInt8)
  | 0 => pure []
  | n + 1 => do
    let b ← read data
    let bytes ← copy (data + 1) n
    return b :: bytes

def copyPascalString (srcstr : Nat) : Decoder (List UInt8 × Nat) := do
  let len ← read srcstr
  let deststr ← copy (srcstr + 1) len.toNat
  return (deststr, len.toNat + 1)

def oneByte {α : Type} (event : UInt8 → α) (data len : Nat) : Decoder (α × Nat) := do
  let b ← read data
  ret len (event b) 1

def threeBytes {α : Type} (event : UInt8 → UInt8 → UInt8 → α) (data len : Nat)
    : Decoder (α × Nat) := do
  let b₀ ← read data
  let b₁ ← read (data + 1)
  let b₂ ← read (data + 2)
  ret len (event b₀ b₁ b₂) 3

def pascalString {α : Type} (event : List UInt8 → α) (data len : Nat) : Decoder (α × Nat) := do
  let (str, n) ← copyPascalString data
  ret len (event str) n

end Decoder

open Decoder

structure SCESiriusID where
  sid : List UInt8
  deriving DecidableEq, Repr

def SCESiriusID.deserialize : Nat → Nat → Decoder (SCESiriusID × Nat) := pascalString .mk

structure SCEGain where
  gain : Int8
  deriving DecidableEq

def SCEGain.deserialize : Nat → Nat → Decoder (SCEGain × Nat) := oneByte fun b => ⟨b.toInt8⟩

structure SCEMute where
  mute : UInt8
  deriving DecidableEq, Repr

def SCEMute.deserialize : Nat → Nat → Decoder (SCEMute × Nat) := oneByte .mk

structure SCESongID where
  songid : List UInt8
  deriving DecidableEq, Repr

def SCESongID.deserialize : Nat → Nat → Decoder (SCESongID × Nat) := pascalString .mk

structure SCEChannel where
  channel : UInt8
  deriving DecidableEq, Repr

def SCEChannel.deserialize : Nat → Nat → Decoder (SCEChannel × Nat) := oneByte .mk

structure SCEStatus where
  type : UInt8
  status1 : UInt8
  status2 : UInt8
  deriving DecidableEq, Repr

def SCEStatus.deserialize : Nat → Nat → Decoder (SCEStatus × Nat) := threeBytes .mk

structure SCERSSI where
  composite : UInt8
  satellite : UInt8
  terrestrial : UInt8
  deriving DecidableEq, Repr

def SCERSSI.deserialize : Nat → Nat → Decoder (SCERSSI × Nat) := threeBytes .mk

structure SCEChannelMap where
  channelMap : List UInt8
  deriving DecidableEq, Repr

def SCEChannelMap.deserialize (data len : Nat) : Decoder (SCEChannelMap × Nat) := do
  check (len ≥ channelBitmapSize)
  let channelMap ← copy data channelBitmapSize
  ret len ⟨channelMap⟩ channelBitmapSize

structure SCESignal where
  signal : UInt8
  deriving DecidableEq, Repr

def SCESignal.deserialize : Nat → Nat → Decoder (SCESignal × Nat) := oneByte .mk

structure SCEAntenna where
  antenna : UInt8
  deriving DecidableEq, Repr

def SCEAntenna.deserialize : Nat → Nat → Decoder (SCEAntenna × Nat) := oneByte .mk

structure SCEPower where
  power : UInt8
  deriving DecidableEq, Repr

def SCEPower.deserialize : Nat → Nat → Decoder (SCEPower × Nat) := oneByte .mk

structure SCESongInfo where
  channel : UInt8
  title : List UInt8
  artist : List UInt8
  album : List UInt8
  composer : List UInt8
  songId : List UInt8
  artistId : List UInt8
  deriving DecidableEq, Repr

namespace SCESongInfo

def new (channel : UInt8) : SCESongInfo where
  channel := channel
  title := []
  artist := []
  album := []
  composer := []
  songId := []
  artistId := []

def setField (s : SCESongInfo) (tag : UInt8) (str : List UInt8) : SCESongInfo :=
  if tag = sitArtist then
    { s with artist := str }
  else if tag = sitTitle then
    { s with title := str }
  else if tag = sitAlbum then
    { s with album := str }
  else if tag = sitComposer then
    { s with composer := str }
  else if tag = sitSongID then
    { s with songId := str }
  else if tag = sitArtistID then
    { s with artistId := str }
  else
    -- The string of an unknown tag is read and dropped.
    s

def deserialize.go (data len : Nat) (s : SCESongInfo) (offset : Nat)
    : Nat → Decoder (SCESongInfo × Nat)
  | 0 => ret len s offset
  | numFields + 1 =>
    if offset < len then do
      let tag ← read (data + offset)
      if tag = sitErase then
        go data len s (offset + 1) numFields
      else do
        let (str, n) ← copyPascalString (data + (offset + 1))
        go data len (s.setField tag str) (offset + 1 + n) numFields
    else
      ret len s offset

def deserialize (s : SCESongInfo) (data len : Nat) : Decoder (SCESongInfo × Nat) :=
  if len < 1 then
    ret len s 0
  else do
    let numFields ← read data
    deserialize.go data len s 1 numFields.toNat

end SCESongInfo

structure SCEChannelInfo where
  channel : UInt8
  genre : UInt8
  sname : List UInt8
  lname : List UInt8
  sgenre : List UInt8
  lgenre : List UInt8
  deriving DecidableEq, Repr

def SCEChannelInfo.deserialize (data len : Nat) : Decoder (SCEChannelInfo × Nat) := do
  let channel ← read data
  let genre ← read (data + 1)
  -- Three bytes of unknown meaning are skipped.
  let offset := 5
  let (sname, n) ← copyPascalString (data + offset)
  let offset := offset + n
  let (lname, n) ← copyPascalString (data + offset)
  let offset := offset + n
  let (sgenre, n) ← copyPascalString (data + offset)
  let offset := offset + n
  let (lgenre, n) ← copyPascalString (data + offset)
  let offset := offset + n
  ret len ⟨channel, genre, sname, lname, sgenre, lgenre⟩ offset

structure SCETimeZoneInfo where
  offset : Int16
  dst : UInt8
  deriving DecidableEq

def SCETimeZoneInfo.deserialize : Nat → Nat → Decoder (SCETimeZoneInfo × Nat) :=
  threeBytes fun b₀ b₁ dst => ⟨(b₀.toUInt16 <<< 8 ||| b₁.toUInt16).toInt16, dst⟩

structure SCETime where
  year : UInt16
  mon : UInt8
  day : UInt8
  hour : UInt8
  min : UInt8
  sec : UInt8
  dow : UInt8
  dst : UInt8
  deriving DecidableEq, Repr

def SCETime.deserialize (data len : Nat) : Decoder (SCETime × Nat) := do
  let b₀ ← read data
  let b₁ ← read (data + 1)
  let mon ← read (data + 2)
  let day ← read (data + 3)
  let hour ← read (data + 4)
  let min ← read (data + 5)
  let sec ← read (data + 6)
  let dow ← read (data + 7)
  let dst ← read (data + 8)
  ret len ⟨b₀.toUInt16 <<< 8 ||| b₁.toUInt16, mon, day, hour, min, sec, dow, dst⟩ sizeofDateTime

inductive SCEvent where
  | reset
  | getResult (result : UInt16)
  | setResult (result : UInt16)
  | siriusID (e : SCESiriusID)
  | gain (e : SCEGain)
  | mute (e : SCEMute)
  | songID (e : SCESongID)
  | songInfo (e : SCESongInfo)
  | channel (e : SCEChannel)
  | channelInfo (e : SCEChannelInfo)
  | channelMap (e : SCEChannelMap)
  | status (e : SCEStatus)
  | rssi (e : SCERSSI)
  | signal (e : SCESignal)
  | antenna (e : SCEAntenna)
  | power (e : SCEPower)
  | timeZoneInfo (e : SCETimeZoneInfo)
  | time (e : SCETime)
  deriving DecidableEq
