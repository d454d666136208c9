import Sircond.SirCon.Impl.Events
import Sircond.Util.Basic

/-!
This module contains the text of the events. `out` is the output operator of an event, and `line` what
the server broadcasts when it is notified of it.

An event of the radio is an `SCEvent`. A `Notice` is what `Update` is called with: an event of the
radio, or one of the two that the radio interface makes itself when it starts and when it stops.
-/

def quoted (str : List UInt8) : List UInt8 := 0x22 :: str ++ [0x22]

def decimal (n : Nat) : List UInt8 := (Nat.toDigits 10 n).map Char.toUInt8

def unsigned (b : UInt8) : List UInt8 := (Nat.toDigits 10 b.toNat).map Char.toUInt8

def signed (n : Int) : List UInt8 := if n < 0 then 0x2D :: decimal n.natAbs else decimal n.natAbs

def endl : List UInt8 := ascii "\n"

namespace SCESongInfo

def out (e : SCESongInfo) : List UInt8 :=
  ascii "SONGINFO," ++ (unsigned e.channel ++ ascii ",") ++ (quoted e.songId ++ ascii ",")
    ++ (quoted e.artistId ++ ascii ",") ++ (quoted e.title ++ ascii ",")
    ++ (quoted e.artist ++ ascii ",") ++ quoted e.composer

def line (e : SCESongInfo) : List UInt8 := e.out ++ endl

end SCESongInfo

namespace SCEChannelInfo

def out (e : SCEChannelInfo) : List UInt8 :=
  ascii "CHANNELINFO," ++ (unsigned e.channel ++ ascii ",") ++ (unsigned e.genre ++ ascii ",")
    ++ (quoted e.lname ++ ascii ",") ++ (quoted e.sname ++ ascii ",")
    ++ (quoted e.lgenre ++ ascii ",") ++ quoted e.sgenre

def line (e : SCEChannelInfo) : List UInt8 := e.out ++ endl

end SCEChannelInfo

def SCEGetResult.out (result : UInt16) : List UInt8 := ascii "GET," ++ decimal result.toNat

def SCESetResult.out (result : UInt16) : List UInt8 := ascii "SET," ++ decimal result.toNat

def SCESiriusID.out (e : SCESiriusID) : List UInt8 := ascii "SID," ++ e.sid

def SCEGain.out (e : SCEGain) : List UInt8 := ascii "GAIN," ++ signed e.gain.toInt

def SCEMute.out (e : SCEMute) : List UInt8 := ascii "MUTE," ++ unsigned e.mute

def SCESongID.out (e : SCESongID) : List UInt8 := ascii "SONGID," ++ quoted e.songid

def SCEChannel.out (e : SCEChannel) : List UInt8 := ascii "CHANNEL," ++ unsigned e.channel

def SCEChannelMap.out (_ : SCEChannelMap) : List UInt8 := ascii "CHANNELMAP"

def SCEStatus.out (e : SCEStatus) : List UInt8 :=
  ascii "STATUS," ++ (unsigned e.type ++ ascii ",") ++ (unsigned e.status1 ++ ascii ",")
    ++ unsigned e.status2

def SCERSSI.out (e : SCERSSI) : List UInt8 :=
  ascii "RSSI," ++ (unsigned e.composite ++ ascii ",") ++ (unsigned e.satellite ++ ascii ",")
    ++ unsigned e.terrestrial

def SCESignal.out (e : SCESignal) : List UInt8 := ascii "SIGNAL," ++ unsigned e.signal

def SCEAntenna.out (e : SCEAntenna) : List UInt8 := ascii "ANTENNA," ++ unsigned e.antenna

def SCEReset.out : List UInt8 := ascii "RESET"

def SCEPower.out (e : SCEPower) : List UInt8 := ascii "POWER," ++ unsigned e.power

def SCETimeZoneInfo.out (e : SCETimeZoneInfo) : List UInt8 :=
  ascii "TZINFO," ++ signed e.offset.toInt ++ ascii "," ++ unsigned e.dst

def SCETime.out (e : SCETime) : List UInt8 :=
  ascii "TIME," ++ (decimal e.year.toNat ++ ascii ",") ++ (unsigned e.mon ++ ascii ",")
    ++ (unsigned e.day ++ ascii ",") ++ (unsigned e.hour ++ ascii ",")
    ++ (unsigned e.min ++ ascii ",") ++ (unsigned e.sec ++ ascii ",")
    ++ (unsigned e.dow ++ ascii ",") ++ unsigned e.dst

def SCEStartup.out : List UInt8 := ascii "STARTUP"

def SCEShutdown.out : List UInt8 := ascii "SHUTDOWN"

def SCEvent.out : SCEvent → List UInt8
  | .reset => SCEReset.out
  | .getResult result => SCEGetResult.out result
  | .setResult result => SCESetResult.out result
  | .siriusID e => e.out
  | .gain e => e.out
  | .mute e => e.out
  | .songID e => e.out
  | .songInfo e => e.out
  | .channel e => e.out
  | .channelInfo e => e.out
  | .channelMap e => e.out
  | .status e => e.out
  | .rssi e => e.out
  | .signal e => e.out
  | .antenna e => e.out
  | .power e => e.out
  | .timeZoneInfo e => e.out
  | .time e => e.out

inductive Notice where
  | startup
  | shutdown
  | event (e : SCEvent)
  deriving DecidableEq

namespace Notice

def out : Notice → List UInt8
  | .startup => SCEStartup.out
  | .shutdown => SCEShutdown.out
  | .event e => e.out

def line (n : Notice) : List UInt8 := n.out ++ endl

end Notice
