import Sircond.SirServer.Impl.Control
import Sircond.SirCon.Impl.Basic
import Sircond.SirCon.Impl.Request

/-!
This module contains the command language of the clients: the handler tables, the validators and
the handlers.

A handler that makes a request of the radio blocks until the result is there. `Radio` is what such
a handler sees of the radio interface: the current channel, and the result its request will have.
-/

open Scp CSirCon

structure Radio where
  currChannel : UInt8
  result : SCResult
  deriving DecidableEq, Repr

abbrev Tokens := List (List UInt8)

abbrev ValidationFunc := CSirServer → ClientPtr → Tokens → Bool

abbrev HandlerFunc := Radio → CSirServer → ClientPtr → Tokens → CSirServer × List Effect

abbrev HandlerTable := List (List UInt8 × ValidationFunc × HandlerFunc)

namespace CSirServer

def notifyResult (s : CSirServer) (client : ClientPtr) (result : SCResult)
    : CSirServer × List Effect :=
  let ss :=
    match result with
    | .success => ascii "OK\n"
    | .timeout => ascii "TIMEOUT\n"
    | .noMemory => ascii "ERROR\n"
  s.notify (some client) ss

def request (data : Payload) (radio : Radio) (s : CSirServer) (client : ClientPtr)
    : CSirServer × List Effect :=
  let (s, effects) := s.notifyResult client radio.result
  (s, .send data :: effects)

def tokenCount (n : Nat) : ValidationFunc := fun _ _ tokens => tokens.length = n

def token (tokens : Tokens) (i : Nat) : List UInt8 := tokens.getD i []

def validateGetGain : ValidationFunc := tokenCount 2
def validateGetMute : ValidationFunc := tokenCount 2
def validateGetPower : ValidationFunc := tokenCount 2
def validateGetChannel : ValidationFunc := tokenCount 2
def validateGetChannelInfo : ValidationFunc := tokenCount 2
def validateGetSongInfo : ValidationFunc := tokenCount 2
def validateGetSID : ValidationFunc := tokenCount 2
def validateGetTZInfo : ValidationFunc := tokenCount 2
def validateGetTime : ValidationFunc := tokenCount 2
def validateGetStatus : ValidationFunc := tokenCount 3
def validateGetRSSI : ValidationFunc := tokenCount 2

def processGetGain : HandlerFunc := fun radio s client _ => request getGain radio s client
def processGetMute : HandlerFunc := fun radio s client _ => request getMute radio s client
def processGetPower : HandlerFunc := fun radio s client _ => request getPower radio s client
def processGetChannel : HandlerFunc := fun radio s client _ => request getChannel radio s client

def processGetChannelInfo : HandlerFunc := fun radio s client _ =>
  request (getChannelInfo radio.currChannel) radio s client

def processGetSongInfo : HandlerFunc := fun radio s client _ =>
  request (getSongInfo radio.currChannel) radio s client

def processGetTZInfo : HandlerFunc := fun radio s client _ => request getTZ radio s client
def processGetTime : HandlerFunc := fun radio s client _ => request getTime radio s client

def processGetStatus : HandlerFunc := fun radio s client tokens =>
  let st := (strtoul (token tokens 2)).toUInt32
  request (getStatus st.toUInt8) radio s client

def processGetSID : HandlerFunc := fun radio s client _ => request getSID radio s client
def processGetRSSI : HandlerFunc := fun radio s client _ => request getRSSI radio s client

def validateSetReset : ValidationFunc := tokenCount 2
def validateSetGain : ValidationFunc := tokenCount 3
def validateSetMute : ValidationFunc := tokenCount 3
def validateSetPower : ValidationFunc := tokenCount 3
def validateSetChannel : ValidationFunc := tokenCount 3
def validateSetTZInfo : ValidationFunc := tokenCount 4
def validateSetAsync : ValidationFunc := tokenCount 3

def processSetReset : HandlerFunc := fun radio s client _ => request reset radio s client

def processSetGain : HandlerFunc := fun radio s client tokens =>
  let gain := (atoi (token tokens 2)).toInt8
  request (setGain gain) radio s client

def processSetMute : HandlerFunc := fun radio s client tokens =>
  let on : Bool := strtoul (token tokens 2) > 0
  request (setMute on) radio s client

def processSetPower : HandlerFunc := fun radio s client tokens =>
  let mode := (strtoul (token tokens 2)).toUInt32
  request (setPower mode.toUInt8) radio s client

def processSetChannel : HandlerFunc := fun radio s client tokens =>
  let channel := (strtoul (token tokens 2)).toUInt8
  request (setChannel channel) radio s client

def processSetTZInfo : HandlerFunc := fun radio s client tokens =>
  let offset := (atoi (token tokens 2)).toInt16
  let dst : Bool := strtoul (token tokens 3) > 0
  request (setTZ offset dst) radio s client

def processSetAsync : HandlerFunc := fun radio s client tokens =>
  let flags := (strtoul (token tokens 2)).toUInt32
  request (enableAsyncNotifications flags.toUInt8) radio s client

def getHandlers : HandlerTable := [
  (ascii "GAIN", validateGetGain, processGetGain),
  (ascii "MUTE", validateGetMute, processGetMute),
  (ascii "POWER", validateGetPower, processGetPower),
  (ascii "CHANNEL", validateGetChannel, processGetChannel),
  (ascii "CHANNELINFO", validateGetChannelInfo, processGetChannelInfo),
  (ascii "SONGINFO", validateGetSongInfo, processGetSongInfo),
  (ascii "SID", validateGetSID, processGetSID),
  (ascii "TZINFO", validateGetTZInfo, processGetTZInfo),
  (ascii "TIME", validateGetTime, processGetTime),
  (ascii "STATUS", validateGetStatus, processGetStatus),
  (ascii "RSSI", validateGetRSSI, processGetRSSI)
]

def setHandlers : HandlerTable := [
  (ascii "RESET", validateSetReset, processSetReset),
  (ascii "GAIN", validateSetGain, processSetGain),
  (ascii "MUTE", validateSetMute, processSetMute),
  (ascii "POWER", validateSetPower, processSetPower),
  (ascii "CHANNEL", validateSetChannel, processSetChannel),
  (ascii "TZINFO", validateSetTZInfo, processSetTZInfo),
  (ascii "ASYNC", validateSetAsync, processSetAsync)
]

def validateGet : ValidationFunc := fun _ _ tokens => tokens.length ≥ 2

def validateSet : ValidationFunc := fun s client tokens =>
  tokens.length ≥ 2 && s.hasControl client

def validateControl : ValidationFunc := tokenCount 2
def validateQuit : ValidationFunc := tokenCount 1

def processWith (handlers : HandlerTable) : HandlerFunc := fun radio s client tokens =>
  match handlers.lookup (token tokens 1) with
  | some (v, p) =>
    if v s client tokens then
      p radio s client tokens
    else
      (s, [])
  | none => (s, [])

def processGet : HandlerFunc := processWith getHandlers

def processSet : HandlerFunc := processWith setHandlers

def processControl : HandlerFunc := fun _ s client tokens =>
  if token tokens 1 = ascii "ACQUIRE" then
    let (s, result) := s.acquireControl client
    s.notify (some client) (if result then ascii "CONTROL,ACQUIRED\n" else ascii "CONTROL,PENDING\n")
  else if token tokens 1 = ascii "RELEASE" then
    let (s, effects₁) := s.releaseControl client
    let (s, effects₂) := s.notify (some client) (ascii "CONTROL,RELEASED\n")
    (s, effects₁ ++ effects₂)
  else
    s.notify (some client) (ascii "\n")

def processQuit : HandlerFunc := fun _ s client _ => s.drop client

def cmdHandlers : HandlerTable := [
  (ascii "GET", validateGet, processGet),
  (ascii "SET", validateSet, processSet),
  (ascii "CONTROL", validateControl, processControl),
  (ascii "QUIT", validateQuit, processQuit)
]

def processCommand (radio : Radio) (s : CSirServer) (client : ClientPtr) (cmd : List UInt8)
    : CSirServer × List Effect :=
  let tokens := strTokenize cmd 0x20 true
  if tokens.length > 0 then
    match cmdHandlers.lookup (token tokens 0) with
    | some (v, p) =>
      if v s client tokens then
        p radio s client tokens
      else
        s.notify (some client) (ascii "ERROR\n")
    | none => (s, [])
  else
    (s, [])

end CSirServer
