import Sircond.SirServer.Impl.Events
import Sircond.SirServer.Impl.OnRun

/-!
This module contains what the server does when the radio interface notifies it: the event handlers and
the table `Update` finds them in.

An `Observer` is the server together with the flag that the radio has been seen with power on and the
shutdown flag of its task. A broadcast is a message to each connected client. Two kinds of event have
no handler.
-/

open Scp CSirCon

structure Observer where
  server : CSirServer
  initialized : Bool
  shutdown : Bool
  deriving DecidableEq

namespace Observer

def new (sock : Int) : Observer where
  server := .new sock
  initialized := false
  shutdown := false

def notifyAll (o : Observer) (msg : List UInt8) : Observer × List Effect :=
  ({ o with server := o.server.broadcast msg },
    o.server.clients.map fun client => .notify client msg)

def notifyController (o : Observer) (msg : List UInt8) : Observer × List Effect :=
  let (server, effects) := o.server.notify o.server.controller msg
  ({ o with server }, effects)

def relayAll (out : List UInt8) (o : Observer) : Observer × List Effect := o.notifyAll (out ++ endl)

def relayController (out : List UInt8) (o : Observer) : Observer × List Effect :=
  o.notifyController (out ++ endl)

def onSCEStartup : Observer → Observer × List Effect := relayAll SCEStartup.out

def onSCEGetResult (result : UInt16) : Observer → Observer × List Effect :=
  relayController (SCEGetResult.out result)

def onSCESetResult (result : UInt16) : Observer → Observer × List Effect :=
  relayController (SCESetResult.out result)

def onSCESID (s : SCESiriusID) : Observer → Observer × List Effect := relayAll s.out
def onSCEGain (g : SCEGain) : Observer → Observer × List Effect := relayAll g.out
def onSCEMute (m : SCEMute) : Observer → Observer × List Effect := relayAll m.out
def onSCETime (t : SCETime) : Observer → Observer × List Effect := relayAll t.out
def onSCETZInfo (t : SCETimeZoneInfo) : Observer → Observer × List Effect := relayAll t.out
def onSCESongInfo (s : SCESongInfo) : Observer → Observer × List Effect := relayAll s.out
def onSCEChannel (c : SCEChannel) : Observer → Observer × List Effect := relayAll c.out
def onSCEChannelInfo (c : SCEChannelInfo) : Observer → Observer × List Effect := relayAll c.out
def onSCEChannelMap (m : SCEChannelMap) : Observer → Observer × List Effect := relayAll m.out
def onSCEStatus (s : SCEStatus) : Observer → Observer × List Effect := relayAll s.out
def onSCERSSI (r : SCERSSI) : Observer → Observer × List Effect := relayAll r.out
def onSCESignal (s : SCESignal) : Observer → Observer × List Effect := relayAll s.out

def onSCEPower (p : SCEPower) (o : Observer) : Observer × List Effect :=
  let (o, effects) := relayAll p.out o
  if !o.initialized && p.power > 0 then
    ({ o with initialized := true }, effects)
  else
    (o, effects)

def onSCEReset (o : Observer) : Observer × List Effect :=
  -- The radio has just been reset: the initialization sequence starts again.
  ({ o with initialized := false }, [.send (setPower 0x03)])

def onSCEShutdown (o : Observer) : Observer × List Effect :=
  let (o, effects) := relayAll SCEShutdown.out o
  ({ o with shutdown := true }, effects)

def update (o : Observer) : Notice → Observer × List Effect
  | .startup => o.onSCEStartup
  | .shutdown => o.onSCEShutdown
  | .event .reset => o.onSCEReset
  | .event (.getResult result) => o.onSCEGetResult result
  | .event (.setResult result) => o.onSCESetResult result
  | .event (.siriusID s) => o.onSCESID s
  | .event (.gain g) => o.onSCEGain g
  | .event (.mute m) => o.onSCEMute m
  | .event (.songInfo s) => o.onSCESongInfo s
  | .event (.channel c) => o.onSCEChannel c
  | .event (.channelInfo c) => o.onSCEChannelInfo c
  | .event (.channelMap m) => o.onSCEChannelMap m
  | .event (.status s) => o.onSCEStatus s
  | .event (.rssi r) => o.onSCERSSI r
  | .event (.signal s) => o.onSCESignal s
  | .event (.power p) => o.onSCEPower p
  | .event (.timeZoneInfo t) => o.onSCETZInfo t
  | .event (.time t) => o.onSCETime t
  -- These have no handler.
  | .event (.songID _) | .event (.antenna _) => (o, [])

end Observer
