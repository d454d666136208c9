import Sircond.SOBuf.Lemmas

/-!
This module contains the client of the server: a socket, which is -1 once the client is dead, and
two staging buffers. The transmit buffer carries the proof that it is intact, so that the assertions
of its operations hold by construction. The argument of `transmitData` is the result of `send`.
-/

structure Client where
  sock : Int
  rxbuf : SOBuffer
  txbuf : SOBuffer
  txok : txbuf.Ok
  deriving DecidableEq

namespace Client

def new (sock : Int) (rxblock txblock : List UInt8) : Client where
  sock := sock
  rxbuf := .new rxblock
  txbuf := .new txblock
  txok := SOBuffer.ok_new txblock

def isDead (c : Client) : Bool := c.sock = -1

def txPending (c : Client) : Bool := c.txbuf.getReadLen > 0

def send (c : Client) (buf : List UInt8) : Client × Bool :=
  if h : buf.length ≤ c.txbuf.getWriteLen.1 then
    let txbuf := (c.txbuf.getWriteLen.2.append buf).get (SOBuffer.isSome_append c.txok h)
    ({ c with txbuf, txok := SOBuffer.ok_get_append c.txok h }, true)
  else
    ({ c with txbuf := c.txbuf.getWriteLen.2, txok := (SOBuffer.getWriteLen_spec c.txok).1 }, false)

def drop (c : Client) : Client :=
  {
    c with
    sock := -1
    -- Any pending data is discarded.
    txbuf := c.txbuf.clear.get (SOBuffer.isSome_clear c.txok)
    txok := SOBuffer.ok_get_clear c.txok
  }

def transmitData (c : Client) (sent : Option Nat) : Option (Client × Bool) :=
  if c.txPending then
    match sent with
    | some n =>
      match h : c.txbuf.markRead n with
      | some txbuf => some ({ c with txbuf, txok := SOBuffer.ok_of_markRead c.txok h }, true)
      | none => none
    | none => some (c, false)
  else
    some (c, false)

@[simp]
theorem sock_send (c : Client) (buf : List UInt8) : (c.send buf).1.sock = c.sock := by
  unfold send
  split
  . rfl
  . rfl

@[simp]
theorem isDead_send (c : Client) (buf : List UInt8) : (c.send buf).1.isDead = c.isDead := by
  simp [isDead]

@[simp]
theorem isDead_drop (c : Client) : c.drop.isDead = true := rfl

theorem sock_transmitData {c c' : Client} {sent : Option Nat} {result : Bool}
    (h : c.transmitData sent = some (c', result))
    : c'.sock = c.sock := by
  unfold transmitData at h
  split at h
  . split at h
    . split at h
      . obtain ⟨rfl, -⟩ := Prod.mk.inj (Option.some.inj h)
        rfl
      . simp at h
    . obtain ⟨rfl, -⟩ := Prod.mk.inj (Option.some.inj h)
      rfl
  . obtain ⟨rfl, -⟩ := Prod.mk.inj (Option.some.inj h)
    rfl

end Client
