import Sircond.SirServer.Impl.Client

/-!
This module contains the reader of a client: receiving bytes into the staging buffer and cutting
lines of text off its front. `exec` stands for `ProcessCommand` of the server, which changes the
server's state `σ`.

The loop over the lines runs on fuel. The code returns from it if some amount of fuel is enough, and
loops forever if no amount is.
-/

namespace Client

def newline : UInt8 := 0x0A

inductive RecvResult where
  | received (bytes : List UInt8)
  | error
  deriving DecidableEq, Repr

def processData.scan (i : Nat) (line : List UInt8) : List UInt8 → Option (List UInt8 × Nat)
  | [] => none
  | b :: buf => if b = newline then some (line, i + 1) else scan (i + 1) (line ++ [b]) buf

variable {σ : Type} (exec : σ → List UInt8 → σ)

def processData (fuel : Nat) (s : σ) (buf : List UInt8) (offset : Nat)
    : Option (σ × List (List UInt8) × Nat) :=
  match fuel with
  | 0 => none
  | fuel + 1 =>
    if offset < buf.length then
      match processData.scan 0 [] (buf.drop offset) with
      | some (line, n) => do
        let (s, lines, offset) ← processData fuel (exec s line) buf (offset + n)
        return (s, line :: lines, offset)
      | none =>
        -- The scan ran into the end of the buffer and the offset is what it was.
        processData fuel s buf offset
    else
      some (s, [], offset)

def receiveData (fuel : Nat) (s : σ) (rxbuf : SOBuffer) (result : RecvResult)
    : Option (σ × SOBuffer × List (List UInt8) × Bool) := do
  let (room, rxbuf) := rxbuf.getWriteLen
  let rxbuf ← if room = 0 then rxbuf.clear else some rxbuf
  match result with
  | .received bytes =>
    if bytes.length > 0 then do
      let rxbuf ← rxbuf.append bytes
      let (s, lines, offset) ← processData exec fuel s rxbuf.readData 0
      let rxbuf ← rxbuf.markRead offset
      return (s, rxbuf, lines, true)
    else
      some (s, rxbuf, [], false)
  | .error => some (s, rxbuf, [], false)

def receiveAll (fuel : Nat) (s : σ) (rxbuf : SOBuffer)
    : List (List UInt8) → Option (σ × SOBuffer × List (List UInt8))
  | [] => some (s, rxbuf, [])
  | bytes :: chunks => do
    let (s, rxbuf, lines₁, _) ← receiveData exec fuel s rxbuf (.received bytes)
    let (s, rxbuf, lines₂) ← receiveAll fuel s rxbuf chunks
    return (s, rxbuf, lines₁ ++ lines₂)

end Client
