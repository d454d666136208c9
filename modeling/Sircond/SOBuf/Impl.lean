import Mathlib.Data.List.Basic
import Mathlib.Tactic.Common

/-!
This module contains the slide-over buffer: a block of bytes with a read position and a number of
unread bytes, whose contents slide back to the start of the block when no room is left behind them.

The result `none` stands for a failed assertion or an access outside the block. `append` is what the
callers do between `GetWritePtr` and `MarkWritten`: they store bytes and then mark them as written.
`resize` takes the new block with the bytes it was allocated with.
-/

structure SOBuffer where
  size : Nat
  buf : List UInt8
  bufpos : Nat
  buflen : Nat
  deriving DecidableEq, Repr

namespace SOBuffer

def new (block : List UInt8) : SOBuffer where
  size := block.length
  buf := block
  bufpos := 0
  buflen := 0

def getReadLen (b : SOBuffer) : Nat := b.buflen

def readData (b : SOBuffer) : List UInt8 := (b.buf.drop b.bufpos).take b.buflen

def getWritePtr (b : SOBuffer) : Nat := b.bufpos + b.buflen

def poke (block : List UInt8) (pos : Nat) (bytes : List UInt8) : Option (List UInt8) :=
  if pos + bytes.length ≤ block.length then
    some (block.take pos ++ bytes ++ block.drop (pos + bytes.length))
  else
    none

def markRead (b : SOBuffer) (len : Nat) : Option SOBuffer :=
  if len ≤ b.buflen then
    let buflen := b.buflen - len
    -- An empty buffer starts over at the start of the block.
    some { b with bufpos := if buflen = 0 then 0 else b.bufpos + len, buflen }
  else
    none

def getWriteLen (b : SOBuffer) : Nat × SOBuffer :=
  let len := b.size - b.bufpos - b.buflen
  if len = 0 then
    (b.size - b.buflen, { b with buf := b.readData ++ b.buf.drop b.buflen, bufpos := 0 })
  else
    (len, b)

def store (b : SOBuffer) (bytes : List UInt8) : Option SOBuffer :=
  (poke b.buf b.getWritePtr bytes).map fun buf => { b with buf }

def markWritten (b : SOBuffer) (len : Nat) : Option SOBuffer :=
  let (room, b) := b.getWriteLen
  if len ≤ room then
    some { b with buflen := b.buflen + len }
  else
    none

def append (b : SOBuffer) (bytes : List UInt8) : Option SOBuffer :=
  (b.store bytes).bind fun b => b.markWritten bytes.length

def clear (b : SOBuffer) : Option SOBuffer := b.markRead b.getReadLen

def resize (b : SOBuffer) (block : List UInt8) : SOBuffer :=
  let newsize := block.length
  let buflen := if b.buflen > newsize then newsize else b.buflen
  let contents := (b.buf.drop b.bufpos).take buflen
  { b with buf := contents ++ block.drop buflen, bufpos := 0, buflen }

end SOBuffer
