import Mathlib.Data.List.Basic
import Mathlib.Tactic.Common

/-!
This module contains the text functions of the daemon: splitting a line into tokens, and the number
conversions of the C library on an LP64 platform, where `unsigned long` has 64 bits and `atoi` is
`strtol` cut to 32 bits.
-/

def ascii (s : String) : List UInt8 := s.toList.map Char.toUInt8

def strTokenize.go (inSplit : UInt8) (returnPartial : Bool) (sub : List UInt8)
    : List UInt8 → List (List UInt8)
  | [] => if returnPartial && !sub.isEmpty then [sub] else []
  | b :: inStr =>
    if b = inSplit then
      sub :: go inSplit returnPartial [] inStr
    else
      go inSplit returnPartial (sub ++ [b]) inStr

def strTokenize (inStr : List UInt8) (inSplit : UInt8) (returnPartial : Bool) : List (List UInt8) :=
  strTokenize.go inSplit returnPartial [] inStr

def cStr (s : List UInt8) : List UInt8 := s.takeWhile fun b => b ≠ 0

def isSpace (b : UInt8) : Bool := b = 0x20 || (0x09 ≤ b && b ≤ 0x0D)

def isDigit (b : UInt8) : Bool := 0x30 ≤ b && b ≤ 0x39

def parseDigits (s : List UInt8) : Nat :=
  (s.takeWhile isDigit).foldl (fun n b => 10 * n + (b.toNat - 0x30)) 0

def parseDecimal (s : List UInt8) : Bool × Nat :=
  match (cStr s).dropWhile isSpace with
  | [] => (false, 0)
  | b :: s =>
    if b = 0x2D then
      (true, parseDigits s)
    else if b = 0x2B then
      (false, parseDigits s)
    else
      (false, parseDigits (b :: s))

def strtoul (s : List UInt8) : UInt64 :=
  let (neg, n) := parseDecimal s
  if n ≥ UInt64.size then
    UInt64.ofNat (UInt64.size - 1)
  else if neg then
    0 - UInt64.ofNat n
  else
    UInt64.ofNat n

def strtol (s : List UInt8) : Int :=
  let (neg, n) := parseDecimal s
  if neg then
    max (-(n : Int)) Int64.minValue.toInt
  else
    min n Int64.maxValue.toInt

def atoi (s : List UInt8) : Int32 := Int32.ofInt (strtol s)
