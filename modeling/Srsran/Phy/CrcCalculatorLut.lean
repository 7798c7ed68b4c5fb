import Mathlib.Algebra.Order.Ring.Int
import Srsran.Adt.BitBuffer

/-! The CRC calculator that is based on look-up tables (`crc_calculator_lut_impl.cpp`). -/
namespace Srsran.Phy
open Srsran.Adt Checked

inductive CrcGeneratorPoly where
  | crc24A
  | crc24B
  | crc24C
  | crc16
  | crc11
  | crc6
  deriving DecidableEq, Repr

def unsignedMod : Nat := 2 ^ 32

structure CrcTable where
  entries : Vector (BitVec 32) (2 ^ 8)
  order : Nat
  crcmask : BitVec 32
  polynom : BitVec 32
  deriving DecidableEq, Repr

namespace CrcTable

def shiftLoop (polynom crchighbit : BitVec 64) : Nat → BitVec 64 → BitVec 64
  | 0, remainder => remainder
  | turns + 1, remainder =>
    if remainder &&& crchighbit = 0 then shiftLoop polynom crchighbit turns (remainder <<< 1)
    else shiftLoop polynom crchighbit turns (remainder <<< 1 ^^^ polynom)

def create (polynom : BitVec 32) (order : Nat) : CrcTable :=
  let crcmask : BitVec 32 :=
    ((((1#64 <<< (order - 1)) - 1) <<< 1) ||| 1).setWidth 32
  let pad := if order < 8 then 8 - order else 0
  let ord := order + pad - 8
  let crchighbit := 1#64 <<< (order - 1)
  let entries := Vector.ofFn fun i : Fin (2 ^ 8) =>
    let remainder := shiftLoop (polynom.setWidth 64) crchighbit 8 (BitVec.ofNat 64 i <<< ord)
    (remainder >>> pad).setWidth 32 &&& crcmask
  { entries, order, crcmask, polynom }

end CrcTable

def crcTables : CrcGeneratorPoly → Option CrcTable
  | .crc24A => some (CrcTable.create 0x1864cfb 24)
  | .crc24B => some (CrcTable.create 0x1800063 24)
  | .crc24C => some (CrcTable.create 0x1b2b117 24)
  | .crc16 => some (CrcTable.create 0x11021 16)
  | .crc11 => some (CrcTable.create 0xe21 11)
  | .crc6 => none

namespace CrcTable

def putByte (table : CrcTable) (crc : BitVec 32) (byte : BitVec 8) : BitVec 32 :=
  let idx : BitVec 8 :=
    if table.order = 24 then (crc >>> 16).setWidth 8 ^^^ byte
    else if 8 < table.order then (crc >>> (table.order - 8)).setWidth 8 ^^^ byte
    else (crc <<< (8 - table.order)).setWidth 8 ^^^ byte
  crc <<< 8 ^^^ table.entries.get idx.toFin

def reversecrcbitLoop (polynom : BitVec 32) : Nat → BitVec 32 → BitVec 32
  | 0, crc => crc
  | turns + 1, crc =>
    if 1 &&& crc = 1 then reversecrcbitLoop polynom turns ((crc ^^^ polynom) >>> 1)
    else reversecrcbitLoop polynom turns (crc >>> 1)

def reversecrcbit (table : CrcTable) (crc : BitVec 32) (nbits : Nat) : BitVec 32 :=
  reversecrcbitLoop table.polynom nbits crc &&& table.crcmask

def getChecksum (table : CrcTable) (crc : BitVec 32) : BitVec 32 := crc &&& table.crcmask

def calculateByte (table : CrcTable) (input : List (BitVec 8)) : BitVec 32 :=
  table.getChecksum (input.foldl table.putByte 0)

def bitPack (bits : List (BitVec 8)) : BitVec 8 :=
  (List.range 8).foldl (fun value i => value ||| bits.getD i 0 <<< (7 - i)) 0

/-- The mask of the positive elements, the first element in the lowest bit. -/
def movemask (bits : List (BitVec 8)) : BitVec 8 :=
  (List.range 8).foldl (fun mask i => if 0 < (bits.getD i 0).toInt then mask ||| 1#8 <<< i else mask) 0

/-- Eight unpacked bits, with the intrinsics of `__SSE4_1__` or without them. -/
def packByte (sse41 : Bool) (bits : List (BitVec 8)) : BitVec 8 :=
  if sse41 then (movemask bits).reverse else bitPack bits

def remainderByte (input : List (BitVec 8)) (iByte res8 : Nat) : BitVec 8 :=
  (List.range res8).foldl
    (fun byte k => byte ||| input.getD ((iByte * 8 + k) % unsignedMod) 0 <<< (7 - k)) 0

/-- The bytes of `calculate_bit`. The counters and the offsets are of type `unsigned`. -/
def putBits (table : CrcTable) (sse41 : Bool) (input : List (BitVec 8)) : BitVec 32 :=
  let nbytes := input.length / 8 % unsignedMod
  let res8 := input.length % 8
  let a := if 0 < res8 then 1 else 0
  let crc := (List.range nbytes).foldl
    (fun crc i => table.putByte crc (packByte sse41 ((input.drop (8 * i % unsignedMod)).take 8))) 0
  if nbytes < (nbytes + a) % unsignedMod then table.putByte crc (remainderByte input nbytes res8) else crc

def calculateBit (table : CrcTable) (sse41 : Bool) (input : List (BitVec 8)) : BitVec 32 :=
  let res8 := input.length % 8
  let crc := table.getChecksum (table.putBits sse41 input)
  table.getChecksum (if 0 < res8 then table.reversecrcbit crc (8 - res8) else crc)

def calculate (table : CrcTable) (input : BitBuffer) : Except BitBufferFault (BitVec 32) := do
  let nbytes := input.size / 8
  let res8 := input.size % 8
  let crc ← (List.range nbytes).foldlM
    (fun crc iByte => do
      let byte ← input.getByte iByte
      pure (table.putByte crc byte)) 0
  if 0 < res8 then
    let remainder ← input.extract (nbytes * 8) res8
    let crc := table.getChecksum (table.putByte crc (remainder <<< (8 - res8)))
    pure (table.getChecksum (table.reversecrcbit crc (8 - res8)))
  else
    pure (table.getChecksum (table.getChecksum crc))

end CrcTable

end Srsran.Phy
