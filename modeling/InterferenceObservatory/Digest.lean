import InterferenceObservatory.Ids
import InterferenceObservatory.Lib.ByteCursor

/-! The FNV-1a digest behind the content-derived identities and the canonical digest. -/

namespace Iobs.DigestBuilder
open ByteFormat

def kPrime : UInt64 := 0x100000001b3

def init : UInt64 := 0xcbf29ce484222325

def addU8 (hash : UInt64) (v : UInt8) : UInt64 := (hash ^^^ v.toUInt64) * kPrime

def addU64 (hash v : UInt64) : UInt64 := (Writer.u64 v).foldl addU8 hash

def addId {tag : IdTag} (hash : UInt64) (i : Id tag) : UInt64 := addU64 hash i.value

def addEnum {E : Type} [ByteEnum E] (hash : UInt64) (e : E) : UInt64 :=
  addU8 hash (ByteEnum.toByte e)

def addBytes (hash : UInt64) (data : List UInt8) : UInt64 :=
  data.foldl addU8 (addU64 hash (UInt64.ofNat data.length))

def hexDigit (n : UInt8) : Char :=
  if n < 10 then Char.ofNat (n.toNat + '0'.toNat) else Char.ofNat (n.toNat - 10 + 'a'.toNat)

def finish (hash : UInt64) : String :=
  String.ofList ((Writer.u64 hash).reverse.flatMap fun b : UInt8 =>
    [hexDigit (b >>> 4), hexDigit (b &&& 0xF)])

end Iobs.DigestBuilder
