import InterferenceObservatory.StateCodec
import InterferenceObservatory.Lib.Crc

/-! The digest of a state as a function of its payload. Every step of the digest is injective
in the hash and in the byte, because the prime is odd, so a payload that differs in one byte
has another digest. -/

namespace Iobs
open ByteFormat

namespace DigestBuilder

theorem mul_kPrime_injective : Function.Injective (· * kPrime) := by
  have hinverse : kPrime * 0xce965057aff6957b = 1 := by decide
  have hback : ∀ z : UInt64, z * kPrime * 0xce965057aff6957b = z := by
    intro z
    rw [UInt64.mul_assoc, hinverse, UInt64.mul_one]
  intro x y h
  have heq : x * kPrime = y * kPrime := h
  rw [← hback x, heq, hback]

theorem addU8_injective_hash (v : UInt8) : Function.Injective fun hash => addU8 hash v := by
  intro x y h
  have hxor := congrArg UInt64.toBitVec (mul_kPrime_injective h)
  rw [UInt64.toBitVec_xor, UInt64.toBitVec_xor] at hxor
  exact UInt64.toBitVec_inj.mp ((BitVec.xor_left_inj _).mp hxor)

theorem addU8_injective_byte (hash : UInt64) : Function.Injective (addU8 hash) := by
  intro v w h
  have hxor := congrArg UInt64.toBitVec (mul_kPrime_injective h)
  rw [UInt64.toBitVec_xor, UInt64.toBitVec_xor] at hxor
  have hbyte := congrArg UInt64.toNat (UInt64.toBitVec_inj.mp ((BitVec.xor_right_inj _).mp hxor))
  exact UInt8.toNat_inj.mp hbyte

def hexByte (b : UInt8) : List Char := [hexDigit (b >>> 4), hexDigit (b &&& 0xF)]

def unhex (c : Char) : ℕ := if c.toNat < 'a'.toNat then c.toNat - '0'.toNat else c.toNat - 87

theorem hexByte_injective : Function.Injective hexByte := by
  have hback : ∀ b : Fin 256, (hexByte ⟨⟨b⟩⟩).foldl (fun v c => 16 * v + unhex c) 0 = b := by
    decide +kernel
  have hvalue : ∀ b : UInt8, (hexByte b).foldl (fun v c => 16 * v + unhex c) 0 = b.toNat :=
    fun b => hback b.toFin
  intro b b' h
  rw [← UInt8.toNat_inj, ← hvalue b, h, hvalue]

theorem flatMap_hexByte_injective : Function.Injective fun l : List UInt8 => l.flatMap hexByte := by
  intro l l' h
  dsimp only at h
  induction l generalizing l' with
  | nil =>
    rcases l' with _ | ⟨b, l'⟩
    · rfl
    · cases h
  | cons b l ih =>
    rcases l' with _ | ⟨b', l'⟩
    · cases h
    · rw [List.flatMap_cons, List.flatMap_cons] at h
      obtain ⟨hb, hl⟩ := List.append_inj h rfl
      rw [hexByte_injective hb, ih hl]

theorem u64_injective : Function.Injective Writer.u64 := by
  intro v w h
  have hread : ∀ v : UInt64, (Reader.mk (Writer.u64 v) 0 true).u64 = (v, _) :=
    fun v => Reader.u64_rest (List.append_nil _).symm
  have hfst := congrArg Prod.fst (hread v)
  rw [h, hread w] at hfst
  exact hfst.symm

theorem finish_injective : Function.Injective finish := by
  intro hash hash' h
  have hbytes := flatMap_hexByte_injective (String.ofList_inj.mp h)
  exact u64_injective (List.reverse_injective hbytes)

end DigestBuilder

theorem differsWithin_one {l l' : List UInt8} (hlen : l.length = l'.length)
    (hone : ∃! i : ℕ, l[i]? ≠ l'[i]?) : DiffersWithin 1 l l' := by
  obtain ⟨i, hi, hunique⟩ := hone
  refine ⟨hlen, ?_, i, ?_⟩
  · rintro rfl
    exact hi rfl
  · intro j hj
    by_contra hne
    have hij := hunique j hne
    omega

/-- Two states whose payloads have the same length and differ in exactly one byte have
different digests. -/
theorem canonicalDigest_ne (st st' : Impl Double)
    (hlen : (serializeState st).length = (serializeState st').length)
    (hone : ∃! i : ℕ, (serializeState st)[i]? ≠ (serializeState st')[i]?) :
    canonicalDigest st ≠ canonicalDigest st' := by
  intro h
  have hhash := DigestBuilder.finish_injective h
  unfold DigestBuilder.addBytes at hhash
  rw [hlen] at hhash
  exact (differsWithin_one hlen hone).foldl_ne DigestBuilder.addU8_injective_hash
    DigestBuilder.addU8_injective_byte _ hhash

def Demo.freshened (fresh : Freshness) : Impl Double :=
  ((Impl.fresh ⟨1⟩ ⟨1⟩).publishBaseline { Demo.baseline with freshness := fresh }).2

theorem canonicalDigest_ne_freshness :
    canonicalDigest (Demo.freshened .current) ≠ canonicalDigest (Demo.freshened .historical) := by
  have hset : serializeState (Demo.freshened .historical) =
      (serializeState (Demo.freshened .current)).set 187
        (ByteEnum.toByte Freshness.historical) := by
    decide +kernel
  apply canonicalDigest_ne
  · rw [hset, List.length_set]
  · refine ⟨187, by decide +kernel, ?_⟩
    intro j hj
    by_contra hne
    rw [hset, List.getElem?_set_ne (Ne.symm hne)] at hj
    exact hj rfl

end Iobs
