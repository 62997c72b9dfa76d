import InterferenceObservatory.Lib.ByteCursor
import InterferenceObservatory.Enums
import Mathlib.Logic.Function.Iterate

/-! The versioned, checksummed envelope around a payload. -/

namespace Iobs.Persist
open ByteFormat

def kMagic : Nat := 0x495f4f42
def kVersion : Nat := 1
def kMaxPayload : Nat := 256 * 1024 * 1024
def kHeaderSize : Nat := 4 + 2 + 4
def kCrcSize : Nat := 4

def crcShift (c : UInt32) : UInt32 :=
  if c &&& 1 ≠ 0 then (0x82F63B78 : UInt32) ^^^ (c >>> 1) else c >>> 1

def table (i : UInt32) : UInt32 := crcShift^[8] i

def crc32c (data : List UInt8) : UInt32 :=
  data.foldl (fun crc b => table ((crc ^^^ b.toUInt32) &&& 0xFF) ^^^ (crc >>> 8)) 0xFFFFFFFF
    ^^^ 0xFFFFFFFF

structure Error where
  status : Status
  what : String

def framed (payload : List UInt8) : List UInt8 :=
  le 4 kMagic ++ le 2 kVersion ++ le 4 payload.length ++ payload

def encode (payload : List UInt8) : Except Error (List UInt8) :=
  if payload.length > kMaxPayload then
    .error ⟨.resourceExhausted, "payload exceeds persistence bound"⟩
  else .ok (framed payload ++ le 4 (crc32c (framed payload)).toNat)

def wordAt (encoded : List UInt8) (i k : Nat) : Nat := (Reader.word k 0 0 ⟨encoded, i, true⟩).1

def decode (encoded : List UInt8) : Except String (List UInt8) :=
  if encoded.length < kHeaderSize + kCrcSize then .error "truncated: envelope too short"
  else if wordAt encoded 0 4 ≠ kMagic then .error "bad magic"
  else if wordAt encoded 4 2 ≠ kVersion then
    .error ("unknown version " ++ toString (wordAt encoded 4 2))
  else
    let plen := wordAt encoded 6 4
    let expected := kHeaderSize + plen + kCrcSize
    if plen > kMaxPayload then .error "payload exceeds bound"
    else if encoded.length < expected then .error "truncated: payload incomplete"
    else if encoded.length ≠ expected then .error "trailing garbage"
    else if (crc32c (encoded.take (expected - kCrcSize))).toNat ≠
        wordAt encoded (expected - 4) 4 then
      .error "checksum mismatch"
    else .ok ((encoded.take (expected - kCrcSize)).drop kHeaderSize)

theorem encode_ok {payload : List UInt8} (h : payload.length ≤ kMaxPayload) :
    encode payload = .ok (framed payload ++ le 4 (crc32c (framed payload)).toNat) :=
  if_neg (Nat.not_lt.mpr h)

theorem wordAt_le (pre post : List UInt8) {k v : Nat} (hv : v < 256 ^ k) :
    wordAt (pre ++ (le k v ++ post)) pre.length k = v := by
  have hrest : (Reader.mk (pre ++ (le k v ++ post)) pre.length true).rest = le k v ++ post :=
    List.drop_left
  rw [wordAt, Reader.word_le k 0 0 v _ post hrest, Nat.mod_eq_of_lt hv]
  simp

@[simp] theorem length_framed (payload : List UInt8) :
    (framed payload).length = kHeaderSize + payload.length := by
  simp only [framed, List.length_append, length_le, kHeaderSize]

theorem decode_framed {payload : List UInt8} (h : payload.length ≤ kMaxPayload) :
    decode (framed payload ++ le 4 (crc32c (framed payload)).toNat) = .ok payload := by
  have hplen : payload.length < 256 ^ 4 := Nat.lt_of_le_of_lt h (by decide)
  have hcrc : (crc32c (framed payload)).toNat < 256 ^ 4 := UInt32.toNat_lt _
  generalize hc : le 4 (crc32c (framed payload)).toNat = crc
  have hlen : (framed payload ++ crc).length = kHeaderSize + payload.length + kCrcSize := by
    rw [List.length_append, length_framed, ← hc, length_le, kCrcSize]
  have hmagic : wordAt (framed payload ++ crc) 0 4 = kMagic := by
    simpa only [framed, List.append_assoc, List.nil_append, List.length_nil] using
      wordAt_le [] (le 2 kVersion ++ (le 4 payload.length ++ (payload ++ crc)))
        (show kMagic < 256 ^ 4 by decide)
  have hversion : wordAt (framed payload ++ crc) 4 2 = kVersion := by
    simpa only [framed, List.append_assoc, length_le] using
      wordAt_le (le 4 kMagic) (le 4 payload.length ++ (payload ++ crc))
        (show kVersion < 256 ^ 2 by decide)
  have hpl : wordAt (framed payload ++ crc) 6 4 = payload.length := by
    simpa only [framed, List.append_assoc, List.length_append, length_le] using
      wordAt_le (le 4 kMagic ++ le 2 kVersion) (payload ++ crc) hplen
  have hstored : wordAt (framed payload ++ crc) (kHeaderSize + payload.length) 4 =
      (crc32c (framed payload)).toNat := by
    have hw := wordAt_le (framed payload) [] hcrc
    rwa [List.append_nil, hc, length_framed] at hw
  have hmin : ¬ (framed payload ++ crc).length < kHeaderSize + kCrcSize := by
    rw [hlen]
    omega
  have hdrop : (framed payload).drop kHeaderSize = payload := by
    apply List.drop_left'
    simp only [List.length_append, length_le, kHeaderSize]
  -- with the four words known, the checks of `decode` pass in their order
  unfold decode
  rw [if_neg hmin]
  simp only [hmagic, hversion, hpl, hlen, ne_eq, not_true_eq_false, if_false,
    gt_iff_lt, Nat.not_lt.mpr h, Nat.lt_irrefl]
  rw [show kHeaderSize + payload.length + kCrcSize - 4 = kHeaderSize + payload.length from rfl,
    show kHeaderSize + payload.length + kCrcSize - kCrcSize = (framed payload).length from
      (length_framed payload).symm, List.take_left, hstored, if_neg (not_not.mpr rfl)]
  exact congrArg Except.ok hdrop

theorem decode_encode {payload encoded : List UInt8} (h : encode payload = .ok encoded) :
    decode encoded = .ok payload := by
  unfold encode at h
  split_ifs at h with hlen
  obtain rfl := Except.ok.inj h
  exact decode_framed (Nat.not_lt.mp hlen)

/-- `decode` as the source has it, with the two strings it clears and then sets. -/
def decodeInto (encoded _payload : List UInt8) (_reason : String) :
    Bool × List UInt8 × String :=
  match decode encoded with
  | .ok payload => (true, payload, "")
  | .error reason => (false, [], reason)

theorem wordAt_spec {encoded : List UInt8} {i k : Nat} (h : i + k ≤ encoded.length) :
    wordAt encoded i k < 256 ^ k ∧ le k (wordAt encoded i k) = (encoded.drop i).take k := by
  have hlen : ((encoded.drop i).take k).length = k := by
    rw [List.length_take, List.length_drop]
    omega
  obtain ⟨v, hv, hle⟩ := exists_le ((encoded.drop i).take k)
  rw [hlen] at hv hle
  have hsplit : encoded = encoded.take i ++ (le k v ++ (encoded.drop i).drop k) := by
    rw [hle, List.take_append_drop, List.take_append_drop]
  have hword : wordAt encoded i k = v := by
    have hat := wordAt_le (encoded.take i) ((encoded.drop i).drop k) hv
    rwa [← hsplit, List.length_take, Nat.min_eq_left (by omega)] at hat
  rw [hword]
  exact ⟨hv, hle⟩

theorem le_wordAt (encoded : List UInt8) (i k : Nat) (h : i + k ≤ encoded.length) :
    le k (wordAt encoded i k) = (encoded.drop i).take k := (wordAt_spec h).2

theorem append_slices (l : List UInt8) {n : Nat} (h : kHeaderSize ≤ n) :
    l.take 4 ++ (l.drop 4).take 2 ++ (l.drop 6).take 4 ++ (l.take n).drop kHeaderSize =
      l.take n := by
  have h6 : l.take 4 ++ (l.drop 4).take 2 = l.take 6 := (List.take_add (i := 4)).symm
  have h10 : l.take 6 ++ (l.drop 6).take 4 = l.take kHeaderSize := (List.take_add (i := 6)).symm
  have hn : (l.take n).take kHeaderSize = l.take kHeaderSize := by
    rw [List.take_take, Nat.min_eq_left h]
  rw [h6, h10, ← hn, List.take_append_drop]

theorem encode_of_decode {payload encoded : List UInt8} (h : decode encoded = .ok payload) :
    encode payload = .ok encoded := by
  unfold decode at h
  dsimp only at h
  split_ifs at h with hmin hmagic hversion hbound hshort htrailing hcrc
  rw [not_not] at hmagic hversion htrailing hcrc
  obtain hpayload := Except.ok.inj h
  generalize hplen : wordAt encoded 6 4 = plen at *
  have hsize : kHeaderSize + plen + kCrcSize - kCrcSize = kHeaderSize + plen := rfl
  have hlast : kHeaderSize + plen + kCrcSize - 4 = kHeaderSize + plen := rfl
  rw [hsize] at hcrc hpayload
  rw [hlast] at hcrc
  have hheader : kHeaderSize = 10 := rfl
  have hcrcSize : kCrcSize = 4 := rfl
  have hlen : payload.length = plen := by
    rw [← hpayload, List.length_drop, List.length_take]
    omega
  have hframed : framed payload = encoded.take (kHeaderSize + plen) := by
    have h₁ := le_wordAt encoded 0 4 (by omega)
    have h₂ := le_wordAt encoded 4 2 (by omega)
    have h₃ := le_wordAt encoded 6 4 (by omega)
    rw [hmagic, List.drop_zero] at h₁
    rw [hversion] at h₂
    rw [hplen] at h₃
    rw [framed, hlen, h₁, h₂, h₃, ← hpayload]
    exact append_slices encoded (Nat.le_add_right ..)
  have hstored : le 4 (crc32c (framed payload)).toNat = encoded.drop (kHeaderSize + plen) := by
    rw [hframed, hcrc, le_wordAt _ _ _ (by omega), List.take_of_length_le]
    rw [List.length_drop]
    omega
  have hle : payload.length ≤ kMaxPayload := by
    rw [hlen]
    exact Nat.not_lt.mp hbound
  rw [encode_ok hle, hstored, hframed, List.take_append_drop]

/-- `decode` accepts the envelopes that `encode` makes, each with its payload, and empties the
payload on every other string of bytes. -/
theorem decode_accepts_image :
    (∀ payload, (∃ encoded, encode payload = .ok encoded) ↔ payload.length ≤ kMaxPayload) ∧
    ∀ encoded payload₀ reason₀,
      (∀ payload, decodeInto encoded payload₀ reason₀ = (true, payload, "") ↔
        encode payload = .ok encoded) ∧
      ((∃ payload, encode payload = .ok encoded) ∨
        ∃ reason, decodeInto encoded payload₀ reason₀ = (false, [], reason)) := by
  refine ⟨?_, ?_⟩
  · intro payload
    constructor
    · rintro ⟨encoded, h⟩
      unfold encode at h
      split_ifs at h with hlen
      exact Nat.not_lt.mp hlen
    · intro hlen
      exact ⟨_, encode_ok hlen⟩
  · intro encoded payload₀ reason₀
    unfold decodeInto
    rcases hdec : decode encoded with reason | p
    · refine ⟨?_, .inr ⟨reason, rfl⟩⟩
      intro payload
      constructor
      · intro h
        cases h
      · intro h
        rw [decode_encode h] at hdec
        cases hdec
    · have henc := encode_of_decode hdec
      refine ⟨?_, .inl ⟨p, henc⟩⟩
      intro payload
      constructor
      · intro h
        obtain rfl : p = payload := congrArg (fun out => out.2.1) h
        exact henc
      · intro h
        rw [decode_encode h] at hdec
        rw [Except.ok.inj hdec]

end Iobs.Persist
