import InterferenceObservatory.Lib.Crc
import InterferenceObservatory.Frames

/-! The checksum as a check register: the words of its table differ in their high bytes, so
no burst of four bytes leaves it. An envelope with its checksum is one codeword, whatever part
of it a burst hits. -/

namespace Iobs
open ByteFormat Persist CheckRegister

def crcTable (i : BitVec 8) : BitVec 32 := (table ⟨i.setWidth 32⟩).toBitVec

def crcUnshift (c : UInt32) : UInt32 :=
  if c >>> 31 = 0 then c <<< 1 else (c ^^^ 0x82F63B78) <<< 1 ||| 1

theorem crcTable_recovered : ∀ i : Fin 256,
    ((crcUnshift^[8] ⟨crcTable ⟨i⟩ >>> 24 <<< 24⟩) &&& 0xFF).toNat = i := by
  decide +kernel

theorem crcTable_distinguishes : Distinguishes crcTable := by
  intro i j h
  have hi := crcTable_recovered i.toFin
  have hj := crcTable_recovered j.toFin
  have hsame : crcTable ⟨i.toFin⟩ >>> 24 = crcTable ⟨j.toFin⟩ >>> 24 := h
  rw [hsame, hj] at hi
  exact BitVec.eq_of_toFin_eq (Fin.ext hi.symm)

def bitVecs (l : List UInt8) : List (BitVec 8) := l.map (·.toBitVec)

theorem and_low (x : UInt32) : x &&& 0xFF = ⟨(x.toBitVec.setWidth 8).setWidth 32⟩ := by
  apply UInt32.toBitVec_inj.mp
  apply BitVec.eq_of_toNat_eq
  have hmod : x.toNat &&& 0xFF = x.toNat % 2 ^ 8 := Nat.and_two_pow_sub_one_eq_mod x.toNat 8
  have hlt : x.toNat % 2 ^ 8 < 2 ^ 32 := by omega
  rw [BitVec.toNat_setWidth, BitVec.toNat_setWidth]
  exact hmod.trans (Nat.mod_eq_of_lt hlt).symm

theorem crcStep_toBitVec (crc : UInt32) (b : UInt8) :
    (table ((crc ^^^ b.toUInt32) &&& 0xFF) ^^^ (crc >>> 8)).toBitVec =
      feed crcTable crc.toBitVec b.toBitVec := by
  have hshift : (b.toBitVec.setWidth 32) >>> 8 = 0#32 := by
    apply BitVec.eq_of_getLsbD_eq
    intro i _
    simp
  rw [feed, turn, BitVec.ushiftRight_xor_distrib, hshift, BitVec.xor_zero, and_low]
  rfl

theorem crc32c_toBitVec (data : List UInt8) :
    (crc32c data).toBitVec = (bitVecs data).foldl (feed crcTable) 0xFFFFFFFF ^^^ 0xFFFFFFFF := by
  have hfold : ∀ s : UInt32, (data.foldl (fun crc b =>
      table ((crc ^^^ b.toUInt32) &&& 0xFF) ^^^ (crc >>> 8)) s).toBitVec =
        (bitVecs data).foldl (feed crcTable) s.toBitVec := by
    induction data with
    | nil =>
      intro s
      rfl
    | cons b data ih =>
      intro s
      rw [List.foldl_cons, ih, crcStep_toBitVec]
      rfl
  rw [crc32c, UInt32.toBitVec_xor, hfold]
  rfl

theorem getLsbD_word_le (k v i : Nat) :
    (word (bitVecs (le k v)) : BitVec 32).getLsbD i =
      (decide (i < 32) && (decide (i < 8 * k) && v.testBit i)) := by
  induction k generalizing v i with
  | zero => simp [le, bitVecs, word]
  | succ k ih =>
    have hcons : (word (bitVecs (le (k + 1) v)) : BitVec 32) =
        (UInt8.ofNat (v &&& 0xFF)).toBitVec.setWidth 32 ^^^
          word (bitVecs (le k (v >>> 8))) <<< 8 := rfl
    have hbyte : (UInt8.ofNat (v &&& 0xFF)).toBitVec = BitVec.ofNat 8 v := by
      have hmod : v &&& 0xFF = v % 2 ^ 8 := Nat.and_two_pow_sub_one_eq_mod v 8
      apply BitVec.eq_of_toNat_eq
      rw [hmod]
      exact Nat.mod_mod v (2 ^ 8)
    rw [hcons, hbyte, BitVec.getLsbD_xor, BitVec.getLsbD_setWidth, BitVec.getLsbD_ofNat,
      BitVec.getLsbD_shiftLeft]
    by_cases hi : i < 8
    · simp [hi, show i < 8 * (k + 1) by omega]
    · have hbelow : decide (i - 8 < 8 * k) = decide (i < 8 * (k + 1)) := by
        rw [decide_eq_decide]
        omega
      rw [ih, Nat.testBit_shiftRight, Nat.add_sub_cancel' (Nat.not_lt.mp hi), hbelow]
      by_cases h32 : i < 32
      · simp [hi, h32, show i - 8 < 32 by omega]
      · simp [h32]

theorem word_le (v : Nat) :
    (word (bitVecs (le 4 v)) : BitVec 32) = BitVec.ofNat 32 v := by
  apply BitVec.eq_of_getLsbD_eq
  intro i hi
  rw [getLsbD_word_le, BitVec.getLsbD_ofNat]
  simp [hi]

theorem crcShift_toBitVec (c : UInt32) : (crcShift c).toBitVec = shift 0x82F63B78 c.toBitVec := by
  have hlow : (c &&& 1 ≠ 0) ↔ c.toBitVec.getLsbD 0 = true := by
    rw [ne_eq, ← UInt32.toBitVec_inj, UInt32.toBitVec_and]
    change ¬ c.toBitVec &&& 1#32 = 0#32 ↔ _
    rw [BitVec.and_one_eq_setWidth_ofBool_getLsbD]
    cases c.toBitVec.getLsbD 0 <;> decide
  unfold crcShift shift
  simp only [hlow]
  split_ifs <;> rfl

theorem crcTable_eq : crcTable = tableOf 0x82F63B78 := by
  have hiterate : ∀ (k : ℕ) (c : UInt32),
      (crcShift^[k] c).toBitVec = (shift 0x82F63B78)^[k] c.toBitVec := by
    intro k c
    exact Function.Semiconj.iterate_right crcShift_toBitVec k c
  funext i
  exact hiterate 8 ⟨i.setWidth 32⟩

/-- CRC-32C by its definition: the register starts with ones, takes the bits of the data one
at a time, the least significant bit of each byte first, and is complemented in the end. -/
def crc32cBitwise (data : List UInt8) : UInt32 :=
  ⟨((bitVecs data).flatMap bits).foldl (shiftIn 0x82F63B78) 0xFFFFFFFF ^^^ 0xFFFFFFFF⟩

/-- The table-driven checksum is the one computed bit by bit. -/
theorem crc32c_eq_bitwise (data : List UInt8) : crc32c data = crc32cBitwise data := by
  apply UInt32.toBitVec_inj.mp
  rw [crc32c_toBitVec, crcTable_eq, foldl_feed_tableOf (by decide)]
  rfl

-- the check value of CRC-32C, the checksum of the digits 1 to 9
example : crc32c [0x31, 0x32, 0x33, 0x34, 0x35, 0x36, 0x37, 0x38, 0x39] = 0xE3069283 := by
  decide +kernel

theorem differsWithin_bitVecs {k : ℕ} {l l' : List UInt8} (h : DiffersWithin k l l') :
    DiffersWithin k (bitVecs l) (bitVecs l') := by
  refine ⟨by simp [bitVecs, h.length_eq], ?_, ?_⟩
  · intro heq
    have hinj : Function.Injective UInt8.toBitVec := fun _ _ => UInt8.toBitVec_inj.mp
    exact h.ne (List.map_injective_iff.mpr hinj heq)
  · obtain ⟨i, hi⟩ := h.window
    refine ⟨i, ?_⟩
    intro j hj
    rw [bitVecs, bitVecs, List.getElem?_map, List.getElem?_map, hi j hj]

theorem register_ne {l l' : List UInt8} (h : DiffersWithin 4 l l') (s : BitVec 32) :
    (bitVecs l).foldl (feed crcTable) s ≠ (bitVecs l').foldl (feed crcTable) s :=
  foldl_feed_ne (by decide) crcTable_distinguishes (k := 4) (by decide) (differsWithin_bitVecs h) s

theorem crc32c_ne {l l' : List UInt8} (h : DiffersWithin 4 l l') : crc32c l ≠ crc32c l' := by
  intro heq
  have hbits := congrArg UInt32.toBitVec heq
  rw [crc32c_toBitVec, crc32c_toBitVec] at hbits
  exact register_ne h _ ((BitVec.xor_left_inj _).mp hbits)

theorem register_codeword (data : List UInt8) :
    (bitVecs (data ++ le 4 (crc32c data).toNat)).foldl (feed crcTable) 0xFFFFFFFF =
      (turn crcTable)^[4] 0xFFFFFFFF := by
  have hword : (word (bitVecs (le 4 (crc32c data).toNat)) : BitVec 32) =
      (bitVecs data).foldl (feed crcTable) 0xFFFFFFFF ^^^ 0xFFFFFFFF := by
    rw [word_le, ← crc32c_toBitVec]
    exact BitVec.ofNat_toNat 32 (crc32c data).toBitVec
  have hlen : (bitVecs (le 4 (crc32c data).toNat)).length = 4 := by
    rw [bitVecs, List.length_map, length_le]
  have hself := foldl_feed_self (T := crcTable) (by rw [hlen]) hword
  rw [hlen] at hself
  rw [bitVecs, List.map_append, List.foldl_append]
  exact hself

namespace Persist

theorem decode_burst {payload encoded encoded' : List UInt8} (h : encode payload = .ok encoded)
    (hburst : DiffersWithin 4 encoded encoded') : ∃ reason, decode encoded' = .error reason := by
  rcases hdec : decode encoded' with reason | payload'
  · exact ⟨reason, rfl⟩
  · -- what is accepted is a codeword too, and two codewords do not differ in a burst
    have hcode : ∀ {p e}, encode p = .ok e →
        (bitVecs e).foldl (feed crcTable) 0xFFFFFFFF = (turn crcTable)^[4] 0xFFFFFFFF := by
      intro p e he
      unfold encode at he
      split_ifs at he
      obtain rfl := Except.ok.inj he
      exact register_codeword _
    exact absurd ((hcode h).trans (hcode (encode_of_decode hdec)).symm) (register_ne hburst _)

end Persist

namespace Proto

theorem recvFrame_burst {f : Frame} (hf : f.payload.length ≤ kMaxFrame) {payload' : List UInt8}
    (hburst : DiffersWithin 4 f.payload payload') {head rest : List UInt8} {s : Socket}
    (hhead : frameBytes f = head ++ f.payload) (hs : s.incoming = head ++ (payload' ++ rest))
    (out : Frame) : ∃ e s', recvFrame out s = (.error e, out, s') := by
  have hhead : fixedHeader f.type f.payload.length ++
      le 4 (crc32c (fixedHeader f.type f.payload.length ++ f.payload)).toNat = head :=
    List.append_cancel_right hhead
  rcases hrecv : recvFrame out s with ⟨e | ⟨⟩, f', s'⟩
  · have herr : (recvFrame out s).1 = .error e := by rw [hrecv]
    have hout := recvFrame_error herr
    rw [hrecv] at hout
    obtain rfl : f' = out := hout
    exact ⟨e, s', rfl⟩
  · exfalso
    obtain ⟨header', s₁, payload, h₁, -, -, -, h₂, hcrc, -⟩ := recvFrame_checked hrecv
    obtain ⟨hsize, hin⟩ := readExact_ok h₁
    obtain ⟨hplen, hrest⟩ := readExact_ok h₂
    have hheadlen : head.length = kHeaderSize := by
      rw [← hhead, List.length_append, length_fixedHeader, length_le, kHeaderSize]
    obtain ⟨rfl, htail⟩ := List.append_inj (hs.symm.trans hin) (hheadlen.trans hsize.symm)
    have hbound : f.payload.length < 256 ^ 4 := Nat.lt_of_le_of_lt hf (by decide)
    have hword : wordAt head 8 4 = f.payload.length := by
      rw [← hhead]
      exact wordAt_plen _ hbound
    -- the length in the header is that of the altered payload, so this is what was read
    obtain ⟨rfl, -⟩ := List.append_inj (htail.trans hrest)
      (by rw [hplen, hword, hburst.length_eq])
    have hwindow : head.take 12 = fixedHeader f.type f.payload.length := by
      rw [← hhead]
      exact List.take_left' (length_fixedHeader _ _)
    have hstored : wordAt head 12 4 =
        (crc32c (fixedHeader f.type f.payload.length ++ f.payload)).toNat := by
      rw [← hhead]
      exact wordAt_crc (UInt32.toNat_lt _)
    rw [hwindow, hstored] at hcrc
    exact crc32c_ne (hburst.append_left _) (UInt32.toNat_inj.mp hcrc).symm

end Proto

/-- An envelope in which a burst of four bytes was altered anywhere is rejected, and so is a
frame with such a burst in its payload, whatever follows it and however it arrives. -/
theorem burst_detected :
    (∀ payload encoded encoded' : List UInt8, Persist.encode payload = .ok encoded →
      DiffersWithin 4 encoded encoded' → ∀ payload₀ reason₀, ∃ reason,
        Persist.decodeInto encoded' payload₀ reason₀ = (false, [], reason)) ∧
    ∀ (f : Proto.Frame) (payload' : List UInt8), f.payload.length ≤ kMaxFrame →
      DiffersWithin 4 f.payload payload' → ∀ (head rest : List UInt8) (s : Proto.Socket),
        Proto.frameBytes f = head ++ f.payload → s.incoming = head ++ (payload' ++ rest) →
        ∀ out, ∃ e s', Proto.recvFrame out s = (.error e, out, s') := by
  refine ⟨?_, ?_⟩
  · intro payload encoded encoded' h hburst payload₀ reason₀
    obtain ⟨reason, hdec⟩ := Persist.decode_burst h hburst
    exact ⟨reason, by rw [Persist.decodeInto, hdec]⟩
  · intro f payload' hf hburst head rest s hhead hs out
    exact Proto.recvFrame_burst hf hburst hhead hs out

theorem burst_detected_byte :
    (∃ reason, Persist.decodeInto (framed [8] ++ le 4 (crc32c (framed [7])).toNat) [] "" =
      (false, [], reason)) ∧
    ∃ e s', Proto.recvFrame ⟨.hello, []⟩
      ⟨Proto.fixedHeader .ack 1 ++ le 4 (crc32c (Proto.fixedHeader .ack 1 ++ [7])).toNat ++
        ([8] ++ []), false, fun _ => 1, 0⟩ = (.error e, ⟨.hello, []⟩, s') := by
  have hbyte : ∀ pre post : List UInt8,
      DiffersWithin 4 (pre ++ ([7] ++ post)) (pre ++ ([8] ++ post)) := by
    intro pre post
    exact .of_split rfl (by decide) (by decide)
  refine ⟨?_, ?_⟩
  · refine burst_detected.1 [7] _ _ (encode_ok (by decide)) ?_ [] ""
    have hburst := hbyte (le 4 kMagic ++ le 2 kVersion ++ le 4 1) (le 4 (crc32c (framed [7])).toNat)
    rwa [← List.append_assoc, ← List.append_assoc] at hburst
  · exact burst_detected.2 ⟨.ack, [7]⟩ [8] (by decide) (hbyte [] []) _ [] _ rfl rfl _

end Iobs
