import InterferenceObservatory.Persist
import InterferenceObservatory.Messages
import Mathlib.Tactic.IntervalCases

/-! The framed message protocol. The two ends of a connection are byte streams whose
`send` and `recv` move as many bytes at a time as a schedule says; the loops around them
hide the schedule, so frames come out as they were sent, one by one, up to the frame in
which the stream is cut. -/

namespace Iobs.Proto
open ByteFormat Persist

def kMagic : Nat := 0x494F4246
def kVersion : Nat := 1
def kHeaderSize : Nat := 4 + 2 + 2 + 4 + 4

inductive MsgType where
  | hello | publishBaseline | publishObservation | compareRequest | snapshot | ack | error
  | shutdown | exit | measureBaseline | measureCorun | exitProcess | revalidate
  | outOfRange (r : Fin 65523)
deriving DecidableEq

namespace MsgType

def toCode : MsgType → Nat
  | .hello => 1
  | .publishBaseline => 2
  | .publishObservation => 3
  | .compareRequest => 4
  | .snapshot => 5
  | .ack => 6
  | .error => 7
  | .shutdown => 8
  | .exit => 9
  | .measureBaseline => 10
  | .measureCorun => 11
  | .exitProcess => 12
  | .revalidate => 13
  -- the codes without a name: 0, and 14 and above
  | .outOfRange r => if r.val = 0 then 0 else r.val + 13

def ofCode (code : Nat) : MsgType :=
  match code with
  | 1 => .hello
  | 2 => .publishBaseline
  | 3 => .publishObservation
  | 4 => .compareRequest
  | 5 => .snapshot
  | 6 => .ack
  | 7 => .error
  | 8 => .shutdown
  | 9 => .exit
  | 10 => .measureBaseline
  | 11 => .measureCorun
  | 12 => .exitProcess
  | 13 => .revalidate
  | n => .outOfRange (Fin.ofNat 65523 (n - 13))

theorem toCode_lt (t : MsgType) : t.toCode < 256 ^ 2 := by
  cases t with
  | outOfRange r =>
    have hr := r.isLt
    rw [toCode]
    split_ifs <;> omega
  | _ => decide

theorem ofCode_toCode (t : MsgType) : ofCode t.toCode = t := by
  cases t with
  | outOfRange r =>
    obtain ⟨r, hr⟩ := r
    rcases r with _ | r
    · rfl
    · have hfin : Fin.ofNat 65523 (r + 1) = ⟨r + 1, hr⟩ := Fin.ext (Nat.mod_eq_of_lt hr)
      exact congrArg outOfRange hfin
  | _ => rfl

theorem toCode_ofCode {n : Nat} (h : n < 256 ^ 2) : (ofCode n).toCode = n := by
  by_cases hn : n < 14
  · interval_cases n <;> rfl
  · obtain ⟨m, rfl⟩ := Nat.exists_eq_add_of_le' (Nat.not_lt.mp hn)
    have hval : (Fin.ofNat 65523 (m + 1)).val = m + 1 := by
      apply Nat.mod_eq_of_lt
      omega
    have hcode : (ofCode (m + 14)).toCode =
        if (Fin.ofNat 65523 (m + 1)).val = 0 then 0 else (Fin.ofNat 65523 (m + 1)).val + 13 := rfl
    rw [hcode, hval]
    rfl

end MsgType

structure Frame where
  type : MsgType
  payload : List UInt8
deriving DecidableEq

structure Sender where
  sent : List UInt8
  takes : Nat → Option Nat
  calls : Nat

def Sender.send (s : Sender) (data : List UInt8) : Option Nat × Sender :=
  match s.takes s.calls with
  | none => (none, { s with calls := s.calls + 1 })
  | some k =>
    let r := min data.length (max 1 k)
    (some r, { s with sent := s.sent ++ data.take r, calls := s.calls + 1 })

def writeLoop : Nat → List UInt8 → Sender → Except String Unit × Sender
  | _, [], s => (.ok (), s)
  | 0, _ :: _, s => (.error "", s)
  | fuel + 1, data, s =>
    match s.send data with
    | (none, s') => (.error "send failed", s')
    | (some r, s') => writeLoop fuel (data.drop r) s'

def writeAll (data : List UInt8) (s : Sender) : Except String Unit × Sender :=
  writeLoop data.length data s

def fixedHeader (type : MsgType) (plen : Nat) : List UInt8 :=
  le 4 kMagic ++ le 2 kVersion ++ le 2 type.toCode ++ le 4 plen

def frameBytes (f : Frame) : List UInt8 :=
  fixedHeader f.type f.payload.length ++
    le 4 (crc32c (fixedHeader f.type f.payload.length ++ f.payload)).toNat ++ f.payload

def sendFrame (type : MsgType) (payload : List UInt8) (s : Sender) :
    Except String Unit × Sender :=
  if payload.length > kMaxFrame then (.error "frame too large", s)
  else writeAll (frameBytes ⟨type, payload⟩) s

/-- The receiving end: the bytes that will arrive, what `recv` reports after the last of
them, and how many bytes its `i`-th call returns. -/
structure Socket where
  incoming : List UInt8
  reset : Bool
  gives : Nat → Nat
  calls : Nat

inductive Recv where
  | data (bytes : List UInt8)
  | closed
  | failed

def Socket.recv (s : Socket) (n : Nat) : Recv × Socket :=
  if s.incoming.isEmpty then
    (if s.reset then .failed else .closed, { s with calls := s.calls + 1 })
  else
    let r := min n (max 1 (s.gives s.calls))
    (.data (s.incoming.take r),
      { s with incoming := s.incoming.drop r, calls := s.calls + 1 })

def readLoop : Nat → Nat → Socket → Except String (List UInt8) × Socket
  | _, 0, s => (.ok [], s)
  | 0, _ + 1, s => (.error "", s)
  | fuel + 1, n + 1, s =>
    match s.recv (n + 1) with
    | (.closed, s') => (.error "connection closed", s')
    | (.failed, s') => (.error "recv failed", s')
    | (.data bytes, s') =>
      match readLoop fuel (n + 1 - bytes.length) s' with
      | (.ok more, s'') => (.ok (bytes ++ more), s'')
      | (.error e, s'') => (.error e, s'')

def readExact (n : Nat) (s : Socket) : Except String (List UInt8) × Socket := readLoop n n s

def recvFrame (out : Frame) (s : Socket) : Except String Unit × Frame × Socket :=
  match readExact kHeaderSize s with
  | (.error e, s₁) => (.error (if e = "connection closed" ∨ e = "EOF" then "EOF" else e), out, s₁)
  | (.ok header, s₁) =>
    if wordAt header 0 4 ≠ kMagic then (.error "bad frame magic", out, s₁)
    else if wordAt header 4 2 ≠ kVersion then (.error "frame version mismatch", out, s₁)
    else
      let type := wordAt header 6 2
      let plen := wordAt header 8 4
      if plen > kMaxFrame then (.error "frame too large", out, s₁)
      else match readExact plen s₁ with
        | (.error e, s₂) => (.error e, out, s₂)
        | (.ok payload, s₂) =>
          if (crc32c (header.take 12 ++ payload)).toNat ≠ wordAt header 12 4 then
            (.error "frame checksum mismatch", out, s₂)
          else (.ok (), ⟨MsgType.ofCode type, payload⟩, s₂)

theorem writeLoop_reliable {s : Sender} (h : ∀ i, s.takes i ≠ none) {data : List UInt8}
    {fuel : Nat} (hfuel : data.length ≤ fuel) : ∃ calls, writeLoop fuel data s =
      (.ok (), { s with sent := s.sent ++ data, calls := calls }) := by
  induction fuel generalizing data s with
  | zero =>
    obtain rfl := List.length_eq_zero_iff.mp (Nat.le_zero.mp hfuel)
    exact ⟨s.calls, by rw [writeLoop, List.append_nil]⟩
  | succ fuel ih =>
    rcases data with _ | ⟨b, data⟩
    · exact ⟨s.calls, by rw [writeLoop, List.append_nil]⟩
    · obtain ⟨k, hk⟩ := Option.ne_none_iff_exists'.mp (h s.calls)
      generalize hr : min (b :: data).length (max 1 k) = r
      have hpos : 1 ≤ r := by
        rw [← hr, List.length_cons]
        omega
      have hsend : s.send (b :: data) = (some r,
          { s with sent := s.sent ++ (b :: data).take r, calls := s.calls + 1 }) := by
        rw [Sender.send, hk]
        dsimp only
        rw [hr]
      have hlen : ((b :: data).drop r).length ≤ fuel := by
        rw [List.length_drop]
        omega
      obtain ⟨calls, hrest⟩ := ih (s := { s with
        sent := s.sent ++ (b :: data).take r, calls := s.calls + 1 }) h hlen
      refine ⟨calls, ?_⟩
      rw [writeLoop, hsend]
      · dsimp only
        rw [hrest, List.append_assoc, List.take_append_drop]
      · intro hnil
        cases hnil

theorem writeAll_reliable {s : Sender} (h : ∀ i, s.takes i ≠ none) (data : List UInt8) :
    ∃ calls, writeAll data s = (.ok (), { s with sent := s.sent ++ data, calls := calls }) :=
  writeLoop_reliable h le_rfl

theorem Socket.recv_nil {s : Socket} (h : s.incoming = []) (n : Nat) :
    s.recv n = (if s.reset then .failed else .closed, { s with calls := s.calls + 1 }) := by
  rw [Socket.recv, h]
  rfl

theorem Socket.recv_cons {s : Socket} {b : UInt8} {bs : List UInt8} (h : s.incoming = b :: bs)
    (n : Nat) : ∃ r, 1 ≤ r ∧ r ≤ n + 1 ∧ s.recv (n + 1) = (.data (s.incoming.take r),
      { s with incoming := s.incoming.drop r, calls := s.calls + 1 }) := by
  refine ⟨min (n + 1) (max 1 (s.gives s.calls)), by omega, by omega, ?_⟩
  rw [Socket.recv, h]
  rfl

theorem readLoop_spec {fuel n : Nat} (hfuel : n ≤ fuel) (s : Socket) :
    ∃ calls, (n ≤ s.incoming.length ∧ readLoop fuel n s = (.ok (s.incoming.take n),
        { s with incoming := s.incoming.drop n, calls := calls })) ∨
      s.incoming.length < n ∧ ∃ e, readLoop fuel n s =
        (.error e, { s with incoming := [], calls := calls }) := by
  induction fuel generalizing n s with
  | zero =>
    obtain rfl := Nat.le_zero.mp hfuel
    exact ⟨s.calls, .inl ⟨Nat.zero_le _, rfl⟩⟩
  | succ fuel ih =>
    rcases n with _ | n
    · exact ⟨s.calls, .inl ⟨Nat.zero_le _, rfl⟩⟩
    · rcases hin : s.incoming with _ | ⟨b, bs⟩
      · refine ⟨s.calls + 1, .inr ⟨Nat.succ_pos n, ?_⟩⟩
        rw [readLoop, Socket.recv_nil hin, ← hin]
        rcases s.reset with _ | _
        · exact ⟨_, rfl⟩
        · exact ⟨_, rfl⟩
      · obtain ⟨r, hpos, hle, hrecv⟩ := Socket.recv_cons hin n
        have hlen : (s.incoming.take r).length = min r s.incoming.length := List.length_take
        have hmin : 1 ≤ s.incoming.length := by
          rw [hin]
          exact Nat.succ_pos _
        -- what is left to read is shorter by the chunk
        obtain ⟨calls, hrest⟩ := ih (n := n + 1 - (s.incoming.take r).length) (by omega)
          { s with incoming := s.incoming.drop r, calls := s.calls + 1 }
        rw [← hin]
        refine ⟨calls, ?_⟩
        rw [readLoop, hrecv]
        dsimp only at hrest ⊢
        rw [List.length_drop] at hrest
        rcases hrest with ⟨hfit, heq⟩ | ⟨hshort, e, heq⟩
        · refine .inl ⟨by omega, ?_⟩
          have hchunk : (s.incoming.take r).length = r := by omega
          rw [hchunk] at heq ⊢
          rw [heq]
          dsimp only
          rw [← List.take_add, List.drop_drop, Nat.add_sub_cancel' hle]
        · refine .inr ⟨by omega, e, ?_⟩
          rw [heq]

theorem readExact_of_le {n : Nat} {s : Socket} (h : n ≤ s.incoming.length) :
    ∃ calls, readExact n s =
      (.ok (s.incoming.take n), { s with incoming := s.incoming.drop n, calls := calls }) := by
  obtain ⟨calls, ⟨-, heq⟩ | ⟨hlt, -⟩⟩ := readLoop_spec (le_refl n) s
  · exact ⟨calls, heq⟩
  · omega

theorem readExact_ok {n : Nat} {s s' : Socket} {bytes : List UInt8}
    (h : readExact n s = (.ok bytes, s')) :
    bytes.length = n ∧ s.incoming = bytes ++ s'.incoming := by
  obtain ⟨calls, ⟨hle, heq⟩ | ⟨-, e, heq⟩⟩ := readLoop_spec (le_refl n) s
  · rw [readExact, heq] at h
    obtain ⟨hb, rfl⟩ := Prod.mk.inj h
    obtain rfl := Except.ok.inj hb
    refine ⟨?_, ?_⟩
    · rw [List.length_take]
      omega
    · exact (List.take_append_drop n s.incoming).symm
  · rw [readExact, heq] at h
    cases (Prod.mk.inj h).1

@[simp] theorem length_fixedHeader (type : MsgType) (plen : Nat) :
    (fixedHeader type plen).length = 12 := by
  simp only [fixedHeader, List.length_append, length_le]

section Header

variable {type : MsgType} {plen : Nat} (tail : List UInt8)

theorem wordAt_magic : wordAt (fixedHeader type plen ++ tail) 0 4 = kMagic := by
  have hword := wordAt_le [] (le 2 kVersion ++ (le 2 type.toCode ++ (le 4 plen ++ tail)))
    (show kMagic < 256 ^ 4 by decide)
  simpa only [fixedHeader, List.append_assoc, List.nil_append, List.length_nil] using hword

theorem wordAt_version : wordAt (fixedHeader type plen ++ tail) 4 2 = kVersion := by
  have hword := wordAt_le (le 4 kMagic) (le 2 type.toCode ++ (le 4 plen ++ tail))
    (show kVersion < 256 ^ 2 by decide)
  simpa only [fixedHeader, List.append_assoc, length_le] using hword

theorem wordAt_type : wordAt (fixedHeader type plen ++ tail) 6 2 = type.toCode := by
  have hword := wordAt_le (le 4 kMagic ++ le 2 kVersion) (le 4 plen ++ tail) type.toCode_lt
  simpa only [fixedHeader, List.append_assoc, List.length_append, length_le] using hword

theorem wordAt_plen (h : plen < 256 ^ 4) :
    wordAt (fixedHeader type plen ++ tail) 8 4 = plen := by
  have hword := wordAt_le (le 4 kMagic ++ le 2 kVersion ++ le 2 type.toCode) tail h
  simpa only [fixedHeader, List.append_assoc, List.length_append, length_le] using hword

theorem wordAt_crc {crc : Nat} (h : crc < 256 ^ 4) :
    wordAt (fixedHeader type plen ++ le 4 crc) 12 4 = crc := by
  have hword := wordAt_le (fixedHeader type plen) [] h
  rwa [List.append_nil, length_fixedHeader] at hword

theorem header_of_words {header : List UInt8} (hlen : header.length = kHeaderSize)
    (hmagic : wordAt header 0 4 = kMagic) (hversion : wordAt header 4 2 = kVersion) :
    header = fixedHeader (MsgType.ofCode (wordAt header 6 2)) (wordAt header 8 4) ++
      le 4 (wordAt header 12 4) := by
  have hsize : kHeaderSize = 16 := rfl
  have htype : wordAt header 6 2 < 256 ^ 2 := (wordAt_spec (by omega)).1
  have h₁ := le_wordAt header 0 4 (by omega)
  have h₂ := le_wordAt header 4 2 (by omega)
  have h₃ := le_wordAt header 6 2 (by omega)
  have h₄ := le_wordAt header 8 4 (by omega)
  have h₅ := le_wordAt header 12 4 (by omega)
  rw [hmagic, List.drop_zero] at h₁
  rw [hversion] at h₂
  rw [fixedHeader, MsgType.toCode_ofCode htype, h₁, h₂, h₃, h₄, h₅]
  have h6 : header.take 4 ++ (header.drop 4).take 2 = header.take 6 :=
    (List.take_add (i := 4)).symm
  have h8 : header.take 6 ++ (header.drop 6).take 2 = header.take 8 :=
    (List.take_add (i := 6)).symm
  have h12 : header.take 8 ++ (header.drop 8).take 4 = header.take 12 :=
    (List.take_add (i := 8)).symm
  have h16 : header.take 12 ++ (header.drop 12).take 4 = header.take 16 :=
    (List.take_add (i := 12)).symm
  rw [h6, h8, h12, h16, List.take_of_length_le (by omega)]

end Header

theorem recvFrame_sent {f : Frame} (hf : f.payload.length ≤ kMaxFrame) {s : Socket}
    {rest : List UInt8} (hs : s.incoming = frameBytes f ++ rest) (out : Frame) :
    ∃ calls, recvFrame out s = (.ok (), f, { s with incoming := rest, calls := calls }) := by
  have hplen : f.payload.length < 256 ^ 4 := Nat.lt_of_le_of_lt hf (by decide)
  have hcrc : (crc32c (fixedHeader f.type f.payload.length ++ f.payload)).toNat < 256 ^ 4 :=
    UInt32.toNat_lt _
  generalize hhead : fixedHeader f.type f.payload.length = head at hcrc
  generalize hc : (crc32c (head ++ f.payload)).toNat = crc at hcrc
  have hin : s.incoming = (head ++ le 4 crc) ++ (f.payload ++ rest) := by
    rw [hs, frameBytes, hhead, hc]
    simp only [List.append_assoc]
  have hsize : (head ++ le 4 crc).length = kHeaderSize := by
    rw [← hhead, List.length_append, length_fixedHeader, length_le, kHeaderSize]
  obtain ⟨c₁, h₁⟩ := readExact_of_le (n := kHeaderSize) (s := s) (by
    rw [hin, List.length_append, hsize]
    omega)
  rw [hin, List.take_left' hsize, List.drop_left' hsize] at h₁
  obtain ⟨c₂, h₂⟩ := readExact_of_le (n := f.payload.length)
    (s := { s with incoming := f.payload ++ rest, calls := c₁ }) (by
      rw [List.length_append]
      omega)
  dsimp only at h₂
  rw [List.take_left, List.drop_left] at h₂
  have hwindow : (head ++ le 4 crc).take 12 = head := by
    apply List.take_left'
    rw [← hhead, length_fixedHeader]
  subst hhead
  refine ⟨c₂, ?_⟩
  unfold recvFrame
  rw [h₁]
  dsimp only
  rw [wordAt_magic, wordAt_version, wordAt_type, wordAt_plen _ hplen, wordAt_crc hcrc,
    if_neg (not_not.mpr rfl), if_neg (not_not.mpr rfl), if_neg (Nat.not_lt.mpr hf), h₂]
  dsimp only
  rw [hwindow, hc, if_neg (not_not.mpr rfl), MsgType.ofCode_toCode]

theorem recvFrame_checked {out f : Frame} {s s' : Socket}
    (h : recvFrame out s = (.ok (), f, s')) : ∃ header s₁ payload,
      readExact kHeaderSize s = (.ok header, s₁) ∧ wordAt header 0 4 = kMagic ∧
      wordAt header 4 2 = kVersion ∧ wordAt header 8 4 ≤ kMaxFrame ∧
      readExact (wordAt header 8 4) s₁ = (.ok payload, s') ∧
      (crc32c (header.take 12 ++ payload)).toNat = wordAt header 12 4 ∧
      f = ⟨MsgType.ofCode (wordAt header 6 2), payload⟩ := by
  unfold recvFrame at h
  rcases h₁ : readExact kHeaderSize s with ⟨e | header, s₁⟩
  · rw [h₁] at h
    cases (Prod.mk.inj h).1
  · rw [h₁] at h
    dsimp only at h
    by_cases hmagic : wordAt header 0 4 = kMagic
    swap
    · rw [if_pos hmagic] at h
      cases (Prod.mk.inj h).1
    by_cases hversion : wordAt header 4 2 = kVersion
    swap
    · rw [if_neg (not_not.mpr hmagic), if_pos hversion] at h
      cases (Prod.mk.inj h).1
    rw [if_neg (not_not.mpr hmagic), if_neg (not_not.mpr hversion)] at h
    by_cases hbound : wordAt header 8 4 > kMaxFrame
    · rw [if_pos hbound] at h
      cases (Prod.mk.inj h).1
    rw [if_neg hbound] at h
    rcases h₂ : readExact (wordAt header 8 4) s₁ with ⟨e | payload, s₂⟩
    · rw [h₂] at h
      cases (Prod.mk.inj h).1
    · rw [h₂] at h
      dsimp only at h
      by_cases hcrc : (crc32c (header.take 12 ++ payload)).toNat = wordAt header 12 4
      swap
      · rw [if_pos hcrc] at h
        cases (Prod.mk.inj h).1
      rw [if_neg (not_not.mpr hcrc)] at h
      obtain ⟨rfl, rfl⟩ := Prod.mk.inj (Prod.mk.inj h).2
      exact ⟨header, s₁, payload, rfl, hmagic, hversion, Nat.not_lt.mp hbound, h₂, hcrc, rfl⟩

theorem recvFrame_ok {out f : Frame} {s s' : Socket} (h : recvFrame out s = (.ok (), f, s')) :
    f.payload.length ≤ kMaxFrame ∧ s.incoming = frameBytes f ++ s'.incoming := by
  obtain ⟨header, s₁, payload, h₁, hmagic, hversion, hbound, h₂, hcrc, rfl⟩ := recvFrame_checked h
  obtain ⟨hsize, hin⟩ := readExact_ok h₁
  obtain ⟨hplen, hrest⟩ := readExact_ok h₂
  have hheader := header_of_words hsize hmagic hversion
  have hwindow : header.take 12 =
      fixedHeader (MsgType.ofCode (wordAt header 6 2)) (wordAt header 8 4) := by
    conv_lhs => rw [hheader]
    exact List.take_left' (length_fixedHeader _ _)
  constructor
  · rw [hplen]
    exact hbound
  · rw [hin, hrest, frameBytes]
    dsimp only
    rw [hplen, ← hwindow, hcrc, ← List.append_assoc]
    congr 2
    rw [hwindow]
    exact hheader

theorem recvFrame_error {out : Frame} {s : Socket} {e : String}
    (h : (recvFrame out s).1 = .error e) : (recvFrame out s).2.1 = out := by
  unfold recvFrame at h ⊢
  rcases h₁ : readExact kHeaderSize s with ⟨e | header, s₁⟩
  · rfl
  · rw [h₁] at h
    dsimp only at h ⊢
    split_ifs at h ⊢
    · rfl
    · rfl
    · rfl
    · rcases h₂ : readExact (wordAt header 8 4) s₁ with ⟨e | payload, s₂⟩
      · rfl
      · rw [h₂] at h
        dsimp only at h ⊢
        split_ifs at h ⊢
        rfl

theorem sendFrame_reliable {s : Sender} (h : ∀ i, s.takes i ≠ none) {f : Frame}
    (hf : f.payload.length ≤ kMaxFrame) : ∃ calls, sendFrame f.type f.payload s =
      (.ok (), { s with sent := s.sent ++ frameBytes f, calls := calls }) := by
  rw [sendFrame, if_neg (Nat.not_lt.mpr hf)]
  exact writeAll_reliable h (frameBytes f)

theorem recvFrame_short {f : Frame} (hf : f.payload.length ≤ kMaxFrame) {s : Socket}
    {more : List UInt8} (hmore : more ≠ []) (hs : s.incoming ++ more = frameBytes f)
    (out : Frame) : ∃ e, (recvFrame out s).1 = .error e := by
  rcases h : recvFrame out s with ⟨e | ⟨⟩, f', s'⟩
  · exact ⟨e, rfl⟩
  · exfalso
    obtain ⟨hf', hin⟩ := recvFrame_ok h
    -- the complete bytes would be received as `f` with nothing left, and also as `f'`
    let whole : Socket := { s with incoming := frameBytes f }
    obtain ⟨c, hwhole⟩ := recvFrame_sent hf (s := whole) (List.append_nil _).symm out
    have hsplit : whole.incoming = frameBytes f' ++ (s'.incoming ++ more) := by
      rw [← List.append_assoc, ← hin, hs]
    obtain ⟨c', hwhole'⟩ := recvFrame_sent hf' hsplit out
    rw [hwhole'] at hwhole
    have hnil : s'.incoming ++ more = [] := congrArg (fun r => r.2.2.incoming) hwhole
    exact hmore (List.append_eq_nil_iff.mp hnil).2

theorem recvFrame_empty {s : Socket} (hs : s.incoming = []) (out : Frame) :
    ∃ e calls, recvFrame out s = (.error e, out, { s with calls := calls }) := by
  obtain ⟨calls, ⟨hle, -⟩ | ⟨-, e, heq⟩⟩ := readLoop_spec (le_refl kHeaderSize) s
  · rw [hs] at hle
    cases hle
  · refine ⟨if e = "connection closed" ∨ e = "EOF" then "EOF" else e, calls, ?_⟩
    rw [recvFrame, readExact, heq, hs]

def sendFrames : List Frame → Sender → Except String Unit × Sender
  | [], s => (.ok (), s)
  | f :: fs, s =>
    match sendFrame f.type f.payload s with
    | (.ok (), s') => sendFrames fs s'
    | (.error e, s') => (.error e, s')

/-- At most `n` successive calls of `recv_frame` into one `out`, up to the first that fails:
the frames they return, the result of the last call and what it leaves in `out`. -/
def recvFrames : Nat → Frame → Socket → List Frame × Except String Unit × Frame
  | 0, out, _ => ([], .ok (), out)
  | n + 1, out, s =>
    match recvFrame out s with
    | (.ok (), f, s') => (f :: (recvFrames n f s').1, (recvFrames n f s').2)
    | (.error e, out', _) => ([], .error e, out')

def delivered : List Frame → Nat → List Frame
  | [], _ => []
  | f :: fs, cut =>
    if (frameBytes f).length ≤ cut then f :: delivered fs (cut - (frameBytes f).length) else []

theorem delivered_all (msgs : List Frame) {cut : Nat}
    (h : (msgs.flatMap frameBytes).length ≤ cut) : delivered msgs cut = msgs := by
  induction msgs generalizing cut with
  | nil => rfl
  | cons f fs ih =>
    rw [List.flatMap_cons, List.length_append] at h
    rw [delivered, if_pos (by omega), ih (by omega)]

theorem sendFrames_reliable {msgs : List Frame} (hfit : ∀ f ∈ msgs, f.payload.length ≤ kMaxFrame)
    {s : Sender} (h : ∀ i, s.takes i ≠ none) : ∃ calls, sendFrames msgs s =
      (.ok (), { s with sent := s.sent ++ msgs.flatMap frameBytes, calls := calls }) := by
  induction msgs generalizing s with
  | nil => exact ⟨s.calls, by rw [sendFrames, List.flatMap_nil, List.append_nil]⟩
  | cons f fs ih =>
    obtain ⟨c₁, h₁⟩ := sendFrame_reliable h (hfit f (List.mem_cons_self ..))
    obtain ⟨c₂, h₂⟩ := ih (fun g hg => hfit g (List.mem_cons_of_mem _ hg))
      (s := { s with sent := s.sent ++ frameBytes f, calls := c₁ }) h
    refine ⟨c₂, ?_⟩
    rw [sendFrames, h₁]
    dsimp only
    rw [h₂, List.flatMap_cons, List.append_assoc]

theorem recvFrames_failed {n : Nat} {out : Frame} {s : Socket} {e : String}
    (h : (recvFrame out s).1 = .error e) : recvFrames (n + 1) out s = ([], .error e, out) := by
  have hout := recvFrame_error h
  rw [recvFrames]
  rcases hrun : recvFrame out s with ⟨e' | ⟨⟩, f, s'⟩
  · rw [hrun] at h hout
    obtain rfl := Except.error.inj h
    obtain rfl : f = out := hout
    rfl
  · rw [hrun] at h
    cases h

theorem recvFrames_delivered {msgs : List Frame} (hfit : ∀ f ∈ msgs, f.payload.length ≤ kMaxFrame)
    {cut : Nat} {s : Socket} (hs : s.incoming = (msgs.flatMap frameBytes).take cut) (n : Nat)
    (out : Frame) :
    (recvFrames n out s).1 = (delivered msgs cut).take n ∧
    ((recvFrames n out s).2.1 = .ok () ↔ n ≤ (delivered msgs cut).length) ∧
    (recvFrames n out s).2.2 = ((delivered msgs cut).take n).getLastD out := by
  induction n generalizing msgs cut s out with
  | zero => exact ⟨rfl, by simp [recvFrames], rfl⟩
  | succ n ih =>
    rcases msgs with _ | ⟨f, fs⟩
    · have hempty : s.incoming = [] := by rw [hs, List.flatMap_nil, List.take_nil]
      obtain ⟨e, calls, he⟩ := recvFrame_empty hempty out
      rw [recvFrames_failed (e := e) (by rw [he])]
      exact ⟨rfl, by simp [delivered], rfl⟩
    · have hf := hfit f (List.mem_cons_self ..)
      rw [List.flatMap_cons, List.take_append] at hs
      by_cases hcut : (frameBytes f).length ≤ cut
      · rw [List.take_of_length_le hcut] at hs
        obtain ⟨c, hrecv⟩ := recvFrame_sent hf hs out
        obtain ⟨h₁, h₂, h₃⟩ := ih (fun g hg => hfit g (List.mem_cons_of_mem _ hg))
          (s := { s with
            incoming := (fs.flatMap frameBytes).take (cut - (frameBytes f).length), calls := c })
          rfl f
        rw [delivered, if_pos hcut, recvFrames, hrecv]
        dsimp only
        refine ⟨?_, ?_, ?_⟩
        · rw [h₁, List.take_succ_cons]
        · rw [h₂, List.length_cons, Nat.add_le_add_iff_right]
        · rw [h₃, List.take_succ_cons, List.getLastD_cons]
      · have hzero : cut - (frameBytes f).length = 0 := by omega
        rw [hzero, List.take_zero, List.append_nil] at hs
        have hmore : (frameBytes f).drop cut ≠ [] := by
          rw [ne_eq, List.drop_eq_nil_iff]
          exact hcut
        obtain ⟨e, he⟩ := recvFrame_short hf hmore (by rw [hs, List.take_append_drop]) out
        rw [recvFrames_failed he, delivered, if_neg hcut]
        exact ⟨rfl, by simp, rfl⟩

/-- Messages that are sent over a reliable stream are received as they were sent, however the
two ends split the bytes; of a stream that is cut the complete frames are received and the
next call fails without touching `out`; and bytes that are received as a message are the
bytes that are sent for it. -/
theorem frames_delivered {msgs : List Frame} (hfit : ∀ f ∈ msgs, f.payload.length ≤ kMaxFrame)
    {takes : Nat → Option Nat} (htakes : ∀ i, takes i ≠ none) :
    (∃ bytes calls, sendFrames msgs ⟨[], takes, 0⟩ = (.ok (), ⟨bytes, takes, calls⟩) ∧
      (∀ reset gives out, (recvFrames msgs.length out ⟨bytes, reset, gives, 0⟩).1 = msgs ∧
        (recvFrames msgs.length out ⟨bytes, reset, gives, 0⟩).2.1 = .ok ()) ∧
      ∀ cut reset gives n out,
        let r := recvFrames n out ⟨bytes.take cut, reset, gives, 0⟩
        r.1 = (delivered msgs cut).take n ∧ (r.2.1 = .ok () ↔ n ≤ (delivered msgs cut).length) ∧
        r.2.2 = ((delivered msgs cut).take n).getLastD out) ∧
    ∀ s out f s', recvFrame out s = (.ok (), f, s') →
      ∃ bytes calls, sendFrame f.type f.payload ⟨[], takes, 0⟩ = (.ok (), ⟨bytes, takes, calls⟩) ∧
        s.incoming = bytes ++ s'.incoming := by
  constructor
  · obtain ⟨calls, hsent⟩ := sendFrames_reliable hfit (s := ⟨[], takes, 0⟩) htakes
    refine ⟨msgs.flatMap frameBytes, calls, hsent, ?_, ?_⟩
    · intro reset gives out
      have hall := delivered_all msgs (le_refl (msgs.flatMap frameBytes).length)
      have htake : (Socket.mk (msgs.flatMap frameBytes) reset gives 0).incoming =
          (msgs.flatMap frameBytes).take (msgs.flatMap frameBytes).length := List.take_length.symm
      obtain ⟨h₁, h₂, -⟩ := recvFrames_delivered hfit htake msgs.length out
      rw [hall] at h₁ h₂
      refine ⟨?_, h₂.mpr (le_refl _)⟩
      rw [h₁, List.take_length]
    · intro cut reset gives n out
      exact recvFrames_delivered hfit rfl n out
  · intro s out f s' h
    obtain ⟨hf, hin⟩ := recvFrame_ok h
    obtain ⟨calls, hsent⟩ := sendFrame_reliable (s := ⟨[], takes, 0⟩) htakes hf
    exact ⟨frameBytes f, calls, hsent, hin⟩

theorem frames_delivered_bytewise :
    ∃ bytes calls, sendFrames [⟨.hello, [1, 2, 3]⟩, ⟨.ack, []⟩] ⟨[], fun _ => some 1, 0⟩ =
        (.ok (), ⟨bytes, fun _ => some 1, calls⟩) ∧
      (recvFrames 2 ⟨.error, []⟩ ⟨bytes, false, fun _ => 3, 0⟩).1 =
        [⟨.hello, [1, 2, 3]⟩, ⟨.ack, []⟩] := by
  have hfit : ∀ f ∈ [Frame.mk .hello [1, 2, 3], ⟨.ack, []⟩], f.payload.length ≤ kMaxFrame := by
    decide
  have htakes : ∀ i : Nat, (fun _ => some 1 : Nat → Option Nat) i ≠ none := by
    intro i h
    cases h
  obtain ⟨bytes, calls, hsent, hall, -⟩ := (frames_delivered hfit htakes).1
  exact ⟨bytes, calls, hsent, (hall false (fun _ => 3) ⟨.error, []⟩).1⟩

end Iobs.Proto
