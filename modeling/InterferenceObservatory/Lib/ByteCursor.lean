import Mathlib.Data.Nat.Bitwise
import Mathlib.Logic.Basic
import Mathlib.Tactic.SplitIfs
import Mathlib.Tactic.Tauto

/-! Little-endian byte formats and the cursor that reads them. The cursor carries a
failure flag: running off the end of the buffer clears it, and nothing sets it again. -/

namespace ByteFormat

def le : Nat → Nat → List UInt8
  | 0, _ => []
  | k + 1, v => UInt8.ofNat (v &&& 0xFF) :: le k (v >>> 8)

@[simp] theorem length_le (k v : Nat) : (le k v).length = k := by
  induction k generalizing v with
  | zero => rfl
  | succ k ih => rw [le, List.length_cons, ih]

theorem exists_le (bs : List UInt8) : ∃ v, v < 256 ^ bs.length ∧ le bs.length v = bs := by
  induction bs with
  | nil => exact ⟨0, by decide, rfl⟩
  | cons b bs ih =>
    obtain ⟨v, hv, hle⟩ := ih
    have hb : b.toNat < 256 := b.toNat_lt
    have hlow : (b.toNat + 256 * v) &&& 0xFF = b.toNat := by
      rw [show 0xFF = 2 ^ 8 - 1 from rfl, Nat.and_two_pow_sub_one_eq_mod]
      omega
    have hhigh : (b.toNat + 256 * v) >>> 8 = v := by
      rw [Nat.shiftRight_eq_div_pow]
      omega
    refine ⟨b.toNat + 256 * v, ?_, ?_⟩
    · rw [List.length_cons, pow_succ]
      omega
    · rw [List.length_cons, le, hlow, hhigh, hle, UInt8.ofNat_toNat]

namespace Writer

def u8 (v : UInt8) : List UInt8 := [v]
def u32 (v : UInt32) : List UInt8 := le 4 v.toNat
def u64 (v : UInt64) : List UInt8 := le 8 v.toNat
def i64 (v : Int64) : List UInt8 := u64 v.toUInt64
def flag (v : Bool) : List UInt8 := u8 (if v then 1 else 0)
def str (s : List UInt8) : List UInt8 := u64 (UInt64.ofNat s.length) ++ s

def list {α : Type} (enc : α → List UInt8) (l : List α) : List UInt8 :=
  u32 (UInt32.ofNat l.length) ++ l.flatMap enc

end Writer

structure Reader where
  p : List UInt8
  pos : Nat
  ok : Bool

namespace Reader

def u8 (r : Reader) : UInt8 × Reader :=
  if _ : r.pos + 1 ≤ r.p.length then (r.p[r.pos], { r with pos := r.pos + 1 })
  else (0, { r with ok := false })

def word : (k i v : Nat) → Reader → Nat × Reader
  | 0, _, v, r => (v, r)
  | k + 1, i, v, r =>
    if _ : r.pos + 1 ≤ r.p.length then
      word k (i + 1) (v ||| r.p[r.pos].toNat <<< (i * 8)) { r with pos := r.pos + 1 }
    else (v, { r with ok := false })

def u32 (r : Reader) : UInt32 × Reader := ((word 4 0 0 r).1.toUInt32, (word 4 0 0 r).2)
def u64 (r : Reader) : UInt64 × Reader := ((word 8 0 0 r).1.toUInt64, (word 8 0 0 r).2)

def str (bound : Nat) (r : Reader) : List UInt8 × Reader :=
  let len := r.u64.1.toNat
  let r := r.u64.2
  if !r.ok || len > bound then ([], { r with ok := false })
  else if ¬ r.pos + len ≤ r.p.length then ([], { r with ok := false })
  else ((r.p.drop r.pos).take len, { r with pos := r.pos + len })

structure Forward (r r' : Reader) : Prop where
  p : r'.p = r.p
  pos : r.pos ≤ r'.pos
  bound : r.pos ≤ r.p.length → r'.pos ≤ r.p.length
  ok : r'.ok = true → r.ok = true

theorem Forward.refl (r : Reader) : r.Forward r := ⟨rfl, le_rfl, id, id⟩

theorem Forward.trans {r₁ r₂ r₃ : Reader} (h : r₁.Forward r₂) (h' : r₂.Forward r₃) :
    r₁.Forward r₃ :=
  ⟨h'.p.trans h.p, h.pos.trans h'.pos, fun hb => h.p ▸ h'.bound (h.p ▸ h.bound hb),
    fun hk => h.ok (h'.ok hk)⟩

theorem forward_fail (r : Reader) : r.Forward { r with ok := false } :=
  ⟨rfl, le_rfl, id, fun h => by cases h⟩

theorem forward_advance {r : Reader} {n : Nat} (h : r.pos + n ≤ r.p.length) :
    r.Forward { r with pos := r.pos + n } := ⟨rfl, Nat.le_add_right .., fun _ => h, id⟩

theorem u8_forward (r : Reader) : r.Forward r.u8.2 := by
  unfold u8
  split_ifs with h
  · exact forward_advance h
  · exact forward_fail r

theorem word_forward (k i v : Nat) (r : Reader) : r.Forward (word k i v r).2 := by
  induction k generalizing i v r with
  | zero => exact .refl r
  | succ k ih =>
    unfold word
    split_ifs with h
    · exact (forward_advance h).trans (ih _ _ _)
    · exact forward_fail r

theorem str_forward (bound : Nat) (r : Reader) : r.Forward (r.str bound).2 := by
  have h64 : r.Forward r.u64.2 := word_forward ..
  unfold str
  dsimp only
  split_ifs with h₁ h₂
  · exact h64.trans (forward_fail _)
  · exact h64.trans (forward_advance h₂)
  · exact h64.trans (forward_fail _)

def rest (r : Reader) : List UInt8 := r.p.drop r.pos

def skip (r : Reader) (n : Nat) : Reader := { r with pos := r.pos + n }

@[simp] theorem skip_ok (r : Reader) (n : Nat) : (r.skip n).ok = r.ok := rfl
@[simp] theorem skip_zero (r : Reader) : r.skip 0 = r := rfl
@[simp] theorem skip_skip (r : Reader) (m n : Nat) : (r.skip m).skip n = r.skip (m + n) := by
  simp only [skip, Nat.add_assoc]

theorem rest_skip {r : Reader} {bs post : List UInt8} (h : r.rest = bs ++ post) :
    (r.skip bs.length).rest = post := by
  rw [rest, skip, ← List.drop_drop]
  exact (congrArg (List.drop bs.length) h).trans List.drop_left

theorem rest_eq_cons {r : Reader} {b : UInt8} {post : List UInt8} (h : r.rest = b :: post) :
    ∃ hlt : r.pos + 1 ≤ r.p.length, r.p[r.pos] = b ∧ (r.skip 1).rest = post := by
  have hlt : r.pos < r.p.length := by
    by_contra hn
    rw [rest, List.drop_eq_nil_of_le (not_lt.mp hn)] at h
    cases h
  rw [rest, List.drop_eq_getElem_cons hlt] at h
  exact ⟨hlt, (List.cons.inj h).1, (List.cons.inj h).2⟩

theorem u8_rest {r : Reader} {b : UInt8} {post : List UInt8} (h : r.rest = b :: post) :
    r.u8 = (b, r.skip 1) := by
  obtain ⟨hlt, hb, -⟩ := rest_eq_cons h
  rw [u8, dif_pos hlt, hb, skip]

theorem mod_succ_bytes (k v : Nat) :
    v % 256 ^ (k + 1) = (v &&& 0xFF) ||| ((v >>> 8) % 256 ^ k) <<< 8 := by
  have hlow : v &&& 0xFF = v % 256 := Nat.and_two_pow_sub_one_eq_mod v 8
  have hsum := Nat.shiftLeft_add_eq_or_of_lt (i := 8) (b := v % 256) (Nat.mod_lt v (by decide))
    (v / 256 % 256 ^ k)
  rw [hlow, Nat.shiftRight_eq_div_pow, Nat.lor_comm, ← hsum, Nat.shiftLeft_eq, pow_succ',
    Nat.mod_mul]
  omega

theorem word_le (k i a v : Nat) (r : Reader) (post : List UInt8) (h : r.rest = le k v ++ post) :
    word k i a r = (a ||| (v % 256 ^ k) <<< (i * 8), r.skip k) := by
  induction k generalizing i a v r with
  | zero => simp [word, Nat.mod_one]
  | succ k ih =>
    rw [le, List.cons_append] at h
    obtain ⟨hlt, hb, hpost⟩ := rest_eq_cons h
    have hbyte : (UInt8.ofNat (v &&& 0xFF)).toNat = v &&& 0xFF := by
      rw [UInt8.toNat_ofNat', Nat.mod_eq_of_lt]
      exact Nat.lt_of_le_of_lt Nat.and_le_right (by decide)
    have hnext := ih (i + 1) (a ||| (v &&& 0xFF) <<< (i * 8)) (v >>> 8) (r.skip 1) hpost
    rw [word, dif_pos hlt, hb, hbyte]
    refine hnext.trans ?_
    rw [skip_skip, Nat.add_comm 1 k, mod_succ_bytes, Nat.shiftLeft_or_distrib, Nat.lor_assoc,
      ← Nat.shiftLeft_add, Nat.add_mul, Nat.one_mul, Nat.add_comm (i * 8)]

theorem u32_rest {r : Reader} {v : UInt32} {post : List UInt8}
    (h : r.rest = Writer.u32 v ++ post) : r.u32 = (v, r.skip 4) := by
  rw [u32, word_le 4 0 0 v.toNat r post h, show 256 ^ 4 = 2 ^ 32 from rfl,
    Nat.mod_eq_of_lt v.toNat_lt]
  simp

theorem u64_rest {r : Reader} {v : UInt64} {post : List UInt8}
    (h : r.rest = Writer.u64 v ++ post) : r.u64 = (v, r.skip 8) := by
  rw [u64, word_le 8 0 0 v.toNat r post h, show 256 ^ 8 = 2 ^ 64 from rfl,
    Nat.mod_eq_of_lt v.toNat_lt]
  simp

end Reader
end ByteFormat
