import Mathlib.Logic.Function.Iterate
import Mathlib.Tactic.SplitIfs

/-! A check register driven by a table. A byte is added at the low end, and the register is
then shifted by a byte and the table word of the byte shifted out is added. If the words of
the table differ in their high bytes, no state of the register and no stretch of bytes as
long as the register can be mistaken for another. A table made from a polynomial does what
the polynomial does bit by bit. -/

section Burst

variable {α : Type}

/-- Two different lists of one length that agree outside of some `k` consecutive places. -/
structure DiffersWithin (k : ℕ) (l l' : List α) : Prop where
  length_eq : l.length = l'.length
  ne : l ≠ l'
  window : ∃ i, ∀ j, j < i ∨ i + k ≤ j → l[j]? = l'[j]?

theorem DiffersWithin.split {k : ℕ} {l l' : List α} (h : DiffersWithin k l l') :
    ∃ pre w w' post, l = pre ++ (w ++ post) ∧ l' = pre ++ (w' ++ post) ∧
      w.length = w'.length ∧ w.length ≤ k ∧ w ≠ w' := by
  obtain ⟨i, hi⟩ := h.window
  have hlen := h.length_eq
  have hpre : l'.take i = l.take i := by
    apply List.ext_getElem?
    intro j
    rw [List.getElem?_take, List.getElem?_take]
    split_ifs with hj
    · exact (hi j (.inl hj)).symm
    · rfl
  have hpost : l'.drop (i + k) = l.drop (i + k) := by
    apply List.ext_getElem?
    intro j
    rw [List.getElem?_drop, List.getElem?_drop]
    exact (hi _ (.inr (Nat.le_add_right ..))).symm
  have hcut : ∀ l : List α, l = l.take i ++ ((l.drop i).take k ++ l.drop (i + k)) := by
    intro l
    rw [← List.drop_drop, List.take_append_drop, List.take_append_drop]
  refine ⟨l.take i, (l.drop i).take k, (l'.drop i).take k, l.drop (i + k), hcut l, ?_, ?_, ?_, ?_⟩
  · rw [← hpre, ← hpost]
    exact hcut l'
  · simp only [List.length_take, List.length_drop, hlen]
  · rw [List.length_take]
    exact Nat.min_le_left ..
  · intro hw
    apply h.ne
    rw [hcut l, hcut l', hpre, hpost, hw]

theorem DiffersWithin.of_split {k : ℕ} {pre w w' post : List α} (hlen : w.length = w'.length)
    (hk : w.length ≤ k) (hne : w ≠ w') :
    DiffersWithin k (pre ++ (w ++ post)) (pre ++ (w' ++ post)) := by
  refine ⟨by simp [hlen], ?_, pre.length, ?_⟩
  · intro heq
    exact hne (List.append_cancel_right (List.append_cancel_left heq))
  · rintro j (hj | hj)
    · rw [List.getElem?_append_left hj, List.getElem?_append_left hj]
    · rw [List.getElem?_append_right (by omega), List.getElem?_append_right (by omega),
        List.getElem?_append_right (by omega), List.getElem?_append_right (by omega), hlen]

theorem DiffersWithin.append_left {k : ℕ} {l l' : List α} (h : DiffersWithin k l l')
    (pre : List α) : DiffersWithin k (pre ++ l) (pre ++ l') := by
  obtain ⟨p, w, w', post, rfl, rfl, hlen, hk, hne⟩ := h.split
  rw [← List.append_assoc pre p, ← List.append_assoc pre p]
  exact .of_split hlen hk hne

variable {σ : Type} {f : σ → α → σ}

theorem foldl_injective (hf : ∀ a, Function.Injective fun s => f s a) (l : List α) :
    Function.Injective fun s => l.foldl f s := by
  induction l with
  | nil => exact Function.injective_id
  | cons a l ih =>
    intro s s' h
    exact hf a (ih h)

theorem DiffersWithin.foldl_ne {l l' : List α} (h : DiffersWithin 1 l l')
    (hstate : ∀ a, Function.Injective fun s => f s a) (hdata : ∀ s, Function.Injective (f s))
    (s : σ) : l.foldl f s ≠ l'.foldl f s := by
  obtain ⟨pre, w, w', post, rfl, rfl, hlen, hwk, hne⟩ := h.split
  intro heq
  simp only [List.foldl_append] at heq
  have hwin := foldl_injective hstate post heq
  rcases w with _ | ⟨a, w⟩
  · exact hne (List.length_eq_zero_iff.mp hlen.symm).symm
  · obtain rfl : w = [] := List.length_eq_zero_iff.mp (Nat.le_zero.mp (Nat.le_of_succ_le_succ hwk))
    obtain ⟨b, rfl⟩ := List.length_eq_one_iff.mp hlen.symm
    exact hne (congrArg (fun a => [a]) (hdata _ hwin))

end Burst

namespace CheckRegister

variable {n : ℕ} (T : BitVec 8 → BitVec n)

def turn (x : BitVec n) : BitVec n := T (x.setWidth 8) ^^^ x >>> 8

def feed (s : BitVec n) (b : BitVec 8) : BitVec n := turn T (s ^^^ b.setWidth n)

def Distinguishes : Prop := ∀ i j, T i >>> (n - 8) = T j >>> (n - 8) → i = j

def word : List (BitVec 8) → BitVec n
  | [] => 0
  | b :: bs => b.setWidth n ^^^ word bs <<< 8

variable {T}

theorem eq_of_low_high {x y : BitVec n} (hlow : x.setWidth 8 = y.setWidth 8)
    (hhigh : x >>> 8 = y >>> 8) : x = y := by
  apply BitVec.eq_of_getLsbD_eq
  intro i _
  by_cases hi : i < 8
  · have hbit := congrArg (·.getLsbD i) hlow
    simpa [hi] using hbit
  · have hbit := congrArg (·.getLsbD (i - 8)) hhigh
    simpa [Nat.add_sub_cancel' (Nat.not_lt.mp hi)] using hbit

theorem turn_injective (hn : 8 ≤ n) (hT : Distinguishes T) : Function.Injective (turn T) := by
  intro x y h
  have hzero : ∀ z : BitVec n, z >>> 8 >>> (n - 8) = 0#n := by
    intro z
    rw [← BitVec.shiftRight_add, Nat.add_sub_cancel' hn]
    exact BitVec.ushiftRight_eq_zero (Nat.le_refl n)
  have htop := congrArg (fun z : BitVec n => z >>> (n - 8)) h
  simp only [turn, BitVec.ushiftRight_xor_distrib, hzero, BitVec.xor_zero] at htop
  have hlow := hT _ _ htop
  unfold turn at h
  rw [hlow] at h
  exact eq_of_low_high hlow ((BitVec.xor_right_inj _).mp h)

theorem getLsbD_word (bs : List (BitVec 8)) {i : ℕ} (h : 8 * bs.length ≤ i) :
    (word bs : BitVec n).getLsbD i = false := by
  induction bs generalizing i with
  | nil => simp [word]
  | cons b bs ih =>
    rw [List.length_cons] at h
    have hb : b.getLsbD i = false := BitVec.getLsbD_of_ge b i (by omega)
    have hrest := ih (i := i - 8) (by omega)
    simp [word, hb, hrest]

theorem turn_xor (x : BitVec n) {c : BitVec n} (hc : ∀ i, n ≤ i + 8 → c.getLsbD i = false) :
    turn T x ^^^ c = turn T (x ^^^ c <<< 8) := by
  have hlow : (x ^^^ c <<< 8).setWidth 8 = x.setWidth 8 := by
    apply BitVec.eq_of_getLsbD_eq
    intro i hi
    simp [hi]
  have hhigh : c <<< 8 >>> 8 = c := by
    apply BitVec.eq_of_getLsbD_eq
    intro i hin
    by_cases hi : i + 8 < n
    · simp [Nat.add_comm 8 i, hi, BitVec.getLsbD_eq_getElem hin]
    · have hbit := hc i (Nat.not_lt.mp hi)
      simp [Nat.add_comm 8 i, hi, hbit]
  unfold turn
  rw [hlow, BitVec.ushiftRight_xor_distrib, hhigh, BitVec.xor_assoc]

theorem foldl_feed (bs : List (BitVec 8)) (h : 8 * bs.length ≤ n) (s : BitVec n) :
    bs.foldl (feed T) s = (turn T)^[bs.length] (s ^^^ word bs) := by
  induction bs generalizing s with
  | nil => simp [word]
  | cons b bs ih =>
    rw [List.length_cons] at h
    have hword : ∀ i, n ≤ i + 8 → (word bs : BitVec n).getLsbD i = false := by
      intro i hi
      exact getLsbD_word bs (by omega)
    rw [List.foldl_cons, ih (by omega), feed, turn_xor _ hword, List.length_cons,
      Function.iterate_succ_apply, word, BitVec.xor_assoc]

theorem word_injective {bs bs' : List (BitVec 8)} (hlen : bs.length = bs'.length)
    (hn : 8 * bs.length ≤ n) (h : (word bs : BitVec n) = word bs') : bs = bs' := by
  induction bs generalizing bs' with
  | nil => exact (List.length_eq_zero_iff.mp hlen.symm).symm
  | cons b bs ih =>
    rcases bs' with _ | ⟨b', bs'⟩
    · cases hlen
    · rw [List.length_cons] at hn
      rw [List.length_cons, List.length_cons, Nat.add_right_cancel_iff] at hlen
      have hb : b = b' := by
        apply BitVec.eq_of_getLsbD_eq
        intro i hi
        have hbit := congrArg (·.getLsbD i) h
        simpa [word, hi, show i < n by omega] using hbit
      have hrest : (word bs : BitVec n) = word bs' := by
        apply BitVec.eq_of_getLsbD_eq
        intro i hin
        by_cases hi : i + 8 < n
        · have hbit := congrArg (·.getLsbD (i + 8)) h
          have hge : ¬ i + 8 < 8 := by omega
          simpa [word, hi, hb, hge, BitVec.getLsbD_eq_getElem hin] using hbit
        · rw [getLsbD_word bs (by omega), getLsbD_word bs' (by omega)]
      rw [hb, ih hlen (by omega) hrest]

theorem feed_injective (hT : Function.Injective (turn T)) (b : BitVec 8) :
    Function.Injective fun s => feed T s b := by
  intro s s' h
  exact (BitVec.xor_left_inj _).mp (hT h)

theorem foldl_feed_ne (hn : 8 ≤ n) (hT : Distinguishes T) {k : ℕ} (hk : 8 * k ≤ n)
    {l l' : List (BitVec 8)} (h : DiffersWithin k l l') (s : BitVec n) :
    l.foldl (feed T) s ≠ l'.foldl (feed T) s := by
  obtain ⟨pre, w, w', post, rfl, rfl, hlen, hwk, hne⟩ := h.split
  intro heq
  simp only [List.foldl_append] at heq
  have hturn := turn_injective hn hT
  have hwin := foldl_injective (feed_injective hturn) post heq
  rw [foldl_feed w (by omega), foldl_feed w' (by omega), ← hlen] at hwin
  have hword := (BitVec.xor_right_inj _).mp (hturn.iterate w.length hwin)
  exact hne (word_injective hlen (by omega) hword)

theorem foldl_feed_self {bs : List (BitVec 8)} (h : 8 * bs.length ≤ n) {s m : BitVec n}
    (hbs : word bs = s ^^^ m) : bs.foldl (feed T) s = (turn T)^[bs.length] m := by
  rw [foldl_feed bs h, hbs, ← BitVec.xor_assoc, BitVec.xor_self, BitVec.zero_xor]

def shift (p x : BitVec n) : BitVec n := if x.getLsbD 0 then p ^^^ x >>> 1 else x >>> 1

def shiftIn (p s : BitVec n) (bit : Bool) : BitVec n :=
  shift p (s ^^^ (BitVec.ofBool bit).setWidth n)

def bits (b : BitVec 8) : List Bool := (List.range 8).map b.getLsbD

def tableOf (p : BitVec n) (i : BitVec 8) : BitVec n := (shift p)^[8] (i.setWidth n)

theorem shift_xor (p x y : BitVec n) : shift p (x ^^^ y) = shift p x ^^^ shift p y := by
  have hself : ∀ a b : BitVec n, p ^^^ a ^^^ (p ^^^ b) = a ^^^ b := by
    intro a b
    rw [BitVec.xor_comm p a, BitVec.xor_assoc, ← BitVec.xor_assoc p, BitVec.xor_self,
      BitVec.zero_xor]
  unfold shift
  rw [BitVec.getLsbD_xor, BitVec.ushiftRight_xor_distrib]
  cases x.getLsbD 0 <;> cases y.getLsbD 0
  · rfl
  · change p ^^^ (x >>> 1 ^^^ y >>> 1) = x >>> 1 ^^^ (p ^^^ y >>> 1)
    rw [← BitVec.xor_assoc, BitVec.xor_comm p, BitVec.xor_assoc]
  · exact (BitVec.xor_assoc ..).symm
  · exact (hself _ _).symm

theorem iterate_shift_xor (p : BitVec n) (k : ℕ) (x y : BitVec n) :
    (shift p)^[k] (x ^^^ y) = (shift p)^[k] x ^^^ (shift p)^[k] y := by
  induction k generalizing x y with
  | zero => rfl
  | succ k ih =>
    rw [Function.iterate_succ_apply, shift_xor, ih]
    rfl

theorem iterate_shift_of_low (p : BitVec n) {k : ℕ} {x : BitVec n}
    (h : ∀ i < k, x.getLsbD i = false) : (shift p)^[k] x = x >>> k := by
  induction k with
  | zero => simp
  | succ k ih =>
    have hbit : (x >>> k).getLsbD 0 = false := by
      rw [BitVec.getLsbD_ushiftRight]
      exact h k (Nat.lt_succ_self k)
    rw [Function.iterate_succ_apply', ih fun i hi => h i (Nat.lt_succ_of_lt hi), shift, hbit,
      if_neg Bool.false_ne_true, BitVec.shiftRight_add]

theorem iterate_shift_high (p x : BitVec n) (k : ℕ) :
    (shift p)^[k] (x >>> k <<< k) = x >>> k := by
  rw [iterate_shift_of_low]
  · apply BitVec.eq_of_getLsbD_eq
    intro i _
    by_cases hi : k + i < n
    · simp [hi]
    · simp [hi, BitVec.getLsbD_of_ge x (k + i) (Nat.not_lt.mp hi)]
  · intro i hi
    simp [hi]

theorem turn_tableOf (p x : BitVec n) : turn (tableOf p) x = (shift p)^[8] x := by
  have hsplit : x = (x.setWidth 8).setWidth n ^^^ x >>> 8 <<< 8 := by
    apply BitVec.eq_of_getLsbD_eq
    intro i hin
    by_cases hi : i < 8
    · simp [hi, hin]
    · simp [hi, hin, Nat.add_sub_cancel' (Nat.not_lt.mp hi)]
  calc turn (tableOf p) x = (shift p)^[8] ((x.setWidth 8).setWidth n) ^^^ x >>> 8 := rfl
    _ = (shift p)^[8] ((x.setWidth 8).setWidth n ^^^ x >>> 8 <<< 8) := by
      rw [iterate_shift_xor, iterate_shift_high]
    _ = (shift p)^[8] x := by rw [← hsplit]

theorem foldl_shiftIn (p s v : BitVec n) (k : ℕ) :
    ((List.range k).map v.getLsbD).foldl (shiftIn p) s ^^^ v >>> k = (shift p)^[k] (s ^^^ v) := by
  induction k with
  | zero => simp
  | succ k ih =>
    generalize hs : ((List.range k).map v.getLsbD).foldl (shiftIn p) s = s' at ih
    have hsplit : v >>> k = (BitVec.ofBool (v.getLsbD k)).setWidth n ^^^ v >>> k >>> 1 <<< 1 := by
      apply BitVec.eq_of_getLsbD_eq
      intro i hin
      by_cases hi : i < 1
      · obtain rfl : i = 0 := Nat.lt_one_iff.mp hi
        simp [hin]
      · have hone : 1 + (i - 1) = i := Nat.add_sub_cancel' (Nat.not_lt.mp hi)
        simp [hi, hin, hone, show i ≠ 0 by omega]
    have heven : shift p (v >>> k >>> 1 <<< 1) = v >>> (k + 1) := by
      rw [BitVec.shiftRight_add]
      exact iterate_shift_high p (v >>> k) 1
    rw [List.range_succ, List.map_append, List.foldl_append, hs, Function.iterate_succ_apply',
      ← ih, hsplit, ← BitVec.xor_assoc, shift_xor, heven]
    rfl

theorem feed_tableOf (hn : 8 ≤ n) (p s : BitVec n) (b : BitVec 8) :
    feed (tableOf p) s b = (bits b).foldl (shiftIn p) s := by
  have hbits : (List.range 8).map (b.setWidth n).getLsbD = bits b := by
    apply List.map_congr_left
    intro i hi
    have hlt : i < n := Nat.lt_of_lt_of_le (List.mem_range.mp hi) hn
    rw [BitVec.getLsbD_setWidth, decide_eq_true hlt, Bool.true_and]
  have hnone : (b.setWidth n) >>> 8 = 0#n := by
    apply BitVec.eq_of_getLsbD_eq
    intro i _
    simp
  have hall := foldl_shiftIn p s (b.setWidth n) 8
  rw [hbits, hnone, BitVec.xor_zero] at hall
  rw [feed, turn_tableOf, hall]

theorem foldl_feed_tableOf (hn : 8 ≤ n) (p s : BitVec n) (bs : List (BitVec 8)) :
    bs.foldl (feed (tableOf p)) s = (bs.flatMap bits).foldl (shiftIn p) s := by
  induction bs generalizing s with
  | nil => rfl
  | cons b bs ih => rw [List.foldl_cons, ih, List.flatMap_cons, List.foldl_append, feed_tableOf hn]

end CheckRegister
