import InterferenceObservatory.Lib.Parser

/-! Scans: the layout of a format without its values. A scan walks over the bytes of a
value and tells whether it met them in canonical form. `Exact` relates a parser to the
scan of its layout: what the parser consumed has the length of the canonical bytes of
the value it returned, and is those bytes exactly when the scan finds no fault. -/

namespace ByteFormat

def number : List UInt8 → Nat
  | [] => 0
  | b :: bs => b.toNat + 256 * number bs

theorem number_le (k v : Nat) : number (le k v) = v % 256 ^ k := by
  induction k generalizing v with
  | zero => rw [le, number, pow_zero, Nat.mod_one]
  | succ k ih =>
    have hlow : v &&& 0xFF = v % 256 := Nat.and_two_pow_sub_one_eq_mod v 8
    have hbyte : (UInt8.ofNat (v &&& 0xFF)).toNat = v % 256 := by
      rw [UInt8.toNat_ofNat', hlow, Nat.mod_mod]
    rw [le, number, hbyte, ih, Nat.shiftRight_eq_div_pow, pow_succ' 256 k, Nat.mod_mul]

abbrev Scan := List UInt8 → Bool × List UInt8

namespace Scan

def fixed (n : Nat) : Scan := fun bs => (true, bs.drop n)

def flag : Scan := fun bs => (number (bs.take 1) ≤ 1, bs.drop 1)

def mask (width : Nat) : Scan := fun bs => (number (bs.take 4) < 2 ^ width, bs.drop 4)

def str : Scan := fun bs => (true, bs.drop (8 + number (bs.take 8)))

def seq : List Scan → Scan
  | [] => fun bs => (true, bs)
  | s :: ss => fun bs => ((s bs).1 && (seq ss (s bs).2).1, (seq ss (s bs).2).2)

def list (item : Scan) : Scan := fun bs =>
  seq (List.replicate (number (bs.take 4)) item) (bs.drop 4)

end Scan

namespace Reader

theorem u8_ok {r : Reader} (h : r.u8.2.ok = true) :
    r.rest = Writer.u8 r.u8.1 ++ (r.skip 1).rest ∧ r.u8.2 = r.skip 1 := by
  unfold u8 at h ⊢
  split_ifs at h ⊢ with hlt
  refine ⟨?_, rfl⟩
  rw [rest, List.drop_eq_getElem_cons hlt]
  rfl

theorem word_ok {k i v : Nat} {r : Reader} (h : (word k i v r).2.ok = true) :
    k ≤ r.rest.length := by
  induction k generalizing i v r with
  | zero => exact Nat.zero_le _
  | succ k ih =>
    unfold word at h
    split_ifs at h with hlt
    have hk := ih h
    simp only [rest, List.length_drop] at hk ⊢
    omega

theorem word_bytes {k i v : Nat} {r : Reader} (h : (word k i v r).2.ok = true) :
    ∃ w post, w < 256 ^ k ∧ r.rest = le k w ++ post := by
  obtain ⟨w, hw, hle⟩ := exists_le (r.rest.take k)
  rw [List.length_take, Nat.min_eq_left (word_ok h)] at hw hle
  exact ⟨w, r.rest.drop k, hw, by rw [hle, List.take_append_drop]⟩

theorem u32_ok {r : Reader} (h : r.u32.2.ok = true) :
    r.rest = Writer.u32 r.u32.1 ++ (r.skip 4).rest ∧ r.u32.2 = r.skip 4 := by
  obtain ⟨w, post, hw, hrest⟩ := word_bytes h
  have hlt : w < UInt32.size := hw
  have hbytes : r.rest = Writer.u32 (UInt32.ofNat w) ++ post := by
    rw [Writer.u32, UInt32.toNat_ofNat_of_lt' hlt, hrest]
  have hpost := rest_skip hbytes
  rw [Writer.u32, length_le] at hpost
  rw [u32_rest hbytes, hpost]
  exact ⟨hbytes, rfl⟩

theorem u64_ok {r : Reader} (h : r.u64.2.ok = true) :
    r.rest = Writer.u64 r.u64.1 ++ (r.skip 8).rest ∧ r.u64.2 = r.skip 8 := by
  obtain ⟨w, post, hw, hrest⟩ := word_bytes h
  have hlt : w < UInt64.size := hw
  have hbytes : r.rest = Writer.u64 (UInt64.ofNat w) ++ post := by
    rw [Writer.u64, UInt64.toNat_ofNat_of_lt' hlt, hrest]
  have hpost := rest_skip hbytes
  rw [Writer.u64, length_le] at hpost
  rw [u64_rest hbytes, hpost]
  exact ⟨hbytes, rfl⟩

theorem str_ok {bound : Nat} {r : Reader} (h : (r.str bound).2.ok = true) :
    (r.str bound).1.length ≤ bound ∧ (r.str bound).2 = r.skip (8 + (r.str bound).1.length) ∧
      r.rest = Writer.str (r.str bound).1 ++ (r.str bound).2.rest := by
  unfold str at h ⊢
  dsimp only at h ⊢
  split_ifs at h ⊢ with hlong hneed
  rw [Bool.or_eq_true, not_or, Bool.not_eq_true', Bool.not_eq_false, decide_eq_true_eq,
    gt_iff_lt, Nat.not_lt] at hlong
  obtain ⟨hbytes, hskip⟩ := u64_ok hlong.1
  rw [hskip] at hneed ⊢
  have hlen : (((r.skip 8).p.drop (r.skip 8).pos).take r.u64.1.toNat).length = r.u64.1.toNat := by
    rw [List.length_take, List.length_drop]
    omega
  refine ⟨hlen.trans_le hlong.2, ?_, ?_⟩
  · rw [hlen]
    simp only [skip, Nat.add_assoc]
  · rw [Writer.str, hlen, UInt64.ofNat_toNat, List.append_assoc, hbytes]
    congr 1
    rw [rest, rest, ← List.drop_drop, List.take_append_drop]

end Reader

namespace Parser

variable {σ α β : Type}

theorem bind_ok {p : Parser σ α} {f : α → Parser σ β} {r r' : Reader} {b : β} {g : σ → σ}
    (h : (p >>= f).run r = (.ok b, r', g)) : ∃ a r₁ g₁ u, p.run r = (.ok a, r₁, g₁) ∧
      (f a).run r₁ = (.ok b, r', u) ∧ u ∘ g₁ = g := by
  rcases hx : p.run r with ⟨e | a, r₁, g₁⟩
  · change (Parser.bind p f).run r = _ at h
    simp only [Parser.bind, hx, Prod.mk.injEq, reduceCtorEq, false_and] at h
  · rw [bind_run hx, Prod.mk.injEq, Prod.mk.injEq] at h
    obtain ⟨hb, hr, hg⟩ := h
    exact ⟨a, r₁, g₁, _, rfl, Prod.ext hb (Prod.ext hr rfl), hg⟩

theorem pure_ok {a b : α} {r r' : Reader} {g : σ → σ}
    (h : (pure a : Parser σ α).run r = (.ok b, r', g)) : a = b ∧ r = r' ∧ id = g := by
  change (Except.ok a, r, id) = _ at h
  rwa [Prod.mk.injEq, Prod.mk.injEq, Except.ok.injEq] at h

def Exact (p : Parser σ α) (s : Scan) (P : α → (σ → σ) → List UInt8 → Prop) : Prop :=
  ∀ r a r' g, p.run r = (.ok a, r', g) → r'.ok = true →
    ∃ bs w, r.rest = bs ++ r'.rest ∧ bs.length = w.length ∧ (s r.rest).2 = r'.rest ∧
      ((s r.rest).1 = true ↔ bs = w) ∧ P a g w

variable {p : Parser σ α} {f : α → Parser σ β} {s : Scan} {ss : List Scan}
  {enc : α → List UInt8} {fits : α → Prop} {P : α → (σ → σ) → List UInt8 → Prop}
  {Q : β → (σ → σ) → List UInt8 → Prop}

theorem Exact.mono {P' : α → (σ → σ) → List UInt8 → Prop} (h : Exact p s P)
    (hP : ∀ a g w, P a g w → P' a g w) : Exact p s P' := by
  intro r a r' g hrun hok
  obtain ⟨bs, w, hrest, hlen, hafter, hcanon, hPw⟩ := h r a r' g hrun hok
  exact ⟨bs, w, hrest, hlen, hafter, hcanon, hP a g w hPw⟩

theorem Exact.bind (hp : Exact p s P)
    (hf : ∀ a g w, P a g w → Exact (f a) (.seq ss) fun b u v => Q b (u ∘ g) (w ++ v)) :
    Exact (p >>= f) (.seq (s :: ss)) Q := by
  intro r b r' g hrun hok
  obtain ⟨a, r₁, g₁, u, hx, hy, rfl⟩ := bind_ok hrun
  have hok₁ : r₁.ok = true := ((f a).forward r₁).ok (by rw [hy]; exact hok)
  obtain ⟨bs, w, hrest, hlen, hafter, hcanon, hP⟩ := hp r a r₁ g₁ hx hok₁
  obtain ⟨cs, v, hrest', hlen', hafter', hcanon', hQ⟩ := hf a g₁ w hP r₁ b r' u hy hok
  refine ⟨bs ++ cs, w ++ v, ?_, ?_, ?_, ?_, hQ⟩
  · rw [hrest, hrest', List.append_assoc]
  · rw [List.length_append, List.length_append, hlen, hlen']
  · change (Scan.seq ss (s r.rest).2).2 = _
    rw [hafter, hafter']
  · change ((s r.rest).1 && (Scan.seq ss (s r.rest).2).1) = true ↔ _
    rw [hafter, Bool.and_eq_true, hcanon, hcanon']
    constructor
    · rintro ⟨rfl, rfl⟩
      rfl
    · intro h
      exact List.append_inj h hlen

def Coded (enc : α → List UInt8) (fits : α → Prop) (a : α) (g : σ → σ) (w : List UInt8) : Prop :=
  g = id ∧ w = enc a ∧ fits a

theorem Exact.cons (hp : Exact p s (Coded enc fits))
    (hf : ∀ a, fits a → Exact (f a) (.seq ss) fun b u v => Q b u (enc a ++ v)) :
    Exact (p >>= f) (.seq (s :: ss)) Q := by
  apply hp.bind
  rintro a g w ⟨rfl, rfl, ha⟩
  exact hf a ha

theorem Exact.field (hp : Exact p s (Coded enc fun _ => True))
    (hf : ∀ a, Exact (f a) (.seq ss) fun b u v => Q b u (enc a ++ v)) :
    Exact (p >>= f) (.seq (s :: ss)) Q := hp.cons fun a _ => hf a

theorem exact_pure {a : α} (h : P a id []) : Exact (pure a) (.seq []) P := by
  intro r b r' g hrun _
  obtain ⟨rfl, rfl, rfl⟩ := pure_ok hrun
  exact ⟨[], [], (List.nil_append _).symm, rfl, rfl, by simp [Scan.seq], h⟩

theorem Exact.map (h : Exact p s P) (f : α → β) (hQ : ∀ a g w, P a g w → Q (f a) g w) :
    Exact (do let x ← p; pure (f x)) s Q := by
  intro r b r' g hrun hok
  obtain ⟨a, r₁, g₁, u, hx, hy, rfl⟩ := bind_ok hrun
  obtain ⟨rfl, rfl, rfl⟩ := pure_ok hy
  obtain ⟨bs, w, hrest, hlen, hafter, hcanon, hP⟩ := h r a r₁ g₁ hx hok
  exact ⟨bs, w, hrest, hlen, hafter, hcanon, hQ a g₁ w hP⟩

theorem Exact.convert {enc' : β → List UInt8} (h : Exact p s (Coded enc fun _ => True)) (f : α → β)
    (henc : ∀ a, enc' (f a) = enc a) :
    Exact (do let x ← p; pure (f x)) s (Coded enc' fun _ => True) := by
  apply h.map f
  rintro a g w ⟨rfl, rfl, -⟩
  exact ⟨rfl, (henc a).symm, trivial⟩

theorem Exact.lift {p : Parser Unit α} (h : Exact p s (Coded enc fits)) :
    Exact (Parser.lift p : Parser σ α) s (Coded enc fits) := by
  intro r a r' g hrun hok
  obtain ⟨ha, hr, hg⟩ : (p.run r).1 = .ok a ∧ (p.run r).2.1 = r' ∧ id = g := by
    simpa only [Parser.lift, Prod.mk.injEq] using hrun
  obtain ⟨bs, w, hrest, hlen, hafter, hcanon, -, hw, hfits⟩ :=
    h r a r' _ (Prod.ext ha (Prod.ext hr rfl)) hok
  exact ⟨bs, w, hrest, hlen, hafter, hcanon, hg.symm, hw, hfits⟩

theorem exact_ofReader {f : Reader → α × Reader} {hf : ∀ r : Reader, r.Forward (f r).2}
    (raw : α → List UInt8) (hlen : ∀ a, (raw a).length = (enc a).length)
    (h : ∀ r : Reader, (f r).2.ok = true → r.rest = raw (f r).1 ++ (f r).2.rest ∧ fits (f r).1)
    (hs : ∀ a post, (s (raw a ++ post)).2 = post ∧ ((s (raw a ++ post)).1 = true ↔ raw a = enc a)) :
    Exact (ofReader f hf : Parser σ α) s (Coded enc fits) := by
  intro r a r' g hrun hok
  obtain ⟨ha, hr, hg⟩ : (Except.ok (f r).1 : Except String α) = .ok a ∧ (f r).2 = r' ∧ id = g := by
    simpa only [ofReader, Prod.mk.injEq] using hrun
  obtain rfl := Except.ok.inj ha
  obtain rfl := hr
  obtain ⟨hrest, hfits⟩ := h r hok
  obtain ⟨hafter, hcanon⟩ := hs (f r).1 (f r).2.rest
  rw [← hrest] at hafter hcanon
  exact ⟨_, _, hrest, hlen _, hafter, hcanon, hg.symm, rfl, hfits⟩

theorem exact_u8 : Exact (u8 : Parser σ UInt8) (.fixed 1) (Coded Writer.u8 fun _ => True) := by
  refine exact_ofReader Writer.u8 (fun _ => rfl) (fun r hok => ?_) fun a post => ?_
  · obtain ⟨hrest, hskip⟩ := Reader.u8_ok hok
    rw [hskip]
    exact ⟨hrest, trivial⟩
  · exact ⟨rfl, by simp [Scan.fixed]⟩

theorem exact_flag : Exact (do let v ← u8; pure (v != 0) : Parser σ Bool) .flag
    (Coded Writer.flag fun _ => True) := by
  have hbyte : Exact (u8 : Parser σ UInt8) .flag
      (Coded (fun v => Writer.flag (v != 0)) fun _ => True) := by
    refine exact_ofReader Writer.u8 (fun _ => rfl) (fun r hok => ?_) fun a post => ?_
    · obtain ⟨hrest, hskip⟩ := Reader.u8_ok hok
      rw [hskip]
      exact ⟨hrest, trivial⟩
    · refine ⟨rfl, ?_⟩
      simp only [Scan.flag, Writer.u8, Writer.flag, List.cons_append, List.take_succ_cons,
        List.take_zero, number, Nat.mul_zero, Nat.add_zero, decide_eq_true_eq, List.cons.injEq,
        and_true, ← UInt8.toNat_inj]
      by_cases ha : a = 0
      · simp [ha]
      · have hpos : a.toNat ≠ 0 := fun h => ha (UInt8.toNat_inj.mp h)
        simp only [bne_iff_ne, ne_eq, ha, not_false_eq_true, if_true]
        have hone : (1 : UInt8).toNat = 1 := rfl
        omega
  exact hbyte.convert (· != 0) fun _ => rfl

theorem exact_mask {n : Nat} {canon : UInt32 → UInt32}
    (hc : ∀ m, canon m = m ↔ m.toNat < 2 ^ n) : Exact (u32 : Parser σ UInt32) (.mask n)
      (Coded (fun m => Writer.u32 (canon m)) fun _ => True) := by
  have hlen : ∀ m, (Writer.u32 m).length = 4 := fun m => length_le 4 _
  have hnumber : ∀ m, number (Writer.u32 m) = m.toNat := by
    intro m
    rw [Writer.u32, number_le]
    exact Nat.mod_eq_of_lt m.toNat_lt
  refine exact_ofReader Writer.u32 (fun m => by rw [hlen, hlen]) (fun r hok => ?_)
    fun m post => ?_
  · obtain ⟨hrest, hskip⟩ := Reader.u32_ok hok
    rw [hskip]
    exact ⟨hrest, trivial⟩
  · refine ⟨List.drop_left' (hlen m), ?_⟩
    simp only [Scan.mask, List.take_left' (hlen m), hnumber, decide_eq_true_eq, ← hc]
    constructor
    · intro h
      rw [h]
    · intro h
      apply UInt32.toNat_inj.mp
      rw [← hnumber, ← h, hnumber]

theorem exact_u64 : Exact (u64 : Parser σ UInt64) (.fixed 8) (Coded Writer.u64 fun _ => True) := by
  refine exact_ofReader Writer.u64 (fun _ => rfl) (fun r hok => ?_) fun a post => ?_
  · obtain ⟨hrest, hskip⟩ := Reader.u64_ok hok
    rw [hskip]
    exact ⟨hrest, trivial⟩
  · exact ⟨List.drop_left' (length_le 8 _), by simp [Scan.fixed]⟩

theorem exact_str {bound : Nat} (hb : bound < 2 ^ 64) : Exact (str bound : Parser σ (List UInt8))
    .str (Coded Writer.str fun v => v.length ≤ bound) := by
  intro r a r' g hrun hok
  obtain ⟨ha, hr, hg⟩ : (Except.ok (r.str bound).1 : Except String (List UInt8)) = .ok a ∧
      (r.str bound).2 = r' ∧ id = g := by simpa only [str, ofReader, Prod.mk.injEq] using hrun
  obtain rfl := Except.ok.inj ha
  obtain rfl := hr
  obtain ⟨hlen, hskip, hrest⟩ := Reader.str_ok hok
  have hsize : (r.str bound).1.length < 2 ^ 64 := Nat.lt_of_le_of_lt hlen hb
  have hscan : (Scan.str r.rest).2 = (r.str bound).2.rest := by
    have htake : r.rest.take 8 = le 8 (r.str bound).1.length := by
      rw [hrest, Writer.str, Writer.u64, UInt64.toNat_ofNat_of_lt' hsize, List.append_assoc,
        List.take_left' (length_le 8 _)]
    have hnumber : number (r.rest.take 8) = (r.str bound).1.length := by
      rw [htake, number_le]
      exact Nat.mod_eq_of_lt hsize
    change r.rest.drop (8 + number (r.rest.take 8)) = _
    rw [hnumber, hskip, Reader.rest, List.drop_drop]
    rfl
  exact ⟨_, _, hrest, rfl, hscan, by simp [Scan.str], hg.symm, rfl, hlen⟩

theorem Exact.whenOk (h : Exact p s P) (d : α) : Exact (Parser.whenOk p d) s P := by
  intro r a r' g hrun hok
  have hr : r.ok = true := ((Parser.whenOk p d).forward r).ok (by rw [hrun]; exact hok)
  simp only [Parser.whenOk, hr, if_true] at hrun
  exact h r a r' g hrun hok

theorem exact_loop (h : Exact p s (Coded enc fits)) (n : Nat) :
    Exact (loop p n) (.seq (List.replicate n s)) fun l g w =>
      g = id ∧ w = l.flatMap enc ∧ l.length = n ∧ ∀ a ∈ l, fits a := by
  induction n with
  | zero => exact exact_pure ⟨rfl, rfl, rfl, by simp⟩
  | succ n ih =>
    refine Exact.whenOk (Exact.cons h fun a ha => ?_) []
    refine Exact.map ih (a :: ·) ?_
    rintro l g w ⟨rfl, rfl, hlen, hl⟩
    exact ⟨rfl, List.flatMap_cons.symm, congrArg (· + 1) hlen, List.forall_mem_cons.mpr ⟨ha, hl⟩⟩

theorem Exact.after {q : Parser σ Unit} {u : σ → σ}
    (hq : ∀ r : Reader, r.ok = true → q.run r = (.ok (), r, u)) {k : Unit → Parser σ β}
    (h : Exact (k ()) s fun b v w => Q b (v ∘ u) w) : Exact (q >>= k) s Q := by
  intro r b r' g hrun hok
  have hr : r.ok = true := ((q >>= k).forward r).ok (by rw [hrun]; exact hok)
  rw [bind_run (hq r hr), Prod.mk.injEq, Prod.mk.injEq] at hrun
  obtain ⟨hb, hr', rfl⟩ := hrun
  exact h r b r' _ (Prod.ext hb (Prod.ext hr' rfl)) hok

theorem exact_records {put : α → σ → σ} (h : Exact p s (Coded enc fits)) (n : Nat) :
    Exact (records p put n) (.seq (List.replicate n s)) fun _ g w => ∃ l : List α,
      g = (fun x => l.foldl (fun x a => put a x) x) ∧ w = l.flatMap enc ∧ l.length = n ∧
        ∀ a ∈ l, fits a := by
  induction n with
  | zero => exact exact_pure ⟨[], rfl, rfl, rfl, by simp⟩
  | succ n ih =>
    refine Exact.whenOk (Exact.cons h fun a ha => ?_) ()
    have hput : ∀ r : Reader, r.ok = true →
        (Parser.whenOk (update (put a)) ()).run r = (.ok (), r, put a) := by
      intro r hr
      simp only [Parser.whenOk, hr, if_true, update]
    refine Exact.after hput (ih.mono ?_)
    rintro ⟨⟩ g w ⟨l, rfl, rfl, hlen, hl⟩
    exact ⟨a :: l, rfl, List.flatMap_cons.symm, congrArg (· + 1) hlen,
      List.forall_mem_cons.mpr ⟨ha, hl⟩⟩

theorem exact_counted {reason : String} {bound : Nat} {k : Nat → Parser σ β}
    {P : Nat → β → (σ → σ) → List UInt8 → Prop}
    (hk : ∀ n, Exact (k n) (.seq (List.replicate n s)) (P n)) :
    Exact (u32 >>= fun n => if n.toNat > bound then stop reason else k n.toNat) (.list s)
      fun b g w => ∃ n v, n ≤ bound ∧ w = Writer.u32 (UInt32.ofNat n) ++ v ∧ P n b g v := by
  intro r b r' g hrun hok
  obtain ⟨n, r₁, g₁, u, hx, hy, rfl⟩ := bind_ok hrun
  split_ifs at hy with hlong
  · change (Except.error reason, r₁, id) = _ at hy
    cases hy
  · have hok₁ : r₁.ok = true := ((k n.toNat).forward r₁).ok (by rw [hy]; exact hok)
    obtain ⟨cs, v, hrest', hlen, hafter, hcanon, hP⟩ := hk n.toNat r₁ b r' u hy hok
    obtain ⟨hn, rfl, rfl⟩ : r.u32.1 = n ∧ r.u32.2 = r₁ ∧ id = g₁ := by
      simpa only [u32, ofReader, Prod.mk.injEq, Except.ok.injEq] using hx
    obtain ⟨hrest, hskip⟩ := Reader.u32_ok hok₁
    have hscan : Scan.list s r.rest = Scan.seq (List.replicate n.toNat s) r.u32.2.rest := by
      have htake : r.rest.take 4 = le 4 n.toNat := by
        rw [hrest, Writer.u32, hn, List.take_left' (length_le 4 _)]
      have hnumber : number (r.rest.take 4) = n.toNat := by
        rw [htake, number_le]
        exact Nat.mod_eq_of_lt n.toNat_lt
      have hdrop : r.rest.drop 4 = r.u32.2.rest := by
        rw [hskip, Reader.rest, List.drop_drop]
        rfl
      unfold Scan.list
      rw [hnumber, hdrop]
    rw [hscan]
    refine ⟨Writer.u32 n ++ cs, Writer.u32 n ++ v, ?_, ?_, hafter, ?_, n.toNat, v,
      Nat.not_lt.mp hlong, ?_, hP⟩
    · rw [List.append_assoc, ← hrest', hskip, ← hn]
      exact hrest
    · rw [List.length_append, List.length_append, hlen]
    · rw [hcanon, List.append_cancel_left_eq]
    · rw [UInt32.ofNat_toNat]

theorem exact_list {reason : String} {bound : Nat} (h : Exact p s (Coded enc fits)) :
    Exact (list reason bound p) (.list s)
      (Coded (Writer.list enc) fun l => l.length ≤ bound ∧ ∀ a ∈ l, fits a) := by
  refine (exact_counted (exact_loop h)).mono ?_
  rintro l g w ⟨n, v, hn, rfl, rfl, rfl, rfl, hl⟩
  exact ⟨rfl, rfl, hn, hl⟩

theorem exact_section {reason : String} {bound : Nat} {put : α → σ → σ}
    (h : Exact p s (Coded enc fits)) : Exact (counted reason bound p put) (.list s)
      fun _ g w => ∃ l : List α, g = (fun x => l.foldl (fun x a => put a x) x) ∧
        w = Writer.list enc l ∧ l.length ≤ bound ∧ ∀ a ∈ l, fits a := by
  refine (exact_counted (exact_records h)).mono ?_
  rintro ⟨⟩ g w ⟨n, v, hn, rfl, l, rfl, rfl, rfl, hl⟩
  exact ⟨l, rfl, rfl, hn, hl⟩

end Parser
end ByteFormat
