import InterferenceObservatory.Lib.ByteCursor

/-! Parsers over the cursor. A parser may stop with a reason and collects the updates
it makes to an object under construction; the object never influences the reading, and
that a failure is never taken back is part of the type. `Parses` relates a parser to
the bytes of one value in both directions: within the format's bounds the value comes
back, outside them the parser fails. -/

namespace ByteFormat

structure Parser (σ α : Type) where
  run : Reader → Except String α × Reader × (σ → σ)
  forward : ∀ r : Reader, r.Forward (run r).2.1

namespace Parser

variable {σ α β : Type}

def ofReader (f : Reader → α × Reader) (h : ∀ r : Reader, r.Forward (f r).2) : Parser σ α :=
  ⟨fun r => (.ok (f r).1, (f r).2, id), h⟩

def u8 : Parser σ UInt8 := ofReader Reader.u8 Reader.u8_forward
def u32 : Parser σ UInt32 := ofReader Reader.u32 (Reader.word_forward 4 0 0)
def u64 : Parser σ UInt64 := ofReader Reader.u64 (Reader.word_forward 8 0 0)
def str (bound : Nat) : Parser σ (List UInt8) :=
  ofReader (Reader.str bound) (Reader.str_forward bound)

def stop (reason : String) : Parser σ α := ⟨fun r => (.error reason, r, id), .refl⟩

def update (f : σ → σ) : Parser σ Unit := ⟨fun r => (.ok (), r, f), .refl⟩

def whenOk (p : Parser σ α) (dflt : α) : Parser σ α :=
  ⟨fun r => if r.ok then p.run r else (.ok dflt, r, id), fun r => by
    split_ifs
    · exact p.forward r
    · exact .refl r⟩

def lift (p : Parser Unit α) : Parser σ α :=
  ⟨fun r => ((p.run r).1, (p.run r).2.1, id), p.forward⟩

protected def pure (a : α) : Parser σ α := ⟨fun r => (.ok a, r, id), .refl⟩

protected def bind (p : Parser σ α) (f : α → Parser σ β) : Parser σ β where
  run r := match (p.run r).1 with
    | .ok a =>
      let q := (f a).run (p.run r).2.1
      (q.1, q.2.1, q.2.2 ∘ (p.run r).2.2)
    | .error e => (.error e, (p.run r).2.1, (p.run r).2.2)
  forward r := by
    split
    · exact (p.forward r).trans ((f _).forward _)
    · exact p.forward r

instance : Monad (Parser σ) where
  pure := Parser.pure
  bind := Parser.bind

/-- `for (i = 0; i < n && ok; ++i) out.push_back(p)`: the element whose read fails is
still appended. -/
def loop (p : Parser σ α) : Nat → Parser σ (List α)
  | 0 => pure []
  | n + 1 => whenOk (do let a ← p; let as ← loop p n; pure (a :: as)) []

def list (reason : String) (bound : Nat) (p : Parser σ α) : Parser σ (List α) :=
  u32 >>= fun n => if n.toNat > bound then stop reason else loop p n.toNat

def records (p : Parser σ α) (put : α → σ → σ) : Nat → Parser σ Unit
  | 0 => pure ()
  | n + 1 => whenOk (do let a ← p; whenOk (update (put a)) (); records p put n) ()

def counted (reason : String) (bound : Nat) (p : Parser σ α) (put : α → σ → σ) : Parser σ Unit :=
  u32 >>= fun n => if n.toNat > bound then stop reason else records p put n.toNat

def Fails (p : Parser σ α) (r : Reader) : Prop :=
  (∃ e, (p.run r).1 = .error e) ∨ (p.run r).2.1.ok = false

theorem fails_of_not_ok (p : Parser σ α) {r : Reader} (h : r.ok = false) : p.Fails r := by
  right
  by_contra hk
  have hr := (p.forward r).ok (Bool.not_eq_false _ ▸ hk)
  rw [h] at hr
  cases hr

theorem bind_run {p : Parser σ α} {f : α → Parser σ β} {r r' : Reader} {a : α} {g : σ → σ}
    (h : p.run r = (.ok a, r', g)) : (p >>= f).run r =
      (((f a).run r').1, ((f a).run r').2.1, ((f a).run r').2.2 ∘ g) := by
  change (Parser.bind p f).run r = _
  simp only [Parser.bind, h]

theorem bind_fails {p : Parser σ α} {f : α → Parser σ β} {r : Reader} (h : p.Fails r) :
    (p >>= f).Fails r := by
  rcases hx : p.run r with ⟨e | a, r', g⟩
  · refine .inl ⟨e, ?_⟩
    change ((Parser.bind p f).run r).1 = _
    simp only [Parser.bind, hx]
  · rw [Fails, hx] at h
    obtain ⟨e, he⟩ | hok := h
    · cases he
    · rw [Fails, bind_run hx]
      exact fails_of_not_ok (f a) hok

theorem bind_fails_right {p : Parser σ α} {f : α → Parser σ β} {r r' : Reader} {a : α} {g : σ → σ}
    (hp : p.run r = (.ok a, r', g)) (hf : (f a).Fails r') : (p >>= f).Fails r := by
  rw [Fails, bind_run hp]
  exact hf

def Returns (p : Parser σ α) (P : α → Prop) : Prop := ∀ r a, (p.run r).1 = .ok a → P a

theorem returns_pure {P : α → Prop} {a : α} (h : P a) : Returns (pure a : Parser σ α) P := by
  intro r b hb
  obtain rfl : a = b := Except.ok.inj hb
  exact h

theorem bind_result {p : Parser σ α} {f : α → Parser σ β} {r : Reader} {b : β}
    (h : ((p >>= f).run r).1 = .ok b) :
    ∃ a, (p.run r).1 = .ok a ∧ ((f a).run (p.run r).2.1).1 = .ok b := by
  rcases hp : p.run r with ⟨e | a, r', g⟩
  · change ((Parser.bind p f).run r).1 = _ at h
    simp only [Parser.bind, hp] at h
    cases h
  · rw [bind_run hp] at h
    exact ⟨a, rfl, h⟩

theorem Returns.bind {p : Parser σ α} {f : α → Parser σ β} {P : β → Prop}
    (h : ∀ a, Returns (f a) P) : Returns (p >>= f) P := by
  intro r b hb
  obtain ⟨a, -, hrest⟩ := bind_result hb
  exact h a _ b hrest

section Related

variable {τ : Type}

structure Simulation (R : (σ → σ) → (τ → τ) → Prop) : Prop where
  id : R id id
  comp : ∀ {u u' v v'}, R u v → R u' v' → R (u' ∘ u) (v' ∘ v)

def Related (R : (σ → σ) → (τ → τ) → Prop) (p : Parser σ α) (q : Parser τ α) : Prop :=
  ∀ r, (p.run r).1 = (q.run r).1 ∧ (p.run r).2.1 = (q.run r).2.1 ∧ R (p.run r).2.2 (q.run r).2.2

variable {R : (σ → σ) → (τ → τ) → Prop}

theorem related_lift (hR : Simulation R) (p : Parser Unit α) :
    Related R (lift p : Parser σ α) (lift p) := fun _ => ⟨rfl, rfl, hR.id⟩

theorem related_pure (hR : Simulation R) (a : α) :
    Related R (pure a : Parser σ α) (pure a) := fun _ => ⟨rfl, rfl, hR.id⟩

theorem related_stop (hR : Simulation R) (reason : String) :
    Related R (stop reason : Parser σ α) (stop reason) := fun _ => ⟨rfl, rfl, hR.id⟩

theorem related_update {u : σ → σ} {v : τ → τ} (h : R u v) : Related R (update u) (update v) :=
  fun _ => ⟨rfl, rfl, h⟩

theorem Related.bind (hR : Simulation R) {p : Parser σ α} {q : Parser τ α} {f : α → Parser σ β}
    {g : α → Parser τ β} (hp : Related R p q) (hf : ∀ a, Related R (f a) (g a)) :
    Related R (p >>= f) (q >>= g) := by
  intro r
  change _ = ((Parser.bind q g).run r).1 ∧ _ = ((Parser.bind q g).run r).2.1 ∧
    R ((Parser.bind p f).run r).2.2 ((Parser.bind q g).run r).2.2
  change ((Parser.bind p f).run r).1 = _ ∧ ((Parser.bind p f).run r).2.1 = _ ∧ _
  obtain ⟨h₁, h₂, h₃⟩ := hp r
  unfold Parser.bind
  dsimp only
  rw [h₁, h₂]
  rcases (q.run r).1 with e | a
  · exact ⟨rfl, rfl, h₃⟩
  · obtain ⟨k₁, k₂, k₃⟩ := hf a (q.run r).2.1
    have hcomp := hR.comp h₃ k₃
    exact ⟨k₁, k₂, hcomp⟩

theorem Related.whenOk (hR : Simulation R) {p : Parser σ α} {q : Parser τ α} (h : Related R p q)
    (d : α) : Related R (Parser.whenOk p d) (Parser.whenOk q d) := by
  intro r
  unfold Parser.whenOk
  dsimp only
  split_ifs
  · exact h r
  · exact ⟨rfl, rfl, hR.id⟩

theorem related_records (hR : Simulation R) (p : Parser Unit α) {put : α → σ → σ}
    {put' : α → τ → τ} (h : ∀ a, R (put a) (put' a)) (n : Nat) :
    Related R (records (lift p) put n) (records (lift p) put' n) := by
  induction n with
  | zero => exact related_pure hR ()
  | succ n ih =>
    refine Related.whenOk hR (Related.bind hR (related_lift hR p) fun a => ?_) ()
    exact Related.bind hR (Related.whenOk hR (related_update (h a)) ()) fun _ => ih

theorem related_counted (hR : Simulation R) (reason : String) (bound : Nat) (p : Parser Unit α)
    {put : α → σ → σ} {put' : α → τ → τ} (h : ∀ a, R (put a) (put' a)) :
    Related R (counted reason bound (lift p) put) (counted reason bound (lift p) put') := by
  refine Related.bind hR (fun _ => ⟨rfl, rfl, hR.id⟩) fun n => ?_
  split_ifs
  · exact related_stop hR reason
  · exact related_records hR p h n.toNat

end Related

structure Parses (p : Parser σ α) (bs : List UInt8) (a : α) (g : σ → σ) (P : Prop) : Prop where
  reads : P → ∀ r post, r.ok = true → r.rest = bs ++ post → p.run r = (.ok a, r.skip bs.length, g)
  fails : ¬ P → ∀ r post, r.ok = true → r.rest = bs ++ post → r.rest.length < 2 ^ 32 → p.Fails r

variable {p : Parser σ α} {f : α → Parser σ β} {bs cs : List UInt8} {a : α} {b : β}
  {g u : σ → σ} {P Q : Prop}

theorem Parses.congr (h : Parses p bs a g P) (hPQ : P ↔ Q) : Parses p bs a g Q := by
  rwa [← propext hPQ]

theorem Parses.bind (hp : Parses p bs a g P) (hf : Parses (f a) cs b u Q) :
    Parses (p >>= f) (bs ++ cs) b (u ∘ g) (P ∧ Q) where
  reads := by
    rintro ⟨hP, hQ⟩ r post hr hrest
    rw [List.append_assoc] at hrest
    rw [bind_run (hp.reads hP r _ hr hrest), hf.reads hQ (r.skip bs.length) post hr
      (Reader.rest_skip hrest), Reader.skip_skip, List.length_append]
  fails := by
    intro hPQ r post hr hrest hlen
    rw [List.append_assoc] at hrest
    -- the first part may fail by itself, or leave the failure to the second
    by_cases hP : P
    · have hskip := Reader.rest_skip hrest
      refine bind_fails_right (hp.reads hP r _ hr hrest) (hf.fails (fun hQ => hPQ ⟨hP, hQ⟩) _ _ hr
        hskip ?_)
      rw [hskip]
      rw [hrest, List.length_append] at hlen
      omega
    · exact bind_fails (hp.fails hP r _ hr hrest hlen)

theorem parses_pure (a : α) : Parses (pure a : Parser σ α) [] a id True :=
  ⟨fun _ _ _ _ _ => rfl, fun h => absurd trivial h⟩

theorem Parses.cons {x : List UInt8} {xs : List (List UInt8)} (hp : Parses p x a id P)
    (hf : Parses (f a) xs.flatten b g Q) : Parses (p >>= f) (x :: xs).flatten b g (P ∧ Q) :=
  hp.bind hf

theorem Parses.field {x : List UInt8} {xs : List (List UInt8)} (hp : Parses p x a id True)
    (hf : Parses (f a) xs.flatten b g Q) : Parses (p >>= f) (x :: xs).flatten b g Q :=
  (hp.bind hf).congr (true_and _).to_iff

theorem Parses.seq {x : List UInt8} {xs : List (List UInt8)} (hp : Parses p x a g P)
    (hf : Parses (f a) xs.flatten b u Q) : Parses (p >>= f) (x :: xs).flatten b (u ∘ g) (P ∧ Q) :=
  hp.bind hf

theorem Parses.lift {p : Parser Unit α} {g : Unit → Unit} (h : Parses p bs a g P) :
    Parses (Parser.lift p : Parser σ α) bs a id P where
  reads hP r post hr hrest := by simp only [Parser.lift, h.reads hP r post hr hrest]
  fails hP r post hr hrest hlen := h.fails hP r post hr hrest hlen

theorem parses_update (u : σ → σ) : Parses (update u) [] () u True :=
  ⟨fun _ _ _ _ _ => rfl, fun h => absurd trivial h⟩

theorem Parses.update {k : Unit → Parser σ β} (h : Parses (k ()) bs b g P) :
    Parses (Parser.update u >>= k) bs b (g ∘ u) P :=
  ((parses_update u).bind h).congr (true_and _).to_iff

theorem Parses.map (h : Parses p bs a g P) (f : α → β) :
    Parses (do let x ← p; pure (f x)) bs (f a) g P := by
  have hb := h.bind (f := fun x => pure (f x)) (parses_pure (f a))
  rw [List.append_nil] at hb
  exact hb.congr (and_true _).to_iff

theorem Parses.whenOk (h : Parses p bs a g P) (d : α) : Parses (Parser.whenOk p d) bs a g P where
  reads hP r post hr hrest := by
    simpa only [Parser.whenOk, hr, if_true] using h.reads hP r post hr hrest
  fails hP r post hr hrest hlen := by
    simpa only [Fails, Parser.whenOk, hr, if_true] using h.fails hP r post hr hrest hlen

theorem parses_ofReader {f : Reader → α × Reader} {hf : ∀ r : Reader, r.Forward (f r).2}
    (h : ∀ r post, r.rest = bs ++ post → f r = (a, r.skip bs.length)) :
    Parses (ofReader f hf : Parser σ α) bs a id True where
  reads _ r post _ hrest := by simp only [ofReader, h r post hrest]
  fails hn := absurd trivial hn

theorem parses_u8 (v : UInt8) : Parses (u8 : Parser σ UInt8) (Writer.u8 v) v id True :=
  parses_ofReader fun _ _ h => Reader.u8_rest h

theorem parses_u32 (v : UInt32) : Parses (u32 : Parser σ UInt32) (Writer.u32 v) v id True :=
  parses_ofReader fun _ _ h => by simpa only [Writer.u32, length_le] using Reader.u32_rest h

theorem parses_u64 (v : UInt64) : Parses (u64 : Parser σ UInt64) (Writer.u64 v) v id True :=
  parses_ofReader fun _ _ h => by simpa only [Writer.u64, length_le] using Reader.u64_rest h

theorem parses_str {bound : Nat} (hb : bound < 2 ^ 64) (s : List UInt8) :
    Parses (str bound : Parser σ (List UInt8)) (Writer.str s) s id (s.length ≤ bound) where
  reads hs r post hr hrest := by
    rw [Writer.str, List.append_assoc] at hrest
    have hlen : (UInt64.ofNat s.length).toNat = s.length :=
      UInt64.toNat_ofNat_of_lt' (Nat.lt_of_le_of_lt hs hb)
    have hskip : (r.skip 8).rest = s ++ post := by
      simpa only [Writer.u64, length_le] using Reader.rest_skip hrest
    have hneed : (r.skip 8).pos + s.length ≤ (r.skip 8).p.length := by
      have h := congrArg List.length hrest
      simp only [Reader.rest, List.length_drop, List.length_append, Writer.u64, length_le] at h
      simp only [Reader.skip]
      omega
    simp only [str, ofReader, Reader.str, Reader.u64_rest hrest, hlen, Reader.skip_ok, hr,
      Bool.not_true, Bool.false_or, gt_iff_lt, decide_eq_true_eq, if_neg (Nat.not_lt.mpr hs),
      hneed, not_true_eq_false, if_false]
    rw [show ((r.skip 8).p.drop (r.skip 8).pos) = s ++ post from hskip, List.take_left]
    simp only [Writer.str, Writer.u64, List.length_append, length_le, Reader.skip, Nat.add_assoc,
      hr]
  fails hs r post hr hrest hlt := by
    rw [hrest, Writer.str, List.append_assoc] at hlt
    rw [Writer.str, List.append_assoc] at hrest
    have hlen : (UInt64.ofNat s.length).toNat = s.length := by
      refine UInt64.toNat_ofNat_of_lt' (Nat.lt_trans ?_ (by decide : 2 ^ 32 < 2 ^ 64))
      simp only [List.length_append] at hlt
      omega
    right
    simp only [str, ofReader, Reader.str, Reader.u64_rest hrest, hlen, gt_iff_lt,
      decide_eq_true (Nat.not_le.mp hs), Bool.or_true, if_true]

variable {enc : α → List UInt8} {fits : α → Prop}

theorem parses_loop (l : List α) (h : ∀ a ∈ l, Parses p (enc a) a id (fits a)) :
    Parses (loop p l.length) (l.flatMap enc) l id (∀ a ∈ l, fits a) := by
  induction l with
  | nil => exact (parses_pure []).congr (by simp)
  | cons a l ih =>
    have ha := h a (List.mem_cons_self ..)
    have hl := ih fun b hb => h b (List.mem_cons_of_mem _ hb)
    rw [List.flatMap_cons, List.length_cons]
    have hcons := ha.bind (f := fun a => do let as ← loop p l.length; pure (a :: as))
      (hl.map (a :: ·))
    exact (hcons.whenOk []).congr (by simp)

theorem parses_records {put : α → σ → σ} (l : List α)
    (h : ∀ a ∈ l, Parses p (enc a) a id (fits a)) :
    Parses (records p put l.length) (l.flatMap enc) () (fun s => l.foldl (fun s a => put a s) s)
      (∀ a ∈ l, fits a) := by
  induction l with
  | nil => exact (parses_pure ()).congr (by simp)
  | cons a l ih =>
    have ha := h a (List.mem_cons_self ..)
    have hl := ih fun b hb => h b (List.mem_cons_of_mem _ hb)
    have hput := (parses_update (put a)).whenOk ()
    rw [List.flatMap_cons, List.length_cons]
    have hcons := ha.bind
      (f := fun a => do whenOk (Parser.update (put a)) (); records p put l.length)
      (hput.bind (f := fun _ => records p put l.length) hl)
    exact (hcons.whenOk ()).congr (by simp)

theorem length_le_flatMap {enc : α → List UInt8} (l : List α) (h : ∀ a ∈ l, enc a ≠ []) :
    l.length ≤ (l.flatMap enc).length := by
  induction l with
  | nil => simp
  | cons a l ih =>
    have ha := List.length_pos_iff.mpr (h a (List.mem_cons_self ..))
    have hl := ih fun b hb => h b (List.mem_cons_of_mem _ hb)
    simp only [List.length_cons, List.flatMap_cons, List.length_append]
    omega

theorem parses_stop (reason : String) (h : ¬ P) : Parses (stop reason : Parser σ α) bs a g P :=
  ⟨fun hP => absurd hP h, fun _ _ _ _ _ _ => .inl ⟨reason, rfl⟩⟩

theorem parses_count (l : List α) (hne : ∀ a ∈ l, enc a ≠ []) {k : Nat → Parser σ β}
    (hk : Parses (k l.length) (l.flatMap enc) b g P) :
    Parses (u32 >>= fun n => k n.toNat) (Writer.list enc l) b g (l.length < 2 ^ 32 ∧ P) := by
  have hbody (hlt : l.length < 2 ^ 32) :
      Parses (u32 >>= fun n => k n.toNat) (Writer.list enc l) b g (True ∧ P) := by
    refine (parses_u32 (UInt32.ofNat l.length)).bind (f := fun n => k n.toNat) ?_
    rwa [UInt32.toNat_ofNat_of_lt' hlt]
  constructor
  · rintro ⟨hlt, hP⟩
    exact (hbody hlt).reads ⟨trivial, hP⟩
  · intro hn r post hr hrest hlen
    -- a buffer below 4 GiB has no room for a longer list
    have hlt : l.length < 2 ^ 32 := by
      have hle := length_le_flatMap l hne
      rw [hrest, Writer.list] at hlen
      simp only [List.length_append] at hlen
      omega
    exact (hbody hlt).fails (fun h => hn ⟨hlt, h.2⟩) r post hr hrest hlen

theorem parses_counted {reason : String} {bound : Nat} (hb : bound < 2 ^ 32) (l : List α)
    (hne : ∀ a ∈ l, enc a ≠ []) {k : Nat → Parser σ β}
    (hk : Parses (k l.length) (l.flatMap enc) b g P) :
    Parses (u32 >>= fun n => if n.toNat > bound then stop reason else k n.toNat)
      (Writer.list enc l) b g (l.length ≤ bound ∧ P) := by
  have hcheck : Parses (if l.length > bound then stop reason else k l.length) (l.flatMap enc) b g
      (l.length ≤ bound ∧ P) := by
    split_ifs with hl
    · exact parses_stop reason fun h => Nat.not_le.mpr hl h.1
    · exact hk.congr (by simp [Nat.not_lt.mp hl])
  apply (parses_count l hne (k := fun n => if n > bound then stop reason else k n) hcheck).congr
  constructor
  · intro h
    exact h.2
  · intro h
    exact ⟨Nat.lt_of_le_of_lt h.1 hb, h⟩

theorem parses_list {reason : String} {bound : Nat} (hb : bound < 2 ^ 32) (l : List α)
    (hne : ∀ a ∈ l, enc a ≠ []) (h : ∀ a ∈ l, Parses p (enc a) a id (fits a)) :
    Parses (list reason bound p) (Writer.list enc l) l id
      (l.length ≤ bound ∧ ∀ a ∈ l, fits a) := parses_counted hb l hne (parses_loop l h)

theorem parses_repeated (l : List α) (hne : ∀ a ∈ l, enc a ≠ [])
    (h : ∀ a ∈ l, Parses p (enc a) a id (fits a)) :
    Parses (u32 >>= fun n => loop p n.toNat) (Writer.list enc l) l id
      (l.length < 2 ^ 32 ∧ ∀ a ∈ l, fits a) := parses_count l hne (parses_loop l h)

theorem parses_section {reason : String} {bound : Nat} {put : α → σ → σ} (hb : bound < 2 ^ 32)
    (l : List α) (hne : ∀ a ∈ l, enc a ≠ []) (h : ∀ a ∈ l, Parses p (enc a) a id (fits a)) :
    Parses (counted reason bound p put) (Writer.list enc l) ()
      (fun s => l.foldl (fun s a => put a s) s) (l.length ≤ bound ∧ ∀ a ∈ l, fits a) :=
  parses_counted hb l hne (parses_records l h)

end Parser
end ByteFormat
