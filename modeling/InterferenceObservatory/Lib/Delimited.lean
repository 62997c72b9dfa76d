import InterferenceObservatory.Lib.Parser

/-! Parsers of self-delimiting bytes. A parser that delimits some bytes takes all of them or
fails, and fails for certain when the buffer ends inside of them; sequences, repetitions and
counted lists of such parsers delimit the joined bytes. -/

namespace ByteFormat

theorem cut_append {l bs cs : List UInt8} (h : l <+: bs ++ cs) (hne : l ≠ bs ++ cs) :
    (l <+: bs ∧ l ≠ bs) ∨ ∃ c, l = bs ++ c ∧ c <+: cs ∧ c ≠ cs := by
  rcases List.prefix_or_prefix_of_prefix h (List.prefix_append bs cs) with hl | ⟨c, rfl⟩
  · by_cases heq : l = bs
    · refine .inr ⟨[], by rw [heq, List.append_nil], List.nil_prefix, ?_⟩
      rintro rfl
      rw [List.append_nil] at hne
      exact hne heq
    · exact .inl ⟨hl, heq⟩
  · refine .inr ⟨c, rfl, (List.prefix_append_right_inj bs).mp h, ?_⟩
    rintro rfl
    exact hne rfl

theorem length_lt_of_cut {l bs : List UInt8} (h : l <+: bs) (hne : l ≠ bs) :
    l.length < bs.length := by
  rcases Nat.lt_or_eq_of_le h.length_le with hlt | heq
  · exact hlt
  · exact absurd (h.eq_of_length heq) hne

theorem Reader.word_short (k i v : Nat) (r : Reader) (h : r.rest.length < k) :
    (Reader.word k i v r).2.ok = false := by
  induction k generalizing i v r with
  | zero => cases h
  | succ k ih =>
    unfold Reader.word
    split_ifs with hpos
    · apply ih
      simp only [Reader.rest, List.length_drop] at h ⊢
      omega
    · rfl

namespace Parser

variable {σ α β : Type}

structure Delimits (p : Parser σ α) (bs : List UInt8) (a : α) : Prop where
  whole : ∀ r post, r.ok = true → r.rest = bs ++ post →
    p.Fails r ∨ ∃ g, p.run r = (.ok a, r.skip bs.length, g)
  cut : ∀ r, r.ok = true → r.rest <+: bs → r.rest ≠ bs → p.Fails r

variable {p : Parser σ α} {f : α → Parser σ β} {bs cs : List UInt8} {a : α} {b : β}

theorem Delimits.bind (hp : Delimits p bs a) (hf : Delimits (f a) cs b) :
    Delimits (p >>= f) (bs ++ cs) b where
  whole := by
    intro r post hr hrest
    rw [List.append_assoc] at hrest
    rcases hp.whole r _ hr hrest with hfail | ⟨g, hrun⟩
    · exact .inl (bind_fails hfail)
    · rcases hf.whole (r.skip bs.length) post hr (Reader.rest_skip hrest) with hfail | ⟨u, hrun'⟩
      · exact .inl (bind_fails_right hrun hfail)
      · refine .inr ⟨u ∘ g, ?_⟩
        rw [bind_run hrun, hrun', Reader.skip_skip, List.length_append]
  cut := by
    intro r hr hpre hne
    rcases cut_append hpre hne with ⟨hpre, hne⟩ | ⟨c, hrest, hpre, hne⟩
    · exact bind_fails (hp.cut r hr hpre hne)
    · rcases hp.whole r c hr hrest with hfail | ⟨g, hrun⟩
      · exact bind_fails hfail
      · have hskip := Reader.rest_skip hrest
        refine bind_fails_right hrun (hf.cut _ hr ?_ ?_)
        · rwa [hskip]
        · rwa [hskip]

theorem Delimits.of_nil (h : ∀ r, r.ok = true → p.Fails r ∨ ∃ g, p.run r = (.ok a, r, g)) :
    Delimits p [] a where
  whole r _ hr _ := h r hr
  cut _ _ hpre hne := absurd (List.prefix_nil.mp hpre) hne

theorem delimits_pure (a : α) : Delimits (pure a : Parser σ α) [] a :=
  .of_nil fun _ _ => .inr ⟨id, rfl⟩

theorem delimits_update (u : σ → σ) : Delimits (update u) [] () :=
  .of_nil fun _ _ => .inr ⟨u, rfl⟩

theorem delimits_stop (reason : String) (bs : List UInt8) (a : α) :
    Delimits (stop reason : Parser σ α) bs a :=
  ⟨fun _ _ _ _ => .inl (.inl ⟨reason, rfl⟩), fun _ _ _ _ => .inl ⟨reason, rfl⟩⟩

theorem Delimits.field {x : List UInt8} {xs : List (List UInt8)} (hp : Delimits p x a)
    (hf : Delimits (f a) xs.flatten b) : Delimits (p >>= f) (x :: xs).flatten b := hp.bind hf

theorem Delimits.map (h : Delimits p bs a) (f : α → β) :
    Delimits (do let x ← p; pure (f x)) bs (f a) := by
  have hbind := h.bind (f := fun x => pure (f x)) (delimits_pure (f a))
  rwa [List.append_nil] at hbind

theorem Delimits.lift {p : Parser Unit α} (h : Delimits p bs a) :
    Delimits (Parser.lift p : Parser σ α) bs a where
  whole r post hr hrest := by
    rcases h.whole r post hr hrest with hfail | ⟨g, hrun⟩
    · exact .inl hfail
    · exact .inr ⟨id, by simp only [Parser.lift, hrun]⟩
  cut := h.cut

theorem Delimits.whenOk (h : Delimits p bs a) (d : α) : Delimits (Parser.whenOk p d) bs a where
  whole r post hr hrest := by
    simpa only [Fails, Parser.whenOk, hr, if_true] using h.whole r post hr hrest
  cut r hr hpre hne := by
    simpa only [Fails, Parser.whenOk, hr, if_true] using h.cut r hr hpre hne

theorem delimits_ofReader {g : Reader → α × Reader} {hg : ∀ r : Reader, r.Forward (g r).2}
    (h : Parses (ofReader g hg : Parser σ α) bs a id True)
    (hshort : ∀ r, r.rest.length < bs.length → (g r).2.ok = false) :
    Delimits (ofReader g hg : Parser σ α) bs a where
  whole r post hr hrest := .inr ⟨id, h.reads trivial r post hr hrest⟩
  cut r _ hpre hne := .inr (hshort r (length_lt_of_cut hpre hne))

theorem delimits_u8 (v : UInt8) : Delimits (u8 : Parser σ UInt8) (Writer.u8 v) v := by
  refine delimits_ofReader (parses_u8 v) ?_
  intro r hshort
  have hpos : ¬ r.pos + 1 ≤ r.p.length := by
    simp only [Reader.rest, List.length_drop, Writer.u8, List.length_singleton] at hshort
    omega
  rw [Reader.u8, dif_neg hpos]

theorem delimits_u32 (v : UInt32) : Delimits (u32 : Parser σ UInt32) (Writer.u32 v) v := by
  refine delimits_ofReader (parses_u32 v) ?_
  intro r hshort
  rw [Writer.u32, length_le] at hshort
  exact Reader.word_short 4 0 0 r hshort

theorem delimits_u64 (v : UInt64) : Delimits (u64 : Parser σ UInt64) (Writer.u64 v) v := by
  refine delimits_ofReader (parses_u64 v) ?_
  intro r hshort
  rw [Writer.u64, length_le] at hshort
  exact Reader.word_short 8 0 0 r hshort

theorem str_fails {bound n : Nat} (hn : n < 2 ^ 64) {r : Reader} {post : List UInt8}
    (hrest : r.rest = Writer.u64 (UInt64.ofNat n) ++ post) (h : bound < n ∨ post.length < n) :
    (str bound : Parser σ (List UInt8)).Fails r := by
  have hlen : (UInt64.ofNat n).toNat = n := UInt64.toNat_ofNat_of_lt' hn
  have hskip : (r.skip 8).rest = post := by
    have hrest' := Reader.rest_skip hrest
    rwa [Writer.u64, length_le] at hrest'
  right
  simp only [str, ofReader, Reader.str, Reader.u64_rest hrest, hlen, Bool.or_eq_true,
    decide_eq_true_eq]
  split_ifs with hbound hneed
  · rfl
  · exfalso
    have hpost : (r.skip 8).p.length - (r.skip 8).pos = post.length := by
      rw [← hskip, Reader.rest, List.length_drop]
    rcases h with h | h
    · exact hbound (.inr h)
    · omega
  · rfl

theorem delimits_str {bound : Nat} (hb : bound < 2 ^ 64) {s : List UInt8} (hs : s.length < 2 ^ 64) :
    Delimits (str bound : Parser σ (List UInt8)) (Writer.str s) s where
  whole r post hr hrest := by
    by_cases hfit : s.length ≤ bound
    · exact .inr ⟨id, (parses_str hb s).reads hfit r post hr hrest⟩
    · rw [Writer.str, List.append_assoc] at hrest
      exact .inl (str_fails hs hrest (.inl (Nat.not_le.mp hfit)))
  cut r _ hpre hne := by
    rcases cut_append hpre hne with ⟨hpre, hne⟩ | ⟨c, hrest, hpre, hne⟩
    · -- the length itself is cut off
      have hshort := length_lt_of_cut hpre hne
      rw [Writer.u64, length_le] at hshort
      have hfail : (Reader.u64 r).2.ok = false := Reader.word_short 8 0 0 r hshort
      right
      simp only [str, ofReader, Reader.str, hfail, Bool.not_false, Bool.true_or, if_true]
    · exact str_fails hs hrest (.inr (length_lt_of_cut hpre hne))

variable {enc : α → List UInt8}

theorem delimits_loop (l : List α) (h : ∀ a ∈ l, Delimits p (enc a) a) :
    Delimits (loop p l.length) (l.flatMap enc) l := by
  induction l with
  | nil => exact delimits_pure []
  | cons a l ih =>
    have ha := h a (List.mem_cons_self ..)
    have hl := ih fun b hb => h b (List.mem_cons_of_mem _ hb)
    rw [List.flatMap_cons, List.length_cons]
    exact (ha.bind (f := fun a => do let as ← loop p l.length; pure (a :: as))
      (hl.map (a :: ·))).whenOk []

theorem delimits_records {put : α → σ → σ} (l : List α) (h : ∀ a ∈ l, Delimits p (enc a) a) :
    Delimits (records p put l.length) (l.flatMap enc) () := by
  induction l with
  | nil => exact delimits_pure ()
  | cons a l ih =>
    have ha := h a (List.mem_cons_self ..)
    have hl := ih fun b hb => h b (List.mem_cons_of_mem _ hb)
    have hput := (delimits_update (put a)).whenOk ()
    rw [List.flatMap_cons, List.length_cons]
    exact (ha.bind (f := fun a => do whenOk (Parser.update (put a)) (); records p put l.length)
      (hput.bind (f := fun _ => records p put l.length) hl)).whenOk ()

theorem delimits_counted {reason : String} {bound : Nat} {l : List α} (hlt : l.length < 2 ^ 32)
    {k : Nat → Parser σ β} (hk : Delimits (k l.length) (l.flatMap enc) b) :
    Delimits (u32 >>= fun n => if n.toNat > bound then stop reason else k n.toNat)
      (Writer.list enc l) b := by
  refine (delimits_u32 (UInt32.ofNat l.length)).bind
    (f := fun n => if n.toNat > bound then stop reason else k n.toNat) ?_
  rw [UInt32.toNat_ofNat_of_lt' hlt]
  split_ifs
  · exact delimits_stop reason _ b
  · exact hk

theorem delimits_list {reason : String} {bound : Nat} {l : List α} (hlt : l.length < 2 ^ 32)
    (h : ∀ a ∈ l, Delimits p (enc a) a) :
    Delimits (list reason bound p) (Writer.list enc l) l := delimits_counted hlt (delimits_loop l h)

theorem delimits_section {reason : String} {bound : Nat} {put : α → σ → σ} {l : List α}
    (hlt : l.length < 2 ^ 32) (h : ∀ a ∈ l, Delimits p (enc a) a) :
    Delimits (counted reason bound p put) (Writer.list enc l) () :=
  delimits_counted hlt (delimits_records l h)

end Parser
end ByteFormat
