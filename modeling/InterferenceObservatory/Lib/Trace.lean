import InterferenceObservatory.Lib.Parser

/-! What a parser does on the way to its result: the indices it compares and reads, the reads
that fail, the rounds of its loops and what it appends. The log of a parser is put together
from those of its parts, and it is exact: the indices read are those the cursor passes, and
the failure flag is raised if and only if a read has failed. -/

namespace ByteFormat

inductive Event where
  /-- The bound of a read, `pos + k`, is compared with the length. -/
  | check (sum : Nat)
  | read (index : Nat)
  | fail
  | round
  | append
  | store
deriving DecidableEq

def Event.index : Event → Option Nat
  | .read i => some i
  | _ => none

def readsOf (events : List Event) : List Nat := events.filterMap Event.index

@[simp] theorem readsOf_append (l l' : List Event) : readsOf (l ++ l') = readsOf l ++ readsOf l' :=
  List.filterMap_append

namespace Reader

def wordLog : (k : Nat) → Reader → List Event
  | 0, _ => []
  | k + 1, r =>
    .check (r.pos + 1) ::
      if r.pos + 1 ≤ r.p.length then .read r.pos :: wordLog k { r with pos := r.pos + 1 }
      else [.fail]

def strLog (bound : Nat) (r : Reader) : List Event :=
  let len := r.u64.1.toNat
  let r' := r.u64.2
  wordLog 8 r ++
    if !r'.ok || len > bound then [.fail]
    else .check (r'.pos + len) ::
      if ¬ r'.pos + len ≤ r'.p.length then [.fail] else (List.range' r'.pos len).map .read

structure Records (r r' : Reader) (events : List Event) : Prop where
  reads : readsOf events = List.range' r.pos (r'.pos - r.pos)
  ok : r'.ok = true ↔ r.ok = true ∧ Event.fail ∉ events

theorem Records.nil (r : Reader) : r.Records r [] := ⟨by simp [readsOf], by simp⟩

theorem Records.append {r₁ r₂ r₃ : Reader} {l l' : List Event} (h : r₁.Records r₂ l)
    (h' : r₂.Records r₃ l') (hpos : r₁.pos ≤ r₂.pos) (hpos' : r₂.pos ≤ r₃.pos) :
    r₁.Records r₃ (l ++ l') := by
  constructor
  · have hmid : r₂.pos = r₁.pos + (r₂.pos - r₁.pos) := by omega
    have hsum : r₂.pos - r₁.pos + (r₃.pos - r₂.pos) = r₃.pos - r₁.pos := by omega
    have hcat : List.range' r₁.pos (r₂.pos - r₁.pos) ++ List.range' r₂.pos (r₃.pos - r₂.pos) =
        List.range' r₁.pos (r₂.pos - r₁.pos + (r₃.pos - r₂.pos)) := by
      rw [← List.range'_append_1, ← hmid]
    rw [readsOf_append, h.reads, h'.reads, hcat, hsum]
  · rw [h'.ok, h.ok, List.mem_append, not_or, and_assoc]

theorem Records.cons {r r' : Reader} {events : List Event} {e : Event} (h : r.Records r' events)
    (hread : e.index = none) (hfail : e ≠ .fail) : r.Records r' (e :: events) := by
  constructor
  · rw [← h.reads, readsOf, List.filterMap_cons_none hread]
    rfl
  · rw [h.ok, List.mem_cons, not_or]
    simp [Ne.symm hfail]

theorem records_fail (r : Reader) : r.Records { r with ok := false } [.fail] :=
  ⟨by simp [readsOf, Event.index], by simp⟩

theorem records_advance (r : Reader) (n : Nat) :
    r.Records { r with pos := r.pos + n } ((List.range' r.pos n).map .read) := by
  constructor
  · have hindex : Event.index ∘ Event.read = some := rfl
    rw [readsOf, List.filterMap_map, hindex, List.filterMap_some]
    simp
  · simp

theorem word_records (k i v : Nat) (r : Reader) : r.Records (word k i v r).2 (wordLog k r) := by
  induction k generalizing i v r with
  | zero => exact .nil r
  | succ k ih =>
    unfold word wordLog
    refine Records.cons ?_ rfl (by simp)
    split_ifs with h
    · exact (records_advance r 1).append (ih _ _ _) (Nat.le_succ _) (word_forward ..).pos
    · exact records_fail r

theorem str_records (bound : Nat) (r : Reader) : r.Records (r.str bound).2 (strLog bound r) := by
  have h64 : r.Records r.u64.2 (wordLog 8 r) := word_records 8 0 0 r
  have hpos : r.pos ≤ r.u64.2.pos := (word_forward 8 0 0 r).pos
  unfold str strLog
  dsimp only
  split_ifs with h₁ h₂
  · exact h64.append (records_fail _) hpos (Nat.le_refl _)
  · exact h64.append ((records_advance _ _).cons rfl (by simp)) hpos (Nat.le_add_right ..)
  · exact h64.append ((records_fail _).cons rfl (by simp)) hpos (Nat.le_refl _)

theorem u8_cursor (r : Reader) : r.u8.2 = (word 1 0 0 r).2 := by
  unfold u8 word
  split_ifs <;> rfl

theorem u8_records (r : Reader) : r.Records r.u8.2 (wordLog 1 r) := by
  rw [u8_cursor]
  exact word_records 1 0 0 r

end Reader

namespace Parser

variable {σ α β : Type}

class Logged (p : Parser σ α) where
  log : Reader → List Event
  records : ∀ r : Reader, r.Records (p.run r).2.1 (log r)

def log (p : Parser σ α) [Logged p] (r : Reader) : List Event := Logged.log p r

instance : Logged (u8 : Parser σ UInt8) := ⟨Reader.wordLog 1, Reader.u8_records⟩

instance : Logged (u32 : Parser σ UInt32) := ⟨Reader.wordLog 4, Reader.word_records 4 0 0⟩

instance : Logged (u64 : Parser σ UInt64) := ⟨Reader.wordLog 8, Reader.word_records 8 0 0⟩

instance (bound : Nat) : Logged (str bound : Parser σ (List UInt8)) :=
  ⟨Reader.strLog bound, Reader.str_records bound⟩

instance (reason : String) : Logged (stop reason : Parser σ α) := ⟨fun _ => [], .nil⟩

instance (f : σ → σ) : Logged (update f) := ⟨fun _ => [], .nil⟩

instance (a : α) : Logged (pure a : Parser σ α) := ⟨fun _ => [], .nil⟩

instance (p : Parser Unit α) [Logged p] : Logged (lift p : Parser σ α) :=
  ⟨log p, Logged.records (p := p)⟩

def logAfter (p : Parser σ α) (f : α → Parser σ β) [∀ a, Logged (f a)] (r : Reader) : List Event :=
  match (p.run r).1 with
  | .ok a => log (f a) (p.run r).2.1
  | .error _ => []

theorem run_bind (p : Parser σ α) (f : α → Parser σ β) (r : Reader) :
    (p >>= f).run r =
      match (p.run r).1 with
      | .ok a =>
        let out := (f a).run (p.run r).2.1
        (out.1, out.2.1, out.2.2 ∘ (p.run r).2.2)
      | .error e => (.error e, (p.run r).2.1, (p.run r).2.2) := rfl

theorem run_whenOk (p : Parser σ α) (dflt : α) (r : Reader) :
    (whenOk p dflt).run r = if r.ok then p.run r else (.ok dflt, r, id) := rfl

theorem bind_records (p : Parser σ α) (f : α → Parser σ β) [Logged p] [∀ a, Logged (f a)]
    (r : Reader) : r.Records ((p >>= f).run r).2.1 (log p r ++ logAfter p f r) := by
  have hp := Logged.records (p := p) r
  rw [run_bind, logAfter]
  rcases (p.run r).1 with e | a
  · rw [List.append_nil]
    exact hp
  · exact hp.append (Logged.records (p := f a) _) (p.forward r).pos ((f a).forward _).pos

@[reducible] def Logged.next {p : Parser σ α} {f : α → Parser σ β} [Logged p]
    (hf : ∀ a, Logged (f a)) : Logged (p >>= f) :=
  ⟨fun r => log p r ++ logAfter p f r, bind_records p f⟩

instance (p : Parser σ α) (f : α → Parser σ β) [Logged p] [hf : ∀ a, Logged (f a)] :
    Logged (p >>= f) := .next hf

instance (c : Prop) [Decidable c] (p q : Parser σ α) [Logged p] [Logged q] :
    Logged (if c then p else q) :=
  ⟨fun r => if c then log p r else log q r, fun r => by
    split_ifs
    · exact Logged.records r
    · exact Logged.records r⟩

section Loops

variable (p : Parser σ α) (put : α → σ → σ)

def loopLog [Logged p] : Nat → Reader → List Event
  | 0, _ => []
  | n + 1, r =>
    if r.ok then
      .round :: (log p r ++
        match (p.run r).1 with
        | .ok _ => .append :: loopLog n (p.run r).2.1
        | .error _ => [])
    else []

def recordsLog [Logged p] : Nat → Reader → List Event
  | 0, _ => []
  | n + 1, r =>
    if r.ok then
      .round :: (log p r ++
        match (p.run r).1 with
        | .ok _ => if (p.run r).2.1.ok then .store :: recordsLog n (p.run r).2.1 else []
        | .error _ => [])
    else []

theorem loop_cursor (n : Nat) (r : Reader) : ((loop p (n + 1)).run r).2.1 =
    if r.ok then
      match (p.run r).1 with
      | .ok _ => ((loop p n).run (p.run r).2.1).2.1
      | .error _ => (p.run r).2.1
    else r := by
  rw [loop, run_whenOk, run_bind]
  split_ifs
  · rcases (p.run r).1 with e | a
    · rfl
    · dsimp only
      rw [run_bind]
      rcases ((loop p n).run (p.run r).2.1).1 with e | as <;> rfl
  · rfl

theorem put_run (a : α) (r : Reader) : (whenOk (update (put a)) ()).run r =
    (.ok (), r, if r.ok then put a else id) := by
  rw [run_whenOk]
  split_ifs <;> rfl

theorem records_cursor (n : Nat) (r : Reader) : ((records p put (n + 1)).run r).2.1 =
    if r.ok then
      match (p.run r).1 with
      | .ok _ => ((records p put n).run (p.run r).2.1).2.1
      | .error _ => (p.run r).2.1
    else r := by
  rw [records, run_whenOk, run_bind]
  split_ifs
  · rcases (p.run r).1 with e | a
    · rfl
    · dsimp only
      rw [run_bind, put_run]
  · rfl

theorem records_failed {r : Reader} (h : r.ok = false) (n : Nat) :
    (records p put n).run r = (.ok (), r, id) := by
  cases n with
  | zero => rfl
  | succ n =>
    rw [records, run_whenOk, h]
    rfl

theorem records_update (n : Nat) (r : Reader) : ((records p put (n + 1)).run r).2.2 =
    if r.ok then
      match (p.run r).1 with
      | .ok a =>
        if (p.run r).2.1.ok then
          ((records p put n).run (p.run r).2.1).2.2 ∘ put a ∘ (p.run r).2.2
        else (p.run r).2.2
      | .error _ => (p.run r).2.2
    else id := by
  rw [records, run_whenOk, run_bind]
  by_cases hok : r.ok = true
  · rw [if_pos hok, if_pos hok]
    rcases (p.run r).1 with e | a
    · rfl
    · dsimp only
      rw [run_bind, put_run]
      rcases hbad : (p.run r).2.1.ok with _ | _
      · rw [records_failed p put hbad]
        rfl
      · rfl
  · rw [if_neg hok, if_neg hok]

variable [Logged p]

theorem loop_records (n : Nat) (r : Reader) :
    r.Records ((loop p n).run r).2.1 (loopLog p n r) := by
  induction n generalizing r with
  | zero => exact .nil r
  | succ n ih =>
    have hp := Logged.records (p := p) r
    have hpos := (p.forward r).pos
    rw [loop_cursor, loopLog]
    split_ifs with hok
    · apply Reader.Records.cons _ rfl (by simp)
      rcases (p.run r).1 with e | a
      · rw [List.append_nil]
        exact hp
      · exact hp.append ((ih _).cons rfl (by simp)) hpos ((loop p n).forward _).pos
    · exact .nil r

theorem records_records (n : Nat) (r : Reader) :
    r.Records ((records p put n).run r).2.1 (recordsLog p n r) := by
  induction n generalizing r with
  | zero => exact .nil r
  | succ n ih =>
    have hp := Logged.records (p := p) r
    have hpos := (p.forward r).pos
    rw [records_cursor, recordsLog]
    by_cases hok : r.ok = true
    · rw [if_pos hok, if_pos hok]
      apply Reader.Records.cons _ rfl (by simp)
      rcases (p.run r).1 with e | a
      · rw [List.append_nil]
        exact hp
      · rcases hbad : (p.run r).2.1.ok with _ | _
        · dsimp only
          rw [records_failed p put hbad, if_neg Bool.false_ne_true, List.append_nil]
          exact hp
        · exact hp.append ((ih _).cons rfl (by simp)) hpos ((records p put n).forward _).pos
    · rw [if_neg hok, if_neg hok]
      exact .nil r

instance (n : Nat) : Logged (loop p n) := ⟨loopLog p n, loop_records p n⟩

instance (n : Nat) : Logged (records p put n) := ⟨recordsLog p n, records_records p put n⟩

instance (reason : String) (bound : Nat) : Logged (list reason bound p) := by
  delta list
  infer_instance

instance (reason : String) (bound : Nat) : Logged (counted reason bound p put) := by
  delta counted
  infer_instance

end Loops

def Checks (b : Nat) (r : Reader) (events : List Event) : Prop :=
  r.pos ≤ r.p.length → ∀ v, Event.check v ∈ events → v ≤ r.p.length + b

class Checked (b : Nat) (p : Parser σ α) [Logged p] : Prop where
  checks : ∀ r : Reader, Checks b r (log p r)

section Checked

variable {b : Nat}

theorem checks_nil (b : Nat) (r : Reader) : Checks b r [] := by
  intro _ v hv
  cases hv

theorem Checks.append {r r' : Reader} {l l' : List Event} (h : Checks b r l) (h' : Checks b r' l')
    (hf : r.Forward r') : Checks b r (l ++ l') := by
  intro hpos v hv
  rcases List.mem_append.mp hv with hv | hv
  · exact h hpos v hv
  · have hlen := h' (by rw [hf.p]; exact hf.bound hpos) v hv
    rwa [hf.p] at hlen

theorem Checks.cons {r : Reader} {l : List Event} {e : Event} (h : Checks b r l)
    (he : ∀ v, e = .check v → r.pos ≤ r.p.length → v ≤ r.p.length + b) : Checks b r (e :: l) := by
  intro hpos v hv
  rcases List.mem_cons.mp hv with hv | hv
  · exact he v hv.symm hpos
  · exact h hpos v hv

theorem checks_of_none {r : Reader} {l : List Event} (h : ∀ v, Event.check v ∉ l) :
    Checks b r l := fun _ v hv => absurd hv (h v)

instance (reason : String) : Checked b (stop reason : Parser σ α) := ⟨checks_nil b⟩

instance (f : σ → σ) : Checked b (update f) := ⟨checks_nil b⟩

instance (a : α) : Checked b (pure a : Parser σ α) := ⟨checks_nil b⟩

instance (p : Parser Unit α) [Logged p] [h : Checked b p] : Checked b (lift p : Parser σ α) :=
  ⟨h.checks⟩

instance (c : Prop) [Decidable c] (p q : Parser σ α) [Logged p] [Logged q] [hp : Checked b p]
    [hq : Checked b q] : Checked b (if c then p else q) where
  checks r := by
    change Checks b r (if c then log p r else log q r)
    split_ifs
    · exact hp.checks r
    · exact hq.checks r

theorem Checked.next {p : Parser σ α} {f : α → Parser σ β} [Logged p] {_ : ∀ a, Logged (f a)}
    [hp : Checked b p] (hf : ∀ a, Checked b (f a)) : Checked b (p >>= f) where
  checks r := by
    refine Checks.append (hp.checks r) ?_ (p.forward r)
    unfold logAfter
    rcases (p.run r).1 with e | a
    · exact checks_nil b _
    · exact (hf a).checks _

instance (p : Parser σ α) (f : α → Parser σ β) [Logged p] [∀ a, Logged (f a)] [Checked b p]
    [hf : ∀ a, Checked b (f a)] : Checked b (p >>= f) := .next hf

instance (p : Parser σ α) [Logged p] [hp : Checked b p] (n : Nat) : Checked b (loop p n) where
  checks r := by
    change Checks b r (loopLog p n r)
    induction n generalizing r with
    | zero => exact checks_nil b r
    | succ n ih =>
      unfold loopLog
      split_ifs
      · refine Checks.cons (Checks.append (hp.checks r) ?_ (p.forward r)) (by simp)
        rcases (p.run r).1 with e | a
        · exact checks_nil b _
        · exact (ih _).cons (by simp)
      · exact checks_nil b r

instance (p : Parser σ α) [Logged p] [hp : Checked b p] (put : α → σ → σ) (n : Nat) :
    Checked b (records p put n) where
  checks r := by
    change Checks b r (recordsLog p n r)
    induction n generalizing r with
    | zero => exact checks_nil b r
    | succ n ih =>
      unfold recordsLog
      by_cases hok : r.ok = true
      · rw [if_pos hok]
        refine Checks.cons (Checks.append (hp.checks r) ?_ (p.forward r)) (by simp)
        rcases (p.run r).1 with e | a
        · exact checks_nil b _
        · dsimp only
          split_ifs
          · exact (ih _).cons (by simp)
          · exact checks_nil b _
      · rw [if_neg hok]
        exact checks_nil b r

variable [NeZero b]

theorem checks_word (n : Nat) (r : Reader) : Checks b r (Reader.wordLog n r) := by
  have hb : 0 < b := Nat.pos_of_ne_zero (NeZero.ne b)
  induction n generalizing r with
  | zero => exact checks_nil b r
  | succ n ih =>
    unfold Reader.wordLog
    refine Checks.cons ?_ ?_
    · split_ifs with hlen
      · exact Checks.append (l := [.read r.pos]) (checks_of_none (by simp)) (ih _)
          (Reader.forward_advance hlen)
      · exact checks_of_none (by simp)
    · intro v hv hpos
      cases hv
      omega

instance : Checked b (u8 : Parser σ UInt8) := ⟨checks_word 1⟩

instance : Checked b (u32 : Parser σ UInt32) := ⟨checks_word 4⟩

instance : Checked b (u64 : Parser σ UInt64) := ⟨checks_word 8⟩

instance : Checked b (str b : Parser σ (List UInt8)) where
  checks r := by
    refine Checks.append (checks_word 8 r) ?_ (Reader.word_forward 8 0 0 r)
    split_ifs with h₁ h₂
    · exact checks_of_none (by simp)
    · refine Checks.cons (checks_of_none (by simp)) ?_
      intro v hv _
      cases hv
      exact Nat.le_trans h₂ (Nat.le_add_right ..)
    · refine Checks.cons (checks_of_none (by simp)) ?_
      intro v hv hpos
      cases hv
      -- the length of the string was compared with its bound first
      have hlen : r.u64.1.toNat ≤ b := by
        by_contra hlong
        exact h₁ (by simp [Nat.not_le.mp hlong])
      exact Nat.add_le_add hpos hlen

instance (reason : String) (bound : Nat) (p : Parser σ α) [Logged p] [Checked b p] :
    Checked b (list reason bound p) := by
  delta list
  infer_instance

instance (reason : String) (bound : Nat) (p : Parser σ α) [Logged p] [Checked b p]
    (put : α → σ → σ) : Checked b (counted reason bound p put) := by
  delta counted
  infer_instance

end Checked

structure Weight where
  round : Nat
  append : Nat
  store : Nat
  element : round + append ≤ 1
  record : round + store ≤ 2

namespace Weight

variable (w : Weight)

def event : Event → Nat
  | .round => w.round
  | .append => w.append
  | .store => w.store
  | _ => 0

def cost (events : List Event) : Nat := (events.map w.event).sum

@[simp] theorem cost_nil : w.cost [] = 0 := rfl
@[simp] theorem cost_cons (e : Event) (l : List Event) : w.cost (e :: l) = w.event e + w.cost l :=
  List.sum_cons
@[simp] theorem cost_append (l l' : List Event) : w.cost (l ++ l') = w.cost l + w.cost l' := by
  rw [cost, List.map_append, List.sum_append]
  rfl

end Weight

structure Account (w : Weight) (k s : Nat) (r r' : Reader) (events : List Event) : Prop where
  idle : r.ok = false → w.cost events = 0
  paid : r'.ok = true → r.pos + w.cost events + s ≤ r'.pos
  debt : r'.ok = false → r.pos + w.cost events ≤ r'.pos + k

class Thrifty (w : Weight) (k s : Nat) (p : Parser σ α) [Logged p] : Prop where
  account : ∀ r : Reader, Account w k s r (p.run r).2.1 (log p r)

section Account

variable {w : Weight} {k s : Nat} {r r₁ r₂ r₃ : Reader} {l l' : List Event}

theorem Account.of_flat (hflat : w.cost l = 0) (hf : r₁.Forward r₂)
    (hpass : r₂.ok = true → r₁.pos + s ≤ r₂.pos) : Account w k s r₁ r₂ l := by
  refine ⟨fun _ => hflat, ?_, ?_⟩
  · intro hok
    rw [hflat]
    exact hpass hok
  · intro _
    have hpos := hf.pos
    rw [hflat]
    omega

theorem Account.nil (r : Reader) : Account w k 0 r r [] :=
  .of_flat rfl (.refl r) fun _ => Nat.le_refl _

theorem Account.mono {s' : Nat} (h : Account w k s r₁ r₂ l) (hs : s' ≤ s) :
    Account w k s' r₁ r₂ l := by
  refine ⟨h.idle, ?_, h.debt⟩
  intro hok
  have hpaid := h.paid hok
  omega

theorem Account.append (h : Account w k s r₁ r₂ l) (h' : Account w k 0 r₂ r₃ l')
    (hf : r₁.Forward r₂) (hf' : r₂.Forward r₃) : Account w k s r₁ r₃ (l ++ l') := by
  have hpos := hf'.pos
  have hback : r₂.ok = true → r₁.ok = true := hf.ok
  have hback' : r₃.ok = true → r₂.ok = true := hf'.ok
  refine ⟨?_, ?_, ?_⟩
  · intro hbad
    have hbad' : r₂.ok = false := by
      rw [← Bool.not_eq_true] at hbad ⊢
      exact fun hok => hbad (hback hok)
    rw [Weight.cost_append, h.idle hbad, h'.idle hbad']
  · intro hok
    have hfirst := h.paid (hback' hok)
    have hsecond := h'.paid hok
    rw [Weight.cost_append]
    omega
  · intro hbad
    have hsecond := h'.debt hbad
    rw [Weight.cost_append]
    rcases hmid : r₂.ok with _ | _
    · have hfirst := h.debt hmid
      have hnone := h'.idle hmid
      omega
    · have hfirst := h.paid hmid
      omega

theorem Account.charge {c K : Nat} (h : Account w k s r₁ r₂ l) (hr : r₁.ok = true)
    (hcost : w.cost l' = w.cost l + c) (hs : c ≤ s) (hK : r₂.ok = false → k + c ≤ K) :
    Account w K 0 r₁ r₂ l' := by
  refine ⟨?_, ?_, ?_⟩
  · intro hbad
    rw [hr] at hbad
    cases hbad
  · intro hok
    have hpaid := h.paid hok
    omega
  · intro hbad
    have hdebt := h.debt hbad
    have hle := hK hbad
    omega

end Account

section Thrifty

variable {w : Weight} {k s : Nat}

theorem cost_wordLog (n : Nat) (r : Reader) : w.cost (Reader.wordLog n r) = 0 := by
  induction n generalizing r with
  | zero => rfl
  | succ n ih =>
    rw [Reader.wordLog, Weight.cost_cons]
    split_ifs
    · rw [Weight.cost_cons, ih]
      rfl
    · rfl

theorem cost_strLog (bound : Nat) (r : Reader) : w.cost (Reader.strLog bound r) = 0 := by
  have hreads : ∀ l : List Nat, w.cost (l.map .read) = 0 := by
    intro l
    induction l with
    | nil => rfl
    | cons i l ih =>
      rw [List.map_cons, Weight.cost_cons, ih]
      rfl
  unfold Reader.strLog
  dsimp only
  rw [Weight.cost_append, cost_wordLog]
  split_ifs
  · rfl
  · rw [Weight.cost_cons, hreads]
    rfl
  · rfl

theorem word_pass (n i v : Nat) (r : Reader) (h : (Reader.word n i v r).2.ok = true) :
    r.pos + n ≤ (Reader.word n i v r).2.pos := by
  induction n generalizing i v r with
  | zero => exact Nat.le_refl _
  | succ n ih =>
    unfold Reader.word at h ⊢
    split_ifs at h ⊢ with hlen
    have hrest := ih _ _ _ h
    dsimp only at hrest
    omega

theorem account_word (n : Nat) (hn : s ≤ n) (r : Reader) :
    Account w k s r (Reader.word n 0 0 r).2 (Reader.wordLog n r) := by
  refine .of_flat (cost_wordLog n r) (Reader.word_forward n 0 0 r) ?_
  intro hok
  exact Nat.le_trans (Nat.add_le_add_left hn _) (word_pass n 0 0 r hok)

instance : Thrifty w k 1 (u8 : Parser σ UInt8) where
  account r := by
    have h := account_word (w := w) (k := k) (s := 1) 1 (Nat.le_refl _) r
    rwa [← Reader.u8_cursor] at h

instance : Thrifty w k 2 (u32 : Parser σ UInt32) := ⟨account_word 4 (by decide)⟩

instance : Thrifty w k 2 (u64 : Parser σ UInt64) := ⟨account_word 8 (by decide)⟩

instance (bound : Nat) : Thrifty w k 2 (str bound : Parser σ (List UInt8)) where
  account r := by
    refine .of_flat (cost_strLog bound r) (Reader.str_forward bound r) ?_
    intro hok
    have hword := word_pass 8 0 0 r
    change (r.str bound).2.ok = true at hok
    change r.pos + 2 ≤ (r.str bound).2.pos
    unfold Reader.str at hok ⊢
    dsimp only at hok ⊢
    split_ifs at hok ⊢ with h₁ h₂
    have hpos : r.pos + 8 ≤ r.u64.2.pos := hword hok
    dsimp only
    omega

instance (reason : String) : Thrifty w k 0 (stop reason : Parser σ α) := ⟨.nil⟩

instance (f : σ → σ) : Thrifty w k 0 (update f) := ⟨.nil⟩

instance (a : α) : Thrifty w k 0 (pure a : Parser σ α) := ⟨.nil⟩

instance (p : Parser Unit α) [Logged p] [h : Thrifty w k s p] :
    Thrifty w k s (lift p : Parser σ α) := ⟨h.account⟩

instance (priority := low) (p : Parser σ α) [Logged p] [h : Thrifty w k 2 p] : Thrifty w k 1 p :=
  ⟨fun r => (h.account r).mono (by decide)⟩

instance (priority := low) (p : Parser σ α) [Logged p] [h : Thrifty w k 1 p] : Thrifty w k 0 p :=
  ⟨fun r => (h.account r).mono (by decide)⟩

instance (c : Prop) [Decidable c] (p q : Parser σ α) [Logged p] [Logged q]
    [hp : Thrifty w k s p] [hq : Thrifty w k s q] : Thrifty w k s (if c then p else q) where
  account r := by
    change Account w k s r _ (if c then log p r else log q r)
    split_ifs
    · exact hp.account r
    · exact hq.account r

theorem Thrifty.next {p : Parser σ α} {f : α → Parser σ β} [Logged p] {_ : ∀ a, Logged (f a)}
    [hp : Thrifty w k s p] (hf : ∀ a, Thrifty w k 0 (f a)) : Thrifty w k s (p >>= f) where
  account r := by
    change Account w k s r _ (log p r ++ logAfter p f r)
    have hfirst := hp.account r
    rw [run_bind, logAfter]
    rcases (p.run r).1 with e | a
    · rw [List.append_nil]
      exact hfirst
    · exact hfirst.append ((hf a).account _) (p.forward r) ((f a).forward _)

instance (p : Parser σ α) (f : α → Parser σ β) [Logged p] [∀ a, Logged (f a)] [Thrifty w k s p]
    [hf : ∀ a, Thrifty w k 0 (f a)] : Thrifty w k s (p >>= f) := .next hf

instance (p : Parser σ α) [Logged p] [hp : Thrifty w 0 1 p] (n : Nat) :
    Thrifty w 1 0 (loop p n) where
  account r := by
    change Account w 1 0 r _ (loopLog p n r)
    have hone := w.element
    induction n generalizing r with
    | zero => exact .nil r
    | succ n ih =>
      rw [loop_cursor, loopLog]
      by_cases hok : r.ok = true
      · have hfirst := hp.account r
        rw [if_pos hok, if_pos hok]
        rcases (p.run r).1 with e | a
        · refine hfirst.charge hok (c := w.round) ?_ (by omega) (by omega)
          simp [Weight.event, Nat.add_comm]
        · have hround : Account w 1 0 r (p.run r).2.1 (.round :: (log p r ++ [.append])) := by
            refine hfirst.charge hok (c := w.round + w.append) ?_ hone (by omega)
            simp [Weight.event]
            omega
          have hall := hround.append (ih _) (p.forward r) ((loop p n).forward _)
          simpa only [List.cons_append, List.append_assoc, List.nil_append] using hall
      · rw [if_neg hok, if_neg hok]
        exact .nil r

instance (p : Parser σ α) [Logged p] [hp : Thrifty w 1 2 p] (put : α → σ → σ) (n : Nat) :
    Thrifty w (1 + w.round) 0 (records p put n) where
  account r := by
    change Account w (1 + w.round) 0 r _ (recordsLog p n r)
    have htwo := w.record
    induction n generalizing r with
    | zero => exact .nil r
    | succ n ih =>
      rw [records_cursor, recordsLog]
      by_cases hok : r.ok = true
      · have hfirst := hp.account r
        -- a record that is not stored is charged for the round only
        have hround : Account w (1 + w.round) 0 r (p.run r).2.1 (.round :: (log p r ++ [])) := by
          refine hfirst.charge hok (c := w.round) ?_ (by omega) fun _ => Nat.le_refl _
          simp [Weight.event, Nat.add_comm]
        rw [if_pos hok, if_pos hok]
        rcases (p.run r).1 with e | a
        · exact hround
        · rcases hnext : (p.run r).2.1.ok with _ | _
          · dsimp only
            rw [records_failed p put hnext, if_neg Bool.false_ne_true]
            exact hround
          · have hstored : Account w (1 + w.round) 0 r (p.run r).2.1
                (.round :: (log p r ++ [.store])) := by
              refine hfirst.charge hok (c := w.round + w.store) ?_ htwo ?_
              · simp [Weight.event]
                omega
              · intro hbad
                rw [hnext] at hbad
                cases hbad
            have hall := hstored.append (ih _) (p.forward r) ((records p put n).forward _)
            simpa only [if_true, List.cons_append, List.append_assoc, List.nil_append] using hall
      · rw [if_neg hok, if_neg hok]
        exact .nil r

instance (reason : String) (bound : Nat) (p : Parser σ α) [Logged p] [Thrifty w 0 1 p] :
    Thrifty w 1 2 (list reason bound p) := by
  delta list
  infer_instance

instance (reason : String) (bound : Nat) (p : Parser σ α) [Logged p] [Thrifty w 1 2 p]
    (put : α → σ → σ) : Thrifty w (1 + w.round) 2 (counted reason bound p put) := by
  delta counted
  infer_instance

end Thrifty

class Tallied (size : σ → Nat) (c : Nat) (p : Parser σ α) [Logged p] : Prop where
  grows : ∀ (r : Reader) (s : σ), size ((p.run r).2.2 s) ≤ size s + c * (log p r).count .store

section Tallied

variable {size : σ → Nat} {c : Nat}

theorem Tallied.of_id {p : Parser σ α} [Logged p] (h : ∀ r, (p.run r).2.2 = id) :
    Tallied size c p where
  grows r s := by
    rw [h]
    exact Nat.le_add_right ..

instance : Tallied size c (u32 : Parser σ UInt32) := .of_id fun _ => rfl

instance (reason : String) : Tallied size c (stop reason : Parser σ α) := .of_id fun _ => rfl

instance (a : α) : Tallied size c (pure a : Parser σ α) := .of_id fun _ => rfl

instance (p : Parser Unit α) [Logged p] : Tallied size c (lift p : Parser σ α) :=
  .of_id fun _ => rfl

theorem tallied_update {f : σ → σ} (h : ∀ s, size (f s) = size s) : Tallied size c (update f) where
  grows _ s := Nat.le_trans (Nat.le_of_eq (h s)) (Nat.le_add_right ..)

instance (b : Prop) [Decidable b] (p q : Parser σ α) [Logged p] [Logged q]
    [hp : Tallied size c p] [hq : Tallied size c q] : Tallied size c (if b then p else q) where
  grows r s := by
    change _ ≤ _ + c * (if b then log p r else log q r).count .store
    split_ifs
    · exact hp.grows r s
    · exact hq.grows r s

theorem Tallied.next {p : Parser σ α} {f : α → Parser σ β} [Logged p] {_ : ∀ a, Logged (f a)}
    (hp : Tallied size c p) (hf : ∀ a, Tallied size c (f a)) : Tallied size c (p >>= f) where
  grows r s := by
    have hfirst := hp.grows r s
    change _ ≤ _ + c * (log p r ++ logAfter p f r).count .store
    rw [run_bind, logAfter, List.count_append, Nat.mul_add]
    rcases (p.run r).1 with e | a
    · exact hfirst
    · have hsecond := (hf a).grows (p.run r).2.1 ((p.run r).2.2 s)
      dsimp only [Function.comp_apply]
      omega

theorem tallied_records {p : Parser σ α} [Logged p] {put : α → σ → σ}
    (hp : ∀ r, (p.run r).2.2 = id) (hput : ∀ a s, size (put a s) ≤ size s + c) (n : Nat) :
    Tallied size c (records p put n) where
  grows r s := by
    change _ ≤ _ + c * (recordsLog p n r).count .store
    induction n generalizing r s with
    | zero => exact Nat.le_add_right ..
    | succ n ih =>
      rw [records_update, recordsLog, hp]
      by_cases hok : r.ok = true
      · rw [if_pos hok, if_pos hok, List.count_cons_of_ne (by simp), List.count_append,
          Nat.mul_add]
        rcases (p.run r).1 with e | a
        · exact Nat.le_add_right ..
        · dsimp only
          split_ifs
          · have hstored := hput a s
            have hrest := ih (p.run r).2.1 (put a s)
            rw [List.count_cons_self, Nat.mul_add]
            dsimp only [Function.comp_apply, id]
            omega
          · exact Nat.le_add_right ..
      · rw [if_neg hok, if_neg hok]
        exact Nat.le_add_right ..

theorem tallied_counted {p : Parser Unit α} [Logged p] {put : α → σ → σ}
    (hput : ∀ a s, size (put a s) ≤ size s + c) (reason : String) (bound : Nat) :
    Tallied size c (counted reason bound (lift p) put) := by
  have hrecords := tallied_records (p := lift p) (fun _ => rfl) hput
  delta counted
  exact .next inferInstance fun _ => inferInstance

end Tallied

def Yields (weigh : α → Nat) (p : Parser σ α) [Logged p] : Prop :=
  ∀ r a, (p.run r).1 = .ok a → weigh a ≤ (log p r).count .append

theorem Yields.next {weigh : β → Nat} {p : Parser σ α} {f : α → Parser σ β} [Logged p]
    {_ : ∀ a, Logged (f a)} (hf : ∀ a, Yields weigh (f a)) : Yields weigh (p >>= f) := by
  intro r b hb
  obtain ⟨a, ha, hrest⟩ := bind_result hb
  change _ ≤ (log p r ++ logAfter p f r).count .append
  rw [List.count_append, logAfter, ha]
  exact Nat.le_trans (hf a _ b hrest) (Nat.le_add_left ..)

theorem Yields.last {weigh : α → Nat} {weigh' : β → Nat} {p : Parser σ α} {g : α → β} [Logged p]
    (h : Yields weigh p) (hg : ∀ a, weigh' (g a) ≤ weigh a) :
    Yields weigh' (p >>= fun a => pure (g a)) := by
  intro r b hb
  obtain ⟨a, ha, hpure⟩ := bind_result hb
  obtain rfl : g a = b := Except.ok.inj hpure
  change _ ≤ (log p r ++ logAfter p (fun a => pure (g a)) r).count .append
  rw [List.count_append]
  exact Nat.le_trans (hg a) (Nat.le_trans (h r a ha) (Nat.le_add_right ..))

theorem yields_loop (p : Parser σ α) [Logged p] (n : Nat) : Yields List.length (loop p n) := by
  intro r as has
  change _ ≤ (loopLog p n r).count .append
  induction n generalizing r as with
  | zero =>
    cases has
    exact Nat.zero_le _
  | succ n ih =>
    rw [loop, run_whenOk] at has
    rw [loopLog]
    by_cases hok : r.ok = true
    · rw [if_pos hok] at has ⊢
      obtain ⟨a, ha, hrest⟩ := bind_result has
      obtain ⟨bs, hbs, hpure⟩ := bind_result hrest
      obtain rfl : a :: bs = as := Except.ok.inj hpure
      have hle := ih _ _ hbs
      rw [List.count_cons_of_ne (by simp), List.count_append, ha, List.count_cons_self,
        List.length_cons]
      omega
    · rw [if_neg hok] at has
      cases has
      exact Nat.zero_le _

end Parser
end ByteFormat
