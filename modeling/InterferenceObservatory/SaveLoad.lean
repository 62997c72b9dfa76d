import InterferenceObservatory.StateRoundTrip
import InterferenceObservatory.Persist

/-! `save` and `load`, and what a load does to the state it is called on: it replaces
everything but the matrix, over which the comparisons of the file are written. -/

namespace Iobs
open ByteFormat ByteFormat.Parser Std

abbrev Files := String → Option (List UInt8)

def Files.write (fs : Files) (path : String) (bytes : List UInt8) : Files :=
  Function.update fs path (some bytes)

def Files.remove (fs : Files) (path : String) : Files := Function.update fs path none

/-- How the file system serves one call: which actions succeed, and how many bytes reach
the temporary file when writing fails. -/
structure Io where
  opens : Bool
  writes : Bool
  written : Nat
  renames : Bool

namespace Impl

/-- `save`: its status and the file systems after its actions, oldest first. -/
def save (st : Impl Double) (path : String) (io : Io) (fs : Files) : Status × List Files :=
  match Persist.encode (serializeState st) with
  | .error e => (e.status, [])
  | .ok encoded =>
    let tmp := path ++ ".tmp"
    if !io.opens then (.persistenceCorrupt, [])
    else
      let opened := fs.write tmp []
      if !io.writes then
        let cut := fs.write tmp (encoded.take io.written)
        (.persistenceCorrupt, [opened, cut, cut.remove tmp])
      else
        let full := fs.write tmp encoded
        if !io.renames then (.persistenceCorrupt, [opened, full, full.remove tmp])
        else (.ok, [opened, full, (full.remove tmp).write path encoded])

def saved (st : Impl Double) (path : String) (io : Io) (fs : Files) : Files :=
  ((st.save path io fs).2.getLast?).getD fs

/-- The payload in a file: none if the file is missing, empty or not an envelope. -/
def payloadOf (file : Option (List UInt8)) : Option (List UInt8) :=
  match file with
  | none => none
  | some bytes => if bytes.isEmpty then none else (Persist.decode bytes).toOption

def load (st : Impl Double) (file : Option (List UInt8)) : Status × Impl Double :=
  match payloadOf file with
  | none => (.persistenceCorrupt, st)
  | some payload =>
    match deserializeState st payload with
    | (.error _, st') => (.persistenceCorrupt, st')
    | (.ok (), st') => (.ok, st')

end Impl

section Sinks

variable {σ τ : Type}

structure Sink.Related (R : (σ → σ) → (τ → τ) → Prop) (s : Sink σ) (t : Sink τ) : Prop where
  source : ∀ e, R (s.source e) (t.source e)
  worker : ∀ e, R (s.worker e) (t.worker e)
  workload : ∀ w, R (s.workload w) (t.workload w)
  baseline : ∀ b, R (s.baseline b) (t.baseline b)
  observation : ∀ o, R (s.observation o) (t.observation o)
  episode : ∀ e, R (s.episode e) (t.episode e)
  comparison : ∀ e, R (s.comparison e) (t.comparison e)
  recovery : ∀ k, R (s.recovery k) (t.recovery k)

variable {R : (σ → σ) → (τ → τ) → Prop} {s : Sink σ} {t : Sink τ}

theorem sections_related (hR : Simulation R) (h : Sink.Related R s t) :
    Parser.Related R (sections s) (sections t) := by
  unfold sections
  refine .bind hR (related_counted hR _ _ _ h.source) fun _ => ?_
  refine .bind hR (related_counted hR _ _ _ h.worker) fun _ => ?_
  refine .bind hR (related_counted hR _ _ _ h.workload) fun _ => ?_
  refine .bind hR (related_counted hR _ _ _ h.baseline) fun _ => ?_
  refine .bind hR (related_counted hR _ _ _ h.observation) fun _ => ?_
  refine .bind hR (related_counted hR _ _ _ h.episode) fun _ => ?_
  refine .bind hR (related_counted hR _ _ _ h.comparison) fun _ => ?_
  exact .bind hR (related_counted hR _ _ _ h.recovery) fun _ => related_pure hR ()

theorem ident_run {tag : IdTag} (r : ByteFormat.Reader) :
    (lift Reader.ident : Parser σ (Id tag)).run r = (.ok ⟨r.u64.1⟩, r.u64.2, id) := rfl

theorem body_run (r : ByteFormat.Reader) : ∃ i g e r', ∀ {σ : Type} (s : Sink σ),
    (body s).run r = (((sections s).run r').1, ((sections s).run r').2.1,
      ((sections s).run r').2.2 ∘ s.header i g e) := by
  refine ⟨⟨r.u64.1⟩, ⟨r.u64.2.u64.1⟩, ⟨r.u64.2.u64.2.u64.1⟩, r.u64.2.u64.2.u64.2, ?_⟩
  intro σ s
  have hupdate (r' : ByteFormat.Reader) (u : σ → σ) : (update u).run r' = (.ok (), r', u) := rfl
  rw [body, bind_run (ident_run r), bind_run (ident_run _), bind_run (ident_run _),
    bind_run (hupdate _ _)]
  simp only [Function.comp_id]

theorem readBody_snd (s : Sink σ) (payload : List UInt8) :
    (readBody s payload).2 = ((body s).run ⟨payload, 1, true⟩).2.2 := by
  unfold readBody
  generalize (body s).run ⟨payload, 1, true⟩ = out
  obtain ⟨e | ⟨⟩, r, u⟩ := out <;> rfl

end Sinks

def nullSink : Sink Unit where
  header _ _ _ := id
  source _ := id
  worker _ := id
  workload _ := id
  baseline _ := id
  observation _ := id
  episode _ := id
  comparison _ := id
  recovery _ := id

def Accepted (payload : List UInt8) : Prop := (readBody nullSink payload).1 = .ok ()

theorem readBody_fst {σ : Type} (s : Sink σ) (payload : List UInt8) :
    (readBody s payload).1 = (readBody nullSink payload).1 := by
  have hR : Simulation fun (_ : σ → σ) (_ : Unit → Unit) => True := ⟨trivial, fun _ _ => trivial⟩
  have hnull : Sink.Related (fun _ _ => True) s nullSink := ⟨fun _ => trivial, fun _ => trivial,
    fun _ => trivial, fun _ => trivial, fun _ => trivial, fun _ => trivial, fun _ => trivial,
    fun _ => trivial⟩
  obtain ⟨i, g, e, r, hrun⟩ := body_run ⟨payload, 1, true⟩
  obtain ⟨h₁, h₂, -⟩ := sections_related hR hnull r
  unfold readBody
  dsimp only
  rw [hrun s, hrun nullSink, h₁, h₂]
  generalize ((sections nullSink).run r).1 = out
  obtain e | ⟨⟩ := out <;> rfl

def cellSink : Sink (List CellKey) where
  header _ _ _ := id
  source _ := id
  worker _ := id
  workload _ := id
  baseline _ := id
  observation _ := id
  episode _ := id
  comparison e cells := cells ++ [e.2.cellKey]
  recovery _ := id

def payloadCells (payload : List UInt8) : List CellKey := (readBody cellSink payload).2 []

def WritesCells (u : Impl Double → Impl Double) (v : List CellKey → List CellKey) : Prop :=
  ∃ l : List (CellKey × PairwiseInterference Double),
    (∀ (S : Impl Double) m, u { S with matrix := m } = { u S with matrix := overlay l m }) ∧
    ∀ cells, v cells = cells ++ l.map Prod.fst

theorem WritesCells.of_nothing {u : Impl Double → Impl Double}
    (h : ∀ (S : Impl Double) m, u { S with matrix := m } = { u S with matrix := m }) :
    WritesCells u id := ⟨[], h, fun _ => (List.append_nil _).symm⟩

theorem writesCells_simulation : Simulation WritesCells where
  id := .of_nothing fun _ _ => rfl
  comp := by
    rintro u u' v v' ⟨l, hu, hv⟩ ⟨l', hu', hv'⟩
    refine ⟨l ++ l', fun S m => ?_, fun cells => ?_⟩
    · rw [Function.comp_apply, hu, hu', overlay_append]
      rfl
    · rw [Function.comp_apply, hv, hv', List.map_append, List.append_assoc]

theorem sink_writesCells : Sink.Related WritesCells Impl.sink cellSink where
  source _ := .of_nothing fun _ _ => rfl
  worker _ := .of_nothing fun _ _ => rfl
  workload _ := .of_nothing fun _ _ => rfl
  baseline _ := .of_nothing fun _ _ => rfl
  observation _ := .of_nothing fun _ _ => rfl
  episode _ := .of_nothing fun _ _ => rfl
  comparison e := ⟨[(e.2.cellKey, e.2)], fun _ _ => rfl, fun _ => rfl⟩
  recovery _ := .of_nothing fun _ _ => rfl

theorem readBody_uniform (payload : List UInt8) : ∃ (st₀ : Impl Double)
    (l : List (CellKey × PairwiseInterference Double)), l.map Prod.fst = payloadCells payload ∧
    ∀ S : Impl Double, (readBody Impl.sink payload).2 S.clear =
      { st₀ with matrix := overlay l S.matrix } := by
  -- after the header the state before the load survives in the matrix only
  obtain ⟨i, g, e, r, hrun⟩ := body_run ⟨payload, 1, true⟩
  obtain ⟨-, -, l, hl, hcells⟩ := sections_related writesCells_simulation sink_writesCells r
  refine ⟨((sections Impl.sink).run r).2.2 { Impl.fresh i g with epoch := e }, l, ?_, fun S => ?_⟩
  · have hc : (readBody cellSink payload).2 =
        ((sections cellSink).run r).2.2 ∘ cellSink.header i g e := by
      rw [readBody_snd, hrun]
    rw [payloadCells, hc]
    exact (hcells []).symm
  · have hs : (readBody Impl.sink payload).2 =
        ((sections Impl.sink).run r).2.2 ∘ Impl.sink.header i g e := by
      rw [readBody_snd, hrun]
    rw [hs]
    exact hl { Impl.fresh i g with epoch := e } S.matrix

namespace Impl

theorem load_refused {file : Option (List UInt8)}
    (h : ∀ payload, payloadOf file = some payload → payload.head? ≠ some 1) (S : Impl Double) :
    S.load file = (.persistenceCorrupt, S) := by
  unfold load
  rcases hp : payloadOf file with _ | payload
  · rfl
  · rcases payload with _ | ⟨v, rest⟩
    · rfl
    · have hv : v ≠ 1 := by
        intro hv
        exact h _ hp (by rw [hv]; rfl)
      dsimp only
      rw [deserializeState, if_pos hv]

theorem load_uniform {file : Option (List UInt8)} {payload : List UInt8}
    (hp : payloadOf file = some payload) (hv : payload.head? = some 1) :
    ∃ (status : Status) (st₀ : Impl Double) (l : List (CellKey × PairwiseInterference Double)),
      (status = .ok ↔ Accepted payload) ∧ l.map Prod.fst = payloadCells payload ∧
      ∀ S : Impl Double, S.load file = (status, { st₀ with matrix := overlay l S.matrix }) := by
  obtain ⟨rest, rfl⟩ : ∃ rest, payload = 1 :: rest := by
    rcases payload with _ | ⟨v, rest⟩
    · cases hv
    · exact ⟨rest, by rw [Option.some.inj hv]⟩
  obtain ⟨st₀, l, hl, hS⟩ := readBody_uniform (1 :: rest)
  have hfst := readBody_fst Impl.sink (1 :: rest)
  unfold Accepted load
  rw [hp, ← hfst]
  rcases hout : (readBody Impl.sink (1 :: rest)).1 with reason | ⟨⟩
  · refine ⟨.persistenceCorrupt, st₀, l, by simp, hl, fun S => ?_⟩
    dsimp only
    rw [deserializeState_version, hout, hS]
  · refine ⟨.ok, st₀, l, by simp, hl, fun S => ?_⟩
    dsimp only
    rw [deserializeState_version, hout, hS]

theorem payloadOf_encode {payload encoded : List UInt8} (h : Persist.encode payload = .ok encoded) :
    payloadOf (some encoded) = some payload := by
  have hdec := Persist.decode_encode h
  have hne : encoded.isEmpty = false := by
    rw [List.isEmpty_eq_false_iff]
    rintro rfl
    cases hdec
  rw [payloadOf, hne, hdec]
  rfl

theorem saved_ok {st : Impl Double} {path : String} {io : Io} {fs : Files}
    (h : (st.save path io fs).1 = .ok) :
    ∃ encoded, Persist.encode (serializeState st) = .ok encoded ∧
      st.saved path io fs path = some encoded := by
  unfold saved
  unfold save at h ⊢
  rcases henc : Persist.encode (serializeState st) with e | encoded
  · rw [henc] at h
    unfold Persist.encode at henc
    split_ifs at henc
    obtain rfl := Except.error.inj henc
    cases h
  · rw [henc] at h
    refine ⟨encoded, rfl, ?_⟩
    dsimp only at h ⊢
    split_ifs at h ⊢
    exact Function.update_self ..

theorem load_encoded {st : Impl Double} {encoded : List UInt8} (hfit : st.Fits)
    (henc : Persist.encode (serializeState st) = .ok encoded) (S : Impl Double) :
    S.load (some encoded) =
      (.ok, { st with matrix := overlay (replayedCells st) S.matrix }) := by
  unfold load
  rw [payloadOf_encode henc]
  dsimp only
  rw [deserializeState_serializeState hfit]

theorem load_saved {st : Impl Double} {path : String} {io : Io} {fs : Files}
    (h : (st.save path io fs).1 = .ok) (hfit : st.Fits) (S : Impl Double) :
    S.load (st.saved path io fs path) =
      (.ok, { st with matrix := overlay (replayedCells st) S.matrix }) := by
  obtain ⟨encoded, henc, hfile⟩ := saved_ok h
  rw [hfile]
  exact load_encoded hfit henc S

theorem load_encoded_status {st : Impl Double} {encoded : List UInt8}
    (henc : Persist.encode (serializeState st) = .ok encoded) (S : Impl Double) :
    (S.load (some encoded)).1 = .ok ↔ st.Fits := by
  constructor
  · intro hok
    by_contra hfit
    have hlen : (serializeState st).length < 2 ^ 32 := by
      unfold Persist.encode at henc
      split_ifs at henc with hlen
      exact Nat.lt_of_le_of_lt (Nat.not_lt.mp hlen) (by decide)
    obtain ⟨status, st₀, l, hstatus, -, hload⟩ := load_uniform (payloadOf_encode henc) rfl
    rw [hload] at hok
    exact readBody_serializeState_fails nullSink hfit hlen (hstatus.mp hok)
  · intro hfit
    rw [load_encoded hfit henc]

theorem fits_fresh (id : ObservatoryId) (generation : ObservatoryGeneration) :
    (Impl.fresh id generation).Fits := by
  have hnil {α : Type} (fits : α → Prop) : ListFits fits [] := ⟨Nat.zero_le _, by simp⟩
  exact ⟨hnil _, hnil _, hnil _, hnil _, hnil _, hnil _, hnil _, hnil _⟩

end Impl

inductive Call where
  | op (op : Op Double)
  | load (file : Option (List UInt8))

def call (st : Impl Double) : Call → Option (Impl Double)
  | .op op => step st op
  | .load file => some (st.load file).2

def Reachable (st : Impl Double) : Prop :=
  ∃ id generation hist, Runs.Run call (fun _ _ => True) (Impl.fresh id generation) hist st

end Iobs
