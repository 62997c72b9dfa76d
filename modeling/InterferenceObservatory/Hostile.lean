import InterferenceObservatory.Messages
import InterferenceObservatory.Lib.Trace

/-! What bytes can make the readers do, whatever they declare. The counts in a payload or a
message bound the loops, but each round passes a byte or ends the reading, so the bytes alone
bound what is read, looped over and appended. -/

namespace Iobs
open ByteFormat ByteFormat.Parser

instance : NeZero Reader.kStringBound := ⟨by decide⟩

instance : NeZero kMaxFrame := ⟨by decide⟩

section Fields

variable {σ E : Type} [ByteEnum E] {tag : IdTag} {w : Weight} {k b : Nat} [NeZero b]

instance : Logged (Reader.ident : Parser σ (Id tag)) := by delta Reader.ident; infer_instance
instance : Logged (Reader.i64 : Parser σ Int64) := by delta Reader.i64; infer_instance
instance : Logged (Reader.f64 : Parser σ Double) := by delta Reader.f64; infer_instance
instance : Logged (Reader.flag : Parser σ Bool) := by delta Reader.flag; infer_instance
instance : Logged (Reader.str : Parser σ ByteString) := by delta Reader.str; infer_instance
instance : Logged (Reader.en : Parser σ E) := by delta Reader.en; infer_instance

instance : Thrifty w k 2 (Reader.ident : Parser σ (Id tag)) := by
  delta Reader.ident; infer_instance
instance : Thrifty w k 2 (Reader.i64 : Parser σ Int64) := by delta Reader.i64; infer_instance
instance : Thrifty w k 2 (Reader.f64 : Parser σ Double) := by delta Reader.f64; infer_instance
instance : Thrifty w k 1 (Reader.flag : Parser σ Bool) := by delta Reader.flag; infer_instance
instance : Thrifty w k 2 (Reader.str : Parser σ ByteString) := by delta Reader.str; infer_instance
instance : Thrifty w k 1 (Reader.en : Parser σ E) := by delta Reader.en; infer_instance

instance : Checked b (Reader.ident : Parser σ (Id tag)) := by delta Reader.ident; infer_instance
instance : Checked b (Reader.i64 : Parser σ Int64) := by delta Reader.i64; infer_instance
instance : Checked b (Reader.f64 : Parser σ Double) := by delta Reader.f64; infer_instance
instance : Checked b (Reader.flag : Parser σ Bool) := by delta Reader.flag; infer_instance
instance : Checked Reader.kStringBound (Reader.str : Parser σ ByteString) := by
  delta Reader.str; infer_instance
instance : Checked b (Reader.en : Parser σ E) := by delta Reader.en; infer_instance

end Fields

section Records

variable {w : Weight} {k : Nat}

instance : Logged source := by delta source; infer_instance
instance : Logged worker := by delta worker; infer_instance
instance : Logged workload := by delta workload; infer_instance
instance : Logged baseline := by delta baseline; infer_instance
instance : Logged observation := by delta observation; infer_instance
instance : Logged delta := by delta Iobs.delta; infer_instance
instance : Logged evidence := by delta evidence; infer_instance
instance : Logged episode := by delta episode; infer_instance
instance : Logged comparison := by delta comparison; infer_instance
instance : Logged recovery := by delta recovery; infer_instance

instance : Thrifty w k 2 source := by
  delta source
  repeat refine .next fun _ => ?_
  infer_instance
instance : Thrifty w k 2 worker := by
  delta worker
  repeat refine .next fun _ => ?_
  infer_instance
instance : Thrifty w k 2 workload := by
  delta workload
  repeat refine .next fun _ => ?_
  infer_instance
instance : Thrifty w k 2 baseline := by
  delta baseline
  repeat refine .next fun _ => ?_
  infer_instance
instance : Thrifty w 1 2 observation := by
  delta observation
  repeat refine .next fun _ => ?_
  infer_instance
instance : Thrifty w k 1 delta := by
  delta Iobs.delta
  repeat refine .next fun _ => ?_
  infer_instance
instance : Thrifty w k 2 evidence := by
  delta evidence
  repeat refine .next fun _ => ?_
  infer_instance
instance : Thrifty w 1 2 episode := by
  delta episode
  repeat refine .next fun _ => ?_
  infer_instance
instance : Thrifty w 1 2 comparison := by
  delta comparison
  repeat refine .next fun _ => ?_
  infer_instance
instance : Thrifty w k 2 recovery := by
  delta recovery
  repeat refine .next fun _ => ?_
  infer_instance

instance : Checked Reader.kStringBound source := by
  delta source
  repeat refine .next fun _ => ?_
  infer_instance
instance : Checked Reader.kStringBound worker := by
  delta worker
  repeat refine .next fun _ => ?_
  infer_instance
instance : Checked Reader.kStringBound workload := by
  delta workload
  repeat refine .next fun _ => ?_
  infer_instance
instance : Checked Reader.kStringBound baseline := by
  delta baseline
  repeat refine .next fun _ => ?_
  infer_instance
instance : Checked Reader.kStringBound observation := by
  delta observation
  repeat refine .next fun _ => ?_
  infer_instance
instance : Checked Reader.kStringBound delta := by
  delta Iobs.delta
  repeat refine .next fun _ => ?_
  infer_instance
instance : Checked Reader.kStringBound evidence := by
  delta evidence
  repeat refine .next fun _ => ?_
  infer_instance
instance : Checked Reader.kStringBound episode := by
  delta episode
  repeat refine .next fun _ => ?_
  infer_instance
instance : Checked Reader.kStringBound comparison := by
  delta comparison
  repeat refine .next fun _ => ?_
  infer_instance
instance : Checked Reader.kStringBound recovery := by
  delta recovery
  repeat refine .next fun _ => ?_
  infer_instance

end Records

section Readers

variable {σ : Type} (sink : Sink σ) (o : Observation Double) {w : Weight}

instance : Logged (sections sink) := by
  delta sections
  repeat refine .next fun _ => ?_
  infer_instance
instance : Logged (body sink) := by delta body; infer_instance
instance : Logged peers := by delta peers; infer_instance
instance : Logged (observationMessage o) := by delta observationMessage; infer_instance

instance : Thrifty w (1 + w.round) 0 (sections sink) := by
  delta sections
  repeat refine .next fun _ => ?_
  infer_instance
instance : Thrifty w (1 + w.round) 0 (body sink) := by
  delta body
  repeat refine .next fun _ => ?_
  infer_instance
instance : Thrifty w 1 0 peers := by
  delta peers
  repeat refine .next fun _ => ?_
  infer_instance
instance : Thrifty w 1 0 (observationMessage o) := by
  delta observationMessage
  repeat refine .next fun _ => ?_
  infer_instance

instance : Checked Reader.kStringBound (sections sink) := by
  delta sections
  repeat refine .next fun _ => ?_
  infer_instance
instance : Checked Reader.kStringBound (body sink) := by
  delta body
  repeat refine .next fun _ => ?_
  infer_instance
instance : Checked kMaxFrame peers := by
  delta peers
  repeat refine .next fun _ => ?_
  infer_instance
instance : Checked kMaxFrame (observationMessage o) := by
  delta observationMessage
  repeat refine .next fun _ => ?_
  infer_instance

end Readers

def deserializeLog (payload : List UInt8) : List Event :=
  match payload with
  | [] => []
  | version :: _ =>
    log (u8 : Parser (Impl Double) UInt8) ⟨payload, 0, true⟩ ++
      if version ≠ 1 then [] else log (body Impl.sink) ⟨payload, 1, true⟩

def decodeLog (p : List UInt8) (o : Observation Double) : List Event :=
  log (observationMessage o) ⟨p, 0, true⟩

/-- The bytes bound what is done with them. No byte is read past the end, and no sum compared
with the length comes near to wrapping around. There are at most two rounds of loops more than
bytes, and at most one appended element or stored record more, even if a record counts twice,
as one that goes into two containers. A read that fails is never made up for. -/
structure Contained (bytes : List UInt8) (events : List Event) (accepted : Prop) : Prop where
  inside : ∀ i, .read i ∈ events → i < bytes.length
  unwrapped : ∀ v, .check v ∈ events → v ≤ bytes.length + 16 * 1024 * 1024
  rounds : events.count .round ≤ bytes.length + 2
  appended : events.count .append + 2 * events.count .store ≤ bytes.length + 1
  failed : .fail ∈ events → ¬ accepted

def countRounds : Weight := ⟨1, 0, 0, by decide, by decide⟩

def countAppended : Weight := ⟨0, 1, 2, by decide, by decide⟩

theorem cost_countRounds (l : List Event) : countRounds.cost l = l.count .round := by
  induction l with
  | nil => rfl
  | cons e l ih =>
    rw [Weight.cost_cons, ih, List.count_cons]
    cases e <;> simp [Weight.event, countRounds, Nat.add_comm]

theorem cost_countAppended (l : List Event) :
    countAppended.cost l = l.count .append + 2 * l.count .store := by
  induction l with
  | nil => rfl
  | cons e l ih =>
    rw [Weight.cost_cons, ih, List.count_cons, List.count_cons]
    cases e <;> simp [Weight.event, countAppended] <;> omega

theorem contained_log {σ α : Type} {p : Parser σ α} [Logged p] {k : Weight → Nat}
    {bytes : List UInt8} {accepted : Prop} (hk : ∀ w, k w ≤ 1 + w.round)
    (hthrifty : ∀ w, Thrifty w (k w) 0 p) (hchecked : Checked (16 * 1024 * 1024) p)
    (haccepted : accepted → (p.run ⟨bytes, 0, true⟩).2.1.ok = true) :
    Contained bytes (log p ⟨bytes, 0, true⟩) accepted := by
  have hforward := p.forward ⟨bytes, 0, true⟩
  have hrecords := Logged.records (p := p) ⟨bytes, 0, true⟩
  have hend : (p.run ⟨bytes, 0, true⟩).2.1.pos ≤ bytes.length := hforward.bound (Nat.zero_le _)
  have hcost : ∀ w : Weight, w.cost (log p ⟨bytes, 0, true⟩) ≤ bytes.length + 1 + w.round := by
    intro w
    have haccount := (hthrifty w).account ⟨bytes, 0, true⟩
    have hle := hk w
    rcases hok : (p.run ⟨bytes, 0, true⟩).2.1.ok with _ | _
    · have hdebt := haccount.debt hok
      dsimp only at hdebt
      omega
    · have hpaid := haccount.paid hok
      dsimp only at hpaid
      omega
  refine ⟨?_, ?_, ?_, ?_, ?_⟩
  · intro i hi
    have hmem : i ∈ readsOf (log p ⟨bytes, 0, true⟩) := List.mem_filterMap.mpr ⟨_, hi, rfl⟩
    rw [log, hrecords.reads, List.mem_range'_1] at hmem
    dsimp only at hmem
    omega
  · exact hchecked.checks ⟨bytes, 0, true⟩ (Nat.zero_le _)
  · rw [← cost_countRounds]
    exact hcost countRounds
  · rw [← cost_countAppended]
    exact hcost countAppended
  · intro hfail hacc
    exact (hrecords.ok.mp (haccepted hacc)).2 hfail

theorem readBody_ok {σ : Type} {sink : Sink σ} {payload : List UInt8}
    (h : (readBody sink payload).1 = .ok ()) :
    ((body sink).run ⟨payload, 1, true⟩).2.1.ok = true := by
  unfold readBody at h
  dsimp only at h
  rcases hrun : ((body sink).run ⟨payload, 1, true⟩).1 with e | ⟨⟩
  · rw [hrun] at h
    cases h
  · rw [hrun] at h
    dsimp only at h
    split_ifs at h with hok
    exact hok

def versioned : Parser (Impl Double) Unit := u8 >>= fun _ => body Impl.sink

instance : Logged versioned := .next fun _ => inferInstance
instance {w : Weight} : Thrifty w (1 + w.round) 0 versioned := .next fun _ => inferInstance
instance : Checked Reader.kStringBound versioned := .next fun _ => inferInstance

theorem deserializeLog_contained (st : Impl Double) (bytes : List UInt8) :
    Contained bytes (deserializeLog bytes) ((deserializeState st bytes).1 = .ok ()) := by
  rcases bytes with _ | ⟨version, rest⟩
  · refine ⟨?_, ?_, ?_, ?_, ?_⟩ <;> simp [deserializeLog]
  · by_cases hversion : version = 1
    · -- the version and the body in one parser
      have hu8 : (u8 : Parser (Impl Double) UInt8).run ⟨version :: rest, 0, true⟩ =
          (.ok version, ⟨version :: rest, 1, true⟩, id) := by
        have hread : (Reader.mk (version :: rest) 0 true).u8 =
            (version, ⟨version :: rest, 1, true⟩) := ByteFormat.Reader.u8_rest rfl
        change (Except.ok (Reader.mk (version :: rest) 0 true).u8.1, _, _) = _
        rw [hread]
      have hlog : deserializeLog (version :: rest) =
          log versioned ⟨version :: rest, 0, true⟩ := by
        change _ = log u8 _ ++ logAfter u8 (fun _ => body Impl.sink) _
        rw [deserializeLog, if_neg (not_not.mpr hversion), logAfter, hu8]
      have hcursor : (versioned.run ⟨version :: rest, 0, true⟩).2.1 =
          ((body Impl.sink).run ⟨version :: rest, 1, true⟩).2.1 := by
        rw [versioned, run_bind, hu8]
      rw [hlog]
      refine contained_log (k := fun w => 1 + w.round) (fun w => Nat.le_refl _) inferInstance
        (inferInstanceAs (Checked Reader.kStringBound versioned)) ?_
      intro haccepted
      rw [hcursor]
      rw [deserializeState, if_neg (not_not.mpr hversion)] at haccepted
      dsimp only at haccepted
      exact readBody_ok haccepted
    · have hlog : deserializeLog (version :: rest) =
          log (u8 : Parser (Impl Double) UInt8) ⟨version :: rest, 0, true⟩ := by
        rw [deserializeLog, if_pos hversion, List.append_nil]
      rw [hlog]
      refine contained_log (k := fun _ => 0) (fun w => Nat.zero_le _) inferInstance inferInstance ?_
      intro haccepted
      rw [deserializeState, if_pos hversion] at haccepted
      cases haccepted

theorem decodeLog_contained (o : Observation Double) (bytes : List UInt8) :
    Contained bytes (decodeLog bytes o) ((decodeObservation bytes o).1 = true) := by
  refine contained_log (k := fun _ => 1) (fun w => Nat.le_add_right 1 _) inferInstance
    (inferInstanceAs (Checked kMaxFrame _)) ?_
  intro haccepted
  unfold decodeObservation at haccepted
  rcases hrun : (observationMessage o).run ⟨bytes, 0, true⟩ with ⟨e | o', r, g⟩
  · rw [hrun] at haccepted
    cases haccepted
  · rw [hrun] at haccepted
    exact (Bool.and_eq_true _ _ ▸ haccepted).1

namespace Impl

def entries (st : Impl Double) : Nat :=
  st.sources.size + st.workers.size + st.workloads.size + st.baselines.size +
    st.observations.size + st.episodes.size + st.comparisons.size + st.matrix.size +
    st.recoveries.size

theorem entries_clear (st : Impl Double) : st.clear.entries ≤ st.entries := by
  have hclear : st.clear.entries = st.matrix.size := by simp [entries, clear]
  rw [hclear, entries]
  omega

theorem tallied_sections : Tallied entries 2 (sections sink) := by
  refine .next (tallied_counted ?_ _ _) fun _ => .next (tallied_counted ?_ _ _) fun _ =>
    .next (tallied_counted ?_ _ _) fun _ => .next (tallied_counted ?_ _ _) fun _ =>
    .next (tallied_counted ?_ _ _) fun _ => .next (tallied_counted ?_ _ _) fun _ =>
    .next (tallied_counted ?_ _ _) fun _ => .next (tallied_counted ?_ _ _) fun _ => inferInstance
  · intro e st
    have hle := st.sources.size_insertIfNew_le (k := e.1) (v := e.2)
    dsimp only [entries, sink]
    omega
  · intro e st
    have hle := st.workers.size_insertIfNew_le (k := e.1) (v := e.2)
    dsimp only [entries, sink]
    omega
  · intro w st
    have hle := st.workloads.size_emplace_le w
    dsimp only [entries, sink]
    omega
  · intro b st
    have hle := st.baselines.size_emplace_le b
    dsimp only [entries, sink]
    omega
  · intro o st
    have hle := st.observations.size_emplace_le o
    dsimp only [entries, sink]
    omega
  · intro e st
    have hle := st.episodes.size_emplace_le e
    dsimp only [entries, sink]
    omega
  · intro e st
    have hle := st.comparisons.size_insertIfNew_le (k := e.1) (v := e.2)
    have hcell := st.matrix.size_insert_le (k := e.2.cellKey) (v := e.2)
    dsimp only [entries, sink]
    omega
  · intro k st
    have hle := st.recoveries.size_insert_le (k := k)
    dsimp only [entries, sink]
    omega

theorem tallied_body : Tallied entries 2 (body sink) :=
  .next inferInstance fun _ => .next inferInstance fun _ => .next inferInstance fun _ =>
    .next (tallied_update fun _ => rfl) fun _ => tallied_sections

end Impl

theorem deserializeState_entries (st : Impl Double) (bytes : List UInt8) :
    (deserializeState st bytes).2.entries ≤
      st.entries + 2 * (deserializeLog bytes).count .store := by
  rcases bytes with _ | ⟨version, rest⟩
  · exact Nat.le_add_right ..
  · unfold deserializeState deserializeLog
    dsimp only
    split_ifs
    · exact Nat.le_add_right ..
    · have hgrows := Impl.tallied_body.grows ⟨version :: rest, 1, true⟩ st.clear
      have hclear := st.entries_clear
      have hupdate : (readBody Impl.sink (version :: rest)).2 =
          ((body Impl.sink).run ⟨version :: rest, 1, true⟩).2.2 := by
        unfold readBody
        generalize (body Impl.sink).run ⟨version :: rest, 1, true⟩ = out
        rcases out with ⟨e | ⟨⟩, r, g⟩ <;> rfl
      simp only [hupdate, List.count_append]
      omega

theorem yields_peers : Yields List.length peers :=
  .next fun n => yields_loop Reader.ident n.toNat

theorem yields_message (o : Observation Double) :
    Yields (fun o' => o'.coRunPeers.length - o.coRunPeers.length) (observationMessage o) := by
  delta observationMessage
  -- the fields in front of the peers
  iterate 19 refine .next fun _ => ?_
  refine yields_peers.last ?_
  intro added
  dsimp only
  rw [List.length_append]
  omega

theorem decodeObservation_peers (o : Observation Double) (bytes : List UInt8) :
    (decodeObservation bytes o).2.coRunPeers.length ≤
      o.coRunPeers.length + (decodeLog bytes o).count .append := by
  have hyields := yields_message o ⟨bytes, 0, true⟩
  rw [← decodeLog] at hyields
  unfold decodeObservation
  generalize (observationMessage o).run ⟨bytes, 0, true⟩ = out at hyields ⊢
  rcases out with ⟨e | o', r, g⟩
  · exact Nat.le_add_right ..
  · have hle := hyields o' rfl
    dsimp only at hle ⊢
    omega

/-- Whatever bytes `deserialize_state` and `decode_observation` are given, and whatever counts
they declare, the number of the bytes bounds what is done with them, and nothing is held in the
end that was not counted. -/
theorem hostile_bytes_contained (bytes : List UInt8) :
    (∀ st, Contained bytes (deserializeLog bytes) ((deserializeState st bytes).1 = .ok ()) ∧
      (deserializeState st bytes).2.entries ≤
        st.entries + 2 * (deserializeLog bytes).count .store) ∧
    ∀ o, Contained bytes (decodeLog bytes o) ((decodeObservation bytes o).1 = true) ∧
      (decodeObservation bytes o).2.coRunPeers.length ≤
        o.coRunPeers.length + (decodeLog bytes o).count .append := by
  constructor
  · intro st
    exact ⟨deserializeLog_contained st bytes, deserializeState_entries st bytes⟩
  · intro o
    exact ⟨decodeLog_contained o bytes, decodeObservation_peers o bytes⟩

-- a payload that declares 65535 sources and ends there
example : (deserializeLog (1 :: List.replicate 24 0 ++ [0xFF, 0xFF, 0, 0])).count .round = 1 := by
  decide +kernel

end Iobs
