import InterferenceObservatory.SaveLoad

/-! Saving and loading: within the bounds of the reader everything but the matrix comes
back, and a saved state is readable exactly if it is within those bounds. -/

namespace Iobs
open ByteFormat Std Impl

structure Restored (st st' : Impl Double) : Prop where
  id : st'.id = st.id
  generation : st'.generation = st.generation
  epoch : st'.epoch = st.epoch
  sources : st'.sources = st.sources
  workers : st'.workers = st.workers
  workloads : st'.workloads = st.workloads
  baselines : st'.baselines = st.baselines
  observations : st'.observations = st.observations
  episodes : st'.episodes = st.episodes
  comparisons : st'.comparisons = st.comparisons
  recoveries : st'.recoveries = st.recoveries

theorem Restored.serializeState_eq {st st' : Impl Double} (h : Restored st st') :
    serializeState st' = serializeState st := by
  unfold serializeState bodyBytes sectionBytes
  rw [h.id, h.generation, h.epoch, h.sources, h.workers, h.workloads, h.baselines, h.observations,
    h.episodes, h.comparisons, h.recoveries]

/-- A state within the bounds of the reader is restored from its payload, directly and
through the envelope. -/
theorem deserialize_restores {st : Impl Double} (h : st.Fits) (id : ObservatoryId)
    (generation : ObservatoryGeneration) :
    ∃ st', deserializeState (Impl.fresh id generation) (serializeState st) = (.ok (), st') ∧
      Restored st st' ∧ serializeState st' = serializeState st ∧
      canonicalDigest st' = canonicalDigest st ∧
      ((serializeState st).length ≤ Persist.kMaxPayload → ∃ encoded payload,
        Persist.encode (serializeState st) = .ok encoded ∧ Persist.decode encoded = .ok payload ∧
        deserializeState (Impl.fresh id generation) payload = (.ok (), st')) := by
  have hload := deserializeState_serializeState h (Impl.fresh id generation)
  have hrest : Restored st
      { st with matrix := overlay (replayedCells st) (Impl.fresh id generation).matrix } :=
    ⟨rfl, rfl, rfl, rfl, rfl, rfl, rfl, rfl, rfl, rfl, rfl⟩
  refine ⟨_, hload, hrest, hrest.serializeState_eq, ?_, fun hlen => ?_⟩
  · rw [canonicalDigest, hrest.serializeState_eq, canonicalDigest]
  · have henc := Persist.encode_ok hlen
    exact ⟨_, _, henc, Persist.decode_encode henc, hload⟩

theorem deserialize_restores_compared :
    ∃ st', deserializeState (Impl.fresh ⟨9⟩ ⟨9⟩) (serializeState Demo.compared) = (.ok (), st') ∧
      Restored Demo.compared st' := by
  obtain ⟨st', hload, hrest, -⟩ := deserialize_restores
    (show (Demo.compared : Impl Double).Fits by decide +kernel) ⟨9⟩ ⟨9⟩
  exact ⟨st', hload, hrest⟩

/-- A state that `save` wrote is readable exactly if all its strings and lists are
within the bounds of the reader. -/
theorem load_saved_iff {st : Impl Double} {path : String} {io : Io} {fs : Files}
    (h : (st.save path io fs).1 = .ok) (id : ObservatoryId) (generation : ObservatoryGeneration) :
    ((Impl.fresh id generation).load (st.saved path io fs path)).1 = .ok ↔ st.Fits := by
  obtain ⟨encoded, henc, hfile⟩ := saved_ok h
  rw [hfile]
  exact load_encoded_status henc _

theorem load_saved_iff_compared :
    ((Impl.fresh ⟨9⟩ ⟨9⟩).load (Demo.compared.saved "state" ⟨true, true, 0, true⟩ (fun _ => none)
      "state")).1 = .ok :=
  (load_saved_iff (by decide +kernel) ⟨9⟩ ⟨9⟩).mpr (by decide +kernel)

def named (name : ByteString) : Impl Double :=
  ((Impl.fresh ⟨1⟩ ⟨1⟩).registerWorkload { Demo.victim with name := name }).2

theorem named_sections (name : ByteString) : sectionBytes (named name) =
    [ByteFormat.Writer.u32 0, ByteFormat.Writer.u32 0,
      ByteFormat.Writer.list workloadBytes [{ Demo.victim with name := name }],
      ByteFormat.Writer.u32 0, ByteFormat.Writer.u32 0, ByteFormat.Writer.u32 0,
      ByteFormat.Writer.u32 0, ByteFormat.Writer.u32 0] := rfl

theorem length_named (name : ByteString) :
    (serializeState (named name)).length = 193 + name.length := by
  unfold serializeState bodyBytes
  rw [named_sections]
  simp only [workloadBytes, ByteFormat.Writer.list, ByteFormat.Writer.str, ByteFormat.Writer.u8,
    ByteFormat.Writer.u32, ByteFormat.Writer.u64, ByteFormat.Writer.i64, Writer.ident,
    Demo.victim, Demo.workload, List.flatMap_cons, List.flatMap_nil, List.flatten_cons,
    List.flatten_nil, List.length_append, List.length_cons, List.length_nil, length_le]
  omega

theorem saved_name_unreadable :
    ¬ ∀ st : Impl Double, Reachable st → ∀ path io fs id generation,
      (st.save path io fs).1 = .ok →
      ((Impl.fresh id generation).load (st.saved path io fs path)).1 = .ok := by
  intro h
  obtain ⟨name, hname⟩ : ∃ name : ByteString, name.length = Reader.kStringBound + 1 :=
    ⟨List.replicate _ 0, List.length_replicate⟩
  have hreach : Reachable (named name) :=
    ⟨⟨1⟩, ⟨1⟩, [.op (.registerWorkload { Demo.victim with name := name })],
      .next .start trivial rfl⟩
  have hlen : (serializeState (named name)).length ≤ Persist.kMaxPayload := by
    rw [length_named, hname]
    decide
  have hsave : ((named name).save "state" ⟨true, true, 0, true⟩ fun _ => none).1 = .ok := by
    rw [Impl.save, Persist.encode_ok hlen]
    rfl
  have hfits := (load_saved_iff hsave ⟨9⟩ ⟨9⟩).mp (h _ hreach _ _ _ _ _ hsave)
  have hfit : name.length ≤ Reader.kStringBound :=
    hfits.workloads.2 { Demo.victim with name := name } (List.mem_singleton_self _) name
      (List.mem_cons_self ..)
  omega

end Iobs
