import InterferenceObservatory.SaveLoad

/-! The records of a payload, listed in the order of the file. What a load makes of an
observatory depends on the payload through its listing only. -/

namespace Iobs
open ByteFormat ByteFormat.Parser Std

structure Listing where
  id : ObservatoryId
  generation : ObservatoryGeneration
  epoch : CoordinatorEpoch
  sources : List (SourceId × SourceRec)
  workers : List (WorkerId × WorkerRec)
  workloads : List WorkloadDescriptor
  baselines : List (Baseline Double)
  observations : List (Observation Double)
  episodes : List (InterferenceEpisode Double)
  comparisons : List (ComparisonId × PairwiseInterference Double)
  recoveries : List CellKey

def listingSink : Sink Listing where
  header id generation epoch l := { l with id, generation, epoch }
  source e l := { l with sources := l.sources ++ [e] }
  worker e l := { l with workers := l.workers ++ [e] }
  workload w l := { l with workloads := l.workloads ++ [w] }
  baseline b l := { l with baselines := l.baselines ++ [b] }
  observation o l := { l with observations := l.observations ++ [o] }
  episode e l := { l with episodes := l.episodes ++ [e] }
  comparison e l := { l with comparisons := l.comparisons ++ [e] }
  recovery k l := { l with recoveries := l.recoveries ++ [k] }

def Listing.empty : Listing := ⟨⟨0⟩, ⟨0⟩, ⟨0⟩, [], [], [], [], [], [], [], []⟩

def listing (payload : List UInt8) : Listing := (readBody listingSink payload).2 .empty

def Listing.restore (L : Listing) (m : ExtTreeMap CellKey (PairwiseInterference Double)) :
    Impl Double where
  id := L.id
  generation := L.generation
  epoch := L.epoch
  sources := L.sources.foldl (fun m e => m.insertIfNew e.1 e.2) ∅
  workers := L.workers.foldl (fun m e => m.insertIfNew e.1 e.2) ∅
  workloads := L.workloads.foldl KeyedMap.emplace ∅
  baselines := L.baselines.foldl KeyedMap.emplace ∅
  observations := L.observations.foldl KeyedMap.emplace ∅
  episodes := L.episodes.foldl KeyedMap.emplace ∅
  comparisons := L.comparisons.foldl (fun m e => m.insertIfNew e.1 e.2) ∅
  matrix := overlay (L.comparisons.map fun e => (e.2.cellKey, e.2)) m
  recoveries := L.recoveries.foldl (fun s k => s.insert k) ∅

def Restores (u : Impl Double → Impl Double) (v : Listing → Listing) : Prop :=
  ∀ L m, u (L.restore m) = (v L).restore m

theorem restores_simulation : Simulation Restores where
  id := fun _ _ => rfl
  comp := by
    intro u u' v v' h h' L m
    rw [Function.comp_apply, h, h']
    rfl

theorem sink_restores : Sink.Related Restores Impl.sink listingSink := by
  -- one fold grows by one record in every case
  constructor <;> intro e L m <;>
    simp only [Impl.sink, listingSink, Listing.restore, List.foldl_append, List.map_append,
      overlay_append] <;> rfl

theorem readBody_restore (payload : List UInt8) (S : Impl Double) :
    (readBody Impl.sink payload).2 S.clear = (listing payload).restore S.matrix := by
  obtain ⟨i, g, e, r, hrun⟩ := body_run ⟨payload, 1, true⟩
  obtain ⟨-, -, hsections⟩ := sections_related restores_simulation sink_restores r
  unfold listing
  rw [readBody_snd, readBody_snd, hrun, hrun]
  exact hsections (listingSink.header i g e .empty) S.matrix

namespace Impl

theorem load_restore {file : Option (List UInt8)} {payload : List UInt8}
    (hp : payloadOf file = some payload) (hv : payload.head? = some 1) (S : Impl Double) :
    (S.load file).2 = (listing payload).restore S.matrix := by
  obtain ⟨rest, rfl⟩ : ∃ rest, payload = 1 :: rest := by
    rcases payload with _ | ⟨v, rest⟩
    · cases hv
    · exact ⟨rest, by rw [Option.some.inj hv]⟩
  have hrestore := readBody_restore (1 :: rest) S
  unfold load
  rw [hp]
  dsimp only
  rw [deserializeState_version, hrestore]
  rcases (readBody Impl.sink (1 :: rest)).1 with e | ⟨⟩ <;> rfl

theorem load_cases (file : Option (List UInt8)) (S : Impl Double) :
    (∃ payload, payloadOf file = some payload ∧ payload.head? = some 1 ∧
      (S.load file).2 = (listing payload).restore S.matrix) ∨ (S.load file).2 = S := by
  by_cases hp : ∃ payload, payloadOf file = some payload ∧ payload.head? = some 1
  · obtain ⟨payload, hp, hv⟩ := hp
    exact .inl ⟨payload, hp, hv, load_restore hp hv S⟩
  · have href : ∀ payload, payloadOf file = some payload → payload.head? ≠ some 1 := by
      intro payload hpay hv
      exact hp ⟨payload, hpay, hv⟩
    rw [load_refused href]
    exact .inr rfl

end Impl
end Iobs
