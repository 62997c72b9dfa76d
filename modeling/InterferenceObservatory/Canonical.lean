import InterferenceObservatory.Layout
import InterferenceObservatory.Ingest

/-! Which payloads are images of states. The reader checks bounds and truncation only:
it takes any enumerator and any flag byte, keeps the first of two records of one
identity, and ignores what follows the last record. -/

namespace Iobs
open ByteFormat Std

def validEnumValue {E : Type} [ByteEnum E] (e : E) (max : UInt8) : Bool := ByteEnum.toByte e < max

def inRange {E : Type} [ByteEnum E] [Enumerated E] (e : E) : Bool :=
  validEnumValue e (Enumerated.count E)

def SourceValid (e : SourceId × SourceRec) : Prop :=
  !e.1.isNil ∧ !e.2.generation.isNil ∧ inRange e.2.freshness

def WorkerValid (e : WorkerId × WorkerRec) : Prop := !e.1.isNil ∧ !e.2.boot.isNil

def WorkloadValid (w : WorkloadDescriptor) : Prop := !w.id.isNil ∧ !w.generation.isNil

def BaselineValid (b : Baseline Double) : Prop :=
  Impl.checkBaseline b = .ok ∧ inRange b.type ∧ inRange b.provenance ∧ inRange b.freshness ∧
    inRange b.metricKind

def ObservationValid (o : Observation Double) : Prop :=
  Impl.checkObservation o = .ok ∧ inRange o.measurement.kind ∧ inRange o.provenance ∧
    inRange o.freshness ∧ inRange o.sourceHealth ∧ ∀ c ∈ o.confounders, inRange c

def DegradationValid (d : Degradation Double) : Prop := ∀ m ∈ d.deltas, inRange m.kind

def EvidenceValid (e : InterferenceEvidence) : Prop :=
  !e.id.isNil ∧ !e.generation.isNil ∧ inRange e.provenance ∧ inRange e.strength ∧
    inRange e.outcome

def EpisodeValid (e : InterferenceEpisode Double) : Prop :=
  !e.id.isNil ∧ !e.generation.isNil ∧ (∀ d ∈ e.domains, inRange d) ∧
    DegradationValid e.degradation ∧ inRange e.classification ∧ inRange e.provenance ∧
    inRange e.freshness ∧ ∀ v ∈ e.evidence, EvidenceValid v

def ComparisonValid (e : ComparisonId × PairwiseInterference Double) : Prop :=
  !e.1.isNil ∧ !e.2.comparisonGeneration.isNil ∧ inRange e.2.domain ∧
    DegradationValid e.2.degradation ∧ inRange e.2.freshness ∧ inRange e.2.outcome ∧
    inRange e.2.attribution ∧ (∀ s ∈ e.2.evidenceSources, inRange s) ∧
    ∀ c ∈ e.2.unresolvedConfounders, inRange c

def RecoveryValid (k : CellKey) : Prop := !k.victim.isNil ∧ !k.neighbor.isNil ∧ inRange k.domain

namespace Listing

structure Valid (L : Listing) : Prop where
  sources : ∀ e ∈ L.sources, SourceValid e
  workers : ∀ e ∈ L.workers, WorkerValid e
  workloads : ∀ w ∈ L.workloads, WorkloadValid w
  baselines : ∀ b ∈ L.baselines, BaselineValid b
  observations : ∀ o ∈ L.observations, ObservationValid o
  episodes : ∀ e ∈ L.episodes, EpisodeValid e
  comparisons : ∀ e ∈ L.comparisons, ComparisonValid e
  recoveries : ∀ k ∈ L.recoveries, RecoveryValid k

structure Ordered (L : Listing) : Prop where
  sources : L.sources.Pairwise fun a b => compare a.1 b.1 = .lt
  workers : L.workers.Pairwise fun a b => compare a.1 b.1 = .lt
  workloads : L.workloads.Pairwise fun a b => compare a.id b.id = .lt
  baselines : L.baselines.Pairwise fun a b => compare a.id b.id = .lt
  observations : L.observations.Pairwise fun a b => compare a.id b.id = .lt
  episodes : L.episodes.Pairwise fun a b => compare a.id b.id = .lt
  comparisons : L.comparisons.Pairwise fun a b => compare a.1 b.1 = .lt
  recoveries : L.recoveries.Pairwise fun a b => compare a b = .lt

end Listing

def Impl.WellFormed (st : Impl Double) : Prop := (Listing.ofState st).Valid

namespace Listing

theorem ofState_ordered (st : Impl Double) : (ofState st).Ordered where
  sources := ExtTreeMap.ordered_keys_toList
  workers := ExtTreeMap.ordered_keys_toList
  workloads := st.workloads.ordered_values
  baselines := st.baselines.ordered_values
  observations := st.observations.ordered_values
  episodes := st.episodes.ordered_values
  comparisons := ExtTreeMap.ordered_keys_toList
  recoveries := ExtTreeSet.ordered_toList

theorem ofState_restore {L : Listing} (h : L.Ordered)
    (m : ExtTreeMap CellKey (PairwiseInterference Double)) : ofState (L.restore m) = L := by
  have h₁ := toList_foldl_insertIfNew h.sources
  have h₂ := toList_foldl_insertIfNew h.workers
  have h₃ := KeyedMap.values_foldl_emplace h.workloads
  have h₄ := KeyedMap.values_foldl_emplace h.baselines
  have h₅ := KeyedMap.values_foldl_emplace h.observations
  have h₆ := KeyedMap.values_foldl_emplace h.episodes
  have h₇ := toList_foldl_insertIfNew h.comparisons
  have h₈ := toList_foldl_insert h.recoveries
  unfold ofState restore
  dsimp only
  rw [h₁, h₂, h₃, h₄, h₅, h₆, h₇, h₈]

end Listing

theorem ListFits.of_subperm {α : Type} {fits : α → Prop} {l l' : List α} (h : ListFits fits l)
    (hs : l'.Subperm l) : ListFits fits l' :=
  ⟨hs.length_le.trans h.1, fun a ha => h.2 a (hs.subset ha)⟩

theorem Listing.Fits.restore {L : Listing} (h : L.Fits)
    (m : ExtTreeMap CellKey (PairwiseInterference Double)) : (L.restore m).Fits where
  sources := h.sources.of_subperm (subperm_foldl_insertIfNew _)
  workers := h.workers.of_subperm (subperm_foldl_insertIfNew _)
  workloads := h.workloads.of_subperm (KeyedMap.subperm_foldl_emplace _)
  baselines := h.baselines.of_subperm (KeyedMap.subperm_foldl_emplace _)
  observations := h.observations.of_subperm (KeyedMap.subperm_foldl_emplace _)
  episodes := h.episodes.of_subperm (KeyedMap.subperm_foldl_emplace _)
  comparisons := h.comparisons.of_subperm (subperm_foldl_insertIfNew _)
  recoveries := h.recoveries.of_subperm (subperm_foldl_insert _)

theorem serializeState_eq (st : Impl Double) :
    serializeState st = 1 :: (Listing.ofState st).bytes := rfl

theorem listing_serializeState {st : Impl Double} (h : st.Fits) :
    listing (serializeState st) = Listing.ofState st := by
  unfold listing
  rw [readBody_serializeState listingSink h]
  exact (Listing.ofState st).replay_listingSink

/-- What the reader leaves unchecked: flag bytes are 0 or 1 and capability masks have no
bit above the last capability, nothing follows the last record, and the records are
valid and in the order of their identities. -/
structure Canonical (payload : List UInt8) : Prop where
  marks : (Layout.body payload.tail).1 = true
  ends : (Layout.body payload.tail).2 = []
  ordered : (listing payload).Ordered
  valid : (listing payload).Valid

theorem serializeState_restore_iff {rest : List UInt8} (h : Accepted (1 :: rest)) :
    serializeState ((listing (1 :: rest)).restore ∅) = 1 :: rest ↔
      (Layout.body rest).1 = true ∧ (Layout.body rest).2 = [] ∧ (listing (1 :: rest)).Ordered := by
  obtain ⟨bs, hrest, hlen, hmarks, hfits⟩ := accepted_layout h
  generalize hL : listing (1 :: rest) = L at *
  rw [serializeState_eq, List.cons.injEq]
  constructor
  · rintro ⟨-, heq⟩
    -- the state fits, so reading its own bytes lists its records, which are in order
    have hself := listing_serializeState (hfits.restore ∅)
    rw [serializeState_eq, heq, hL] at hself
    have hbytes : bs ++ (Layout.body rest).2 = L.bytes := by
      rw [← hrest, ← heq, ← hself]
    have hends : (Layout.body rest).2 = [] := by
      have hl := congrArg List.length hbytes
      rw [List.length_append, hlen] at hl
      exact List.eq_nil_of_length_eq_zero (by omega)
    rw [hends, List.append_nil] at hbytes
    refine ⟨hmarks.mpr hbytes, hends, ?_⟩
    rw [hself]
    exact Listing.ofState_ordered _
  · rintro ⟨hm, hends, hord⟩
    rw [hends, List.append_nil] at hrest
    rw [Listing.ofState_restore hord, hrest, hmarks.mp hm]
    exact ⟨rfl, rfl⟩

theorem deserializeState_ok {id : ObservatoryId} {generation : ObservatoryGeneration}
    {payload : List UInt8} {st : Impl Double}
    (h : deserializeState (Impl.fresh id generation) payload = (.ok (), st)) :
    ∃ rest, payload = 1 :: rest ∧ Accepted payload ∧ st = (listing payload).restore ∅ := by
  rcases payload with _ | ⟨version, rest⟩
  · cases h
  · by_cases hv : version = 1
    · subst hv
      rw [deserializeState_version, readBody_fst, readBody_restore, Prod.mk.injEq] at h
      exact ⟨rest, rfl, h.1, h.2.symm⟩
    · rw [deserializeState, if_pos hv] at h
      cases h

theorem deserializeState_accepts_iff {st : Impl Double} (hlen : (serializeState st).length < 2 ^ 32)
    (S : Impl Double) : (deserializeState S (serializeState st)).1 = .ok () ↔ st.Fits := by
  constructor
  · intro hok
    by_contra hfits
    have hfails := readBody_serializeState_fails Impl.sink hfits hlen
    rw [serializeState_eq] at hok hfails
    rw [deserializeState_version] at hok
    dsimp only at hok
    exact hfails hok
  · intro hfits
    rw [deserializeState_serializeState hfits]

theorem serializeState_wellFormed_iff {id : ObservatoryId} {generation : ObservatoryGeneration}
    {payload : List UInt8} {st : Impl Double}
    (h : deserializeState (Impl.fresh id generation) payload = (.ok (), st)) :
    serializeState st = payload ∧ st.WellFormed ↔ Canonical payload := by
  obtain ⟨rest, rfl, hacc, rfl⟩ := deserializeState_ok h
  have hiff := serializeState_restore_iff hacc
  constructor
  · rintro ⟨hser, hwf⟩
    obtain ⟨hmarks, hends, hord⟩ := hiff.mp hser
    rw [Impl.WellFormed, Listing.ofState_restore hord] at hwf
    exact ⟨hmarks, hends, hord, hwf⟩
  · rintro ⟨hmarks, hends, hord, hvalid⟩
    refine ⟨hiff.mpr ⟨hmarks, hends, hord⟩, ?_⟩
    rwa [Impl.WellFormed, Listing.ofState_restore hord]

/-- A payload accepted by a fresh observatory is the payload of the state it leads to,
with every record valid, exactly if it is canonical. The payloads of well-formed states
within the reader's bounds are the canonical ones among those accepted; a state out of
these bounds is refused, as far as its payload stays below 4 GiB. -/
theorem accepted_iff_canonical (id : ObservatoryId) (generation : ObservatoryGeneration) :
    (∀ payload st, deserializeState (Impl.fresh id generation) payload = (.ok (), st) →
      (serializeState st = payload ∧ st.WellFormed ↔ Canonical payload)) ∧
    (∀ payload, (∃ st : Impl Double, st.WellFormed ∧ st.Fits ∧ serializeState st = payload) ↔
      (deserializeState (Impl.fresh id generation) payload).1 = .ok () ∧ Canonical payload) ∧
    ∀ st : Impl Double, (serializeState st).length < 2 ^ 32 →
      ((deserializeState (Impl.fresh id generation) (serializeState st)).1 = .ok () ↔ st.Fits) := by
  have hcanon {payload : List UInt8} {st : Impl Double}
      (h : deserializeState (Impl.fresh id generation) payload = (.ok (), st)) :=
    serializeState_wellFormed_iff h
  refine ⟨fun payload st h => hcanon h, fun payload => ⟨?_, ?_⟩,
    fun st hlen => deserializeState_accepts_iff hlen _⟩
  · rintro ⟨st, hwf, hfits, rfl⟩
    have hload := deserializeState_serializeState hfits (Impl.fresh id generation)
    exact ⟨congrArg Prod.fst hload, (hcanon hload).mp ⟨rfl, hwf⟩⟩
  · rintro ⟨hok, hc⟩
    have hload : deserializeState (Impl.fresh id generation) payload =
        (.ok (), (deserializeState (Impl.fresh id generation) payload).2) := Prod.ext hok rfl
    obtain ⟨hser, hwf⟩ := (hcanon hload).mpr hc
    obtain ⟨rest, rfl, hacc, hst⟩ := deserializeState_ok hload
    obtain ⟨-, -, -, -, hfits⟩ := accepted_layout hacc
    refine ⟨_, hwf, ?_, hser⟩
    rw [hst]
    exact hfits.restore ∅

theorem compared_wellFormed : (Demo.compared : Impl Double).WellFormed := by
  constructor
  case sources => unfold SourceValid; decide +kernel
  case workers => unfold WorkerValid; decide +kernel
  case workloads => unfold WorkloadValid; decide +kernel
  case baselines => unfold BaselineValid; decide +kernel
  case observations => unfold ObservationValid; decide +kernel
  case episodes => unfold EpisodeValid DegradationValid EvidenceValid; decide +kernel
  case comparisons => unfold ComparisonValid DegradationValid; decide +kernel
  case recoveries => unfold RecoveryValid; decide +kernel

theorem accepted_iff_canonical_compared :
    (deserializeState (Impl.fresh ⟨9⟩ ⟨9⟩) (serializeState (Demo.compared : Impl Double))).1 =
      .ok () ∧ Canonical (serializeState (Demo.compared : Impl Double)) := by
  have hfits : (Demo.compared : Impl Double).Fits := by decide +kernel
  exact ((accepted_iff_canonical ⟨9⟩ ⟨9⟩).2.1 _).mp ⟨_, compared_wellFormed, hfits, rfl⟩

def Demo.foreignPayload : List UInt8 :=
  1 :: (List.replicate 24 0 ++ [0, 0, 0, 0] ++ [1, 0, 0, 0] ++ List.replicate 24 0 ++ [2] ++
    List.replicate 24 0 ++ [255])

theorem foreign_payload_accepted :
    ∃ st, deserializeState (Impl.fresh ⟨1⟩ ⟨1⟩) Demo.foreignPayload = (.ok (), st) ∧
      serializeState st ≠ Demo.foreignPayload ∧ ¬ st.WellFormed := by
  have hacc : Accepted Demo.foreignPayload := by
    unfold Accepted
    decide +kernel
  have hends : (Layout.body Demo.foreignPayload.tail).2 ≠ [] := by decide +kernel
  have hworkers : (listing Demo.foreignPayload).workers.map Prod.fst = [⟨0⟩] := by decide +kernel
  obtain ⟨⟨i, w⟩, hlist, rfl⟩ := List.map_eq_singleton_iff.mp hworkers
  have hstored := toList_foldl_insertIfNew (List.pairwise_singleton
    (fun a b : WorkerId × WorkerRec => compare a.1 b.1 = .lt) (⟨0⟩, w))
  refine ⟨(listing Demo.foreignPayload).restore ∅, ?_, ?_, ?_⟩
  · rw [Demo.foreignPayload, deserializeState_version, readBody_fst, readBody_restore]
    exact Prod.ext hacc rfl
  · intro h
    exact hends ((serializeState_restore_iff hacc).mp h).2.1
  · intro h
    have hworker : (Listing.ofState ((listing Demo.foreignPayload).restore ∅)).workers =
        [(⟨0⟩, w)] := by
      unfold Listing.ofState Listing.restore
      dsimp only
      rw [hlist, hstored]
    have hvalid := h.workers (⟨0⟩, w) (hworker ▸ List.mem_singleton_self _)
    cases hvalid.1

end Iobs
