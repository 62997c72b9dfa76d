import InterferenceObservatory.Revalidation

/-! Copies of a verdict. `compare` keeps what it found in a cell of the matrix, in a stored
comparison and in an episode; an epoch change reaches none of them, the episodes of two
neighbors share an identity, and the stored records do not name their episode. -/

namespace Iobs
open DoubleOps Std Runs

variable {F : Type}

def InterferenceEpisode.Concerns (e : InterferenceEpisode F) (k : CellKey) : Prop :=
  e.affected = k.victim ∧ k.neighbor ∈ e.coRunning ∧ k.domain ∈ e.domains

theorem episodeOf_concerns (st : Impl F) (affected associated : WorkloadDescriptor)
    (domain : InterferenceDomain) (obs : List (Observation F)) (v : PairwiseInterference F) :
    (st.episodeOf affected associated domain obs v).Concerns
      ⟨affected.id, associated.id, domain⟩ := by
  refine ⟨rfl, ?_, ?_⟩
  · exact List.mem_singleton_self _
  · exact List.mem_singleton_self _

variable [DoubleOps F] {st st' : Impl F} {hist : List (Op F)}

/-- The gates admit `usable`, the measurements overlap with the neighbor and they are worse
than `usable` by at least the smallest threshold. -/
structure Impl.Interferes (st : Impl F) (affected associated : WorkloadDescriptor)
    (obs : List (Observation F)) (policy : Policy F) (usable : Baseline F) : Prop where
  admitted : st.Admitted affected associated obs policy usable
  overlap : (aggregate affected.id usable.metricKind associated.id obs).overlap = true
  degraded : (classifyOutcome (Impl.degradationOf usable
    (aggregate affected.id usable.metricKind associated.id obs)).worstRelative
      policy).isInterference = true

section Interference

variable {affected associated : WorkloadDescriptor} {domain : InterferenceDomain}
  {obs : List (Observation F)} {policy : Policy F} {usable : Baseline F}

theorem interferes_iff (hadm : st.Admitted affected associated obs policy usable)
    (domain : InterferenceDomain) :
    (st.verdictOn affected associated domain obs policy usable).outcome.isInterference = true ↔
      st.Interferes affected associated obs policy usable := by
  have hout : (st.verdictOn affected associated domain obs policy usable).outcome =
      if (aggregate affected.id usable.metricKind associated.id obs).overlap then
        classifyOutcome (Impl.degradationOf usable
          (aggregate affected.id usable.metricKind associated.id obs)).worstRelative policy
      else .noInterferenceDetected := rfl
  rw [hout]
  split_ifs with ho
  · exact ⟨fun hd => ⟨hadm, ho, hd⟩, fun h => h.degraded⟩
  · have hno : Outcome.noInterferenceDetected.isInterference ≠ true := by decide
    exact ⟨fun h => absurd h hno, fun h => absurd h.overlap ho⟩

theorem compare_of_interferes (h : st.Interferes affected associated obs policy usable)
    (domain : InterferenceDomain) :
    let v := st.verdictOn affected associated domain obs policy usable
    let e := st.episodeOf affected associated domain obs v
    st.compare affected associated domain obs policy = ({ v with episodeId := e.id }, { st with
      comparisons := st.comparisons.insert v.comparisonId v
      matrix := st.matrix.insert v.cellKey v
      episodes := st.episodes.insert e }) := by
  have hint : (st.verdictOn affected associated domain obs policy usable).outcome.isInterference =
      true := (interferes_iff h.admitted domain).mpr h
  dsimp only
  rw [Impl.compare_of_admitted h.admitted, Impl.recordVerdict]
  exact if_pos hint

theorem isVerdict_of_isInterference {o : Outcome} (h : o.isInterference = true) :
    o.isVerdict = true := by
  rw [Outcome.isVerdict, h, Bool.or_true]

theorem compare_interference_iff :
    (st.compare affected associated domain obs policy).1.outcome.isInterference = true ↔
      ∃ usable, st.Interferes affected associated obs policy usable := by
  constructor
  · intro h
    rcases st.compare_cases affected associated domain obs policy with ⟨u, hadm, -⟩ | ⟨-, hno⟩
    · obtain ⟨e, he⟩ := hadm.compare_fst domain
      rw [he] at h
      exact ⟨u, (interferes_iff hadm domain).mp h⟩
    · rw [isVerdict_of_isInterference h] at hno
      cases hno
  · rintro ⟨u, hu⟩
    rw [compare_of_interferes hu]
    exact (interferes_iff hu.admitted domain).mpr hu

end Interference

def ComparedIn (hist : List (Op F)) (k : CellKey) : Prop :=
  ∃ affected associated domain obs policy,
    Op.compare affected associated domain obs policy ∈ hist ∧
      k = ⟨affected.id, associated.id, domain⟩

structure CurrentSince (hist : List (Op F)) (st : Impl F) : Prop where
  cell : ∀ (k : CellKey) v, st.matrix[k]? = some v → v.freshness = .current → ComparedIn hist k
  explanation : ∀ (k : CellKey) policy,
    (st.explain k.victim k.neighbor k.domain policy).freshness = .current → ComparedIn hist k
  episode : ∀ e ∈ st.episodes.values, e.freshness = .current →
    ∃ k, e.Concerns k ∧ ComparedIn hist k

def InvalidatesRecords (st : Impl F) (epoch : CoordinatorEpoch) : Prop :=
  ∀ hist st', Run step (fun _ _ => True) (st.setCoordinatorEpoch epoch) hist st' →
    CurrentSince hist st'

omit [DoubleOps F] in
theorem ComparedIn.append {hist : List (Op F)} {k : CellKey} (h : ComparedIn hist k)
    (op : Op F) : ComparedIn (hist ++ [op]) k := by
  obtain ⟨affected, associated, domain, obs, policy, hmem, hk⟩ := h
  exact ⟨affected, associated, domain, obs, policy, List.mem_append_left _ hmem, hk⟩

omit [DoubleOps F] in
theorem comparedIn_last (hist : List (Op F)) (affected associated : WorkloadDescriptor)
    (domain : InterferenceDomain) (obs : List (Observation F)) (policy : Policy F) :
    ComparedIn (hist ++ [.compare affected associated domain obs policy])
      ⟨affected.id, associated.id, domain⟩ :=
  ⟨affected, associated, domain, obs, policy, by simp, rfl⟩

theorem explain_current {k : CellKey} {policy : Policy F}
    (h : (st.explain k.victim k.neighbor k.domain policy).freshness = .current) :
    ∃ v, st.matrix[k]? = some v ∧ v.freshness = .current := by
  unfold Impl.explain at h
  rcases hv : st.matrix[k]? with _ | v
  · rw [hv] at h
    cases h
  · rw [hv] at h
    exact ⟨v, rfl, h⟩

omit [DoubleOps F] in
theorem mem_insert_episode {m : KeyedMap EpisodeId (InterferenceEpisode F) InterferenceEpisode.id}
    {e e' : InterferenceEpisode F} (h : e' ∈ (m.insert e).values) : e' = e ∨ e' ∈ m.values := by
  rcases KeyedMap.find?_insert_cases (KeyedMap.mem_values.mp h) with ⟨-, heq⟩ | hold
  · exact .inl heq
  · exact .inr (KeyedMap.mem_values.mpr hold)

theorem step_currentSince {op : Op F} (hs : step st op = some st') (h : CurrentSince hist st) :
    CurrentSince (hist ++ [op]) st' := by
  have hcell : ∀ (k : CellKey) v, st'.matrix[k]? = some v → v.freshness = .current →
      ComparedIn (hist ++ [op]) k := by
    intro k v hv hcur
    rcases (step_effect hs).stores with
      ⟨-, hm⟩ | ⟨affected, associated, domain, obs, policy, u, rfl, -, -, hm⟩
    · rw [hm] at hv
      exact (h.cell k v hv hcur).append op
    · rw [hm] at hv
      rcases getElem?_insert_cases hv with ⟨rfl, -⟩ | hold
      · exact comparedIn_last hist affected associated domain obs policy
      · exact (h.cell k v hold hcur).append _
  refine ⟨hcell, ?_, ?_⟩
  · intro k policy hcur
    obtain ⟨v, hv, hf⟩ := explain_current hcur
    exact hcell k v hv hf
  · intro e he hcur
    rcases (step_effect hs).episodes with
      hm | ⟨affected, associated, domain, obs, policy, u, rfl, -, -, hm⟩
    · rw [hm] at he
      obtain ⟨k, hk, hc⟩ := h.episode e he hcur
      exact ⟨k, hk, hc.append op⟩
    · rw [hm] at he
      rcases mem_insert_episode he with rfl | he
      · exact ⟨_, episodeOf_concerns .., comparedIn_last hist affected associated domain obs policy⟩
      · obtain ⟨k, hk, hc⟩ := h.episode e he hcur
        exact ⟨k, hk, hc.append _⟩

/-- An epoch change invalidates what was recorded before it exactly if nothing recorded is
current: no cell of the matrix and no episode. -/
theorem epoch_change_invalidates_iff {epoch : CoordinatorEpoch} (he : epoch ≠ st.epoch) :
    InvalidatesRecords st epoch ↔
      (∀ (k : CellKey) v, st.matrix[k]? = some v → v.freshness ≠ .current) ∧
      ∀ e ∈ st.episodes.values, e.freshness ≠ .current := by
  have hmatrix : (st.setCoordinatorEpoch epoch).matrix = st.matrix := by
    rw [Impl.setCoordinatorEpoch, if_neg he]
  have hepisodes : (st.setCoordinatorEpoch epoch).episodes = st.episodes := by
    rw [Impl.setCoordinatorEpoch, if_neg he]
  have hnone : ∀ k, ¬ ComparedIn ([] : List (Op F)) k := by
    rintro k ⟨_, _, _, _, _, hmem, -⟩
    cases hmem
  constructor
  · intro h
    -- right after the change nothing has been compared again
    have h₀ := h [] _ .start
    rw [← hmatrix, ← hepisodes]
    constructor
    · intro k v hv hcur
      exact hnone k (h₀.cell k v hv hcur)
    · intro e he hcur
      obtain ⟨k, -, hc⟩ := h₀.episode e he hcur
      exact hnone k hc
  · rintro ⟨hcells, heps⟩ hist st' hr
    apply hr.history_invariant
    · refine ⟨?_, ?_, ?_⟩
      · intro k v hv hcur
        rw [hmatrix] at hv
        exact absurd hcur (hcells k v hv)
      · intro k policy hcur
        obtain ⟨v, hv, hf⟩ := explain_current hcur
        rw [hmatrix] at hv
        exact absurd hf (hcells k v hv)
      · intro e hmem hcur
        rw [hepisodes] at hmem
        exact absurd hcur (heps e hmem)
    · intro hist s op s' _ hs ih
      exact step_currentSince hs ih

theorem epoch_change_invalidates_iff_published :
    InvalidatesRecords (Demo.published : Impl Double) ⟨2⟩ := by
  have he : (⟨2⟩ : CoordinatorEpoch) ≠ (Demo.published : Impl Double).epoch := by decide +kernel
  have hmatrix : (Demo.published : Impl Double).matrix.toList = [] := by decide +kernel
  have hepisodes : (Demo.published : Impl Double).episodes.values = [] := by decide +kernel
  refine (epoch_change_invalidates_iff he).mpr ⟨?_, ?_⟩
  · intro k v hv
    rw [← ExtTreeMap.mem_toList_iff_getElem?_eq_some, hmatrix] at hv
    cases hv
  · intro e hmem
    rw [hepisodes] at hmem
    cases hmem

theorem epoch_change_keeps_current_cell :
    let st := (Demo.compared : Impl Double).setCoordinatorEpoch ⟨2⟩
    st.epoch ≠ (Demo.compared : Impl Double).epoch ∧
    (st.matrix[CellKey.mk ⟨1⟩ ⟨2⟩ .cache]?).map (·.freshness) = some .current ∧
    (st.explain ⟨1⟩ ⟨2⟩ .cache .init).freshness = .current ∧
    st.episodes.values.map (·.freshness) = [.current] ∧
    ¬ InvalidatesRecords (Demo.compared : Impl Double) ⟨2⟩ := by
  have he : (⟨2⟩ : CoordinatorEpoch) ≠ (Demo.compared : Impl Double).epoch := by decide +kernel
  have hepisodes : ((Demo.compared : Impl Double).setCoordinatorEpoch ⟨2⟩).episodes.values.map
      (·.freshness) = [.current] := by decide +kernel
  refine ⟨by decide +kernel, by decide +kernel, by decide +kernel, hepisodes, ?_⟩
  intro h
  obtain ⟨e, hmem, hcur⟩ : ∃ e ∈ ((Demo.compared : Impl Double).setCoordinatorEpoch
      ⟨2⟩).episodes.values, e.freshness = .current := by
    have : Freshness.current ∈ ((Demo.compared : Impl Double).setCoordinatorEpoch
        ⟨2⟩).episodes.values.map (·.freshness) := by
      rw [hepisodes]
      exact List.mem_singleton_self _
    exact List.mem_map.mp this
  obtain ⟨k, -, affected, associated, domain, obs, policy, hin, -⟩ :=
    (h [] _ .start).episode e hmem hcur
  cases hin

/-- A call that does not put the episode of another pair or domain under `id`: the digest of
the victim, the domain and the selected baseline, in which the neighbor has no part. -/
def SparesEpisode (k : CellKey) (id : EpisodeId) (st : Impl F) : Op F → Prop
  | .compare affected associated domain obs policy =>
    ∀ usable, st.Interferes affected associated obs policy usable →
      k = ⟨affected.id, associated.id, domain⟩ ∨ episodeIdOf affected.id domain usable.id ≠ id
  | _ => True

theorem step_keeps_episode {k : CellKey} {id : EpisodeId} {op : Op F}
    (ha : SparesEpisode k id st op) (hs : step st op = some st')
    (h : ∃ e, st.episodes.find? id = some e ∧ e.Concerns k) :
    ∃ e, st'.episodes.find? id = some e ∧ e.Concerns k := by
  obtain ⟨e, he, hk⟩ := h
  rcases (step_effect hs).episodes with
    hm | ⟨affected, associated, domain, obs, policy, u, rfl, hadm, hint, hm⟩
  · rw [hm]
    exact ⟨e, he, hk⟩
  · rw [hm, KeyedMap.find?_insert]
    by_cases hid : episodeIdOf affected.id domain u.id = id
    · -- the new episode takes the place of the old one, so it is about the same pair
      have hkey := (ha u ((interferes_iff hadm domain).mp hint)).resolve_right (not_not.mpr hid)
      refine ⟨_, if_pos hid, ?_⟩
      rw [hkey]
      exact episodeOf_concerns ..
    · exact ⟨e, (if_neg hid).trans he, hk⟩

/-- An episode stays as long as no comparison of another pair that finds interference has
its digest. -/
theorem run_keeps_episode {affected associated : WorkloadDescriptor} {domain : InterferenceDomain}
    {obs : List (Observation F)} {policy : Policy F}
    (hv : (st.compare affected associated domain obs policy).1.outcome.isInterference = true)
    (hr : Run step (SparesEpisode ⟨affected.id, associated.id, domain⟩
        (st.compare affected associated domain obs policy).1.episodeId)
      (st.compare affected associated domain obs policy).2 hist st') :
    ∃ e ∈ st'.episodes.values, e.affected = affected.id ∧ associated.id ∈ e.coRunning ∧
      domain ∈ e.domains := by
  obtain ⟨usable, hint⟩ := compare_interference_iff.mp hv
  obtain ⟨e, he, hk⟩ : ∃ e, st'.episodes.find?
      (st.compare affected associated domain obs policy).1.episodeId = some e ∧
      e.Concerns ⟨affected.id, associated.id, domain⟩ := by
    apply hr.invariant
    · rw [compare_of_interferes hint]
      refine ⟨st.episodeOf affected associated domain obs
        (st.verdictOn affected associated domain obs policy usable), ?_, episodeOf_concerns ..⟩
      rw [KeyedMap.find?_insert]
      exact if_pos rfl
    · intro s op s' ha hs h
      exact step_keeps_episode ha hs h
  have hid := st'.episodes.keyed _ e he
  refine ⟨e, ?_, hk.1, hk.2.1, hk.2.2⟩
  rw [KeyedMap.mem_values, hid]
  exact he

namespace Demo

def third : WorkloadDescriptor := workload ⟨3⟩

def thirdSlowdown : List (Observation F) :=
  List.replicate 3 { observation 150.0 with coRunPeers := [⟨3⟩] }

end Demo

theorem run_keeps_episode_other_domain :
    ∃ e ∈ ((Demo.compared : Impl Double).compare Demo.victim Demo.third .network
      Demo.thirdSlowdown .init).2.episodes.values,
      e.affected = ⟨1⟩ ∧ ⟨2⟩ ∈ e.coRunning ∧ .cache ∈ e.domains := by
  have hv : ((Demo.published : Impl Double).compare Demo.victim Demo.neighbor .cache Demo.slowdown
      .init).1.outcome.isInterference = true := by decide +kernel
  have hid : ((Demo.published : Impl Double).compare Demo.victim Demo.neighbor .cache Demo.slowdown
      .init).1.episodeId = episodeIdOf ⟨1⟩ .cache ⟨1⟩ := by decide +kernel
  have hsel : (selectBaseline (Demo.compared : Impl Double).baselines.values Demo.victim).usable.map
      (·.id) = some ⟨1⟩ := by decide +kernel
  have hspares : SparesEpisode ⟨⟨1⟩, ⟨2⟩, .cache⟩ (episodeIdOf ⟨1⟩ .cache ⟨1⟩)
      (Demo.compared : Impl Double) (.compare Demo.victim Demo.third .network
        Demo.thirdSlowdown .init) := by
    intro usable hint
    rw [hint.admitted.selected, Option.map_some, Option.some.injEq] at hsel
    rw [hsel]
    exact .inr (by decide +kernel)
  rw [← hid] at hspares
  exact run_keeps_episode hv (.next .start hspares rfl)

theorem episode_of_other_neighbor_lost :
    (((Demo.published : Impl Double).compare Demo.victim Demo.neighbor .cache Demo.slowdown
      .init).1.outcome.isInterference = true) ∧
    ∀ e ∈ ((Demo.compared : Impl Double).compare Demo.victim Demo.third .cache
      Demo.thirdSlowdown .init).2.episodes.values,
      ¬ (e.affected = ⟨1⟩ ∧ ⟨2⟩ ∈ e.coRunning ∧ .cache ∈ e.domains) := by
  decide +kernel

end Iobs
