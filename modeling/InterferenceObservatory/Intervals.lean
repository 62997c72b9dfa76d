import InterferenceObservatory.Reordering
import InterferenceObservatory.Canonical

/-! The intervals of episodes. An episode starts at the first and ends at the last entry of
the list it was computed from, whatever the order of the list; it covers the measurements of
its workload as long as no list has one of them before its first or after its last entry. -/

namespace Iobs
open DoubleOps Std

structure InterferenceEpisode.Covers {F : Type} (e : InterferenceEpisode F)
    (obs : List (Observation F)) : Prop where
  ordered : e.startMs ≤ e.endMs
  contains : ∀ o ∈ entriesOf e.affected obs, e.startMs ≤ o.timestampMs ∧ o.timestampMs ≤ e.endMs

def recorded (st : Impl Double) :
    Op Double → List (InterferenceEpisode Double × List (Observation Double))
  | .compare affected associated domain obs policy =>
    if (st.compare affected associated domain obs policy).1.outcome.isInterference then
      ((st.compare affected associated domain obs policy).2.episodes.find?
        (st.compare affected associated domain obs policy).1.episodeId).toList.map fun e => (e, obs)
    else []
  | _ => []

/-- A comparison that finds interference is given a list in which no entry of the affected
workload is before the first or after the last. -/
def Chronicled (st : Impl Double) : Op Double → Prop
  | .compare affected associated _ obs policy =>
    ∀ u, st.Interferes affected associated obs policy u → ∀ o ∈ entriesOf affected.id obs,
      startOf obs ≤ o.timestampMs ∧ o.timestampMs ≤ nowOf obs
  | _ => True

/-- The states of an observatory: it is started, called, and given files whose episodes are
those of an observatory too. The log pairs all episodes recorded on the way with the
observations they were computed from. -/
inductive Reached (allowed : Impl Double → Op Double → Prop) :
    List (InterferenceEpisode Double × List (Observation Double)) → Impl Double → Prop
  | start (id : ObservatoryId) (generation : ObservatoryGeneration) :
      Reached allowed [] (Impl.fresh id generation)
  | call {log : List (InterferenceEpisode Double × List (Observation Double))}
      {st st' : Impl Double} {op : Op Double} : Reached allowed log st → allowed st op →
      step st op = some st' → Reached allowed (log ++ recorded st op) st'
  | load {log log' : List (InterferenceEpisode Double × List (Observation Double))}
      {st saver : Impl Double} {file : Option (List UInt8)} : Reached allowed log st →
      Reached allowed log' saver →
      (∀ payload, Impl.payloadOf file = some payload → payload.head? = some 1 →
        ∀ e ∈ (listing payload).episodes, e ∈ saver.episodes.values) →
      Reached allowed (log ++ log') (st.load file).2

/-- Every stored episode was recorded, and covers whatever it was computed from. -/
structure EpisodesCover (log : List (InterferenceEpisode Double × List (Observation Double)))
    (st : Impl Double) : Prop where
  recorded : ∀ e ∈ st.episodes.values, ∃ obs, (e, obs) ∈ log
  covers : ∀ e ∈ st.episodes.values, ∀ obs, (e, obs) ∈ log → e.Covers obs

section Compare

variable {st : Impl Double} {affected associated : WorkloadDescriptor}
  {domain : InterferenceDomain} {obs : List (Observation Double)} {policy : Policy Double}
  {u : Baseline Double}

theorem recorded_of_interferes (h : st.Interferes affected associated obs policy u)
    (domain : InterferenceDomain) :
    recorded st (.compare affected associated domain obs policy) =
      [(st.episodeOf affected associated domain obs
        (st.verdictOn affected associated domain obs policy u), obs)] := by
  have hint : (st.compare affected associated domain obs policy).1.outcome.isInterference = true :=
    compare_interference_iff.mpr ⟨u, h⟩
  rw [recorded, if_pos hint, compare_of_interferes h]
  dsimp only
  rw [KeyedMap.find?_insert, if_pos rfl]
  rfl

theorem covers_of_chronicled (h : st.Interferes affected associated obs policy u)
    (hc : Chronicled st (.compare affected associated domain obs policy)) :
    (st.episodeOf affected associated domain obs
      (st.verdictOn affected associated domain obs policy u)).Covers obs := by
  have hcontains := hc u h
  -- some sample overlaps, so the interval is not empty
  obtain ⟨o, ho, -⟩ := (overlap_iff ..).mp h.overlap
  have hentry : o ∈ entriesOf affected.id obs := by
    rw [← samples_entriesOf] at ho
    exact (List.mem_filter.mp ho).1
  obtain ⟨hstart, hend⟩ := hcontains o hentry
  exact ⟨Int64.le_trans hstart hend, hcontains⟩

theorem recorded_covers {op : Op Double} (hc : Chronicled st op)
    {r : InterferenceEpisode Double × List (Observation Double)} (hr : r ∈ recorded st op) :
    r.1.Covers r.2 := by
  cases op with
  | compare affected associated domain obs policy =>
    by_cases hint : (st.compare affected associated domain obs policy).1.outcome.isInterference =
        true
    · obtain ⟨u, hu⟩ := compare_interference_iff.mp hint
      rw [recorded_of_interferes hu, List.mem_singleton] at hr
      rw [hr]
      exact covers_of_chronicled hu hc
    · rw [recorded, if_neg hint] at hr
      cases hr
  | _ => cases hr

theorem episodes_recorded {st' : Impl Double} {op : Op Double} (hs : step st op = some st')
    {e : InterferenceEpisode Double} (he : e ∈ st'.episodes.values) :
    e ∈ st.episodes.values ∨ ∃ obs, (e, obs) ∈ recorded st op := by
  rcases (step_effect hs).episodes with
    heq | ⟨affected, associated, domain, obs, policy, u, rfl, hadm, hint, heq⟩
  · rw [heq] at he
    exact .inl he
  · rw [heq] at he
    rcases mem_insert_episode he with rfl | hold
    · have hu := (interferes_iff hadm domain).mp hint
      refine .inr ⟨obs, ?_⟩
      rw [recorded_of_interferes hu]
      exact List.mem_singleton_self _
    · exact .inl hold

end Compare

theorem episodes_loaded {st : Impl Double} {file : Option (List UInt8)}
    {e : InterferenceEpisode Double} (he : e ∈ (st.load file).2.episodes.values) :
    e ∈ st.episodes.values ∨ ∃ payload, Impl.payloadOf file = some payload ∧
      payload.head? = some 1 ∧ e ∈ (listing payload).episodes := by
  rcases st.load_cases file with ⟨payload, hp, hv, heq⟩ | heq
  · rw [heq] at he
    have hsub : ((listing payload).episodes.foldl KeyedMap.emplace (∅ : KeyedMap EpisodeId
        (InterferenceEpisode Double) InterferenceEpisode.id)).values ⊆ (listing payload).episodes :=
      (KeyedMap.subperm_foldl_emplace _).subset
    dsimp only [Listing.restore] at he
    exact .inr ⟨payload, hp, hv, hsub he⟩
  · rw [heq] at he
    exact .inl he

/-- If every comparison of every observatory involved is chronicled, all episodes cover the
measurements they were computed from. -/
theorem reached_episodes_cover
    {log : List (InterferenceEpisode Double × List (Observation Double))} {st : Impl Double}
    (hr : Reached Chronicled log st) : EpisodesCover log st := by
  have hinv : (∀ e ∈ st.episodes.values, ∃ obs, (e, obs) ∈ log) ∧ ∀ r ∈ log, r.1.Covers r.2 := by
    induction hr with
    | start id generation =>
      refine ⟨?_, ?_⟩
      · intro e he
        rw [KeyedMap.mem_values] at he
        cases he.symm.trans ExtTreeMap.getElem?_empty
      · intro r hr
        cases hr
    | call _ hc hs ih =>
      refine ⟨?_, ?_⟩
      · intro e he
        rcases episodes_recorded hs he with hold | ⟨obs, hnew⟩
        · obtain ⟨obs, hobs⟩ := ih.1 e hold
          exact ⟨obs, List.mem_append_left _ hobs⟩
        · exact ⟨obs, List.mem_append_right _ hnew⟩
      · intro r hr
        rcases List.mem_append.mp hr with hold | hnew
        · exact ih.2 r hold
        · exact recorded_covers hc hnew
    | load _ _ hfile ih ih' =>
      refine ⟨?_, ?_⟩
      · intro e he
        rcases episodes_loaded he with hold | ⟨payload, hp, hv, hmem⟩
        · obtain ⟨obs, hobs⟩ := ih.1 e hold
          exact ⟨obs, List.mem_append_left _ hobs⟩
        · obtain ⟨obs, hobs⟩ := ih'.1 e (hfile payload hp hv e hmem)
          exact ⟨obs, List.mem_append_right _ hobs⟩
      · intro r hr
        rcases List.mem_append.mp hr with hold | hnew
        · exact ih.2 r hold
        · exact ih'.2 r hnew
  refine ⟨hinv.1, ?_⟩
  intro e _ obs hobs
  exact hinv.2 (e, obs) hobs

theorem Reached.load_saved {allowed : Impl Double → Op Double → Prop}
    {log log' : List (InterferenceEpisode Double × List (Observation Double))}
    {st saver : Impl Double} (hr : Reached allowed log st) (hr' : Reached allowed log' saver)
    {path : String} {io : Io} {fs : Files} (hsave : (saver.save path io fs).1 = .ok)
    (hfit : saver.Fits) :
    Reached allowed (log ++ log') (st.load (saver.saved path io fs path)).2 := by
  obtain ⟨encoded, henc, hfile⟩ := Impl.saved_ok hsave
  rw [hfile]
  apply Reached.load hr hr'
  intro payload hp _ e he
  rw [Impl.payloadOf_encode henc, Option.some.injEq] at hp
  rw [← hp, listing_serializeState hfit] at he
  exact he

def Demo.slowdownAt (times : List Int64) : List (Observation Double) :=
  times.map fun t => { Demo.observation 150.0 with timestampMs := t }

def Demo.spread : Impl Double :=
  (Demo.published.compare Demo.victim Demo.neighbor .cache (Demo.slowdownAt [1000, 2000, 3000])
    .init).2

theorem reached_episodes_cover_restarted :
    ∃ log, EpisodesCover log ((Impl.fresh ⟨9⟩ ⟨9⟩).load (Demo.spread.saved "state"
      ⟨true, true, 0, true⟩ (fun _ => none) "state")).2 := by
  have hpub : Reached Chronicled ([] ++ recorded (Impl.fresh ⟨1⟩ ⟨1⟩) (.publishBaseline
      Demo.baseline)) Demo.published := .call (.start ⟨1⟩ ⟨1⟩) trivial rfl
  have hchron : Chronicled Demo.published
      (.compare Demo.victim Demo.neighbor .cache (Demo.slowdownAt [1000, 2000, 3000]) .init) := by
    intro u _
    decide +kernel
  have hcmp : Reached Chronicled (([] ++ recorded (Impl.fresh ⟨1⟩ ⟨1⟩) (.publishBaseline
      Demo.baseline)) ++ recorded Demo.published (.compare Demo.victim Demo.neighbor .cache
        (Demo.slowdownAt [1000, 2000, 3000]) .init)) Demo.spread := .call hpub hchron rfl
  exact ⟨_, reached_episodes_cover ((Reached.start ⟨9⟩ ⟨9⟩).load_saved hcmp (by decide +kernel)
    (by decide +kernel))⟩

theorem episode_ends_before_it_starts :
    ¬ ∀ log st, Reached (fun _ _ => True) log st → EpisodesCover log st := by
  intro h
  have hpub : Reached (fun _ _ => True) ([] ++ recorded (Impl.fresh ⟨1⟩ ⟨1⟩) (.publishBaseline
      Demo.baseline)) Demo.published := .call (.start ⟨1⟩ ⟨1⟩) trivial rfl
  have hrun : Reached (fun _ _ => True) (([] ++ recorded (Impl.fresh ⟨1⟩ ⟨1⟩) (.publishBaseline
      Demo.baseline)) ++ recorded Demo.published (.compare Demo.victim Demo.neighbor .cache
        (Demo.slowdownAt [3000, 2000, 1000]) .init))
      (Demo.published.compare Demo.victim Demo.neighbor .cache
        (Demo.slowdownAt [3000, 2000, 1000]) .init).2 := .call hpub trivial rfl
  have hcover := h _ _ hrun
  have hall : ∀ e ∈ (Demo.published.compare Demo.victim Demo.neighbor .cache
      (Demo.slowdownAt [3000, 2000, 1000]) .init).2.episodes.values, e.startMs ≤ e.endMs := by
    intro e he
    obtain ⟨obs, hobs⟩ := hcover.recorded e he
    exact (hcover.covers e he obs hobs).ordered
  exact absurd hall (by decide +kernel)

end Iobs
