import InterferenceObservatory.Layout
import InterferenceObservatory.Locking
import InterferenceObservatory.Revalidation
import InterferenceObservatory.Lib.Calls
import InterferenceObservatory.Lib.Monitor
import Mathlib.Data.Set.List

/-! The observatory under several threads. Every public operation is written as the code of a
call on an object with one mutex: what it decides before it locks, its stores one after the
other, and where it would lock a second time. The three accessors of the header read one field
each and do not lock: beside another thread such a read is a race, and may show anything. -/

namespace Iobs
open DoubleOps Std Monitors Runs

section Bodies

/-- An operation that stores one record at most. -/
def atomically (f : Impl Double → Response × Impl Double) : Body (Impl Double) Response :=
  .act (fun st => (f st).2) fun st => .leave (f st).1

def answering (f : Impl Double → Status × Impl Double) : Body (Impl Double) Response :=
  atomically fun st => (.status (f st).1, (f st).2)

def reading (f : Impl Double → Response) : Body (Impl Double) Response :=
  atomically fun st => (f st, st)

def epochStores (epoch : CoordinatorEpoch) (st : Impl Double) :
    List (Impl Double → Impl Double) :=
  (fun st => { st with epoch := epoch }) ::
    (st.baselines.values.map (fun b st =>
      { st with baselines := st.baselines.insert (Impl.demoteBaseline b) }) ++
    st.sources.toList.map (fun e st =>
      { st with sources := st.sources.insert e.1 (Impl.demoteSource e.2) }) ++
    st.workers.toList.map (fun e st =>
      { st with workers := st.workers.insert e.1 (Impl.disconnect e.2) }))

def setCoordinatorEpochBody (epoch : CoordinatorEpoch) : Body (Impl Double) Response :=
  .act id fun st =>
    if epoch = st.epoch then .leave .done else .writes (epochStores epoch st) (.leave .done)

def compareBody (affected associated : WorkloadDescriptor) (domain : InterferenceDomain)
    (obs : List (Observation Double)) (policy : Policy Double) : Body (Impl Double) Response :=
  .act id fun st =>
    let r := st.compare affected associated domain obs policy
    .writes [fun s => { s with comparisons := r.2.comparisons },
        fun s => { s with matrix := r.2.matrix }, fun s => { s with episodes := r.2.episodes }]
      (.leave (.comparison r.1))

def runExperimentBody (plan : ExperimentPlan) : Body (Impl Double) Response :=
  .act id fun st =>
    let res : ExperimentResult Double := ⟨plan.id, plan.generation, none, none, 0, false⟩
    if plan.id.isNil then .leave (.experiment res)
    else match st.workloads.find? plan.primary, st.workloads.find? plan.neighbor with
      | some _, some _ =>
        let primaryObs := st.coRunObservations plan.primary plan.neighbor
        let neighborObs := if plan.neighbor = plan.primary then []
          else st.coRunObservations plan.neighbor plan.primary
        -- a side with observations calls `compare`, which locks
        if !primaryObs.isEmpty || !neighborObs.isEmpty then .relock
        else .leave (.experiment { res with repetitionsExecuted := plan.repetitions })
      | _, _ => .leave (.experiment res)

def Listing.loadStores (L : Listing) : List (Impl Double → Impl Double) :=
  [fun st => { st with sources := ∅ }, fun st => { st with workers := ∅ },
    fun st => { st with workloads := ∅ }, fun st => { st with baselines := ∅ },
    fun st => { st with observations := ∅ }, fun st => { st with episodes := ∅ },
    fun st => { st with comparisons := ∅ }, fun st => { st with recoveries := ∅ },
    fun st => { st with id := L.id }, fun st => { st with generation := L.generation },
    fun st => { st with epoch := L.epoch }] ++
  L.sources.map Impl.sink.source ++ L.workers.map Impl.sink.worker ++
  L.workloads.map Impl.sink.workload ++ L.baselines.map Impl.sink.baseline ++
  L.observations.map Impl.sink.observation ++ L.episodes.map Impl.sink.episode ++
  L.comparisons.map Impl.sink.comparison ++ L.recoveries.map Impl.sink.recovery

def loadBody (file : Option (List UInt8)) : Body (Impl Double) Response :=
  match Impl.payloadOf file with
  | none => .leave (.status .persistenceCorrupt)
  | some payload =>
    if payload.head? ≠ some 1 then .leave (.status .persistenceCorrupt)
    else .writes (listing payload).loadStores (.leave (.status
      (match (readBody nullSink payload).1 with
        | .ok () => .ok
        | .error _ => .persistenceCorrupt)))

end Bodies

def Request.code : Request → Code (Impl Double) Response
  | .observatoryId => .peek fun st => .observatoryId st.id
  | .observatoryGeneration => .peek fun st => .observatoryGeneration st.generation
  | .coordinatorEpoch => .peek fun st => .coordinatorEpoch st.epoch
  | .setCoordinatorEpoch epoch => .guarded (setCoordinatorEpochBody epoch)
  | .registerSource id gen name caps =>
    if id.isNil || gen.isNil then .ret (.status .invalidInput)
    else .guarded (answering fun st => st.registerSource id gen name caps)
  | .registerWorker id boot name connected =>
    if id.isNil || boot.isNil then .ret (.status .invalidInput)
    else .guarded (answering fun st => st.registerWorker id boot name connected)
  | .registerWorkload workload =>
    if workload.id.isNil || workload.generation.isNil then .ret (.status .invalidInput)
    else .guarded (answering fun st => st.registerWorkload workload)
  | .publishBaseline baseline =>
    if Impl.checkBaseline baseline ≠ .ok then .ret (.status (Impl.checkBaseline baseline))
    else .guarded (answering fun st => st.publishBaseline baseline)
  | .lookupBaseline id => .guarded (reading fun st => .baseline (st.lookupBaseline id))
  | .recordObservation observation =>
    if observation.id.isNil || observation.generation.isNil then .ret (.status .invalidInput)
    else if observation.workloadId.isNil then .ret (.status .invalidInput)
    else if !observation.measurement.isValid then .ret (.status .invalidInput)
    else if !isFinite (ofInt64 observation.timestampMs : Double) then .ret (.status .invalidInput)
    else .guarded (answering fun st => st.recordObservation observation)
  | .compare affected associated domain obs policy =>
    .guarded (compareBody affected associated domain obs policy)
  | .recordRecovery victim neighbor domain =>
    if victim.isNil || neighbor.isNil then .ret (.status .invalidInput)
    else .guarded (answering fun st => st.recordRecovery victim neighbor domain)
  | .runExperiment plan _ => .guarded (runExperimentBody plan)
  | .explain affected associated domain policy =>
    .guarded (reading fun st => .explanation (st.explain affected associated domain policy))
  | .pairwiseMatrix => .guarded (reading fun st => .matrix st.matrix.toList)
  | .episodes => .guarded (reading fun st => .episodes st.episodes.values)
  | .observationCount => .guarded (reading fun st => .count st.observations.size)
  | .baselineCount => .guarded (reading fun st => .count st.baselines.size)
  | .sourceCount => .guarded (reading fun st => .count st.sources.size)
  | .workloadCount => .guarded (reading fun st => .count st.workloads.size)
  | .workerCount => .guarded (reading fun st => .count st.workers.size)
  | .episodeCount => .guarded (reading fun st => .count st.episodes.size)
  | .observationsFor w => .guarded (reading fun st =>
    .observations (st.observations.values.filter fun o => o.workloadId == w))
  | .save path io fs => .guarded (reading fun st =>
    .saved (st.save path io fs).1 (st.save path io fs).2)
  | .load file => .guarded (loadBody file)
  | .canonicalDigest => .guarded (reading fun st => .digest (Iobs.canonicalDigest st))

section Alone

variable (st : Impl Double)

theorem epochStores_foldl (epoch : CoordinatorEpoch) (h : epoch ≠ st.epoch) :
    (epochStores epoch st).foldl (fun st f => f st) st = st.setCoordinatorEpoch epoch := by
  have hsources := overlay_toList_map st.sources Impl.demoteSource
  have hworkers := overlay_toList_map st.workers Impl.disconnect
  rw [overlay, List.foldl_map] at hsources hworkers
  simp only [epochStores, List.foldl_cons, List.foldl_append, List.foldl_map]
  rw [foldl_field Impl.baselines (fun m st => { st with baselines := m }) (fun _ _ => rfl)
      (fun _ _ _ => rfl) (fun _ => rfl) (fun m b => m.insert (Impl.demoteBaseline b)),
    foldl_field Impl.sources (fun m st => { st with sources := m }) (fun _ _ => rfl)
      (fun _ _ _ => rfl) (fun _ => rfl)
      (fun m (e : SourceId × SourceRec) => m.insert e.1 (Impl.demoteSource e.2)),
    foldl_field Impl.workers (fun m st => { st with workers := m }) (fun _ _ => rfl)
      (fun _ _ _ => rfl) (fun _ => rfl)
      (fun m (e : WorkerId × WorkerRec) => m.insert e.1 (Impl.disconnect e.2))]
  dsimp only
  rw [KeyedMap.foldl_insert_values _ _ Impl.demoteBaseline_id, hsources, hworkers,
    Impl.setCoordinatorEpoch, if_neg h]
  rfl

theorem setCoordinatorEpochBody_run (epoch : CoordinatorEpoch) :
    (setCoordinatorEpochBody epoch).run st = some (.done, st.setCoordinatorEpoch epoch) := by
  rw [setCoordinatorEpochBody, Body.run]
  by_cases h : epoch = st.epoch
  · rw [if_pos h, Impl.setCoordinatorEpoch, if_pos h]
    rfl
  · rw [if_neg h, Body.run_writes, id, epochStores_foldl st epoch h]
    rfl

theorem compare_snd (affected associated : WorkloadDescriptor) (domain : InterferenceDomain)
    (obs : List (Observation Double)) (policy : Policy Double) :
    (st.compare affected associated domain obs policy).2 =
      { st with
        comparisons := (st.compare affected associated domain obs policy).2.comparisons
        matrix := (st.compare affected associated domain obs policy).2.matrix
        episodes := (st.compare affected associated domain obs policy).2.episodes } := by
  rcases st.compare_cases affected associated domain obs policy with ⟨u, -, heq⟩ | ⟨hsame, -⟩
  · rw [heq]
    obtain ⟨episodes, hrec⟩ := Impl.recordVerdict_snd st affected associated domain obs
      (st.verdictOn affected associated domain obs policy u)
    rw [hrec]
  · rw [hsame]

theorem compareBody_run (affected associated : WorkloadDescriptor) (domain : InterferenceDomain)
    (obs : List (Observation Double)) (policy : Policy Double) :
    (compareBody affected associated domain obs policy).run st =
      some (.comparison (st.compare affected associated domain obs policy).1,
        (st.compare affected associated domain obs policy).2) := by
  rw [compareBody, Body.run, Body.run_writes, compare_snd st affected associated domain obs policy]
  rfl

theorem runExperimentBody_run (plan : ExperimentPlan) (policy : Policy Double) :
    (runExperimentBody plan).run st =
      (st.runExperiment plan policy).map fun r => (.experiment r.1, r.2) := by
  rw [runExperimentBody, Body.run, Impl.runExperiment]
  by_cases hid : plan.id.isNil
  · rw [if_pos hid, if_pos hid]
    rfl
  · rw [if_neg hid, if_neg hid]
    rcases st.workloads.find? plan.primary with _ | primary
    · rfl
    · rcases st.workloads.find? plan.neighbor with _ | neighbor
      · rfl
      · dsimp only
        generalize st.coRunObservations plan.primary plan.neighbor = primaryObs
        generalize (if plan.neighbor = plan.primary then [] else
          st.coRunObservations plan.neighbor plan.primary) = neighborObs
        rcases primaryObs with _ | ⟨o, primaryObs⟩
        · rcases neighborObs with _ | ⟨o, neighborObs⟩ <;> rfl
        · rfl

theorem Listing.replay_clear (L : Listing) :
    L.replay Impl.sink st.clear = L.restore st.matrix := by
  have hfold : ∀ {α : Type} (put : α → Impl Double → Impl Double) (put' : α → Listing → Listing),
      (∀ a, Restores (put a) (put' a)) → ∀ (l : List α) (L' : Listing),
      l.foldl (fun s a => put a s) (L'.restore st.matrix) =
        (l.foldl (fun s a => put' a s) L').restore st.matrix := by
    intro α put put' hput l
    induction l with
    | nil => exact fun _ => rfl
    | cons a l ih =>
      intro L'
      rw [List.foldl_cons, List.foldl_cons, hput a, ih]
  have hsink := sink_restores
  have hheader : Impl.sink.header L.id L.generation L.epoch st.clear =
      (listingSink.header L.id L.generation L.epoch .empty).restore st.matrix := rfl
  conv_rhs => rw [← L.replay_listingSink]
  unfold Listing.replay
  dsimp only
  rw [hheader, hfold _ _ hsink.source, hfold _ _ hsink.worker, hfold _ _ hsink.workload,
    hfold _ _ hsink.baseline, hfold _ _ hsink.observation, hfold _ _ hsink.episode,
    hfold _ _ hsink.comparison, hfold _ _ hsink.recovery]

theorem Listing.loadStores_foldl (L : Listing) :
    L.loadStores.foldl (fun st f => f st) st = L.restore st.matrix := by
  rw [← Listing.replay_clear, Listing.loadStores]
  simp only [List.foldl_append, List.foldl_map]
  rfl

theorem loadBody_run (file : Option (List UInt8)) :
    (loadBody file).run st = some (.status (st.load file).1, (st.load file).2) := by
  unfold loadBody Impl.load
  rcases hp : Impl.payloadOf file with _ | payload
  · rfl
  · dsimp only
    rcases payload with _ | ⟨version, rest⟩
    · rfl
    · by_cases hv : version = 1
      · subst hv
        rw [if_neg (by simp), Body.run_writes, Listing.loadStores_foldl, deserializeState_version,
          readBody_restore, readBody_fst Impl.sink]
        rcases (readBody nullSink (1 :: rest)).1 with e | ⟨⟩ <;> rfl
      · rw [if_pos (by simpa using hv), deserializeState, if_pos hv]
        rfl

theorem checked_run {c : Prop} [Decidable c] {a : Status} {m : Code (Impl Double) Response}
    {f : Impl Double → Status × Impl Double} (hc : c → f st = (a, st))
    (hm : ¬ c → m.run st = some (.status (f st).1, (f st).2)) :
    (if c then .ret (.status a) else m).run st = some (.status (f st).1, (f st).2) := by
  by_cases h : c
  · rw [if_pos h, hc h]
    rfl
  · rw [if_neg h, hm h]

theorem recordObservation_run (observation : Observation Double) :
    (Request.recordObservation observation).code.run st =
      some (.status (st.recordObservation observation).1,
        (st.recordObservation observation).2) := by
  rw [Request.code]
  refine checked_run st (f := (·.recordObservation observation)) (fun h₁ => ?_) fun h₁ => ?_
  · rw [Impl.recordObservation, if_pos h₁]
  refine checked_run st (f := (·.recordObservation observation)) (fun h₂ => ?_) fun h₂ => ?_
  · rw [Impl.recordObservation, if_neg h₁, if_pos h₂]
  refine checked_run st (f := (·.recordObservation observation)) (fun h₃ => ?_) fun h₃ => ?_
  · rw [Impl.recordObservation, if_neg h₁, if_neg h₂, if_pos h₃]
  refine checked_run st (f := (·.recordObservation observation)) (fun h₄ => ?_) fun _ => rfl
  rw [Impl.recordObservation, if_neg h₁, if_neg h₂, if_neg h₃, if_pos h₄]

theorem invoke_code (q : Request) :
    invoke q ⟨false, st⟩ = (q.code.run st).map fun r => (r.1, ⟨false, r.2⟩) := by
  cases q with
  | setCoordinatorEpoch epoch =>
    rw [Request.code, Code.run, setCoordinatorEpochBody_run]
    rfl
  | registerSource id gen name caps =>
    rw [invoke, Method.map_free _ (Method.registerSource_free st id gen name caps), Request.code,
      checked_run st (f := (·.registerSource id gen name caps)) ?_ (fun _ => rfl)]
    · rfl
    · intro h
      rw [Impl.registerSource, if_pos h]
  | registerWorker id boot name connected =>
    rw [invoke, Method.map_free _ (Method.registerWorker_free st id boot name connected),
      Request.code, checked_run st (f := (·.registerWorker id boot name connected)) ?_
        (fun _ => rfl)]
    · rfl
    · intro h
      rw [Impl.registerWorker, if_pos h]
  | registerWorkload workload =>
    rw [invoke, Method.map_free _ (Method.registerWorkload_free st workload), Request.code,
      checked_run st (f := (·.registerWorkload workload)) ?_ (fun _ => rfl)]
    · rfl
    · intro h
      rw [Impl.registerWorkload, if_pos h]
  | publishBaseline baseline =>
    rw [invoke, Method.map_free _ (Method.publishBaseline_free st baseline), Request.code,
      checked_run st (f := (·.publishBaseline baseline)) ?_ (fun _ => rfl)]
    · rfl
    · intro h
      rw [Impl.publishBaseline, if_pos h]
  | recordObservation observation =>
    rw [invoke, Method.map_free _ (Method.recordObservation_free st observation),
      recordObservation_run]
    rfl
  | compare affected associated domain obs policy =>
    rw [Request.code, Code.run, compareBody_run]
    rfl
  | recordRecovery victim neighbor domain =>
    rw [invoke, Method.map_free _ (Method.recordRecovery_free st victim neighbor domain),
      Request.code, checked_run st (f := (·.recordRecovery victim neighbor domain)) ?_
        (fun _ => rfl)]
    · rfl
    · intro h
      rw [Impl.recordRecovery, if_pos h]
  | runExperiment plan policy =>
    rw [Request.code, Code.run, runExperimentBody_run st plan policy]
    change ((Method.runExperiment plan policy ⟨false, st⟩).bind fun r => some (_, r.2)) = _
    rw [Method.runExperiment_free]
    rcases st.runExperiment plan policy with _ | r <;> rfl
  | load file =>
    rw [Request.code, Code.run, loadBody_run]
    rfl
  | _ => rfl

end Alone

def Serves : Impl Double → List (Request × Response) → Impl Double → Prop
  | st, [], st' => st = st'
  | st, (q, r) :: l, st' => ∃ st₁, invoke q ⟨false, st⟩ = some (r, ⟨false, st₁⟩) ∧ Serves st₁ l st'

theorem serves_of_replays {st st' : Impl Double} {l : List (Request × Response)}
    (h : Replays Request.code st l st') : Serves st l st' := by
  induction l generalizing st with
  | nil => exact h
  | cons e l ih =>
    obtain ⟨st₁, hrun, hl⟩ := h
    refine ⟨st₁, ?_, ih hl⟩
    rw [invoke_code, hrun]
    rfl

section Schedules

variable {τ : Type} [DecidableEq τ] {st : Impl Double} {moves : List (Move τ Request (Impl Double))}
  {c : Config τ Request (Impl Double) Response}

/-- Whatever the schedule of the threads, the requests that have taken effect could have been
served one after the other, in that order and with the same responses, and a free mutex leaves
the state they lead to. Each request takes effect between its call and its return, and returns
the response it had then. -/
theorem schedule_serves (h : Schedule Request.code (initial st) moves c) :
    ∃ st', Serves st (effects c.trace) st' ∧ (c.holder = none → c.state = st') ∧
      ∀ t, Follows t (eventsOf t c.trace) (c.threads t).stage := by
  obtain ⟨base, hreplays, hsettled⟩ := Schedule.settled h
  exact ⟨base, serves_of_replays hreplays, hsettled.free, Schedule.orderly h⟩

end Schedules

theorem exists_schedule {α : Type} {s : Impl Double} {m : List (Move Bool Request (Impl Double))}
    {f : Config Bool Request (Impl Double) Response → α} {a : α}
    (h : (exec (Monitors.step Request.code) (initial s) m).map f = some a) :
    ∃ c, Schedule Request.code (initial s) m c ∧ f c = a := by
  obtain ⟨c, hc, ha⟩ := Option.map_eq_some_iff.mp h
  exact ⟨c, Run.of_exec (fun _ _ => trivial) hc, ha⟩

namespace Demo

def overtaking : List (Move Bool Request (Impl Double)) :=
  [.start true (.setCoordinatorEpoch ⟨2⟩), .start false (.recordRecovery ⟨1⟩ ⟨2⟩ .cache),
    .advance false, .advance false, .advance false, .advance true, .advance true, .advance true,
    .advance true, .advance false, .start false .coordinatorEpoch,
    .stray false (Impl.fresh ⟨1⟩ ⟨1⟩)]

end Demo

theorem schedule_serves_overtaking :
    ∃ c, Schedule Request.code (initial (Impl.fresh ⟨1⟩ ⟨1⟩)) Demo.overtaking c ∧
      Serves (Impl.fresh ⟨1⟩ ⟨1⟩) [(.recordRecovery ⟨1⟩ ⟨2⟩ .cache, .status .ok),
        (.setCoordinatorEpoch ⟨2⟩, .done)] c.state := by
  obtain ⟨c, hc, hfacts⟩ := exists_schedule (s := Impl.fresh ⟨1⟩ ⟨1⟩) (m := Demo.overtaking)
    (f := fun c => (effects c.trace, c.holder)) (a := ([(.recordRecovery ⟨1⟩ ⟨2⟩ .cache,
      .status .ok), (.setCoordinatorEpoch ⟨2⟩, .done)], none)) rfl
  obtain ⟨heffects, hholder⟩ : effects c.trace = _ ∧ c.holder = none := by
    simpa only [Prod.mk.injEq] using hfacts
  obtain ⟨st', hserves, hfree, -⟩ := schedule_serves hc
  rw [heffects, ← hfree hholder] at hserves
  exact ⟨c, hc, hserves⟩

section Frozen

variable {τ : Type} [DecidableEq τ] {st : Impl Double} {moves : List (Move τ Request (Impl Double))}
  {c : Config τ Request (Impl Double) Response}

theorem runExperimentBody_visits {plan : ExperimentPlan} {base seen : Impl Double}
    (h : seen ∈ (runExperimentBody plan).visits base) : seen = base := by
  rcases List.mem_cons.mp h with rfl | h
  · rfl
  · dsimp only at h
    by_cases hid : plan.id.isNil
    · rw [if_pos hid] at h
      exact List.mem_singleton.mp h
    · rw [if_neg hid] at h
      generalize base.workloads.find? plan.primary = primary at h
      generalize base.workloads.find? plan.neighbor = neighbor at h
      rcases primary with _ | primary
      · exact List.mem_singleton.mp h
      · rcases neighbor with _ | neighbor
        · exact List.mem_singleton.mp h
        · dsimp only at h
          generalize (if plan.neighbor = plan.primary then [] else
            base.coRunObservations plan.neighbor plan.primary) = neighborObs at h
          split_ifs at h <;> exact List.mem_singleton.mp h

/-- The experiment has an identity, and its two workloads are registered and were observed
beside each other. -/
def Impl.Stuck (st : Impl Double) (plan : ExperimentPlan) : Prop :=
  plan.id.isNil = false ∧ st.workloads.find? plan.primary ≠ none ∧
    st.workloads.find? plan.neighbor ≠ none ∧ st.CoRan plan

theorem runExperiment_eq_none_iff {plan : ExperimentPlan} {policy : Policy Double} :
    st.runExperiment plan policy = none ↔ st.Stuck plan := by
  have hsome : (st.runExperiment plan policy).isSome = true ↔ _ := runExperiment_isSome_iff
  rw [← Option.not_isSome_iff_eq_none, hsome]
  unfold Impl.Stuck
  tauto

theorem stuck_of_run_none {q : Request} {base : Impl Double} (h : q.code.run base = none) :
    ∃ plan policy, q = .runExperiment plan policy ∧ base.Stuck plan := by
  have hcall := Method.invoke_call base q
  rw [invoke_code, h] at hcall
  have hnone : call base q.call = none := Option.map_eq_none_iff.mp hcall.symm
  cases q with
  | runExperiment plan policy =>
    have hexp : base.runExperiment plan policy = none := Option.map_eq_none_iff.mp hnone
    exact ⟨plan, policy, rfl, runExperiment_eq_none_iff.mp hexp⟩
  | _ => cases hnone

/-- A request in front of the mutex can be let in under some schedule exactly if the request
inside is not an experiment over two registered workloads that were observed beside each
other. -/
theorem waiting_enters_iff (h : Schedule Request.code (initial st) moves c) {t : τ} {q : Request}
    {b : Body (Impl Double) Response} (hwait : c.threads t = .waiting q b) :
    (∃ moves' c', Schedule Request.code c moves' c' ∧ c'.threads t = .inside q b) ↔
      ¬ ∃ t' plan policy b', c.threads t' = .inside (.runExperiment plan policy) b' ∧
        c.state.Stuck plan := by
  obtain ⟨base, -, hsettled⟩ := Schedule.settled h
  rw [hsettled.enters_iff hwait, ← not_exists, not_iff_not]
  constructor
  · rintro ⟨t', hdoomed⟩
    obtain ⟨q', b', b₀, hin, hcode, hrun, hvisits⟩ := hsettled.held t' hdoomed.holder
    obtain ⟨q'', b'', hin', hnone⟩ := hdoomed.inside
    rw [hin] at hin'
    cases hin'
    have hstuck : q'.code.run base = none := by
      rw [hcode, Code.run, ← hrun, hnone]
    obtain ⟨plan, policy, rfl, hplan⟩ := stuck_of_run_none hstuck
    obtain rfl := Code.guarded.inj hcode
    have hstate : c.state = base := runExperimentBody_visits (hvisits (b'.self_mem_visits _))
    rw [hstate]
    exact ⟨t', plan, policy, b', hin, hplan⟩
  · rintro ⟨t', plan, policy, b', hin, hplan⟩
    have hholder := hsettled.holder hin
    obtain ⟨q', b'', b₀, hin', hcode, hrun, hvisits⟩ := hsettled.held t' hholder
    rw [hin] at hin'
    cases hin'
    obtain rfl := Code.guarded.inj hcode
    have hstate : c.state = base := runExperimentBody_visits (hvisits (b'.self_mem_visits _))
    refine ⟨t', hsettled.doomed hin hcode ?_⟩
    rw [runExperimentBody_run base plan policy, ← hstate, runExperiment_eq_none_iff.mpr hplan]
    rfl

end Frozen

namespace Demo

def frozen : List (Move Bool Request (Impl Double)) :=
  [.start true (.runExperiment plan .init), .advance true, .start false .episodeCount]

end Demo

theorem waiting_enters_iff_frozen :
    ∃ (c : Config Bool Request (Impl Double) Response) (b : Body (Impl Double) Response),
      Schedule Request.code (initial Demo.observed) Demo.frozen c ∧
      c.threads false = .waiting .episodeCount b ∧
      ¬ ∃ moves' c', Schedule Request.code c moves' c' ∧
        c'.threads false = .inside .episodeCount b := by
  obtain ⟨c, hc, hfacts⟩ := exists_schedule (s := Demo.observed) (m := Demo.frozen)
    (f := fun c => (c.threads false, c.threads true, c.state))
    (a := (.waiting .episodeCount (reading fun st => .count st.episodes.size),
      .inside (.runExperiment Demo.plan .init) (runExperimentBody Demo.plan), Demo.observed)) rfl
  obtain ⟨hwait, hin, hstate⟩ : c.threads false = _ ∧ c.threads true = _ ∧ c.state = _ := by
    simpa only [Prod.mk.injEq] using hfacts
  refine ⟨c, _, hc, hwait, fun henters => (waiting_enters_iff hc hwait).mp henters ?_⟩
  have hnone : (Demo.observed.runExperiment Demo.plan .init).isNone = true := by decide +kernel
  refine ⟨true, Demo.plan, .init, _, hin, ?_⟩
  rw [hstate]
  exact runExperiment_eq_none_iff.mp (Option.isNone_iff_eq_none.mp hnone)

section Kinds

variable {α ρ : Type} {request : α → Request} {answer : ρ → Response}
  {run : Impl Double → α → ρ × Impl Double}

structure Locked (request : α → Request) (answer : ρ → Response)
    (run : Impl Double → α → ρ × Impl Double) : Prop where
  injective : Function.Injective request
  invoke : ∀ st a, invoke (request a) ⟨false, st⟩ =
    some (answer (run st a).1, ⟨false, (run st a).2⟩)
  notPeek : ∀ a view, (request a).code ≠ .peek view

theorem Locked.serves (hk : Locked request answer run) {st st' : Impl Double} {l : List α}
    {served : List (Request × Response)} (hl : served.map Prod.fst = l.map request)
    (h : Serves st served st') :
    st' = (Calls.runAll run st l).2 ∧
      served = (l.map request).zip ((Calls.runAll run st l).1.map answer) := by
  induction l generalizing st served with
  | nil =>
    obtain rfl := List.map_eq_nil_iff.mp hl
    exact ⟨h.symm, rfl⟩
  | cons a l ih =>
    rcases served with _ | ⟨⟨q, r⟩, served⟩
    · cases hl
    · rw [List.map_cons, List.map_cons, List.cons.injEq] at hl
      obtain ⟨hq, hl⟩ := hl
      obtain rfl : q = request a := hq
      obtain ⟨st₁, hinvoke, hserves⟩ := h
      rw [hk.invoke] at hinvoke
      cases hinvoke
      obtain ⟨rfl, hserved⟩ := ih hl hserves
      exact ⟨rfl, congrArg _ hserved⟩

variable {τ : Type} [DecidableEq τ] {st : Impl Double} {moves : List (Move τ Request (Impl Double))}
  {c : Config τ Request (Impl Double) Response} {l : List α}

theorem Locked.effects_eq_answers (hk : Locked request answer run)
    (h : Schedule Request.code (initial st) moves c)
    (hl : ∀ e ∈ answers c.trace, ∃ a, e.2.1 = request a) :
    effects c.trace = (answers c.trace).map Prod.snd := by
  rw [effects, answers, List.map_filterMap]
  apply List.filterMap_congr
  intro e he
  rcases e with _ | _ | ⟨t, q, r⟩ | _
  · rfl
  · rfl
  · obtain ⟨view, hview⟩ := Schedule.peeks h t q r he
    have hanswer : (t, q, r) ∈ answers c.trace := List.mem_filterMap.mpr ⟨_, he, rfl⟩
    obtain ⟨a, rfl⟩ := hl _ hanswer
    exact absurd hview (hk.notPeek a view)
  · rfl

theorem Locked.serial (hk : Locked request answer run)
    (h : Schedule Request.code (initial st) moves c) (hidle : ∀ t, c.threads t = .idle)
    (hl : (calls c.trace).map Prod.snd = l.map request) :
    ∃ l', l'.Perm l ∧ c.state = (Calls.runAll run st l').2 ∧
      ((results c.trace).map Prod.snd).Perm
        ((l'.map request).zip ((Calls.runAll run st l').1.map answer)) := by
  obtain ⟨base, hreplays, hsettled⟩ := Schedule.settled h
  obtain ⟨hcalls, hresults⟩ := (Schedule.orderly h).idle hidle
  have hfree : c.holder = none := by
    rcases hholder : c.holder with _ | t
    · rfl
    · obtain ⟨k, b, -, hin, -⟩ := hsettled.held t hholder
      rw [hidle t] at hin
      cases hin
  have hperm : ((answers c.trace).map fun e => e.2.1).Perm (l.map request) := by
    have hsnd := hcalls.map Prod.snd
    rw [hl, List.map_map] at hsnd
    exact hsnd.symm
  have hrange : ∀ e ∈ answers c.trace, ∃ a, e.2.1 = request a := by
    intro e he
    obtain ⟨a, -, ha⟩ := List.mem_map.mp (hperm.subset (List.mem_map_of_mem he))
    exact ⟨a, ha.symm⟩
  have heffects := hk.effects_eq_answers h hrange
  -- the calls in the order in which they took effect
  obtain ⟨l', hl'⟩ : ∃ l', List.map request l' = (effects c.trace).map Prod.fst := by
    have hmem : (effects c.trace).map Prod.fst ∈ Set.range (List.map request) := by
      rw [Set.range_list_map, heffects, List.map_map]
      intro q hq
      obtain ⟨e, he, rfl⟩ := List.mem_map.mp hq
      obtain ⟨a, ha⟩ := hrange e he
      exact ⟨a, ha.symm⟩
    exact hmem
  have hp : l'.Perm l := by
    rw [← List.map_perm_map_iff hk.injective, hl', heffects, List.map_map]
    exact hperm
  obtain ⟨rfl, hserved⟩ := hk.serves hl'.symm (serves_of_replays hreplays)
  refine ⟨l', hp, hsettled.free hfree, ?_⟩
  rw [← hserved, heffects]
  exact (hresults.map Prod.snd).symm

end Kinds

end Iobs
