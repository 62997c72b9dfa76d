import InterferenceObservatory.Revalidation
import InterferenceObservatory.Steps

/-! What is on record. The registries of sources, workers and baselines as functions of the calls
made so far: which call the record of an identity comes from, and what the epoch changes after
that call have left of it. -/

namespace Iobs
open DoubleOps Std Runs

variable {F : Type}

def Op.epoch : Op F → Option CoordinatorEpoch
  | .setCoordinatorEpoch epoch => some epoch
  | _ => none

def epochsOf (hist : List (Op F)) : List CoordinatorEpoch := hist.filterMap Op.epoch

def epochAfter (e : CoordinatorEpoch) (hist : List (Op F)) : CoordinatorEpoch :=
  (epochsOf hist).getLast?.getD e

theorem epochsOf_concat (hist : List (Op F)) (op : Op F) :
    epochsOf (hist ++ [op]) = epochsOf hist ++ op.epoch.toList := by
  rw [epochsOf, List.filterMap_append]
  cases op <;> rfl

variable [DoubleOps F] {st st' : Impl F} {op : Op F} {allowed : Impl F → Op F → Prop}
  {hist : List (Op F)}

theorem step_epoch (h : step st op = some st') : st'.epoch = op.epoch.getD st.epoch := by
  cases step_effect h with
  | unchanged op =>
    cases op with
    | setCoordinatorEpoch epoch =>
      obtain h := Option.some.inj h
      by_cases he : epoch = st.epoch
      · exact he.symm
      · rw [Impl.setCoordinatorEpoch_eq, if_neg he] at h
        exact absurd (congrArg Impl.epoch h) he
    | _ => rfl
  | @epochAdvanced epoch he =>
    rw [Impl.setCoordinatorEpoch_eq, if_neg he]
    rfl
  | @verdictStored affected associated domain obs policy usable _ =>
    obtain ⟨episodes, heq⟩ := st.recordVerdict_snd affected associated domain obs
      (st.verdictOn affected associated domain obs policy usable)
    rw [heq]
    rfl
  | _ => rfl

theorem run_epoch (hr : Run step allowed st hist st') : st'.epoch = epochAfter st.epoch hist := by
  refine hr.history_invariant (I := fun hist s => s.epoch = epochAfter st.epoch hist) rfl ?_
  intro hist s op s' _ hs ih
  rw [step_epoch hs, ih, epochAfter, epochAfter, epochsOf_concat]
  rcases op.epoch with _ | e
  · simp
  · simp

section Revocable

variable {R : Type} {view : Impl F → Option R} {demote : R → R} {keeps : Impl F → Op F → Prop}

structure Revocable (view : Impl F → Option R) (demote : R → R)
    (keeps : Impl F → Op F → Prop) : Prop where
  idem : ∀ r, demote (demote r) = demote r
  kept : ∀ {s op s'}, step s op = some s' → keeps s op →
    view s' = if s'.epoch = s.epoch then view s else (view s).map demote

theorem Revocable.run (h : Revocable view demote keeps) (hr : Run step keeps st hist st') :
    view st' = if ∀ e ∈ epochsOf hist, e = st.epoch then view st else (view st).map demote := by
  refine hr.history_invariant (I := fun hist s =>
    (view s = if ∀ e ∈ epochsOf hist, e = st.epoch then view st else (view st).map demote) ∧
    ((∀ e ∈ epochsOf hist, e = st.epoch) → s.epoch = st.epoch)) ?_ ?_ |>.1
  · refine ⟨?_, fun _ => rfl⟩
    rw [if_pos]
    simp [epochsOf]
  · rintro hist s op s' hkeeps hs ⟨hview, hepoch⟩
    rw [h.kept hs hkeeps, hview, step_epoch hs, epochsOf_concat]
    rcases hop : op.epoch with _ | e
    · simp only [Option.getD_none, if_true, Option.toList_none, List.append_nil, true_and]
      exact hepoch
    · simp only [Option.getD_some, Option.toList_some, List.forall_mem_append,
        List.mem_singleton, forall_eq]
      refine ⟨?_, fun hall => hall.2⟩
      by_cases hall : ∀ e ∈ epochsOf hist, e = st.epoch
      · rw [if_pos hall, hepoch hall]
        exact if_congr (and_iff_right hall).symm rfl rfl
      · have htwice : ((view st).map demote).map demote = (view st).map demote := by
          rw [Option.map_map]
          exact congrArg (fun f => (view st).map f) (funext h.idem)
        rw [if_neg hall, htwice, ite_self, if_neg]
        exact fun hboth => hall hboth.1

end Revocable

def RegistersSource (id : SourceId) (op : Op F) : Prop :=
  ∃ gen name caps, op = .registerSource id gen name caps ∧ id.isNil = false ∧ gen.isNil = false

omit [DoubleOps F] in
theorem registerSource_getElem? (st : Impl F) (id id' : SourceId) (gen : SourceGeneration)
    (name : ByteString) (caps : BackendCapabilities) :
    (st.registerSource id gen name caps).2.sources[id']? =
      if id' = id ∧ id.isNil = false ∧ gen.isNil = false then
        some ⟨gen, name, caps, if ∀ s ∈ st.sources[id]?, s.generation = gen then .current
          else .revalidationRequired⟩
      else st.sources[id']? := by
  unfold Impl.registerSource
  by_cases hnil : id.isNil = false ∧ gen.isNil = false
  · obtain ⟨hid, hgen⟩ := hnil
    simp only [hid, hgen, Bool.or_self, Bool.false_eq_true, if_false, and_true]
    by_cases hsame : id' = id
    · subst hsame
      rcases hs : st.sources[id']? with _ | s
      · simp
      · by_cases hg : s.generation = gen
        · simp [hg]
        · simp [hg]
    · rw [if_neg hsame]
      split
      · split_ifs
        · exact getElem?_insert_of_ne hsame
        · exact getElem?_insert_of_ne hsame
      · exact getElem?_insert_of_ne hsame
  · have hbad : (id.isNil || gen.isNil) = true := by
      rw [not_and_or, Bool.not_eq_false, Bool.not_eq_false] at hnil
      rwa [Bool.or_eq_true]
    rw [if_pos hbad, if_neg fun h => hnil h.2]

theorem source_revocable (id : SourceId) :
    Revocable (F := F) (fun st => st.sources[id]?) Impl.demoteSource
      (fun _ op => ¬ RegistersSource id op) where
  idem := Impl.demoteSource_idem
  kept := by
    intro s op s' hs hop
    cases step_effect hs with
    | unchanged op => rw [if_pos rfl]
    | @epochAdvanced epoch he =>
      rw [Impl.setCoordinatorEpoch_eq, if_neg he, if_neg]
      · exact ExtTreeMap.getElem?_map
      · exact he
    | @sourceStored id' gen name caps f hf =>
      have hsame := (congrArg Impl.sources (Option.some.inj hs)).symm
      rw [if_pos rfl, hsame, registerSource_getElem?, if_neg]
      rintro ⟨rfl, hnil⟩
      exact hop ⟨gen, name, caps, rfl, hnil⟩
    | @verdictStored affected associated domain obs policy usable _ =>
      obtain ⟨episodes, heq⟩ := s.recordVerdict_snd affected associated domain obs
        (s.verdictOn affected associated domain obs policy usable)
      rw [heq, if_pos rfl]
    | _ => rw [if_pos rfl]

def Op.generationOf (id : SourceId) : Op F → Option SourceGeneration
  | .registerSource id' gen _ _ =>
    if id = id' ∧ id'.isNil = false ∧ gen.isNil = false then some gen else none
  | _ => none

def generationAfter (id : SourceId) (g : Option SourceGeneration) (hist : List (Op F)) :
    Option SourceGeneration :=
  (hist.filterMap (Op.generationOf id)).getLast?.or g

omit [DoubleOps F] in
theorem generationAfter_concat (id : SourceId) (g : Option SourceGeneration) (hist : List (Op F))
    (op : Op F) :
    generationAfter id g (hist ++ [op]) = (op.generationOf id).or (generationAfter id g hist) := by
  unfold generationAfter
  rw [List.filterMap_append]
  rcases hop : op.generationOf id with _ | gen
  · simp [hop]
  · simp [hop]

theorem step_generation (h : step st op = some st') (id : SourceId) :
    st'.sources[id]?.map SourceRec.generation =
      (op.generationOf id).or (st.sources[id]?.map SourceRec.generation) := by
  by_cases hop : RegistersSource id op
  · obtain ⟨gen, name, caps, rfl, hnil⟩ := hop
    obtain rfl := Option.some.inj h
    have hgen : (Op.registerSource id gen name caps : Op F).generationOf id = some gen :=
      if_pos ⟨rfl, hnil⟩
    rw [registerSource_getElem?, if_pos ⟨rfl, hnil⟩, hgen]
    rfl
  · have hnone : op.generationOf id = none := by
      cases op with
      | registerSource id' gen name caps =>
        refine if_neg ?_
        rintro ⟨rfl, hnil⟩
        exact hop ⟨gen, name, caps, rfl, hnil⟩
      | _ => rfl
    have hdemote (s : SourceRec) : (Impl.demoteSource s).generation = s.generation := by
      unfold Impl.demoteSource
      split_ifs
      · rfl
      · rfl
    rw [hnone, Option.none_or, (source_revocable id).kept h hop]
    split_ifs
    · rfl
    · rw [Option.map_map]
      exact congrArg (fun f => st.sources[id]?.map f) (funext hdemote)

theorem run_generation (hr : Run step allowed st hist st') (id : SourceId) :
    st'.sources[id]?.map SourceRec.generation =
      generationAfter id (st.sources[id]?.map SourceRec.generation) hist := by
  refine hr.history_invariant (I := fun hist s => s.sources[id]?.map SourceRec.generation =
    generationAfter id (st.sources[id]?.map SourceRec.generation) hist) rfl ?_
  intro hist s op s' _ hs ih
  rw [step_generation hs, ih, generationAfter_concat]

theorem demoteSource_registered (gen : SourceGeneration) (name : ByteString)
    (caps : BackendCapabilities) (c : Prop) [Decidable c] :
    Impl.demoteSource ⟨gen, name, caps, if c then .current else .revalidationRequired⟩ =
      ⟨gen, name, caps, .revalidationRequired⟩ := by
  split_ifs
  · rfl
  · rfl

/-- After calls other than `load` a source on record is as its last registration left it. It is
current exactly if that registration named the generation that was on record, or there was none,
and the epoch has not changed since; otherwise it has to be revalidated. -/
theorem source_on_record (hr : Run step allowed st hist st') (id : SourceId) :
    ((∀ op ∈ hist, ¬ RegistersSource id op) ∧ st'.sources[id]? =
      if ∀ e ∈ epochsOf hist, e = st.epoch then st.sources[id]?
      else st.sources[id]?.map Impl.demoteSource) ∨
    ∃ pre gen name caps post, hist = pre ++ .registerSource id gen name caps :: post ∧
      (∀ op ∈ post, ¬ RegistersSource id op) ∧
      st'.sources[id]? = some ⟨gen, name, caps,
        if (∀ g ∈ generationAfter id (st.sources[id]?.map SourceRec.generation) pre, g = gen) ∧
            ∀ e ∈ epochsOf post, e = epochAfter st.epoch pre then .current
        else .revalidationRequired⟩ := by
  rcases hr.cut_last (RegistersSource id) with
    hnone | ⟨pre, op, post, s₁, s₂, rfl, hop, hpost, hpre, hstep, hrest⟩
  · exact .inl ⟨hnone, (source_revocable id).run (hr.restrict hnone)⟩
  · obtain ⟨gen, name, caps, rfl, hnil⟩ := hop
    refine .inr ⟨pre, gen, name, caps, post, rfl, hpost, ?_⟩
    have hepoch : s₂.epoch = epochAfter st.epoch pre := (step_epoch hstep).trans (run_epoch hpre)
    have hgen : (∀ s ∈ s₁.sources[id]?, s.generation = gen) ↔
        ∀ g ∈ generationAfter id (st.sources[id]?.map SourceRec.generation) pre, g = gen := by
      rw [← run_generation hpre]
      simp
    have hstored : s₂.sources[id]? = some ⟨gen, name, caps,
        if ∀ s ∈ s₁.sources[id]?, s.generation = gen then .current else .revalidationRequired⟩ := by
      obtain rfl := Option.some.inj hstep
      rw [registerSource_getElem?, if_pos ⟨rfl, hnil⟩]
    rw [(source_revocable id).run (hrest.restrict hpost), hstored, hepoch, if_congr hgen rfl rfl]
    by_cases hall : ∀ e ∈ epochsOf post, e = epochAfter st.epoch pre
    · rw [if_pos hall]
      exact congrArg (fun f => some (SourceRec.mk gen name caps f))
        (if_congr (and_iff_left hall).symm rfl rfl)
    · rw [if_neg hall, Option.map_some, demoteSource_registered, if_neg]
      exact fun hboth => hall hboth.2

namespace Demo

def returning : List (Op Double) :=
  [.registerSource ⟨7⟩ ⟨1⟩ [] .init, .setCoordinatorEpoch ⟨2⟩, .registerWorker ⟨7⟩ ⟨1⟩ [] true]

theorem returning_run : ∃ st' : Impl Double,
    Run step (fun _ _ => True) (Impl.fresh ⟨1⟩ ⟨1⟩) returning st' :=
  ⟨_, Run.of_exec (fun _ _ => trivial) rfl⟩

end Demo

theorem source_on_record_returning :
    ∃ st' : Impl Double, Run step (fun _ _ => True) (Impl.fresh ⟨1⟩ ⟨1⟩) Demo.returning st' ∧
      st'.sources[(⟨7⟩ : SourceId)]? ≠ none := by
  obtain ⟨st', hrun⟩ := Demo.returning_run
  refine ⟨st', hrun, ?_⟩
  rcases source_on_record hrun ⟨7⟩ with ⟨hnone, -⟩ | ⟨pre, gen, name, caps, post, -, -, hstored⟩
  · exact absurd ⟨⟨1⟩, [], .init, rfl, rfl, rfl⟩ (hnone _ (List.mem_cons_self ..))
  · rw [hstored]
    exact Option.some_ne_none _

def RegistersWorker (id : WorkerId) (op : Op F) : Prop :=
  ∃ boot name connected, op = .registerWorker id boot name connected ∧
    id.isNil = false ∧ boot.isNil = false

omit [DoubleOps F] in
theorem registerWorker_getElem? (st : Impl F) (id id' : WorkerId) (boot : WorkerBootId)
    (name : ByteString) (connected : Bool) :
    (st.registerWorker id boot name connected).2.workers[id']? =
      if id' = id ∧ id.isNil = false ∧ boot.isNil = false then some ⟨boot, name, connected⟩
      else st.workers[id']? := by
  unfold Impl.registerWorker
  by_cases hnil : id.isNil = false ∧ boot.isNil = false
  · obtain ⟨hid, hboot⟩ := hnil
    simp only [hid, hboot, Bool.or_self, Bool.false_eq_true, if_false, and_true]
    by_cases hsame : id' = id
    · subst hsame
      rcases hs : st.workers[id']? with _ | w
      · simp
      · by_cases hb : w.boot = boot
        · simp [hb]
        · simp [hb]
    · rw [if_neg hsame]
      split
      · split_ifs
        · exact getElem?_insert_of_ne hsame
        · exact getElem?_insert_of_ne hsame
      · exact getElem?_insert_of_ne hsame
  · have hbad : (id.isNil || boot.isNil) = true := by
      rw [not_and_or, Bool.not_eq_false, Bool.not_eq_false] at hnil
      rwa [Bool.or_eq_true]
    rw [if_pos hbad, if_neg fun h => hnil h.2]

theorem worker_revocable (id : WorkerId) :
    Revocable (F := F) (fun st => st.workers[id]?) Impl.disconnect
      (fun _ op => ¬ RegistersWorker id op) where
  idem := fun _ => rfl
  kept := by
    intro s op s' hs hop
    cases step_effect hs with
    | unchanged op => rw [if_pos rfl]
    | @epochAdvanced epoch he =>
      rw [Impl.setCoordinatorEpoch_eq, if_neg he, if_neg]
      · exact ExtTreeMap.getElem?_map
      · exact he
    | @workerStored id' boot name connected =>
      have hsame := (congrArg Impl.workers (Option.some.inj hs)).symm
      rw [if_pos rfl, hsame, registerWorker_getElem?, if_neg]
      rintro ⟨rfl, hnil⟩
      exact hop ⟨boot, name, connected, rfl, hnil⟩
    | @verdictStored affected associated domain obs policy usable _ =>
      obtain ⟨episodes, heq⟩ := s.recordVerdict_snd affected associated domain obs
        (s.verdictOn affected associated domain obs policy usable)
      rw [heq, if_pos rfl]
    | _ => rw [if_pos rfl]

/-- After calls other than `load` a worker on record has the boot and the name of its last
registration, and it is connected exactly if that registration said so and the epoch has not
changed since. -/
theorem worker_on_record (hr : Run step allowed st hist st') (id : WorkerId) :
    ((∀ op ∈ hist, ¬ RegistersWorker id op) ∧ st'.workers[id]? =
      if ∀ e ∈ epochsOf hist, e = st.epoch then st.workers[id]?
      else st.workers[id]?.map Impl.disconnect) ∨
    ∃ pre boot name connected post, hist = pre ++ .registerWorker id boot name connected :: post ∧
      (∀ op ∈ post, ¬ RegistersWorker id op) ∧
      st'.workers[id]? = some ⟨boot, name,
        if ∀ e ∈ epochsOf post, e = epochAfter st.epoch pre then connected else false⟩ := by
  rcases hr.cut_last (RegistersWorker id) with
    hnone | ⟨pre, op, post, s₁, s₂, rfl, hop, hpost, hpre, hstep, hrest⟩
  · exact .inl ⟨hnone, (worker_revocable id).run (hr.restrict hnone)⟩
  · obtain ⟨boot, name, connected, rfl, hnil⟩ := hop
    refine .inr ⟨pre, boot, name, connected, post, rfl, hpost, ?_⟩
    have hepoch : s₂.epoch = epochAfter st.epoch pre := (step_epoch hstep).trans (run_epoch hpre)
    have hstored : s₂.workers[id]? = some ⟨boot, name, connected⟩ := by
      obtain rfl := Option.some.inj hstep
      rw [registerWorker_getElem?, if_pos ⟨rfl, hnil⟩]
    rw [(worker_revocable id).run (hrest.restrict hpost), hstored, hepoch]
    split_ifs
    · rfl
    · rfl

theorem worker_on_record_returning :
    ∃ st' : Impl Double, Run step (fun _ _ => True) (Impl.fresh ⟨1⟩ ⟨1⟩) Demo.returning st' ∧
      st'.workers[(⟨7⟩ : WorkerId)]? ≠ none := by
  obtain ⟨st', hrun⟩ := Demo.returning_run
  refine ⟨st', hrun, ?_⟩
  rcases worker_on_record hrun ⟨7⟩ with ⟨hnone, -⟩ | ⟨pre, boot, name, on, post, -, -, hstored⟩
  · have hmem : Op.registerWorker ⟨7⟩ ⟨1⟩ [] true ∈ Demo.returning := by simp [Demo.returning]
    exact absurd ⟨⟨1⟩, [], true, rfl, rfl, rfl⟩ (hnone _ hmem)
  · rw [hstored]
    exact Option.some_ne_none _

def PublishesBaseline (id : BaselineId) (op : Op F) : Prop :=
  ∃ b, op = .publishBaseline b ∧ b.id = id ∧ Impl.checkBaseline b = .ok

theorem publishBaseline_find? {b : Baseline F} (hcheck : Impl.checkBaseline b = .ok)
    (hnew : st.baselines.find? b.id = none) :
    (st.publishBaseline b).2.baselines.find? b.id = some (Impl.stampFreshness b) := by
  have hid : (Impl.stampFreshness b).id = b.id := Impl.stampFreshness_id b
  unfold Impl.publishBaseline
  rw [if_neg (not_not_intro hcheck), hnew]
  dsimp only
  rw [KeyedMap.find?_emplace, hid, if_pos rfl, hnew]
  rfl

theorem unpublished_step (h : step st op = some st') {id : BaselineId}
    (hnew : st.baselines.find? id = none) (hop : ¬ PublishesBaseline id op) :
    st'.baselines.find? id = none := by
  rcases (step_effect h).baselines with heq | ⟨epoch, -, heq⟩ | ⟨b, rfl, hcheck, -, heq⟩
  · rwa [heq]
  · rw [heq, KeyedMap.find?_mapValues, hnew]
    rfl
  · have hne : (Impl.stampFreshness b).id ≠ id := by
      rw [Impl.stampFreshness_id]
      exact fun hid => hop ⟨b, rfl, hid, hcheck⟩
    rw [heq, KeyedMap.find?_emplace, if_neg hne]
    exact hnew

theorem baseline_revocable (id : BaselineId) :
    Revocable (F := F) (fun st => st.baselines.find? id) Impl.demoteBaseline
      (fun st _ => (st.baselines.find? id).isSome = true) where
  idem := Impl.demoteBaseline_idem
  kept := by
    intro s op s' hs hsome
    obtain ⟨b, hb⟩ := Option.isSome_iff_exists.mp hsome
    cases step_effect hs with
    | unchanged op => rw [if_pos rfl]
    | @epochAdvanced epoch he =>
      rw [Impl.setCoordinatorEpoch, if_neg he, if_neg]
      · rw [KeyedMap.find?_mapValues]
      · exact he
    | @baselineStored b' hcheck hnew => rw [if_pos rfl, hb, KeyedMap.find?_emplace_of_some hb]
    | @verdictStored affected associated domain obs policy usable _ =>
      obtain ⟨episodes, heq⟩ := s.recordVerdict_snd affected associated domain obs
        (s.verdictOn affected associated domain obs policy usable)
      rw [heq, if_pos rfl]
    | _ => rw [if_pos rfl]

theorem recorded_step (h : step st op = some st') {id : BaselineId}
    (hsome : (st.baselines.find? id).isSome = true) :
    (st'.baselines.find? id).isSome = true := by
  rw [(baseline_revocable id).kept h hsome]
  split_ifs
  · exact hsome
  · rwa [Option.isSome_map]

/-- Under an identity that had no baseline at the start, and after calls other than `load`, the
baseline on record is the first one that was published with success, as it was published but for
its freshness; an epoch change after that has demoted it, and nothing published later has replaced
it. -/
theorem baseline_on_record (hr : Run step allowed st hist st') {id : BaselineId}
    (hnew : st.baselines.find? id = none) :
    ((∀ op ∈ hist, ¬ PublishesBaseline id op) ∧ st'.baselines.find? id = none) ∨
    ∃ pre b post, hist = pre ++ .publishBaseline b :: post ∧ PublishesBaseline id
        (.publishBaseline b : Op F) ∧ (∀ op ∈ pre, ¬ PublishesBaseline id op) ∧
      st'.baselines.find? id = some
        (if ∀ e ∈ epochsOf post, e = epochAfter st.epoch pre then Impl.stampFreshness b
        else Impl.demoteBaseline (Impl.stampFreshness b)) := by
  have hunpublished {s : Impl F} {h : List (Op F)} (hr : Run step allowed st h s)
      (hall : ∀ op ∈ h, ¬ PublishesBaseline id op) : s.baselines.find? id = none :=
    (hr.restrict hall).invariant (I := fun s => s.baselines.find? id = none) hnew
      fun _ _ _ hop hs hs₀ => unpublished_step hs hs₀ hop
  rcases hr.cut_first (PublishesBaseline id) with
    hnone | ⟨pre, op, post, s₁, s₂, rfl, hop, hpre, hfront, hstep, hrest⟩
  · exact .inl ⟨hnone, hunpublished hr hnone⟩
  · obtain ⟨b, rfl, rfl, hcheck⟩ := hop
    refine .inr ⟨pre, b, post, rfl, ⟨b, rfl, rfl, hcheck⟩, hpre, ?_⟩
    have hepoch : s₂.epoch = epochAfter st.epoch pre := (step_epoch hstep).trans (run_epoch hfront)
    have hstored : s₂.baselines.find? b.id = some (Impl.stampFreshness b) := by
      obtain rfl := Option.some.inj hstep
      exact publishBaseline_find? hcheck (hunpublished hfront hpre)
    have hwithin : Run step (fun s _ => (s.baselines.find? b.id).isSome = true) s₂ post st' :=
      hrest.within (I := fun s => (s.baselines.find? b.id).isSome = true) (by rw [hstored]; rfl)
        fun _ _ _ _ hs hsome => recorded_step hs hsome
    rw [(baseline_revocable b.id).run hwithin, hstored, hepoch]
    split_ifs
    · rfl
    · rfl

namespace Demo

def republished : List (Op Double) :=
  [.publishBaseline baseline, .setCoordinatorEpoch ⟨2⟩,
    .publishBaseline { baseline with generation := ⟨9⟩ }]

end Demo

theorem baseline_on_record_republished :
    ∃ st' : Impl Double, Run step (fun _ _ => True) (Impl.fresh ⟨1⟩ ⟨1⟩) Demo.republished st' ∧
      st'.baselines.find? ⟨1⟩ ≠ none := by
  have hrun : Run step (fun _ _ => True) (Impl.fresh ⟨1⟩ ⟨1⟩) Demo.republished _ :=
    Run.of_exec (fun _ _ => trivial) rfl
  refine ⟨_, hrun, ?_⟩
  have hnew : (Impl.fresh ⟨1⟩ ⟨1⟩ : Impl Double).baselines.find? ⟨1⟩ = none := rfl
  rcases baseline_on_record hrun hnew with ⟨hnone, -⟩ | ⟨pre, b, post, -, -, -, hstored⟩
  · have hcheck : Impl.checkBaseline (Demo.baseline : Baseline Double) = .ok := by decide +kernel
    exact absurd ⟨Demo.baseline, rfl, rfl, hcheck⟩ (hnone _ (List.mem_cons_self ..))
  · rw [hstored]
    exact Option.some_ne_none _

end Iobs
