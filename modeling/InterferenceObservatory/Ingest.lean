import InterferenceObservatory.StateCodec
import InterferenceObservatory.Lib.Calls

/-! Ingest of evidence: the calls that register workloads, publish baselines and record
observations and recoveries. Each one holds the lock for all it does to the store, so
calls from several threads are served in some order; and each one looks at and changes
one container, so a collection that does not contradict itself may arrive in any. -/

namespace Iobs
open DoubleOps Std Calls

inductive Ingest where
  | registerWorkload (workload : WorkloadDescriptor)
  | publishBaseline (baseline : Baseline Double)
  | recordObservation (observation : Observation Double)
  | recordRecovery (victim neighbor : WorkloadId) (domain : InterferenceDomain)

inductive IngestKey where
  | workload (id : WorkloadId)
  | baseline (id : BaselineId)
  | observation (id : ObservationId)
  | recovery (cell : CellKey)
deriving DecidableEq

namespace Ingest

def key : Ingest → IngestKey
  | registerWorkload w => .workload w.id
  | publishBaseline b => .baseline b.id
  | recordObservation o => .observation o.id
  | recordRecovery v n d => .recovery ⟨v, n, d⟩

def run (st : Impl Double) : Ingest → Status × Impl Double
  | registerWorkload w => st.registerWorkload w
  | publishBaseline b => st.publishBaseline b
  | recordObservation o => st.recordObservation o
  | recordRecovery v n d => st.recordRecovery v n d

def op : Ingest → Op Double
  | registerWorkload w => .registerWorkload w
  | publishBaseline b => .publishBaseline b
  | recordObservation o => .recordObservation o
  | recordRecovery v n d => .recordRecovery v n d

theorem exec_op (st : Impl Double) (l : List Ingest) :
    Runs.exec step st (l.map op) = some (runAll run st l).2 := by
  induction l generalizing st with
  | nil => rfl
  | cons a l ih =>
    have hstep : step st a.op = some (run st a).2 := by cases a <;> rfl
    rw [List.map_cons, Runs.exec, hstep, Option.bind_some, ih]
    rfl

/-- Calls of one kind about one identity carry the same content. -/
def Consistent (l : List Ingest) : Prop := ∀ a ∈ l, ∀ b ∈ l, a.key = b.key → a = b

end Ingest

section Offer

variable {K V : Type} [Ord K] [TransOrd K] [LawfulEqOrd K] {key : V → K}

def offer (check : Status) (repeats : V → Bool) (v : V) (m : KeyedMap K V key) :
    Status × KeyedMap K V key :=
  if check ≠ .ok then (check, m)
  else match m.find? (key v) with
    | some w => (if repeats w then .ok else .invalidInput, m)
    | none => (.ok, m.emplace v)

variable {check check' : Status} {repeats repeats' : V → Bool} {v w : V}
  (m : KeyedMap K V key)

theorem offer_fst : (offer check repeats v m).1 =
    if check ≠ .ok then check
    else if (m.find? (key v)).all repeats then .ok else .invalidInput := by
  unfold offer
  by_cases hc : check = .ok
  · simp only [hc, ne_eq, not_true_eq_false, if_false]
    cases m.find? (key v) <;> rfl
  · simp only [ne_eq, hc, not_false_eq_true, if_true]

variable [DecidableEq K]

theorem offer_snd : (offer check repeats v m).2 = if check = .ok then m.emplace v else m := by
  unfold offer
  by_cases hc : check = .ok
  · simp only [hc, ne_eq, not_true_eq_false, if_false, if_true]
    rcases hf : m.find? (key v) with _ | w
    · rfl
    · exact (KeyedMap.emplace_of_some hf).symm
  · simp only [ne_eq, hc, not_false_eq_true, if_true, if_false]

theorem offer_repeated (h : check = .ok → repeats v) :
    offer check repeats v (offer check repeats v m).2 = offer check repeats v m := by
  apply Prod.ext
  · rw [offer_fst, offer_fst, offer_snd]
    by_cases hc : check = .ok
    · rw [if_pos hc, KeyedMap.find?_emplace, if_pos rfl]
      rcases m.find? (key v) with _ | w
      · simp only [Option.getD_none, Option.all_some, h hc, Option.all_none]
      · rfl
    · rw [if_neg hc]
  · rw [offer_snd, offer_snd]
    split_ifs
    · refine KeyedMap.emplace_of_some (w := (m.find? (key v)).getD v) ?_
      rw [KeyedMap.find?_emplace, if_pos rfl]
    · rfl

theorem offer_result (h : key v ≠ key w) :
    (offer check' repeats' w (offer check repeats v m).2).1 = (offer check' repeats' w m).1 := by
  have hf : (offer check repeats v m).2.find? (key w) = m.find? (key w) := by
    rw [offer_snd]
    split_ifs
    · rw [KeyedMap.find?_emplace, if_neg h]
    · rfl
  rw [offer_fst, offer_fst, hf]

theorem offer_state (h : key v ≠ key w) :
    (offer check' repeats' w (offer check repeats v m).2).2 =
      (offer check repeats v (offer check' repeats' w m).2).2 := by
  simp only [offer_snd]
  split_ifs
  · exact m.emplace_comm h
  all_goals rfl

end Offer

namespace Impl

def repeatsBaseline (baseline b : Baseline Double) : Bool :=
  b.generation = baseline.generation ∧ b.workloadId = baseline.workloadId ∧
    b.deviceId = baseline.deviceId ∧ eqb b.meanValue baseline.meanValue ∧
    b.sampleCount = baseline.sampleCount

def repeatsObservation (observation o : Observation Double) : Bool :=
  o.timestampMs = observation.timestampMs ∧
    eqb o.measurement.value observation.measurement.value ∧
    o.workloadId = observation.workloadId

def checkObservation (o : Observation Double) : Status :=
  if o.id.isNil || o.generation.isNil then .invalidInput
  else if o.workloadId.isNil then .invalidInput
  else if !o.measurement.isValid then .invalidInput
  else if !isFinite (ofInt64 o.timestampMs : Double) then .invalidInput
  else .ok

end Impl

namespace Ingest
open Impl (checkBaseline checkObservation repeatsBaseline repeatsObservation stampFreshness
  stampFreshness_id)

variable (st : Impl Double)

def offerBaseline (b : Baseline Double) (m : KeyedMap BaselineId (Baseline Double) Baseline.id) :=
  offer (checkBaseline b) (repeatsBaseline b) (stampFreshness b) m

def offerObservation (o : Observation Double)
    (m : KeyedMap ObservationId (Observation Double) Observation.id) :=
  offer (checkObservation o) (repeatsObservation o) o m

def storeWorkload (w : WorkloadDescriptor)
    (m : KeyedMap WorkloadId WorkloadDescriptor WorkloadDescriptor.id) :=
  if w.id.isNil || w.generation.isNil then m else m.insert w

def storeRecovery (k : CellKey) (s : ExtTreeSet CellKey) :=
  if k.victim.isNil || k.neighbor.isNil then s else s.insert k

theorem registerWorkload_eq (w : WorkloadDescriptor) : st.registerWorkload w =
    (if w.id.isNil || w.generation.isNil then .invalidInput else .ok,
      { st with workloads := storeWorkload w st.workloads }) := by
  unfold Impl.registerWorkload storeWorkload
  split_ifs <;> rfl

theorem recordRecovery_eq (v n : WorkloadId) (d : InterferenceDomain) : st.recordRecovery v n d =
    (if v.isNil || n.isNil then .invalidInput else .ok,
      { st with recoveries := storeRecovery ⟨v, n, d⟩ st.recoveries }) := by
  unfold Impl.recordRecovery storeRecovery
  split_ifs <;> rfl

theorem storeWorkload_repeated (w : WorkloadDescriptor)
    (m : KeyedMap WorkloadId WorkloadDescriptor WorkloadDescriptor.id) :
    storeWorkload w (storeWorkload w m) = storeWorkload w m := by
  unfold storeWorkload
  split_ifs
  · rfl
  · exact m.insert_insert_self w

theorem storeWorkload_comm {w w' : WorkloadDescriptor} (h : w.id ≠ w'.id)
    (m : KeyedMap WorkloadId WorkloadDescriptor WorkloadDescriptor.id) :
    storeWorkload w' (storeWorkload w m) = storeWorkload w (storeWorkload w' m) := by
  unfold storeWorkload
  split_ifs
  any_goals rfl
  exact m.insert_comm h

theorem mem_storeRecovery {k c : CellKey} {s : ExtTreeSet CellKey} : c ∈ storeRecovery k s ↔
    ((k.victim.isNil || k.neighbor.isNil) = false ∧ k = c) ∨ c ∈ s := by
  unfold storeRecovery
  split_ifs with hk
  · simp only [hk, reduceCtorEq, false_and, false_or]
  · rw [ExtTreeSet.mem_insert, LawfulEqOrd.compare_eq_iff_eq, Bool.not_eq_true] at *
    simp only [hk, true_and]

theorem storeRecovery_repeated (k : CellKey) (s : ExtTreeSet CellKey) :
    storeRecovery k (storeRecovery k s) = storeRecovery k s := by
  apply ExtTreeSet.ext_mem
  intro c
  simp only [mem_storeRecovery]
  tauto

theorem storeRecovery_comm (k k' : CellKey) (s : ExtTreeSet CellKey) :
    storeRecovery k' (storeRecovery k s) = storeRecovery k (storeRecovery k' s) := by
  apply ExtTreeSet.ext_mem
  intro c
  simp only [mem_storeRecovery]
  tauto

theorem publishBaseline_eq (b : Baseline Double) : st.publishBaseline b =
    ((offerBaseline b st.baselines).1,
      { st with baselines := (offerBaseline b st.baselines).2 }) := by
  unfold Impl.publishBaseline offerBaseline offer
  rw [stampFreshness_id]
  split_ifs
  · rfl
  · rcases st.baselines.find? b.id with _ | w
    · rfl
    · simp only [repeatsBaseline, decide_eq_true_eq]
      split_ifs <;> rfl

theorem recordObservation_eq (o : Observation Double) : st.recordObservation o =
    ((offerObservation o st.observations).1,
      { st with observations := (offerObservation o st.observations).2 }) := by
  unfold Impl.recordObservation offerObservation offer checkObservation
  split_ifs
  any_goals rfl
  any_goals simp only [ne_eq, reduceCtorEq, not_false_eq_true, not_true_eq_false] at *
  rcases st.observations.find? o.id with _ | w
  · rfl
  · simp only [repeatsObservation, decide_eq_true_eq]
    split_ifs <;> rfl

theorem repeatsBaseline_self {b : Baseline Double} (h : checkBaseline b = .ok) :
    repeatsBaseline b (stampFreshness b) := by
  have hmean : eqb b.meanValue b.meanValue := by
    unfold checkBaseline at h
    split_ifs at h with _ hu
    simp only [Bool.not_eq_true', Bool.not_eq_false, Baseline.isUsable, isFiniteNonneg,
      Bool.and_eq_true] at hu
    exact Double.eqb_self hu.2.1
  unfold repeatsBaseline stampFreshness
  split_ifs <;> simp only [hmean, and_self, decide_true]

theorem repeatsObservation_self {o : Observation Double} (h : checkObservation o = .ok) :
    repeatsObservation o o := by
  have hvalue : eqb o.measurement.value o.measurement.value := by
    unfold checkObservation at h
    split_ifs at h with _ _ hm
    simp only [Bool.not_eq_true', Bool.not_eq_false, Measurement.isValid, isFiniteNonneg,
      Bool.and_eq_true] at hm
    exact Double.eqb_self hm.1.1.1
  simp only [repeatsObservation, hvalue, and_self, decide_true]

theorem run_repeatable (a : Ingest) : Repeatable run a := by
  intro st
  cases a with
  | registerWorkload w => simp only [run, registerWorkload_eq, storeWorkload_repeated]
  | publishBaseline b =>
    simp only [run, publishBaseline_eq, offerBaseline,
      offer_repeated st.baselines repeatsBaseline_self]
  | recordObservation o =>
    simp only [run, recordObservation_eq, offerObservation,
      offer_repeated st.observations repeatsObservation_self]
  | recordRecovery v n d => simp only [run, recordRecovery_eq, storeRecovery_repeated]

theorem offerBaseline_independent {b b' : Baseline Double} (h : b.id ≠ b'.id) :
    Independent run (publishBaseline b) (publishBaseline b') := by
  have hk : (stampFreshness b).id ≠ (stampFreshness b').id := by
    rwa [stampFreshness_id, stampFreshness_id]
  constructor
  · intro st
    simp only [run, publishBaseline_eq, offerBaseline]
    exact offer_result st.baselines hk
  · intro st
    simp only [run, publishBaseline_eq, offerBaseline]
    rw [offer_state st.baselines hk]

theorem offerObservation_independent {o o' : Observation Double} (h : o.id ≠ o'.id) :
    Independent run (recordObservation o) (recordObservation o') := by
  constructor
  · intro st
    simp only [run, recordObservation_eq, offerObservation]
    exact offer_result st.observations h
  · intro st
    simp only [run, recordObservation_eq, offerObservation]
    rw [offer_state st.observations h]

theorem run_independent {a b : Ingest} (h : a.key ≠ b.key) : Independent run a b := by
  cases a <;> cases b
  case registerWorkload.registerWorkload w w' =>
    have hid : w.id ≠ w'.id := fun he => h (congrArg IngestKey.workload he)
    constructor <;> intro st <;> simp only [run, registerWorkload_eq, storeWorkload_comm hid]
  case publishBaseline.publishBaseline b b' =>
    exact offerBaseline_independent fun he => h (congrArg IngestKey.baseline he)
  case recordObservation.recordObservation o o' =>
    exact offerObservation_independent fun he => h (congrArg IngestKey.observation he)
  case recordRecovery.recordRecovery v n d v' n' d' =>
    constructor <;> intro st <;> simp only [run, recordRecovery_eq, storeRecovery_comm ⟨v, n, d⟩]
  all_goals
    constructor <;> intro st <;> simp only [run, registerWorkload_eq, publishBaseline_eq,
      recordObservation_eq, recordRecovery_eq]

theorem Consistent.harmonious {l : List Ingest} (h : Consistent l) : Harmonious run l where
  repeatable a _ := run_repeatable a
  independent a ha b hb hab := run_independent fun hk => hab (h a ha b hb hk)

/-- Consistent evidence may arrive in any order: each call reports what it would report
on its own, the state, its bytes and its digest are the same, and once the evidence is in,
receiving it again in any order reports the same and changes nothing. -/
theorem order_independent {l l' : List Ingest} (h : Consistent l) (hp : l'.Perm l)
    (st : Impl Double) :
    (runAll run st l').1 = l'.map (fun a => (run st a).1) ∧
    (runAll run st l).1 = l.map (fun a => (run st a).1) ∧
    (runAll run st l').2 = (runAll run st l).2 ∧
    serializeState (runAll run st l').2 = serializeState (runAll run st l).2 ∧
    canonicalDigest (runAll run st l').2 = canonicalDigest (runAll run st l).2 ∧
    runAll run (runAll run st l).2 l' =
      (l'.map (fun a => (run st a).1), (runAll run st l).2) := by
  have hrun := h.harmonious
  have hstate := hrun.runAll_perm hp st
  refine ⟨hrun.runAll_fst hp.subset st, hrun.runAll_fst (List.Subset.refl l) st, hstate, ?_, ?_,
    hrun.runAll_again hp.subset st⟩
  · rw [hstate]
  · rw [hstate]

def evidence : List Ingest :=
  [registerWorkload Demo.victim, publishBaseline Demo.baseline, publishBaseline Demo.baseline,
    recordObservation (Demo.observation 150.0), recordRecovery ⟨1⟩ ⟨2⟩ .cache]

theorem evidence_consistent : Consistent evidence := by
  intro a ha b hb h
  simp only [evidence, List.mem_cons, List.not_mem_nil, or_false] at ha hb
  rcases ha with rfl | rfl | rfl | rfl | rfl <;> rcases hb with rfl | rfl | rfl | rfl | rfl
  all_goals first | rfl | nomatch h

theorem order_independent_reversed : Consistent evidence ∧
    (runAll run (Impl.fresh ⟨1⟩ ⟨1⟩) evidence.reverse).1 =
      evidence.reverse.map (fun a => (run (Impl.fresh ⟨1⟩ ⟨1⟩) a).1) ∧
    canonicalDigest (runAll run (Impl.fresh ⟨1⟩ ⟨1⟩) evidence.reverse).2 =
      canonicalDigest (runAll run (Impl.fresh ⟨1⟩ ⟨1⟩) evidence).2 := by
  obtain ⟨hstatus, -, -, -, hdigest, -⟩ :=
    order_independent evidence_consistent evidence.reverse_perm (Impl.fresh ⟨1⟩ ⟨1⟩)
  exact ⟨evidence_consistent, hstatus, hdigest⟩

end Ingest
end Iobs
