import InterferenceObservatory.Queries

/-! Incarnations of a workload. Two descriptors of a workload are compatible if they agree on the
device, the boot and all generations and fingerprints; the name, the worker, the interval and the
attempt do not count. Verdicts that rest on one baseline are about one incarnation, however far
apart in a run they are made, and compatible descriptors may be exchanged. -/

namespace Iobs
open DoubleOps Std Runs

variable {F : Type} [DoubleOps F]

namespace WorkloadDescriptor

def compatible (w other : WorkloadDescriptor) : Bool :=
  w.generation == other.generation && w.configFingerprint == other.configFingerprint &&
  w.problemSizeFingerprint == other.problemSizeFingerprint && w.deviceId == other.deviceId &&
  w.deviceGeneration == other.deviceGeneration && w.workerBoot == other.workerBoot &&
  w.policyGeneration == other.policyGeneration && w.runtimeGeneration == other.runtimeGeneration &&
  w.kernelGeneration == other.kernelGeneration && w.topologyGeneration == other.topologyGeneration

theorem compatible_iff {w other : WorkloadDescriptor} : w.compatible other = true ↔
    w.deviceId = other.deviceId ∧ w.binding = other.binding := by
  simp only [compatible, binding, Bool.and_eq_true, beq_iff_eq, Binding.mk.injEq]
  tauto

end WorkloadDescriptor

omit [DoubleOps F] in
theorem bindingMatches_iff {b : Baseline F} {x : Binding} : b.bindingMatches x = true ↔
    x = ⟨b.workloadGeneration, b.deviceGeneration, b.workerBoot, b.configFingerprint,
      b.problemSizeFingerprint, b.runtimeGeneration, b.kernelGeneration, b.policyGeneration,
      b.topologyGeneration⟩ := by
  rcases x with ⟨⟩
  simp only [Baseline.bindingMatches, Bool.and_eq_true, beq_iff_eq, Binding.mk.injEq]
  tauto

structure Baseline.SameIncarnation (b b' : Baseline F) : Prop where
  workload : b'.workloadId = b.workloadId
  device : b'.deviceId = b.deviceId
  binding : ∀ x, b'.bindingMatches x = b.bindingMatches x

theorem Candidate.compatible {w w' : WorkloadDescriptor} {b b' : Baseline F}
    (h : Candidate w b) (h' : Candidate w' b') (hb : b.SameIncarnation b') :
    w'.id = w.id ∧ w'.compatible w = true := by
  have hid : w'.id = w.id := by
    rw [← h'.workload, ← h.workload, hb.workload]
  have hdevice : w'.deviceId = w.deviceId := by
    rw [← h'.device, ← h.device, hb.device]
  have hmatches := h'.binding
  rw [hb.binding, bindingMatches_iff] at hmatches
  have hbinding : w'.binding = w.binding := hmatches.trans (bindingMatches_iff.mp h.binding).symm
  exact ⟨hid, WorkloadDescriptor.compatible_iff.mpr ⟨hdevice, hbinding⟩⟩

omit [DoubleOps F] in
theorem Impl.KeptIn.sameIncarnation {st st' : Impl F} (h : st.KeptIn st') {b b' : Baseline F}
    (hb : b ∈ st.baselines.values) (hb' : b' ∈ st'.baselines.values) (hid : b'.id = b.id) :
    b.SameIncarnation b' := by
  rw [KeyedMap.mem_values] at hb hb'
  obtain ⟨b'', hfind, heq⟩ := h.baselines b.id b hb
  rw [← hid, hb'] at hfind
  obtain rfl := Option.some.inj hfind
  rcases heq with rfl | rfl
  · exact ⟨rfl, rfl, fun _ => rfl⟩
  · exact ⟨rfl, rfl, fun _ => rfl⟩

namespace Comparison

variable {a b : Comparison F} {st st' : Impl F} {allowed : Impl F → Op F → Prop}
  {hist : List (Op F)}

theorem run_compatible {w : WorkloadDescriptor} (hid : a.affected.id = w.id)
    (hc : a.affected.compatible w = true) (st : Impl F) :
    run st { a with affected := w } = run st a := by
  obtain ⟨hdevice, hbinding⟩ := WorkloadDescriptor.compatible_iff.mp hc
  have hselect : selectBaseline st.baselines.values w =
      selectBaseline st.baselines.values a.affected := by
    unfold selectBaseline
    apply congrArg (fun f => st.baselines.values.foldl f _)
    funext s c
    rw [selectStep, selectStep, hid, hdevice, hbinding]
  simp only [run, Impl.compare, Impl.compareAgainst, Impl.recordVerdict, Impl.verdict,
    Impl.compareInit, Impl.episodeOf, hselect, hid]

/-- Two verdicts of a run that name the same baseline are about the same incarnation of the same
workload, whatever was called in between other than `load`, and the later one would have been the
same with the descriptor of the earlier one. -/
theorem incarnation_of_baseline (hr : Run step allowed st hist st')
    (ha : (a.run st).1.outcome.isVerdict = true) (hb : (b.run st').1.outcome.isVerdict = true)
    (hid : (b.run st').1.baselineId = (a.run st).1.baselineId) :
    b.affected.id = a.affected.id ∧ b.affected.compatible a.affected = true ∧
      run st' { b with affected := a.affected } = run st' b := by
  obtain ⟨u, hadm, hu⟩ := Impl.compare_verdict ha
  obtain ⟨u', hadm', hu'⟩ := Impl.compare_verdict hb
  have hkept : st.KeptIn st' := by
    apply hr.invariant (Impl.KeptIn.refl st)
    intro s op s' _ hs h
    exact h.trans (step_effect hs).keptIn
  have hsame : u'.id = u.id := hu'.symm.trans (hid.trans hu)
  have hincarnation := hkept.sameIncarnation hadm.mem hadm'.mem hsame
  obtain ⟨hworkload, hcompatible⟩ := hadm.candidate.compatible hadm'.candidate hincarnation
  exact ⟨hworkload, hcompatible, run_compatible hworkload hcompatible st'⟩

namespace Demo

def retried : Comparison Double :=
  { slowed with affected := { Iobs.Demo.victim with attemptId := 2 } }

end Demo

theorem incarnation_of_baseline_retried :
    Run step (fun _ _ => True) (Iobs.Demo.published : Impl Double)
        [.compare Iobs.Demo.victim Iobs.Demo.neighbor .cache Iobs.Demo.slowdown .init]
        Iobs.Demo.compared ∧
      Demo.retried.affected.compatible Demo.slowed.affected = true := by
  have hrun : Run step (fun _ _ => True) (Iobs.Demo.published : Impl Double)
      [.compare Iobs.Demo.victim Iobs.Demo.neighbor .cache Iobs.Demo.slowdown .init]
      Iobs.Demo.compared := .next (h := []) .start trivial rfl
  have hfirst : (Demo.slowed.run Iobs.Demo.published).1.outcome.isVerdict = true := by
    decide +kernel
  have hsecond : (Demo.retried.run Iobs.Demo.compared).1.outcome.isVerdict = true := by
    decide +kernel
  have hbaseline : (Demo.retried.run Iobs.Demo.compared).1.baselineId =
      (Demo.slowed.run Iobs.Demo.published).1.baselineId := by decide +kernel
  exact ⟨hrun, (incarnation_of_baseline hrun hfirst hsecond hbaseline).2.1⟩

end Comparison
end Iobs
