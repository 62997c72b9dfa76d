import InterferenceObservatory.Grounds
import Mathlib.Data.Prod.Lex

/-! The selected baseline is the most recent candidate, whatever its metric and its freshness.
A baseline published later therefore takes the place of the one a verdict rests on exactly if
it is a candidate itself and more recent. -/

namespace Iobs
open DoubleOps

variable {F : Type}

def Baseline.recency (b : Baseline F) : ℤ ×ₗ ℕ := toLex (b.timestampMs.toInt, b.id.value.toNat)

theorem newer_iff (b u : Baseline F) : newer b u = true ↔ u.recency < b.recency := by
  unfold newer Baseline.recency
  rw [Prod.Lex.toLex_lt_toLex, Bool.or_eq_true, Bool.and_eq_true, decide_eq_true_eq,
    decide_eq_true_eq, beq_iff_eq, gt_iff_lt, gt_iff_lt, Int64.lt_iff_toInt_lt,
    UInt64.lt_iff_toNat_lt, ← Int64.toInt_inj, eq_comm]

theorem id_eq_of_recency {b u : Baseline F} (h : b.recency = u.recency) : b.id = u.id := by
  have hsnd : b.id.value.toNat = u.id.value.toNat := congrArg (fun p => (ofLex p).2) h
  have hvalue := UInt64.toNat_inj.mp hsnd
  cases hb : b.id
  cases hu : u.id
  rw [hb, hu] at hvalue
  exact congrArg _ hvalue

variable [DoubleOps F] {affected associated : WorkloadDescriptor}

theorem selectStep_recency {s : Selection F} {b u : Baseline F}
    (h : (selectStep affected s b).usable = some u) :
    (∀ v, s.usable = some v → v.recency ≤ u.recency) ∧
      (Candidate affected b → b.recency ≤ u.recency) := by
  by_cases hc : Candidate affected b
  · rw [selectStep_candidate hc] at h
    rcases hs : s.usable with _ | v
    · rw [hs] at h
      obtain rfl : b = u := Option.some.inj h
      refine ⟨?_, fun _ => le_rfl⟩
      intro v hv
      cases hv
    · rw [hs] at h
      dsimp only at h
      split_ifs at h with hnew
      · obtain rfl : b = u := Option.some.inj h
        rw [newer_iff] at hnew
        refine ⟨?_, fun _ => le_rfl⟩
        intro w hw
        obtain rfl := Option.some.inj hw
        exact hnew.le
      · obtain rfl : v = u := Option.some.inj h
        rw [newer_iff, not_lt] at hnew
        refine ⟨?_, fun _ => hnew⟩
        intro w hw
        obtain rfl := Option.some.inj hw
        exact le_rfl
  · rw [selectStep_not_candidate hc] at h
    refine ⟨?_, fun hb => absurd hb hc⟩
    intro v hv
    obtain rfl := Option.some.inj (hv.symm.trans h)
    exact le_rfl

theorem foldl_selectStep_recency {l : List (Baseline F)} {s : Selection F} {u : Baseline F}
    (h : (l.foldl (selectStep affected) s).usable = some u) :
    (∀ v, s.usable = some v → v.recency ≤ u.recency) ∧
      ∀ b ∈ l, Candidate affected b → b.recency ≤ u.recency := by
  induction l generalizing s with
  | nil =>
    refine ⟨?_, ?_⟩
    · intro v hv
      obtain rfl := Option.some.inj (hv.symm.trans h)
      exact le_rfl
    · intro b hb
      cases hb
  | cons b l ih =>
    obtain ⟨hstep, hrest⟩ := ih h
    -- a candidate is held after its step, if only in the shape of a more recent one
    have hheld : ∀ w : Baseline F, (s.usable = some w ∨ w = b ∧ Candidate affected b) →
        w.recency ≤ u.recency := by
      intro w hw
      have hsome : (selectStep affected s b).usable.isSome := by
        apply selectStep_usable_isSome
        rcases hw with hw | ⟨-, hc⟩
        · exact .inl (by rw [hw]; rfl)
        · exact .inr hc
      obtain ⟨x, hx⟩ := Option.isSome_iff_exists.mp hsome
      obtain ⟨hold, hnew⟩ := selectStep_recency hx
      have hxu := hstep x hx
      rcases hw with hw | ⟨rfl, hc⟩
      · exact (hold w hw).trans hxu
      · exact (hnew hc).trans hxu
    refine ⟨fun v hv => hheld v (.inl hv), ?_⟩
    intro c hc hcand
    rcases List.mem_cons.mp hc with rfl | hc
    · exact hheld c (.inr ⟨rfl, hcand⟩)
    · exact hrest c hc hcand

/-- The stored candidate for `affected` that no other stored candidate exceeds. -/
structure MostRecent (m : KeyedMap BaselineId (Baseline F) Baseline.id)
    (affected : WorkloadDescriptor) (u : Baseline F) : Prop where
  stored : u ∈ m.values
  candidate : Candidate affected u
  greatest : ∀ b ∈ m.values, Candidate affected b → b.recency ≤ u.recency

theorem selectBaseline_iff {m : KeyedMap BaselineId (Baseline F) Baseline.id} {u : Baseline F} :
    (selectBaseline m.values affected).usable = some u ↔ MostRecent m affected u := by
  constructor
  · intro h
    obtain ⟨hmem, hc⟩ := selectBaseline_usable h
    exact ⟨hmem, hc, (foldl_selectStep_recency h).2⟩
  · rintro ⟨hmem, hc, hmax⟩
    have hsome : (selectBaseline m.values affected).usable.isSome :=
      foldl_selectStep_usable_isSome (.inr ⟨u, hmem, hc⟩)
    obtain ⟨x, hx⟩ := Option.isSome_iff_exists.mp hsome
    obtain ⟨hxmem, hxc⟩ := selectBaseline_usable hx
    have hle := (foldl_selectStep_recency hx).2 u hmem hc
    -- two most recent candidates have the same identity, and the store has one entry for it
    have hid : x.id = u.id := id_eq_of_recency (le_antisymm (hmax x hxmem hxc) hle)
    have hfind := KeyedMap.mem_values.mp hxmem
    rw [hid, KeyedMap.mem_values.mp hmem] at hfind
    rw [hx, hfind]

namespace Impl

/-- Publishing `b` puts it in the place of `u`: it is accepted under a new identity, fits the
affected workload, and is more recent. Neither its metric nor its freshness matters. -/
structure Displaces (st : Impl F) (affected : WorkloadDescriptor) (u b : Baseline F) : Prop where
  accepted : checkBaseline b = .ok
  unstored : st.baselines.find? b.id = none
  candidate : Candidate affected b
  moreRecent : newer b u = true

theorem candidate_stampFreshness {b : Baseline F} :
    Candidate affected (stampFreshness b) ↔ Candidate affected b := by
  unfold stampFreshness
  split_ifs
  · constructor
    · intro h
      exact ⟨h.workload, h.device, h.usable, h.binding⟩
    · intro h
      exact ⟨h.workload, h.device, h.usable, h.binding⟩
  · rfl

omit [DoubleOps F] in
theorem recency_stampFreshness (b : Baseline F) : (stampFreshness b).recency = b.recency := by
  unfold stampFreshness
  split_ifs <;> rfl

theorem publishBaseline_inversion (st : Impl F) (b : Baseline F) :
    ((st.publishBaseline b).2 = st ∧
      ¬ (checkBaseline b = .ok ∧ st.baselines.find? b.id = none)) ∨
    (checkBaseline b = .ok ∧ st.baselines.find? b.id = none ∧
      (st.publishBaseline b).2 =
        { st with baselines := st.baselines.emplace (stampFreshness b) }) := by
  unfold publishBaseline
  by_cases hcheck : checkBaseline b = .ok
  · rw [if_neg (not_not.mpr hcheck)]
    rcases hfind : st.baselines.find? b.id with _ | w
    · exact .inr ⟨hcheck, rfl, rfl⟩
    · left
      dsimp only
      refine ⟨?_, ?_⟩
      · split_ifs <;> rfl
      · rintro ⟨-, hnone⟩
        cases hnone
  · rw [if_pos hcheck]
    exact .inl ⟨rfl, fun h => hcheck h.1⟩

theorem selectBaseline_publish {st : Impl F} {u : Baseline F}
    (h : (selectBaseline st.baselines.values affected).usable = some u) (b : Baseline F) :
    (¬ st.Displaces affected u b ∧
      (selectBaseline (st.publishBaseline b).2.baselines.values affected).usable = some u) ∨
    (st.Displaces affected u b ∧
      (selectBaseline (st.publishBaseline b).2.baselines.values affected).usable =
        some (stampFreshness b)) := by
  rcases st.publishBaseline_inversion b with ⟨heq, hno⟩ | ⟨hcheck, hnone, heq⟩
  · rw [heq]
    exact .inl ⟨fun hd => hno ⟨hd.accepted, hd.unstored⟩, h⟩
  · obtain ⟨hmem, hc, hmax⟩ := selectBaseline_iff.mp h
    have hkey : st.baselines.find? (stampFreshness b).id = none := by rwa [stampFreshness_id]
    rw [heq]
    by_cases hd : Candidate affected b ∧ newer b u = true
    · right
      refine ⟨⟨hcheck, hnone, hd.1, hd.2⟩, ?_⟩
      have hlt : u.recency < (stampFreshness b).recency := by
        rw [recency_stampFreshness]
        exact (newer_iff b u).mp hd.2
      rw [selectBaseline_iff]
      refine ⟨(KeyedMap.mem_values_emplace hkey).mpr (.inl rfl), candidate_stampFreshness.mpr hd.1,
        ?_⟩
      intro c hcmem hcand
      rcases (KeyedMap.mem_values_emplace hkey).mp hcmem with rfl | hcmem
      · exact le_rfl
      · exact (hmax c hcmem hcand).trans hlt.le
    · left
      refine ⟨fun hdisp => hd ⟨hdisp.candidate, hdisp.moreRecent⟩, ?_⟩
      rw [selectBaseline_iff]
      refine ⟨(KeyedMap.mem_values_emplace hkey).mpr (.inr hmem), hc, ?_⟩
      intro c hcmem hcand
      rcases (KeyedMap.mem_values_emplace hkey).mp hcmem with rfl | hcmem
      · rw [candidate_stampFreshness] at hcand
        have hnot : ¬ newer b u = true := fun hnew => hd ⟨hcand, hnew⟩
        rw [newer_iff, not_lt] at hnot
        rwa [recency_stampFreshness]
      · exact hmax c hcmem hcand

theorem publishBaseline_verdictOn (st : Impl F) (b : Baseline F)
    (affected associated : WorkloadDescriptor) (domain : InterferenceDomain)
    (obs : List (Observation F)) (policy : Policy F) (u : Baseline F) :
    (st.publishBaseline b).2.verdictOn affected associated domain obs policy u =
      st.verdictOn affected associated domain obs policy u := by
  rcases st.publishBaseline_inversion b with ⟨heq, -⟩ | ⟨-, -, heq⟩
  · rw [heq]
  · rw [heq]
    rfl

end Impl

/-- A verdict resting on `u` stays, with its degradation and its baseline, when `b` is
published before the same comparison, exactly if `b` does not displace `u`. -/
theorem verdict_kept_iff (st : Impl F) (affected associated : WorkloadDescriptor)
    (domain : InterferenceDomain) (obs : List (Observation F)) (policy : Policy F)
    (u b : Baseline F)
    (hv : (st.compare affected associated domain obs policy).1.outcome.isVerdict = true)
    (hu : st.baselines.find? (st.compare affected associated domain obs policy).1.baselineId =
      some u) :
    let r := (st.compare affected associated domain obs policy).1
    let r' := ((st.publishBaseline b).2.compare affected associated domain obs policy).1
    (r'.outcome = r.outcome ∧ r'.degradation = r.degradation ∧ r'.baselineId = r.baselineId) ↔
      ¬ st.Displaces affected u b := by
  dsimp only
  obtain ⟨w, hadm, -⟩ | ⟨-, hno⟩ := st.compare_cases affected associated domain obs policy
  · rw [compare_baselineId hadm domain, Option.some.injEq] at hu
    subst hu
    obtain ⟨e, he⟩ := hadm.compare_fst domain
    rcases Impl.selectBaseline_publish hadm.selected b with ⟨hd, hsel⟩ | ⟨hd, hsel⟩
    · have hadm' : (st.publishBaseline b).2.Admitted affected associated obs policy w :=
        ⟨hadm.policyValid, hsel, hadm.current, hadm.inWindow, hadm.nonempty, hadm.enough⟩
      obtain ⟨e', he'⟩ := hadm'.compare_fst domain
      rw [he, he', st.publishBaseline_verdictOn b]
      exact ⟨fun _ => hd, fun _ => ⟨rfl, rfl, rfl⟩⟩
    · refine ⟨?_, fun hn => absurd hd hn⟩
      rintro ⟨hout, -, hid⟩ -
      obtain ⟨w', hadm', -⟩ | ⟨-, hno'⟩ :=
        (st.publishBaseline b).2.compare_cases affected associated domain obs policy
      -- a verdict would rest on the new baseline, whose identity was free
      · have hw' : w' = Impl.stampFreshness b :=
          Option.some.inj (hadm'.selected.symm.trans hsel)
        obtain ⟨e', he'⟩ := hadm'.compare_fst domain
        have hidb : b.id = w.id := by
          rw [he, he', hw'] at hid
          exact (Impl.stampFreshness_id b).symm.trans hid
        have hfind := KeyedMap.mem_values.mp hadm.mem
        rw [← hidb, hd.unstored] at hfind
        cases hfind
      · rw [hout, hv] at hno'
        cases hno'
  · rw [hv] at hno
    cases hno

def Demo.laterBaseline {F : Type} [DoubleOps F] (kind : MetricKind) (fresh : Freshness) :
    Baseline F :=
  { Demo.baseline with id := ⟨2⟩, timestampMs := 1, metricKind := kind, freshness := fresh }

theorem verdict_kept_iff_throughput :
    let st : Impl Double := Demo.published
    let b : Baseline Double := Demo.laterBaseline .throughput .current
    let r := (st.compare Demo.victim Demo.neighbor .cache Demo.slowdown .init).1
    let r' := ((st.publishBaseline b).2.compare Demo.victim Demo.neighbor .cache Demo.slowdown
      .init).1
    (r'.outcome = r.outcome ∧ r'.degradation = r.degradation ∧ r'.baselineId = r.baselineId) ↔
      ¬ st.Displaces Demo.victim Demo.baseline b :=
  verdict_kept_iff Demo.published Demo.victim Demo.neighbor .cache Demo.slowdown .init
    Demo.baseline (Demo.laterBaseline .throughput .current) (by decide +kernel) (by decide +kernel)

theorem later_baseline_hides_verdict :
    let st : Impl Double := Demo.published
    let throughput : Baseline Double := Demo.laterBaseline .throughput .current
    let historical : Baseline Double := Demo.laterBaseline .latency .historical
    (st.publishBaseline throughput).1 = .ok ∧ (st.publishBaseline historical).1 = .ok ∧
    (st.compare Demo.victim Demo.neighbor .cache Demo.slowdown .init).1.outcome =
      .severeInterference ∧
    ((st.publishBaseline throughput).2.compare Demo.victim Demo.neighbor .cache Demo.slowdown
      .init).1.outcome = .insufficientEvidence ∧
    ((st.publishBaseline historical).2.compare Demo.victim Demo.neighbor .cache Demo.slowdown
      .init).1.outcome = .revalidationRequired := by
  decide +kernel

theorem selectBaseline_isSome {m : KeyedMap BaselineId (Baseline F) Baseline.id} :
    (selectBaseline m.values affected).usable.isSome ↔ ∃ b ∈ m.values, Candidate affected b := by
  constructor
  · intro h
    obtain ⟨u, hu⟩ := Option.isSome_iff_exists.mp h
    exact ⟨u, selectBaseline_usable hu⟩
  · intro h
    exact foldl_selectStep_usable_isSome (.inr h)

theorem selectBaseline_congr {m m' : KeyedMap BaselineId (Baseline F) Baseline.id}
    (h : ∀ b, Candidate affected b → (b ∈ m'.values ↔ b ∈ m.values)) :
    (selectBaseline m'.values affected).usable = (selectBaseline m.values affected).usable := by
  apply Option.ext
  intro u
  rw [selectBaseline_iff, selectBaseline_iff]
  constructor
  · rintro ⟨hs, hc, hg⟩
    exact ⟨(h u hc).mp hs, hc, fun b hb hcand => hg b ((h b hcand).mpr hb) hcand⟩
  · rintro ⟨hs, hc, hg⟩
    exact ⟨(h u hc).mpr hs, hc, fun b hb hcand => hg b ((h b hcand).mp hb) hcand⟩

namespace Impl

def publishAll (st : Impl F) (bs : List (Baseline F)) : Impl F :=
  bs.foldl (fun st b => (st.publishBaseline b).2) st

theorem mem_publishAll {bs : List (Baseline F)} (h : ∀ b ∈ bs, ∀ c ∈ bs, b.id = c.id → b = c)
    (st : Impl F) (c : Baseline F) :
    c ∈ (st.publishAll bs).baselines.values ↔ c ∈ st.baselines.values ∨
      ∃ b ∈ bs, (checkBaseline b = .ok ∧ st.baselines.find? b.id = none) ∧
        c = stampFreshness b := by
  induction bs generalizing st with
  | nil => simp [publishAll]
  | cons b bs ih =>
    have hdistinct : ∀ d ∈ bs, ∀ e ∈ bs, d.id = e.id → d = e := by
      intro d hd e he
      exact h d (List.mem_cons_of_mem _ hd) e (List.mem_cons_of_mem _ he)
    have hrest := ih hdistinct (st.publishBaseline b).2
    rw [publishAll, List.foldl_cons, ← publishAll, hrest]
    rcases st.publishBaseline_inversion b with ⟨heq, hno⟩ | ⟨hcheck, hnone, heq⟩
    · rw [heq]
      simp only [List.mem_cons, exists_eq_or_imp, hno, false_and, false_or]
    · have hkey : st.baselines.find? (stampFreshness b).id = none := by rwa [stampFreshness_id]
      -- a later baseline of the same identity is the same one
      have hfree : ∀ d ∈ bs, d.id ≠ b.id →
          ((st.baselines.emplace (stampFreshness b)).find? d.id = none ↔
            st.baselines.find? d.id = none) := by
        intro d _ hne
        rw [KeyedMap.find?_emplace, stampFreshness_id, if_neg (Ne.symm hne)]
      have htaken : ∀ d : Baseline F, d.id = b.id →
          (st.baselines.emplace (stampFreshness b)).find? d.id ≠ none := by
        intro d hid
        rw [KeyedMap.find?_emplace, stampFreshness_id, if_pos hid.symm]
        exact Option.some_ne_none _
      rw [heq, KeyedMap.mem_values_emplace hkey]
      constructor
      · rintro ((rfl | hc) | ⟨d, hd, ⟨hdcheck, hdnone⟩, rfl⟩)
        · exact .inr ⟨b, List.mem_cons_self .., ⟨hcheck, hnone⟩, rfl⟩
        · exact .inl hc
        · have hne : d.id ≠ b.id := fun hid => htaken d hid hdnone
          exact .inr ⟨d, List.mem_cons_of_mem _ hd, ⟨hdcheck, (hfree d hd hne).mp hdnone⟩, rfl⟩
      · rintro (hc | ⟨d, hd, ⟨hdcheck, hdnone⟩, rfl⟩)
        · exact .inl (.inr hc)
        · rcases List.mem_cons.mp hd with rfl | hd
          · exact .inl (.inl rfl)
          · by_cases hid : d.id = b.id
            · rw [h d (List.mem_cons_of_mem _ hd) b (List.mem_cons_self ..) hid]
              exact .inl (.inl rfl)
            · exact .inr ⟨d, hd, ⟨hdcheck, (hfree d hd hid).mpr hdnone⟩, rfl⟩

end Impl

/-- The loop selects a baseline exactly if a stored one is a candidate, and then the one and
only candidate that is greatest by timestamp and identity. Neither the other baselines of the
store matter nor the order in which they were published. -/
theorem selection_spec (st : Impl F) (affected : WorkloadDescriptor) :
    ((selectBaseline st.baselines.values affected).usable.isSome ↔
      ∃ b ∈ st.baselines.values, Candidate affected b) ∧
    ((∃ b ∈ st.baselines.values, Candidate affected b) →
      ∃! u, MostRecent st.baselines affected u) ∧
    (∀ u, (selectBaseline st.baselines.values affected).usable = some u ↔
      MostRecent st.baselines affected u) ∧
    (∀ st' : Impl F,
      (∀ b, Candidate affected b → (b ∈ st'.baselines.values ↔ b ∈ st.baselines.values)) →
      (selectBaseline st'.baselines.values affected).usable =
        (selectBaseline st.baselines.values affected).usable) ∧
    ∀ bs bs' : List (Baseline F), (∀ b, b ∈ bs' ↔ b ∈ bs) →
      (∀ b ∈ bs, ∀ c ∈ bs, b.id = c.id → b = c) →
      (selectBaseline (st.publishAll bs').baselines.values affected).usable =
        (selectBaseline (st.publishAll bs).baselines.values affected).usable := by
  refine ⟨selectBaseline_isSome, ?_, fun u => selectBaseline_iff,
    fun st' h => selectBaseline_congr h, ?_⟩
  · intro h
    obtain ⟨u, hu⟩ := Option.isSome_iff_exists.mp (selectBaseline_isSome.mpr h)
    refine ⟨u, selectBaseline_iff.mp hu, ?_⟩
    intro v hv
    have hsel := selectBaseline_iff.mpr hv
    rw [hu] at hsel
    exact (Option.some.inj hsel).symm
  · intro bs bs' hmem hids
    apply selectBaseline_congr
    intro b _
    have hids' : ∀ b ∈ bs', ∀ c ∈ bs', b.id = c.id → b = c := by
      intro b hb c hc
      exact hids b ((hmem b).mp hb) c ((hmem c).mp hc)
    rw [Impl.mem_publishAll hids', Impl.mem_publishAll hids]
    simp only [hmem]

end Iobs
