import InterferenceObservatory.Ingest
import InterferenceObservatory.Threads

/-! Evidence ingested from several threads at once. When the threads are done, the state is the
one the calls lead to in any order, and every call has returned what it would have returned on
its own. -/

namespace Iobs
open Std Monitors Calls

namespace Ingest

def request : Ingest → Request
  | registerWorkload w => .registerWorkload w
  | publishBaseline b => .publishBaseline b
  | recordObservation o => .recordObservation o
  | recordRecovery v n d => .recordRecovery v n d

theorem locked : Locked request .status run where
  injective := by
    intro a b h
    cases a <;> cases b <;> cases h <;> rfl
  invoke := by
    intro st a
    cases a with
    | registerWorkload w => exact Method.map_free _ (Method.registerWorkload_free st w)
    | publishBaseline b => exact Method.map_free _ (Method.publishBaseline_free st b)
    | recordObservation o => exact Method.map_free _ (Method.recordObservation_free st o)
    | recordRecovery v n d => exact Method.map_free _ (Method.recordRecovery_free st v n d)
  notPeek := by
    intro a view
    cases a <;> simp only [request, Request.code] <;> split_ifs <;> simp

/-- Threads that together ingest consistent evidence: when all of them are done, whatever the
schedule was, the state is the one the calls lead to one after the other, in any order, and each
call has returned what it would have returned had it been the only one. -/
theorem concurrent_ingest {τ : Type} [DecidableEq τ] {st : Impl Double}
    {moves : List (Move τ Request (Impl Double))} {c : Config τ Request (Impl Double) Response}
    {l : List Ingest} (h : Schedule Request.code (initial st) moves c)
    (hidle : ∀ t, c.threads t = .idle) (hl : (calls c.trace).map Prod.snd = l.map request)
    (hc : Consistent l) :
    (∀ l' : List Ingest, l'.Perm l → c.state = (runAll run st l').2) ∧
      ((results c.trace).map Prod.snd).Perm
        (l.map fun a => (a.request, .status (run st a).1)) := by
  obtain ⟨order, hp, hstate, hresults⟩ := locked.serial h hidle hl
  have hrun := hc.harmonious
  constructor
  · intro l' hp'
    rw [hstate, hrun.runAll_perm hp st, hrun.runAll_perm hp' st]
  · rw [hrun.runAll_fst hp.subset, List.map_map, List.zip_map'] at hresults
    exact hresults.trans (hp.map _)

namespace Demo

def recoveries : List Ingest := [recordRecovery ⟨1⟩ ⟨2⟩ .cache, recordRecovery ⟨2⟩ ⟨1⟩ .cache]

def crossed : List (Move Bool Request (Impl Double)) :=
  [.start true (.recordRecovery ⟨1⟩ ⟨2⟩ .cache), .start false (.recordRecovery ⟨2⟩ ⟨1⟩ .cache),
    .advance false, .advance false, .advance false, .advance true, .advance false, .advance true,
    .advance true, .advance true]

end Demo

theorem concurrent_ingest_crossed :
    ∃ c : Config Bool Request (Impl Double) Response,
      Schedule Request.code (initial (Impl.fresh ⟨1⟩ ⟨1⟩)) Demo.crossed c ∧
      (∀ t, c.threads t = .idle) ∧
      (calls c.trace).map Prod.snd = Demo.recoveries.map request ∧
      c.state = (runAll run (Impl.fresh ⟨1⟩ ⟨1⟩) Demo.recoveries).2 ∧
      c.state = (runAll run (Impl.fresh ⟨1⟩ ⟨1⟩) Demo.recoveries.reverse).2 := by
  obtain ⟨c, hc, hfacts⟩ := exists_schedule (s := Impl.fresh ⟨1⟩ ⟨1⟩) (m := Demo.crossed)
    (f := fun c => (c.threads true, c.threads false, (calls c.trace).map Prod.snd))
    (a := (.idle, .idle, Demo.recoveries.map request)) rfl
  obtain ⟨htrue, hfalse, hcalls⟩ : c.threads true = _ ∧ c.threads false = _ ∧ _ = _ := by
    simpa only [Prod.mk.injEq] using hfacts
  have hidle : ∀ t, c.threads t = .idle := Bool.forall_bool.mpr ⟨hfalse, htrue⟩
  have hconsistent : Consistent Demo.recoveries := by
    intro a ha b hb h
    simp only [Demo.recoveries, List.mem_cons, List.not_mem_nil, or_false] at ha hb
    rcases ha with rfl | rfl <;> rcases hb with rfl | rfl
    all_goals first | rfl | nomatch h
  obtain ⟨hstate, -⟩ := concurrent_ingest hc hidle hcalls hconsistent
  exact ⟨c, hc, hidle, hcalls, hstate _ (.refl _), hstate _ (List.reverse_perm _)⟩

end Ingest

end Iobs
