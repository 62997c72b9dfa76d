import Mathlib.Data.List.Perm.Basic

/-! Calls whose order does not matter. Each call of a system reports a result and may
change the state. When every call of a collection may be repeated, and different ones do
not disturb each other, the collection can be issued in any order and issued again. -/

namespace Calls

variable {σ α ρ : Type}

section Definitions

variable (run : σ → α → ρ × σ)

def Repeatable (a : α) : Prop := ∀ s, run (run s a).2 a = run s a

structure Independent (a b : α) : Prop where
  result : ∀ s, (run (run s a).2 b).1 = (run s b).1
  state : ∀ s, (run (run s a).2 b).2 = (run (run s b).2 a).2

structure Harmonious (l : List α) : Prop where
  repeatable : ∀ a ∈ l, Repeatable run a
  independent : ∀ a ∈ l, ∀ b ∈ l, a ≠ b → Independent run a b

def runAll : σ → List α → List ρ × σ
  | s, [] => ([], s)
  | s, a :: l => ((run s a).1 :: (runAll (run s a).2 l).1, (runAll (run s a).2 l).2)

end Definitions

variable {run : σ → α → ρ × σ} {l l' : List α}

theorem runAll_snd (s : σ) (l : List α) :
    (runAll run s l).2 = l.foldl (fun s a => (run s a).2) s := by
  induction l generalizing s with
  | nil => rfl
  | cons a l ih => exact ih _

theorem runAll_map {σ' : Type} {run' : σ' → α → ρ × σ'} (f : σ' → σ)
    (h : ∀ s a, run (f s) a = ((run' s a).1, f (run' s a).2)) (s : σ') (l : List α) :
    runAll run (f s) l = ((runAll run' s l).1, f (runAll run' s l).2) := by
  induction l generalizing s with
  | nil => rfl
  | cons a l ih =>
    rw [runAll, h, ih]
    rfl

namespace Harmonious

variable (h : Harmonious run l)
include h

theorem result_after {a b : α} (ha : a ∈ l) (hb : b ∈ l) (s : σ) :
    (run (run s a).2 b).1 = (run s b).1 := by
  by_cases hab : a = b
  · rw [← hab, h.repeatable a ha]
  · exact (h.independent a ha b hb hab).result s

theorem state_after {a b : α} (ha : a ∈ l) (hb : b ∈ l) (s : σ) :
    (run (run s a).2 b).2 = (run (run s b).2 a).2 := by
  by_cases hab : a = b
  · rw [hab]
  · exact (h.independent a ha b hb hab).state s

theorem result_foldl (hs : l' ⊆ l) {b : α} (hb : b ∈ l) (s : σ) :
    (run (l'.foldl (fun s a => (run s a).2) s) b).1 = (run s b).1 := by
  induction l' generalizing s with
  | nil => rfl
  | cons a l' ih =>
    obtain ⟨ha, hl⟩ := List.cons_subset.mp hs
    rw [List.foldl_cons, ih hl, h.result_after ha hb]

theorem runAll_fst (hs : l' ⊆ l) (s : σ) :
    (runAll run s l').1 = l'.map fun a => (run s a).1 := by
  induction l' generalizing s with
  | nil => rfl
  | cons a l' ih =>
    obtain ⟨ha, hl⟩ := List.cons_subset.mp hs
    have hafter : (l'.map fun b => (run (run s a).2 b).1) = l'.map fun b => (run s b).1 := by
      apply List.map_congr_left
      intro b hb
      exact h.result_after ha (hl hb) s
    rw [List.map_cons, ← hafter, ← ih hl]
    rfl

theorem runAll_perm (hp : l'.Perm l) (s : σ) : (runAll run s l').2 = (runAll run s l).2 := by
  rw [runAll_snd, runAll_snd]
  refine (hp.symm.foldl_eq' ?_ s).symm
  intro a ha b hb t
  exact h.state_after ha hb t

theorem run_after_all {a : α} (ha : a ∈ l) (s : σ) :
    (run (runAll run s l).2 a).2 = (runAll run s l).2 := by
  classical
  -- issue the call last
  have hp : (l.erase a ++ [a]).Perm l :=
    (List.perm_append_singleton a _).trans (List.perm_cons_erase ha).symm
  rw [← h.runAll_perm hp, runAll_snd, List.foldl_append]
  exact congrArg Prod.snd (h.repeatable a ha _)

theorem runAll_again (hs : l' ⊆ l) (s : σ) :
    runAll run (runAll run s l).2 l' =
      (l'.map fun a => (run s a).1, (runAll run s l).2) := by
  apply Prod.ext
  · rw [h.runAll_fst hs]
    apply List.map_congr_left
    intro b hb
    rw [runAll_snd]
    exact h.result_foldl (List.Subset.refl l) (hs hb) s
  · rw [runAll_snd]
    induction l' with
    | nil => rfl
    | cons a l' ih =>
      obtain ⟨ha, hl⟩ := List.cons_subset.mp hs
      rw [List.foldl_cons, h.run_after_all ha, ih hl]

end Harmonious
end Calls
