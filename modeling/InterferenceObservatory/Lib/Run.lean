import Mathlib.Init

/-! Runs of a partial transition function. A run records its history, so an
invariant may speak about the actions already taken as well as about the state
reached; `allowed` restricts the actions by the state they are taken in. -/

namespace Runs

variable {σ α β : Type} {step : σ → α → Option σ} {allowed : σ → α → Prop} {s₀ s s' : σ}

/-- `Run step allowed s₀ h s`: the actions `h`, oldest first and each allowed where
it is taken, lead from `s₀` to `s`. -/
inductive Run (step : σ → α → Option σ) (allowed : σ → α → Prop) (s₀ : σ) :
    List α → σ → Prop
  | start : Run step allowed s₀ [] s₀
  | next {h : List α} {s s' : σ} {a : α} : Run step allowed s₀ h s → allowed s a →
      step s a = some s' → Run step allowed s₀ (h ++ [a]) s'

theorem Run.trans {h k : List α} (hr : Run step allowed s₀ h s)
    (hr' : Run step allowed s k s') : Run step allowed s₀ (h ++ k) s' := by
  induction hr' with
  | start => simpa only [List.append_nil] using hr
  | next _ ha hs ih =>
    rw [← List.append_assoc]
    exact .next ih ha hs

def exec (step : σ → α → Option σ) : σ → List α → Option σ
  | s, [] => some s
  | s, a :: as => (step s a).bind fun s' => exec step s' as

theorem exec_append (h k : List α) :
    exec step s₀ (h ++ k) = (exec step s₀ h).bind fun s => exec step s k := by
  induction h generalizing s₀ with
  | nil => rfl
  | cons a h ih => simp only [List.cons_append, exec, ih, Option.bind_assoc]

theorem Run.of_exec (hall : ∀ s a, allowed s a) {h : List α} (he : exec step s₀ h = some s) :
    Run step allowed s₀ h s := by
  induction h generalizing s₀ with
  | nil =>
    obtain rfl := Option.some.inj he
    exact .start
  | cons a as ih =>
    obtain ⟨s₁, h₁, he⟩ := Option.bind_eq_some_iff.mp he
    exact Run.trans (.next .start (hall s₀ a) h₁) (ih he)

theorem Run.exec_eq {h : List α} (hr : Run step allowed s₀ h s) : exec step s₀ h = some s := by
  induction hr with
  | start => rfl
  | next _ _ hs ih => rw [exec_append, ih, Option.bind_some, exec, hs, Option.bind_some, exec]

theorem Run.invariant {I : σ → Prop} {h : List α} (hr : Run step allowed s₀ h s) (h₀ : I s₀)
    (hstep : ∀ s a s', allowed s a → step s a = some s' → I s → I s') : I s := by
  induction hr with
  | start => exact h₀
  | next _ ha hs ih => exact hstep _ _ _ ha hs ih

theorem Run.history_invariant {I : List α → σ → Prop} {h : List α}
    (hr : Run step allowed s₀ h s) (h₀ : I [] s₀)
    (hstep : ∀ h s a s', allowed s a → step s a = some s' → I h s → I (h ++ [a]) s') :
    I h s := by
  induction hr with
  | start => exact h₀
  | next _ ha hs ih => exact hstep _ _ _ _ ha hs ih

theorem Run.restrict {P : α → Prop} {h : List α} (hr : Run step allowed s₀ h s)
    (hall : ∀ a ∈ h, P a) : Run step (fun _ a => P a) s₀ h s := by
  induction hr with
  | start => exact .start
  | @next h s s' a _ _ hs ih =>
    exact .next (ih fun b hb => hall b (List.mem_append_left _ hb))
      (hall a (List.mem_append_right _ (List.mem_singleton_self a))) hs

theorem Run.within {I : σ → Prop} {h : List α} (hr : Run step allowed s₀ h s) (h₀ : I s₀)
    (hstep : ∀ s a s', allowed s a → step s a = some s' → I s → I s') :
    Run step (fun s _ => I s) s₀ h s := by
  induction hr with
  | start => exact .start
  | next hr _ hs ih => exact .next ih (hr.invariant h₀ hstep) hs

theorem Run.cut_first (P : α → Prop) {h : List α} (hr : Run step allowed s₀ h s) :
    (∀ a ∈ h, ¬ P a) ∨ ∃ pre a post s₁ s₂, h = pre ++ a :: post ∧ P a ∧ (∀ b ∈ pre, ¬ P b) ∧
      Run step allowed s₀ pre s₁ ∧ step s₁ a = some s₂ ∧ Run step allowed s₂ post s := by
  induction hr with
  | start => exact .inl nofun
  | @next h s s' a hr ha hs ih =>
    rcases ih with hnone | ⟨pre, b, post, s₁, s₂, rfl, hb, hpre, hfront, hstep, hrest⟩
    · by_cases hP : P a
      · exact .inr ⟨h, a, [], s, s', rfl, hP, hnone, hr, hs, .start⟩
      · refine .inl fun b hb => ?_
        rcases List.mem_append.mp hb with hb | hb
        · exact hnone b hb
        · rw [List.mem_singleton.mp hb]
          exact hP
    · refine .inr ⟨pre, b, post ++ [a], s₁, s₂, ?_, hb, hpre, hfront, hstep, .next hrest ha hs⟩
      rw [List.append_assoc]
      rfl

theorem Run.cut_last (P : α → Prop) {h : List α} (hr : Run step allowed s₀ h s) :
    (∀ a ∈ h, ¬ P a) ∨ ∃ pre a post s₁ s₂, h = pre ++ a :: post ∧ P a ∧ (∀ b ∈ post, ¬ P b) ∧
      Run step allowed s₀ pre s₁ ∧ step s₁ a = some s₂ ∧ Run step allowed s₂ post s := by
  induction hr with
  | start => exact .inl nofun
  | @next h s s' a hr ha hs ih =>
    by_cases hP : P a
    · exact .inr ⟨h, a, [], s, s', rfl, hP, nofun, hr, hs, .start⟩
    · have hlast (l : List α) (hl : ∀ b ∈ l, ¬ P b) : ∀ b ∈ l ++ [a], ¬ P b := by
        intro b hb
        rcases List.mem_append.mp hb with hb | hb
        · exact hl b hb
        · rw [List.mem_singleton.mp hb]
          exact hP
      rcases ih with hnone | ⟨pre, b, post, s₁, s₂, rfl, hb, hpost, hpre, hstep, hrest⟩
      · exact .inl (hlast h hnone)
      · refine .inr ⟨pre, b, post ++ [a], s₁, s₂, ?_, hb, hlast post hpost, hpre, hstep, ?_⟩
        · rw [List.append_assoc]
          rfl
        · exact .next hrest ha hs

def outputs (step : σ → α → Option σ) (out : σ → α → List β) : σ → List α → List β
  | _, [] => []
  | s, a :: as =>
    match step s a with
    | none => []
    | some s' => out s a ++ outputs step out s' as

theorem outputs_concat {out : σ → α → List β} {h : List α} {a : α}
    (he : exec step s₀ h = some s) (hs : step s a = some s') :
    outputs step out s₀ (h ++ [a]) = outputs step out s₀ h ++ out s a := by
  induction h generalizing s₀ with
  | nil =>
    obtain rfl := Option.some.inj he
    simp only [List.nil_append, outputs, hs, List.append_nil]
  | cons b h ih =>
    obtain ⟨s₁, h₁, he⟩ := Option.bind_eq_some_iff.mp he
    simp only [List.cons_append, outputs, h₁, ih he, List.append_assoc]

theorem Run.output_invariant {out : σ → α → List β} {I : List α → List β → σ → Prop} {h : List α}
    (hr : Run step allowed s₀ h s) (h₀ : I [] [] s₀)
    (hstep : ∀ h r s a s', allowed s a → step s a = some s' → I h r s →
      I (h ++ [a]) (r ++ out s a) s') :
    I h (outputs step out s₀ h) s := by
  induction hr with
  | start => exact h₀
  | next hr ha hs ih =>
    rw [outputs_concat hr.exec_eq hs]
    exact hstep _ _ _ _ _ ha hs ih

end Runs
