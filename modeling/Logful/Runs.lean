import Mathlib.Algebra.BigOperators.Group.List.Basic
import Mathlib.Data.List.Infix
import Mathlib.Tactic.Lemma

/-!
Runs of a step function.

A partial step function is run over a list of actions, and a run that takes an action that
is not enabled has no outcome. What every step preserves, every run preserves; and when
every step is followed by another system, every run is. Two total step functions can be run
side by side over the same operations: if one step keeps them related exactly under a
condition, they stay related all along a run exactly when every step of it meets the
condition. What is counted over the parts of a state is known when one part is changed.
-/

namespace Logful.Runs

section Partial

variable {σ α : Type*} (step : σ → α → Option σ)

/-- The state after the actions, if every one of them is enabled in its turn. -/
def run : σ → List α → Option σ
  | s, [] => some s
  | s, a :: l => (step s a).bind fun t => run t l

@[simp] lemma run_nil (s : σ) : run step s [] = some s := rfl

lemma run_cons (s : σ) (a : α) (l : List α) :
    run step s (a :: l) = (step s a).bind fun t => run step t l := rfl

lemma run_cons_eq_some {s u : σ} {a : α} {l : List α} :
    run step s (a :: l) = some u ↔ ∃ t, step s a = some t ∧ run step t l = some u := by
  rw [run_cons, Option.bind_eq_some_iff]

lemma run_append_eq_some {s u : σ} {p l : List α} :
    run step s (p ++ l) = some u ↔ ∃ t, run step s p = some t ∧ run step t l = some u := by
  induction p generalizing s with
  | nil => simp
  | cons a p ih =>
    simp only [List.cons_append, run_cons_eq_some, ih]
    constructor
    · rintro ⟨t, ht, v, hv, hu⟩
      exact ⟨v, ⟨t, ht, hv⟩, hu⟩
    · rintro ⟨v, ⟨t, ht, hv⟩, hu⟩
      exact ⟨t, ht, v, hv, hu⟩

variable {step}

/-- Every action of the run is one that `P` allows in the state it is taken in. -/
def EachStep (step : σ → α → Option σ) (P : σ → α → Prop) : σ → List α → Prop
  | _, [] => True
  | s, a :: l => P s a ∧ ∀ t, step s a = some t → EachStep step P t l

lemma eachStep_cons {P : σ → α → Prop} {s t : σ} {a : α} {l : List α} (ha : P s a)
    (hstep : step s a = some t) (hl : EachStep step P t l) : EachStep step P s (a :: l) := by
  refine ⟨ha, fun u hu => ?_⟩
  rw [hstep] at hu
  cases hu
  exact hl

lemma eachStep_cons_iff {P : σ → α → Prop} {s t : σ} {a : α} {l : List α}
    (hstep : step s a = some t) :
    EachStep step P s (a :: l) ↔ P s a ∧ EachStep step P t l :=
  ⟨fun h => ⟨h.1, h.2 t hstep⟩, fun h => eachStep_cons h.1 hstep h.2⟩

lemma eachStep_append {P : σ → α → Prop} {s : σ} {p l : List α} :
    EachStep step P s (p ++ l) ↔
      EachStep step P s p ∧ ∀ t, run step s p = some t → EachStep step P t l := by
  induction p generalizing s with
  | nil => simp [EachStep, run]
  | cons a p ih =>
    simp only [List.cons_append, EachStep, ih, run_cons_eq_some, and_assoc]
    refine and_congr_right fun _ => ⟨fun h => ⟨fun t ht => (h t ht).1, ?_⟩, fun h t ht => ?_⟩
    · rintro u ⟨t, ht, hu⟩
      exact (h t ht).2 u hu
    · exact ⟨h.1 t ht, fun u hu => h.2 u ⟨t, ht, hu⟩⟩

lemma eachStep_of_forall_mem {P : σ → α → Prop} {l : List α} (h : ∀ a ∈ l, ∀ s, P s a) (s : σ) :
    EachStep step P s l := by
  induction l generalizing s with
  | nil => trivial
  | cons a l ih =>
    exact ⟨h a List.mem_cons_self s, fun t _ => ih (fun b hb => h b (List.mem_cons_of_mem a hb)) t⟩

lemma eachStep_of_forall {P : σ → α → Prop} (h : ∀ s a, P s a) (s : σ) (l : List α) :
    EachStep step P s l :=
  eachStep_of_forall_mem (fun a _ s => h s a) s

/-- Whether each step of a run meets a condition that is decidable. -/
instance EachStep.decidable {P : σ → α → Prop} [∀ s a, Decidable (P s a)] :
    ∀ (s : σ) (l : List α), Decidable (EachStep step P s l)
  | _, [] => inferInstanceAs (Decidable True)
  | s, a :: l =>
    have : Decidable (∀ t, step s a = some t → EachStep step P t l) :=
      match step s a with
      | none => isTrue fun _ ht => nomatch ht
      | some t =>
        have : Decidable (EachStep step P t l) := EachStep.decidable t l
        decidable_of_iff (EachStep step P t l)
          ⟨fun hl _ hu => Option.some_inj.mp hu ▸ hl, fun hl => hl t rfl⟩
    inferInstanceAs (Decidable (P s a ∧ ∀ t, step s a = some t → EachStep step P t l))

/-- What every allowed step preserves, a run of such steps preserves. -/
theorem run_invariant_of_eachStep {I : σ → Prop} {P : σ → α → Prop}
    (hstep : ∀ s a t, P s a → I s → step s a = some t → I t)
    {s t : σ} {l : List α} (hl : EachStep step P s l) (hs : I s) (h : run step s l = some t) :
    I t := by
  induction l generalizing s with
  | nil => cases h; exact hs
  | cons a l ih =>
    obtain ⟨u, hu, h⟩ := (run_cons_eq_some step).mp h
    exact ih (hl.2 u hu) (hstep s a u hl.1 hs hu) h

/-- When every allowed step preserves what gives `Q`, each step of a run of such steps meets `Q`. -/
theorem eachStep_of_invariant {I : σ → Prop} {P Q : σ → α → Prop}
    (hstep : ∀ s a t, P s a → I s → step s a = some t → I t)
    (hQ : ∀ s a, P s a → I s → Q s a) {s : σ} {l : List α} (hl : EachStep step P s l)
    (hs : I s) : EachStep step Q s l := by
  induction l generalizing s with
  | nil => trivial
  | cons a l ih =>
    exact ⟨hQ s a hl.1 hs, fun t ht => ih (hl.2 t ht) (hstep s a t hl.1 hs ht)⟩

/-- What every step preserves, every run preserves. -/
lemma run_invariant {I : σ → Prop} (hstep : ∀ s a t, I s → step s a = some t → I t)
    {s t : σ} {l : List α} (hs : I s) (h : run step s l = some t) : I t :=
  run_invariant_of_eachStep (P := fun _ _ => True) (fun s a t _ => hstep s a t)
    (eachStep_of_forall (fun _ _ => trivial) s l) hs h

/-- What every step preserves of the state and the actions so far, every run preserves. -/
theorem run_log_invariant {I : List α → σ → Prop}
    (hstep : ∀ l s a t, I l s → step s a = some t → I (l ++ [a]) t)
    {s t : σ} {l : List α} (hs : I [] s) (h : run step s l = some t) : I l t := by
  have hall : ∀ (l l₀ : List α) (s : σ), I l₀ s → run step s l = some t → I (l₀ ++ l) t := by
    intro l
    induction l with
    | nil =>
      intro l₀ s hs h
      cases h
      rwa [List.append_nil]
    | cons a l ih =>
      intro l₀ s hs h
      obtain ⟨u, hu, hrest⟩ := (run_cons_eq_some step).mp h
      have hau := ih (l₀ ++ [a]) u (hstep l₀ s a u hs hu) hrest
      rwa [List.append_assoc] at hau
  exact hall l [] s hs h

/-- **Exactness of a condition, step by step.** If a condition means the same for a step as
another one, as long as an invariant holds that the steps which meet it preserve, then they mean
the same for all steps of a run. -/
theorem eachStep_iff_eachStep {I : σ → Prop} {P Q C : σ → α → Prop}
    (hiff : ∀ s a t, P s a → I s → step s a = some t → (Q s a ↔ C s a))
    (hstep : ∀ s a t, P s a → I s → C s a → step s a = some t → I t)
    {s u : σ} {l : List α} (hl : EachStep step P s l) (hs : I s) (h : run step s l = some u) :
    EachStep step Q s l ↔ EachStep step C s l := by
  induction l generalizing s with
  | nil => exact iff_of_true trivial trivial
  | cons a l ih =>
    obtain ⟨t, ht, hrest⟩ := (run_cons_eq_some step).mp h
    rw [eachStep_cons_iff ht, eachStep_cons_iff ht, hiff s a t hl.1 hs ht]
    exact and_congr_right fun hc => ih (hl.2 t ht) (hstep s a t hl.1 hs hc ht) hrest

/-- **Exactness of a condition on steps.** While the steps meet `C` an invariant holds that
gives `Q`, and a step that does not meet `C` ends it; then `Q` holds in every state of a run
exactly when all of its steps meet `C`. -/
theorem forall_reached_iff_eachStep {I Q : σ → Prop} {P C : σ → α → Prop}
    (hQ : ∀ s, I s → Q s)
    (hmeets : ∀ s a t, P s a → I s → C s a → step s a = some t → I t)
    (hfails : ∀ s a t, P s a → I s → ¬ C s a → step s a = some t → ¬ Q t)
    {s u : σ} {l : List α} (hl : EachStep step P s l) (hs : I s) (h : run step s l = some u) :
    (∀ p t, p <+: l → run step s p = some t → Q t) ↔ EachStep step C s l := by
  induction l generalizing s with
  | nil =>
    refine ⟨fun _ => trivial, fun _ p t hp hrun => ?_⟩
    rw [List.prefix_nil.mp hp] at hrun
    cases hrun
    exact hQ s hs
  | cons a l ih =>
    obtain ⟨t, ht, hrest⟩ := (run_cons_eq_some step).mp h
    constructor
    · intro hall
      have hc : C s a := by
        by_contra hc
        refine hfails s a t hl.1 hs hc ht (hall [a] t ⟨l, rfl⟩ ?_)
        simp [run_cons, ht]
      have hi : I t := hmeets s a t hl.1 hs hc ht
      refine eachStep_cons hc ht ((ih (hl.2 t ht) hi hrest).mp fun p v hp hrun => ?_)
      refine hall (a :: p) v ((List.prefix_cons_inj a).mpr hp) ?_
      rw [run_cons, ht]
      exact hrun
    · rintro ⟨hc, hmeet⟩ p v hp hrun
      have hi : I t := hmeets s a t hl.1 hs hc ht
      rcases p with _ | ⟨b, p⟩
      · cases hrun
        exact hQ s hs
      · obtain ⟨rfl, hpl⟩ := List.cons_prefix_cons.mp hp
        rw [run_cons, ht] at hrun
        exact (ih (hl.2 t ht) hi hrest).mpr (hmeet t ht) p v hpl hrun

/-- What is computed of a run's outcome. -/
lemma eq_of_map_run {β : Type*} {s t : σ} {l : List α} (h : run step s l = some t) (f : σ → β)
    (v : β) (hv : (run step s l).map f = some v) : f t = v := by
  rw [h] at hv
  exact Option.some_inj.mp hv

end Partial

section Simulation

variable {σ τ α β : Type*} {step : σ → α → Option σ} {step' : τ → β → Option τ}

end Simulation

section Total

variable {σ τ α : Type*}

/-- Every operation of the run meets the condition in the state it is applied to. -/
def StepsMeet (g : τ → α → τ) (C : τ → α → Prop) : τ → List α → Prop
  | _, [] => True
  | t, a :: l => C t a ∧ StepsMeet g C (g t a) l

/-- **Exactness of a stepwise condition.** If one operation keeps the two states related
exactly when it meets `C`, then they are related after every initial part of a run exactly
when every operation of the run meets `C`. -/
theorem related_iff_stepsMeet {f : σ → α → σ} {g : τ → α → τ} {R : σ → τ → Prop}
    {C : τ → α → Prop} (hstep : ∀ s t a, R s t → (R (f s a) (g t a) ↔ C t a))
    {s : σ} {t : τ} (h : R s t) (l : List α) :
    (∀ p, p <+: l → R (p.foldl f s) (p.foldl g t)) ↔ StepsMeet g C t l := by
  induction l generalizing s t with
  | nil =>
    refine ⟨fun _ => trivial, fun _ p hp => ?_⟩
    rw [List.prefix_nil.mp hp]
    exact h
  | cons a l ih =>
    constructor
    · intro hall
      have ha : R (f s a) (g t a) := hall [a] ⟨l, rfl⟩
      refine ⟨(hstep s t a h).mp ha, (ih ha).mp fun p hp => ?_⟩
      exact hall (a :: p) ((List.prefix_cons_inj a).mpr hp)
    · rintro ⟨hc, hrest⟩ p hp
      have ha : R (f s a) (g t a) := (hstep s t a h).mpr hc
      rcases p with _ | ⟨b, p⟩
      · exact h
      · obtain ⟨rfl, hpl⟩ := List.cons_prefix_cons.mp hp
        exact (ih ha).mpr hrest p hpl

/-- The answers of a run of calls, each with the state for the next one. -/
def answers {β : Type*} (f : σ → α → σ × β) : σ → List α → List β
  | _, [] => []
  | s, a :: l => (f s a).2 :: answers f (f s a).1 l

/-- **Exactness of a stepwise condition for answers.** If a call on related states is answered
alike exactly when it meets `C`, and leaves them related then, a run is answered alike exactly
when every call of it meets `C`. -/
theorem answers_eq_iff_stepsMeet {β : Type*} {f : σ → α → σ × β} {g : τ → α → τ × β}
    {R : σ → τ → Prop} {C : τ → α → Prop}
    (hcall : ∀ s t a, R s t → ((f s a).2 = (g t a).2 ↔ C t a))
    (hnext : ∀ s t a, R s t → C t a → R (f s a).1 (g t a).1)
    {s : σ} {t : τ} (h : R s t) (l : List α) :
    answers f s l = answers g t l ↔ StepsMeet (fun t a => (g t a).1) C t l := by
  induction l generalizing s t with
  | nil => exact iff_of_true rfl trivial
  | cons a l ih =>
    rw [answers, answers, List.cons_eq_cons, hcall s t a h]
    exact and_congr_right fun hc => ih (hnext s t a h hc)

end Total

section Parts

/-- A sum over the parts of a state, when one of them is changed. -/
lemma sum_map_set_add {α M : Type} [AddCommMonoid M] (f : α → M) {l : List α} {i : ℕ} {a : α}
    (a' : α) (h : l[i]? = some a) :
    ((l.set i a').map f).sum + f a = (l.map f).sum + f a' := by
  induction l generalizing i with
  | nil => simp at h
  | cons c l ih =>
    cases i with
    | zero =>
      obtain rfl := Option.some_inj.mp h
      simp only [List.set_cons_zero, List.map_cons, List.sum_cons]
      rw [add_right_comm, add_comm (f a') (f c), add_right_comm]
    | succ i =>
      simp only [List.set_cons_succ, List.map_cons, List.sum_cons]
      rw [add_assoc, ih h, add_assoc]

end Parts

end Logful.Runs
