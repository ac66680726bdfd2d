import Mathlib.Data.List.Induction

/-! # Runs

A system moves from state to state, one labelled move at a time. A run keeps every move with the
states around it, so that what happened before, between and after two moves can be told from the
run itself. Equal moves at different places of a run stay apart.
-/

namespace Courier

variable {σ μ : Type}

/-- One move of a system, with the states around it. -/
structure Transition (σ μ : Type) where
  before : σ
  move : μ
  after : σ

/-- The system gets from `start` to a state by the transitions of a list, one after another. -/
inductive Run (step : σ → μ → σ → Prop) (start : σ) : List (Transition σ μ) → σ → Prop
  | refl : Run step start [] start
  | tail {trace : List (Transition σ μ)} {s : σ} {m : μ} {s' : σ} (run : Run step start trace s)
      (last : step s m s') : Run step start (trace ++ [⟨s, m, s'⟩]) s'

namespace Run

variable {step : σ → μ → σ → Prop} {a b c : σ} {xs ys : List (Transition σ μ)}

theorem head {m : μ} (first : step a m b) (run : Run step b xs c) :
    Run step a (⟨a, m, b⟩ :: xs) c := by
  induction run with
  | refl => exact Run.tail Run.refl first
  | tail _ last ih => exact Run.tail ih last

theorem trans (first : Run step a xs b) (run : Run step b ys c) : Run step a (xs ++ ys) c := by
  induction run with
  | refl => rwa [List.append_nil]
  | tail _ last ih =>
      rw [← List.append_assoc]
      exact ih.tail last

theorem split (run : Run step a (xs ++ ys) c) : ∃ b, Run step a xs b ∧ Run step b ys c := by
  induction ys using List.reverseRecOn generalizing c with
  | nil =>
      rw [List.append_nil] at run
      exact ⟨c, run, Run.refl⟩
  | append_singleton ys t ih =>
      rw [← List.append_assoc] at run
      generalize h : xs ++ ys ++ [t] = trace at run
      cases run with
      | refl => simp at h
      | tail run last =>
          obtain ⟨rfl, ht⟩ := List.append_inj' h rfl
          cases ht
          obtain ⟨b, left, right⟩ := ih run
          exact ⟨b, left, Run.tail right last⟩

theorem around {t : Transition σ μ} (run : Run step a (xs ++ t :: ys) c) :
    Run step a xs t.before ∧ step t.before t.move t.after ∧ Run step t.after ys c := by
  rw [List.append_cons] at run
  obtain ⟨b, left, right⟩ := run.split
  generalize h : xs ++ [t] = trace at left
  cases left with
  | refl => simp at h
  | tail left last =>
      obtain ⟨rfl, ht⟩ := List.append_inj' h rfl
      cases ht
      exact ⟨left, last, right⟩

/-- A transition of a run is a step that some run before it leads to. -/
theorem of_mem {t : Transition σ μ} (run : Run step a xs c) (ht : t ∈ xs) :
    ∃ before after, xs = before ++ t :: after ∧ Run step a before t.before ∧
      step t.before t.move t.after := by
  obtain ⟨before, after, rfl⟩ := List.append_of_mem ht
  obtain ⟨left, taken, _⟩ := run.around
  exact ⟨before, after, rfl, left, taken⟩

theorem between {t u : Transition σ μ} {zs : List (Transition σ μ)}
    (run : Run step a (xs ++ t :: ys ++ u :: zs) c) :
    Run step a xs t.before ∧ step t.before t.move t.after ∧ Run step t.after ys u.before ∧
      step u.before u.move u.after ∧ Run step u.after zs c := by
  obtain ⟨early, hu, late⟩ := run.around
  obtain ⟨left, ht, mid⟩ := early.around
  exact ⟨left, ht, mid, hu, late⟩

theorem mono {step' : σ → μ → σ → Prop} (more : ∀ {s m s'}, step s m s' → step' s m s')
    (run : Run step a xs c) : Run step' a xs c := by
  induction run with
  | refl => exact Run.refl
  | tail _ last ih => exact Run.tail ih (more last)

theorem keeps {P : σ → Prop} (kept : ∀ {s m s'}, P s → step s m s' → P s') (start : P a)
    (run : Run step a xs c) : P c := by
  induction run with
  | refl => exact start
  | tail _ last ih => exact kept ih last

end Run

/-! ## Measures -/

def Ascending (measure : σ → Int) (xs : List (Transition σ μ)) : Prop :=
  ∀ t ∈ xs, measure t.before ≤ measure t.after

variable {measure : σ → Int} {step : σ → μ → σ → Prop} {a c : σ}
  {xs ys zs : List (Transition σ μ)} {t u : Transition σ μ}

theorem ascending_append :
    Ascending measure (xs ++ ys) ↔ Ascending measure xs ∧ Ascending measure ys :=
  List.forall_mem_append

theorem Ascending.last (h : Ascending measure (xs ++ [t])) :
    Ascending measure xs ∧ measure t.before ≤ measure t.after := by
  obtain ⟨earlier, last⟩ := ascending_append.1 h
  exact ⟨earlier, last t List.mem_cons_self⟩

theorem Ascending.between (h : Ascending measure (xs ++ t :: ys ++ u :: zs)) :
    Ascending measure ys ∧ Ascending measure (u :: zs) := by
  obtain ⟨earlier, late⟩ := ascending_append.1 h
  exact ⟨(List.forall_mem_cons.1 (ascending_append.1 earlier).2).2, late⟩

theorem Run.measure_le (run : Run step a xs c) (h : Ascending measure xs) : measure a ≤ measure c := by
  induction run with
  | refl => exact Int.le_refl _
  | tail _ _ ih =>
      obtain ⟨earlier, last⟩ := h.last
      exact Int.le_trans (ih earlier) last

end Courier
