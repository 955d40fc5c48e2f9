import Mathlib.Algebra.BigOperators.Group.List.Basic
import Mathlib.Algebra.Ring.Nat
import Mathlib.Data.List.Infix

/-!
# Runs of a step function

Several parties act on one state and each of their atomic actions is an event. A run is a list of events, so that every
interleaving is one, and a condition on the steps of a run is a condition on an event and on the state that it finds.
-/

namespace Fts3.Machine

variable {σ ε : Type} {step : σ → ε → σ} {C : σ → ε → Prop} {I : σ → Prop}

/-- The state after the events. -/
def run (step : σ → ε → σ) (s : σ) (es : List ε) : σ :=
  es.foldl step s

@[simp] theorem run_nil (s : σ) : run step s [] = s := rfl

@[simp] theorem run_cons (s : σ) (e : ε) (es : List ε) : run step s (e :: es) = run step (step s e) es := rfl

theorem run_append (s : σ) (es es' : List ε) : run step s (es ++ es') = run step (run step s es) es' :=
  List.foldl_append

/-- Each event of the run meets the condition in the state that it finds. -/
def Meets (step : σ → ε → σ) (C : σ → ε → Prop) : σ → List ε → Prop
  | _, [] => True
  | s, e :: es => C s e ∧ Meets step C (step s e) es

instance [∀ s e, Decidable (C s e)] : ∀ s es, Decidable (Meets step C s es)
  | _, [] => .isTrue trivial
  | s, e :: es =>
      have := instDecidableMeets (step s e) es
      inferInstanceAs (Decidable (C s e ∧ Meets step C (step s e) es))

theorem meets_of_forall {D : ε → Prop} {s : σ} {es : List ε} (h : ∀ e ∈ es, D e) : Meets step (fun _ e => D e) s es := by
  induction es generalizing s with
  | nil => trivial
  | cons e es ih => exact ⟨h e List.mem_cons_self, ih fun e' he' => h e' (List.mem_cons_of_mem e he')⟩

/-- What holds at first and is kept by each step that meets the condition holds at the end of the run. -/
theorem Meets.invariant (hstep : ∀ s e, C s e → I s → I (step s e)) {s : σ} {es : List ε} (hes : Meets step C s es)
    (hs : I s) : I (run step s es) := by
  induction es generalizing s with
  | nil => exact hs
  | cons e es ih => exact ih hes.2 (hstep s e hes.1 hs)

/-- Each step pays for itself out of a potential, to which some events add. -/
theorem Meets.potential (potential : σ → Nat) (cost : ε → Nat) (hinv : ∀ s e, C s e → I s → I (step s e))
    (hstep : ∀ s e, C s e → I s → potential (step s e) + 1 ≤ potential s + cost e) {s : σ} {es : List ε}
    (hes : Meets step C s es) (hs : I s) :
    potential (run step s es) + es.length ≤ potential s + (es.map cost).sum := by
  induction es generalizing s with
  | nil => simp
  | cons e es ih =>
      have hfirst := hstep s e hes.1 hs
      have hrest := ih hes.2 (hinv s e hes.1 hs)
      simp only [run_cons, List.length_cons, List.map_cons, List.sum_cons]
      omega

/-- A condition that gives another one in the states of an invariant that it keeps. -/
theorem Meets.imp {D : σ → ε → Prop} (himp : ∀ s e, I s → C s e → D s e) (hstep : ∀ s e, C s e → I s → I (step s e))
    {s : σ} {es : List ε} (hes : Meets step C s es) (hs : I s) : Meets step D s es := by
  induction es generalizing s with
  | nil => trivial
  | cons e es ih => exact ⟨himp s e hs hes.1, ih hes.2 (hstep s e hes.1 hs)⟩

/-- Two conditions that agree in the states of an invariant, which the second one keeps, are met by the same runs. -/
theorem meets_iff {D : σ → ε → Prop} (hiff : ∀ s e, I s → (C s e ↔ D s e)) (hstep : ∀ s e, D s e → I s → I (step s e))
    {s : σ} {es : List ε} (hs : I s) : Meets step C s es ↔ Meets step D s es := by
  constructor
  · exact fun hes => hes.imp (fun s e hs => (hiff s e hs).mp) (fun s e hC hs => hstep s e ((hiff s e hs).mp hC) hs) hs
  · exact fun hes => hes.imp (fun s e hs => (hiff s e hs).mpr) hstep hs

end Fts3.Machine
