import Mathlib.Algebra.BigOperators.Group.List.Basic
import Mathlib.Algebra.Ring.Nat
import Mathlib.Algebra.Order.BigOperators.Group.List
import Mathlib.Algebra.Order.Group.Nat

/-!
# Limits

Several take from what they have waiting, each no more than a limit; and what they take together.
-/

namespace Fts3

variable {γ : Type} {w : γ → Nat} {cs : List γ} {room room' : Nat}

theorem sum_min_le_sum : (cs.map fun c => min room (w c)).sum ≤ (cs.map w).sum := by
  induction cs with
  | nil => simp
  | cons c cs ih =>
      simp only [List.map_cons, List.sum_cons]
      omega

theorem add_le_sum {f : γ → Nat} {c d : γ} (hc : c ∈ cs) (hd : d ∈ cs) (hne : c ≠ d) : f c + f d ≤ (cs.map f).sum := by
  induction cs with
  | nil => cases hc
  | cons e cs ih =>
      simp only [List.map_cons, List.sum_cons]
      have hle : ∀ {x}, x ∈ cs → f x ≤ (cs.map f).sum := fun hx =>
        List.single_le_sum (fun _ _ => Nat.zero_le _) _ (List.mem_map_of_mem hx)
      cases hc with
      | head =>
          cases hd with
          | head => exact absurd rfl hne
          | tail _ hd =>
              have := hle hd
              omega
      | tail _ hc =>
          cases hd with
          | head =>
              have := hle hc
              omega
          | tail _ hd =>
              have := ih hc hd
              omega

theorem sum_min_eq_sum (h : ∀ c ∈ cs, w c ≤ room) : (cs.map fun c => min room (w c)).sum = (cs.map w).sum := by
  congr 1
  apply List.map_congr_left
  intro c hc
  exact Nat.min_eq_right (h c hc)

theorem sum_min_of_single (hnodup : cs.Nodup) (h : ∀ c ∈ cs, ∀ d ∈ cs, 0 < w c → 0 < w d → c = d) :
    (cs.map fun c => min room (w c)).sum ≤ room := by
  induction cs with
  | nil => simp
  | cons c cs ih =>
      obtain ⟨hnotin, hrest⟩ := List.nodup_cons.mp hnodup
      have hih := ih hrest fun c hc d hd => h c (.tail _ hc) d (.tail _ hd)
      simp only [List.map_cons, List.sum_cons]
      by_cases hc : w c = 0
      · omega
      · have hzero : (cs.map fun c => min room (w c)).sum = 0 := by
          apply List.sum_eq_zero
          intro x hx
          obtain ⟨d, hd, rfl⟩ := List.mem_map.mp hx
          have hwd : ¬0 < w d := by
            intro hwd
            have heq := h c (.head _) d (.tail _ hd) (Nat.pos_of_ne_zero hc) hwd
            exact hnotin (heq ▸ hd)
          omega
        omega

/-- When each may take `room'`, all together take at most `room`, in these cases only. -/
theorem sum_min_le_iff (hnodup : cs.Nodup) (hroom : room ≤ room') :
    (cs.map fun c => min room' (w c)).sum ≤ room ↔
      (cs.map w).sum ≤ room ∨
        room' = room ∧ (room = 0 ∨ ∀ c ∈ cs, ∀ d ∈ cs, 0 < w c → 0 < w d → c = d) := by
  constructor
  · intro hsum
    by_cases hall : ∀ c ∈ cs, w c ≤ room'
    · rw [sum_min_eq_sum hall] at hsum
      exact .inl hsum
    · -- one takes all that it may
      obtain ⟨c, hc, hlt⟩ : ∃ c ∈ cs, room' < w c := by simpa using hall
      have hle : min room' (w c) ≤ (cs.map fun c => min room' (w c)).sum :=
        List.single_le_sum (fun _ _ => Nat.zero_le _) _ (List.mem_map_of_mem (f := fun c => min room' (w c)) hc)
      have heq : room' = room := by omega
      refine .inr ⟨heq, ?_⟩
      by_cases hzero : room = 0
      · exact .inl hzero
      · refine .inr fun a ha b hb hwa hwb => ?_
        have hone : ∀ x ∈ cs, 0 < w x → x = c := by
          intro x hx hwx
          by_contra hne
          have hadd := add_le_sum (f := fun c => min room' (w c)) hx hc hne
          omega
        rw [hone a ha hwa, hone b hb hwb]
  · rintro (htotal | ⟨rfl, hzero | hsingle⟩)
    · exact sum_min_le_sum.trans htotal
    · subst hzero
      simp
    · exact sum_min_of_single hnodup hsingle

end Fts3
