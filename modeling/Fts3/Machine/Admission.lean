import Mathlib.Algebra.Order.Group.Int
import Mathlib.Logic.Function.Basic
import Mathlib.Order.Lattice

/-!
# Admission

Items ask, one after the other, for a unit of each of their resources. An item is admitted while all of them have
something left, and takes a unit of each.
-/

namespace Fts3.Machine

variable {ι α : Type} [DecidableEq ι] (uses : α → List ι)

/-- What the resources have left once an item has been admitted. -/
def taken (left : ι → Int) (a : α) : ι → Int := fun i => if i ∈ uses a then left i - 1 else left i

def admitted (left : ι → Int) : List α → List α
  | [] => []
  | a :: as => if ∀ i ∈ uses a, 0 < left i then a :: admitted (taken uses left a) as else admitted left as

/-- What the resources have left in the end. -/
def leftAfter (left : ι → Int) : List α → ι → Int
  | [] => left
  | a :: as => if ∀ i ∈ uses a, 0 < left i then leftAfter (taken uses left a) as else leftAfter left as

variable {uses} {left left' : ι → Int} {as : List α}

theorem admitted_append (as bs : List α) :
    admitted uses left (as ++ bs) = admitted uses left as ++ admitted uses (leftAfter uses left as) bs := by
  induction as generalizing left with
  | nil => rfl
  | cons a as ih =>
      rw [List.cons_append, admitted, admitted, leftAfter]
      split
      · rw [ih, List.cons_append]
      · rw [ih]

theorem leftAfter_append (as bs : List α) :
    leftAfter uses left (as ++ bs) = leftAfter uses (leftAfter uses left as) bs := by
  induction as generalizing left with
  | nil => rfl
  | cons a as ih =>
      rw [List.cons_append, leftAfter, leftAfter]
      split
      · exact ih
      · exact ih

/-- Only the resources of the items matter. -/
theorem admitted_congr (h : ∀ a ∈ as, ∀ i ∈ uses a, left i = left' i) : admitted uses left as = admitted uses left' as := by
  induction as generalizing left left' with
  | nil => rfl
  | cons a as ih =>
      have hhead : (∀ i ∈ uses a, 0 < left i) ↔ ∀ i ∈ uses a, 0 < left' i :=
        forall₂_congr fun i hi => by rw [h a (by simp) i hi]
      have htail : ∀ b ∈ as, ∀ i ∈ uses b, left i = left' i := fun b hb => h b (by simp [hb])
      rw [admitted, admitted]
      refine if_congr hhead ?_ (ih htail)
      congr 1
      refine ih fun b hb i hi => ?_
      rw [taken, taken, htail b hb i hi]

/-- Once a resource of all items is used up, nothing more is admitted. -/
theorem admitted_of_exhausted {k : ι} (hk : left k ≤ 0) (has : ∀ a ∈ as, k ∈ uses a) :
    admitted uses left as = [] ∧ leftAfter uses left as = left := by
  induction as with
  | nil => exact ⟨rfl, rfl⟩
  | cons a as ih =>
      have hnot : ¬∀ i ∈ uses a, 0 < left i := fun h => absurd (h k (has a (by simp))) (by omega)
      rw [admitted, leftAfter, if_neg hnot, if_neg hnot]
      exact ih fun b hb => has b (by simp [hb])

/-- Nothing is admitted that asks for what is used up. -/
theorem not_mem_admitted {k : ι} (hk : left k ≤ 0) {a : α} (ha : a ∈ admitted uses left as) : k ∉ uses a := by
  induction as generalizing left with
  | nil => cases ha
  | cons b as ih =>
      rw [admitted] at ha
      split at ha
      · rename_i hall
        have hb : k ∉ uses b := fun hmem => absurd (hall k hmem) (by omega)
        rcases List.mem_cons.mp ha with rfl | ha
        · exact hb
        · exact ih (by rwa [taken, if_neg hb]) ha
      · exact ih hk ha

/-- Of the items that ask for `k` as many are admitted as it has units, or as would be admitted if it had enough for all. -/
theorem countP_admitted_eq_min {k : ι} (hagree : ∀ i, i ≠ k → left i = left' i) (henough : (as.length : Int) ≤ left' k) :
    (admitted uses left as).countP (fun a => k ∈ uses a) =
      min (left k).toNat ((admitted uses left' as).countP fun a => k ∈ uses a) := by
  induction as generalizing left left' with
  | nil => simp [admitted]
  | cons a as ih =>
      rw [List.length_cons] at henough
      have hkeep : ∀ i, i ≠ k → taken uses left a i = taken uses left' a i := by
        intro i hi
        rw [taken, taken, hagree i hi]
      by_cases hk : k ∈ uses a
      · by_cases hothers : ∀ i ∈ uses a, i ≠ k → 0 < left i
        · have hall' : ∀ i ∈ uses a, 0 < left' i := by
            intro i hi
            by_cases hik : i = k
            · rw [hik]
              omega
            · rw [← hagree i hik]
              exact hothers i hi hik
          by_cases hleft : 0 < left k
          · have hall : ∀ i ∈ uses a, 0 < left i := by
              intro i hi
              by_cases hik : i = k
              · rwa [hik]
              · exact hothers i hi hik
            have hrest := ih hkeep (by rw [taken, if_pos hk]; omega)
            rw [taken, if_pos hk] at hrest
            rw [admitted, admitted, if_pos hall, if_pos hall', List.countP_cons_of_pos (by simpa using hk),
              List.countP_cons_of_pos (by simpa using hk), hrest]
            omega
          · have hnone : (admitted uses left (a :: as)).countP (fun a => k ∈ uses a) = 0 := by
              rw [List.countP_eq_zero]
              intro b hb
              simpa using not_mem_admitted (by omega) hb
            rw [hnone, Int.toNat_of_nonpos (by omega), Nat.zero_min]
        · have hnot : ¬∀ i ∈ uses a, 0 < left i := fun h => hothers fun i hi _ => h i hi
          have hnot' : ¬∀ i ∈ uses a, 0 < left' i := fun h => hothers fun i hi hik => hagree i hik ▸ h i hi
          rw [admitted, admitted, if_neg hnot, if_neg hnot']
          exact ih hagree (by omega)
      · have hiff : (∀ i ∈ uses a, 0 < left i) ↔ ∀ i ∈ uses a, 0 < left' i :=
          forall₂_congr fun i hi => by rw [hagree i fun hik => hk (hik ▸ hi)]
        rw [admitted, admitted]
        by_cases hall : ∀ i ∈ uses a, 0 < left i
        · have hrest := ih hkeep (by rw [taken, if_neg hk]; omega)
          rw [taken, if_neg hk] at hrest
          rw [if_pos hall, if_pos (hiff.mp hall), List.countP_cons_of_neg (by simpa using hk),
            List.countP_cons_of_neg (by simpa using hk), hrest]
        · rw [if_neg hall, if_neg fun h => hall (hiff.mpr h)]
          exact ih hagree (by omega)

end Fts3.Machine
