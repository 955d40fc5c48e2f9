import Fts3.Sql.Table
import Mathlib.Data.List.Perm.Basic
import Mathlib.Algebra.BigOperators.Group.List.Basic

/-!
# Grouping rows by a column

The groups of a list of rows are the distinct values of a column; a row whose column is `NULL` is in no
group. `COUNT(DISTINCT col)` over the rows with a property counts the groups that have such a row.
-/

namespace Fts3.Sql

variable {ρ ι : Type} [DecidableEq ι] (col : ρ → Option ι)

def groups (rows : List ρ) : List ι :=
  (rows.filterMap col).dedup

def group (rows : List ρ) (i : ι) : List ρ :=
  rows.filter fun r => col r = some i

variable {col}

theorem mem_groups {rows : List ρ} {i : ι} : i ∈ groups col rows ↔ ∃ r ∈ rows, col r = some i := by
  simp [groups]

theorem nodup_groups (rows : List ρ) : (groups col rows).Nodup :=
  List.nodup_dedup _

theorem countDistinct_eq_length (rows : List ρ) : countDistinct col rows = (groups col rows).length := rfl

/-- The distinct values among the rows with `p` are the groups that have such a row. -/
theorem countDistinct_filter (p : ρ → Bool) (rows : List ρ) :
    countDistinct col (rows.filter p) = (groups col rows).countP fun i => (group col rows i).any p := by
  rw [List.countP_eq_length_filter]
  apply List.Perm.length_eq
  rw [List.perm_ext_iff_of_nodup (List.nodup_dedup _) ((nodup_groups rows).filter _)]
  intro i
  simp only [List.mem_dedup, List.mem_filterMap, List.mem_filter, mem_groups, group, List.any_eq_true,
    decide_eq_true_eq]
  constructor
  · rintro ⟨r, ⟨hr, hp⟩, hi⟩
    exact ⟨⟨r, hr, hi⟩, r, ⟨hr, hi⟩, hp⟩
  · rintro ⟨-, r, ⟨hr, hi⟩, hp⟩
    exact ⟨r, ⟨hr, hp⟩, hi⟩

theorem length_sub_countDistinct (col : ρ → Option ι) (p : ρ → Bool) (rows : List ρ) :
    ((groups col rows).length : Int) - countDistinct col (rows.filter p) =
      (groups col rows).countP fun i => (group col rows i).all fun r => !p r := by
  have hall : ((groups col rows).countP fun i => decide ¬((group col rows i).any p = true)) =
      (groups col rows).countP fun i => (group col rows i).all fun r => !p r := by
    refine List.countP_congr fun i _ => ?_
    simp
  have hlen := List.length_eq_countP_add_countP (fun i => (group col rows i).any p) (l := groups col rows)
  rw [countDistinct_filter, ← hall]
  omega

/-- The rows with `p` have all the values of those with `q` when as many are distinct. -/
theorem countDistinct_filter_eq_iff {p q : ρ → Bool} {rows : List ρ}
    (hpq : ∀ r ∈ rows, p r = true → ∀ i, col r = some i → ∃ r' ∈ rows, q r' = true ∧ col r' = some i) :
    countDistinct col (rows.filter p) = countDistinct col (rows.filter q) ↔
      ∀ r ∈ rows, q r = true → ∀ i, col r = some i → ∃ r' ∈ rows, p r' = true ∧ col r' = some i := by
  have hsub : ((rows.filter p).filterMap col).dedup ⊆ ((rows.filter q).filterMap col).dedup := by
    intro i hi
    simp only [List.mem_dedup, List.mem_filterMap, List.mem_filter] at hi ⊢
    obtain ⟨r, ⟨hr, hp⟩, hi⟩ := hi
    obtain ⟨r', hr', hq, hi'⟩ := hpq r hr hp i hi
    exact ⟨r', ⟨hr', hq⟩, hi'⟩
  constructor
  · intro heq r hr hq i hi
    have hperm := (List.subperm_of_subset (List.nodup_dedup _) hsub).perm_of_length_le (Nat.le_of_eq heq.symm)
    have hmem : i ∈ ((rows.filter p).filterMap col).dedup := by
      rw [hperm.mem_iff, List.mem_dedup]
      exact List.mem_filterMap.mpr ⟨r, List.mem_filter.mpr ⟨hr, hq⟩, hi⟩
    simp only [List.mem_dedup, List.mem_filterMap, List.mem_filter] at hmem
    obtain ⟨r', ⟨hr', hp⟩, hi'⟩ := hmem
    exact ⟨r', hr', hp, hi'⟩
  · intro hall
    apply List.Perm.length_eq
    rw [List.perm_ext_iff_of_nodup (List.nodup_dedup _) (List.nodup_dedup _)]
    refine fun i => ⟨fun hi => hsub hi, fun hi => ?_⟩
    simp only [List.mem_dedup, List.mem_filterMap, List.mem_filter] at hi ⊢
    obtain ⟨r, ⟨hr, hq⟩, hi⟩ := hi
    obtain ⟨r', hr', hp, hi'⟩ := hall r hr hq i hi
    exact ⟨r', ⟨hr', hp⟩, hi'⟩

omit [DecidableEq ι] in
theorem sum_countP_eq_length {κ : Type} [DecidableEq κ] (f : ι → κ) {keys : List κ} (hkeys : keys.Nodup) {l : List ι}
    (hl : ∀ i ∈ l, f i ∈ keys) : (keys.map fun k => l.countP fun i => f i = k).sum = l.length := by
  induction l with
  | nil => simp
  | cons i l ih =>
      have hone : (keys.map fun k => if f i = k then 1 else 0).sum = 1 := by
        have hcount := List.count_eq_one_of_mem hkeys (hl i (by simp))
        rw [List.count_eq_countP, List.countP_eq_length_filter] at hcount
        rw [List.sum_map_ite]
        simpa [eq_comm (a := f i), beq_eq_decide] using hcount
      simp only [List.countP_cons, List.length_cons, decide_eq_true_eq]
      rw [List.sum_map_add, ih fun j hj => hl j (by simp [hj]), hone]

omit [DecidableEq ι] in
/-- Where each row is counted once at most, the counts add up. -/
theorem sum_countP_eq_countP_any {γ : Type} {qs : List γ} {f : γ → ι → Bool} {xs : List ι}
    (h : ∀ x ∈ xs, qs.countP (f · x) ≤ 1) :
    (qs.map fun q => xs.countP (f q)).sum = xs.countP fun x => qs.any (f · x) := by
  induction xs with
  | nil => simp
  | cons x xs ih =>
      have hcount : (qs.map fun q => if f q x = true then 1 else 0).sum = qs.countP (f · x) := by
        rw [List.sum_map_ite, List.countP_eq_length_filter]
        simp
      have hhead : qs.countP (f · x) = if qs.any (f · x) = true then 1 else 0 := by
        have hone := h x (by simp)
        split
        · rename_i hany
          have hpos : 0 < qs.countP (f · x) := by rwa [List.countP_pos_iff, ← List.any_eq_true]
          omega
        · rename_i hnone
          rw [List.countP_eq_zero]
          exact fun q hq hf => hnone (List.any_eq_true.mpr ⟨q, hq, hf⟩)
      have htail := ih fun y hy => h y (by simp [hy])
      simp only [List.countP_cons]
      rw [List.sum_map_add, htail, hcount, hhead]

/-- When the rows of a group agree on a second column, the groups are shared out among its values. -/
theorem sum_countDistinct_filter {κ : Type} [DecidableEq κ] {key : ρ → κ} {rows : List ρ}
    (hone : ∀ r ∈ rows, ∀ r' ∈ rows, ∀ i, col r = some i → col r' = some i → key r = key r')
    {keys : List κ} (hkeys : keys.Nodup) (hall : ∀ r ∈ rows, ∀ i, col r = some i → key r ∈ keys) :
    (keys.map fun k => countDistinct col (rows.filter fun r => key r = k)).sum = countDistinct col rows := by
  cases rows with
  | nil => simp [countDistinct]
  | cons r₀ rest =>
      let rows := r₀ :: rest
      let keyOf := fun i => key ((group col rows i).headD r₀)
      have hhead : ∀ i ∈ groups col rows, (group col rows i).headD r₀ ∈ group col rows i := by
        intro i hi
        obtain ⟨r, hr, hi⟩ := mem_groups.mp hi
        have hne : group col rows i ≠ [] := List.ne_nil_of_mem (a := r) (by simp [group, hr, hi])
        cases hg : group col rows i with
        | nil => exact absurd hg hne
        | cons r' rs => simp
      have hcount : ∀ k, countDistinct col (rows.filter fun r => key r = k) =
          (groups col rows).countP fun i => keyOf i = k := by
        intro k
        rw [countDistinct_filter]
        apply List.countP_congr
        intro i hi
        have hmem := hhead i hi
        have hmem' := List.mem_filter.mp hmem
        simp only [List.any_eq_true, decide_eq_true_eq]
        constructor
        · rintro ⟨r, hr, rfl⟩
          have hr' := List.mem_filter.mp hr
          exact hone _ hmem'.1 r hr'.1 i (by simpa using hmem'.2) (by simpa using hr'.2)
        · exact fun hk => ⟨_, hmem, hk⟩
      show (keys.map fun k => countDistinct col (rows.filter fun r => key r = k)).sum = _
      simp only [hcount]
      refine sum_countP_eq_length keyOf hkeys fun i hi => ?_
      obtain ⟨hr, hcol⟩ := List.mem_filter.mp (hhead i hi)
      exact hall _ hr i (of_decide_eq_true hcol)

theorem find?_reverse_dedup {α : Type} [DecidableEq α] (p : α → Bool) (l : List α) :
    l.dedup.reverse.find? p = l.reverse.find? p := by
  induction l with
  | nil => rfl
  | cons a l ih =>
      by_cases ha : a ∈ l
      · rw [List.dedup_cons_of_mem ha, ih, List.reverse_cons, List.find?_append]
        cases h : l.reverse.find? p with
        | some b => rfl
        | none =>
            have hpa : p a = false := by simpa using List.find?_eq_none.mp h a (by simpa using ha)
            simp [hpa]
      · rw [List.dedup_cons_of_notMem ha, List.reverse_cons, List.find?_append, ih, List.reverse_cons,
          List.find?_append]

end Fts3.Sql
