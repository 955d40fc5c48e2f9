import Mathlib.Algebra.GroupWithZero.Nat
import Mathlib.Data.List.Nodup
import Mathlib.Data.List.Dedup

/-!
# Keyed tables

A table is a list of rows whose primary keys are pairwise distinct. `UPDATE`, `DELETE` and the
counting queries are the only operations; an `UPDATE` carries the proof that it leaves the key alone,
so a table with a repeated key cannot be built.
-/

namespace Fts3.Sql

/-- The rows of a table, with the primary key `key` unique. -/
structure Table {ρ κ : Type} (key : ρ → κ) where
  rows : List ρ
  nodup : (rows.map key).Nodup

/-- `COUNT(DISTINCT col)`: a row whose column is `NULL` is not counted. -/
def countDistinct {ρ ι : Type} [DecidableEq ι] (col : ρ → Option ι) (rows : List ρ) : Nat :=
  (rows.filterMap col).dedup.length

section count

variable {α : Type} {p : α → Bool} {xs : List α}

theorem eq_of_countP_le_one (h : xs.countP p ≤ 1) {x y : α} (hx : x ∈ xs) (hpx : p x = true) (hy : y ∈ xs)
    (hpy : p y = true) : x = y := by
  rw [List.countP_eq_length_filter] at h
  have hx' : x ∈ xs.filter p := List.mem_filter.mpr ⟨hx, hpx⟩
  have hy' : y ∈ xs.filter p := List.mem_filter.mpr ⟨hy, hpy⟩
  match hf : xs.filter p, h with
  | [], _ => simp [hf] at hx'
  | [z], _ =>
      rw [hf, List.mem_singleton] at hx' hy'
      rw [hx', hy']

theorem countP_le_one_of_eq (hnodup : xs.Nodup)
    (h : ∀ x ∈ xs, ∀ y ∈ xs, p x = true → p y = true → x = y) : xs.countP p ≤ 1 := by
  rw [List.countP_eq_length_filter]
  have hnd : (xs.filter p).Nodup := hnodup.filter p
  match hf : xs.filter p with
  | [] => simp
  | [z] => simp
  | x :: y :: zs =>
      have hx := List.mem_filter.mp (hf ▸ (by simp : x ∈ x :: y :: zs))
      have hy := List.mem_filter.mp (hf ▸ (by simp : y ∈ x :: y :: zs))
      rw [hf, h x hx.1 y hy.1 hx.2 hy.2] at hnd
      simp at hnd

/-- What the elements with `p` become: one of them is exchanged for one with `q`, ends, or begins. -/
theorem countP_exchange {p q : α → Bool} {f : α → α} (hlive : ∀ x, q x = true → p x = false)
    (hfin : ∀ x ∈ xs, q (f x) = true → q x = true ∨ p x = true) :
    (xs.map f).countP p + xs.countP (fun x => p x && !p (f x) && !q (f x)) ≤
      xs.countP p + xs.countP (fun x => !p x && p (f x)) ∧
    (xs.map f).countP p + ((xs.map f).any q).toNat + xs.countP (fun x => p x && !p (f x) && !q (f x)) ≤
      xs.countP p + (xs.any q).toNat + xs.countP (fun x => !p x && p (f x)) := by
  induction xs with
  | nil => simp
  | cons x xs ih =>
      obtain ⟨hcount, hcost⟩ := ih fun y hy => hfin y (by simp [hy])
      have hx := hfin x (by simp)
      have hx' := hlive x
      have hfx := hlive (f x)
      have hle := (xs.any q).toNat_le
      have hle' := ((xs.map f).any q).toNat_le
      simp only [List.map_cons, List.countP_cons, List.any_cons]
      generalize (xs.map f).countP p = n at hcount hcost ⊢
      generalize (xs.map f).any q = b at hcost hle' ⊢
      cases h₁ : p x <;> cases h₂ : p (f x) <;> cases h₃ : q x <;> cases h₄ : q (f x) <;>
        simp [h₁, h₂, h₃, h₄] at hx hx' hfx ⊢ <;> omega

end count

namespace Table

variable {ρ κ : Type} {key : ρ → κ}

def empty : Table key where
  rows := []
  nodup := List.nodup_nil

def ofRows [DecidableEq κ] (rows : List ρ) : Table key :=
  if h : (rows.map key).Nodup then ⟨rows, h⟩ else empty

def find? [DecidableEq κ] (t : Table key) (k : κ) : Option ρ :=
  t.rows.find? fun r => key r = k

/-- `SELECT * FROM t WHERE p`. -/
def select (t : Table key) (p : ρ → Bool) : List ρ :=
  t.rows.filter p

def matched (t : Table key) (p : ρ → Bool) : Nat :=
  t.rows.countP p

theorem map_key_update {p : ρ → Bool} {f : ρ → ρ} (hf : ∀ r, key (f r) = key r) (rows : List ρ) :
    (rows.map fun r => if p r then f r else r).map key = rows.map key := by
  rw [List.map_map]
  apply List.map_congr_left
  intro r _
  simp only [Function.comp_apply]
  split
  · exact hf r
  · rfl

/-- `UPDATE t SET f WHERE p`. -/
def update (t : Table key) (p : ρ → Bool) (f : ρ → ρ) (hf : ∀ r, key (f r) = key r) : Table key where
  rows := t.rows.map fun r => if p r then f r else r
  nodup := by rw [map_key_update hf]; exact t.nodup

theorem update_eq_self {t : Table key} {p : ρ → Bool} {f : ρ → ρ} (hf : ∀ r, key (f r) = key r)
    (h : ∀ r ∈ t.rows, p r = true → f r = r) : t.update p f hf = t := by
  have hrows : (t.rows.map fun r => if p r then f r else r) = t.rows := by
    rw [List.map_congr_left (g := id), List.map_id]
    intro r hr
    split
    · rename_i hp
      exact h r hr hp
    · rfl
  unfold update
  simp only [hrows]

/-- `DELETE FROM t WHERE p`. -/
def delete (t : Table key) (p : ρ → Bool) : Table key where
  rows := t.rows.filter fun r => !p r
  nodup := t.nodup.sublist (List.filter_sublist.map key)

section find

variable [DecidableEq κ]

theorem find?_some {t : Table key} {k : κ} {r : ρ} (h : t.find? k = some r) : key r = k := by
  simpa using List.find?_some h

theorem mem_of_find? {t : Table key} {k : κ} {r : ρ} (h : t.find? k = some r) : r ∈ t.rows :=
  List.mem_of_find?_eq_some h

theorem find?_key {t : Table key} {r : ρ} (h : r ∈ t.rows) : t.find? (key r) = some r := by
  unfold find?
  cases hf : t.rows.find? (fun r' => decide (key r' = key r)) with
  | none =>
      rw [List.find?_eq_none] at hf
      simpa using hf r h
  | some r' =>
      have hk : key r' = key r := by simpa using List.find?_some hf
      have : r' = r := List.inj_on_of_nodup_map t.nodup (List.mem_of_find?_eq_some hf) h hk
      rw [this]

theorem find?_eq_some_iff {t : Table key} {k : κ} {r : ρ} :
    t.find? k = some r ↔ r ∈ t.rows ∧ key r = k := by
  constructor
  · intro h; exact ⟨mem_of_find? h, find?_some h⟩
  · rintro ⟨h, rfl⟩; exact find?_key h

theorem forall_rows_iff {t : Table key} {P : ρ → Prop} :
    (∀ r ∈ t.rows, P r) ↔ ∀ k r, t.find? k = some r → P r := by
  constructor
  · intro h k r hr; exact h r (mem_of_find? hr)
  · intro h r hr; exact h (key r) r (find?_key hr)

theorem find?_update (t : Table key) (p : ρ → Bool) (f : ρ → ρ) (hf : ∀ r, key (f r) = key r) (k : κ) :
    (t.update p f hf).find? k = (t.find? k).map fun r => if p r then f r else r := by
  unfold find? update
  rw [List.find?_map]
  congr 2
  funext r
  simp only [Function.comp_apply]
  split
  · rw [hf]
  · rfl

theorem find?_delete (t : Table key) (p : ρ → Bool) (k : κ) :
    (t.delete p).find? k = (t.find? k).filter fun r => !p r := by
  cases h : t.find? k with
  | none =>
      simp only [Option.filter_none]
      unfold find? delete at *
      rw [List.find?_eq_none] at h ⊢
      intro r hr
      exact h r (List.mem_filter.mp hr).1
  | some r =>
      obtain ⟨hr, rfl⟩ := find?_eq_some_iff.mp h
      cases hp : p r with
      | false =>
          have : r ∈ (t.delete p).rows := List.mem_filter.mpr ⟨hr, by simp [hp]⟩
          rw [find?_key this]
          simp [Option.filter, hp]
      | true =>
          simp only [Option.filter, hp, Bool.not_true, Bool.false_eq_true, ↓reduceIte]
          unfold find?
          rw [List.find?_eq_none]
          intro r' hr'
          obtain ⟨hm, hn⟩ := List.mem_filter.mp hr'
          simp only [decide_eq_true_eq]
          intro hk
          rw [List.inj_on_of_nodup_map t.nodup hm hr hk, hp] at hn
          simp at hn

/-- A row and the rows of the table without it. -/
theorem rows_of_find? {t : Table key} {k : κ} {r : ρ} (h : t.find? k = some r) :
    ∃ before after, t.rows = before ++ r :: after ∧ (t.delete fun r => key r = k).rows = before ++ after := by
  obtain ⟨hr, rfl⟩ := find?_eq_some_iff.mp h
  obtain ⟨before, after, hrows⟩ := List.append_of_mem hr
  have hnodup := t.nodup
  rw [hrows, List.map_append, List.map_cons, List.nodup_middle, List.nodup_cons, List.mem_append, not_or] at hnodup
  have hother : ∀ rows : List ρ, key r ∉ rows.map key → (rows.filter fun r' => !decide (key r' = key r)) = rows := by
    intro rows hnot
    rw [List.filter_eq_self]
    intro r' hr'
    simp only [Bool.not_eq_true', decide_eq_false_iff_not]
    intro hk
    exact hnot (hk ▸ List.mem_map_of_mem hr')
  refine ⟨before, after, hrows, ?_⟩
  simp only [delete, hrows, List.filter_append, hother before hnodup.1.1]
  rw [List.filter_cons_of_neg (by simp), hother after hnodup.1.2]

theorem filter_of_find? {t : Table key} {k : κ} {r : ρ} (h : t.find? k = some r) :
    (t.rows.filter fun r => key r = k) = [r] := by
  have hkey := find?_some h
  obtain ⟨before, after, hrows, hrest⟩ := rows_of_find? h
  have hother : ∀ r' ∈ before ++ after, ¬decide (key r' = k) = true := by
    intro r' hr'
    rw [← hrest] at hr'
    simpa using (List.mem_filter.mp hr').2
  rw [hrows, List.filter_append, List.filter_cons_of_pos (by simp [hkey]),
    List.filter_eq_nil_iff.mpr fun r' hr' => hother r' (List.mem_append_left _ hr'),
    List.filter_eq_nil_iff.mpr fun r' hr' => hother r' (List.mem_append_right _ hr'), List.nil_append]

end find

theorem mem_update {t : Table key} {p : ρ → Bool} {f : ρ → ρ} {hf : ∀ r, key (f r) = key r} {r : ρ} :
    r ∈ (t.update p f hf).rows ↔ ∃ r₀ ∈ t.rows, (if p r₀ then f r₀ else r₀) = r := by
  simp [update]

theorem select_nodup (t : Table key) (p : ρ → Bool) : (t.select p).Nodup :=
  t.nodup.of_map.filter p

/-- A `SELECT` on what the `SET` clause leaves alone sees the same rows, updated. -/
theorem select_update {t : Table key} {p q : ρ → Bool} {f : ρ → ρ} (hf : ∀ r, key (f r) = key r)
    (hq : ∀ r, q (f r) = q r) :
    (t.update p f hf).select q = (t.select q).map fun r => if p r then f r else r := by
  simp only [select, update, List.filter_map]
  congr 2
  funext r
  simp only [Function.comp_apply]
  split
  · exact hq r
  · rfl

/-- A property of the rows that the `SET` clause keeps where the `WHERE` clause matches. -/
theorem forall_update {t : Table key} {p : ρ → Bool} {f : ρ → ρ} (hf : ∀ r, key (f r) = key r) {I : ρ → Prop}
    (hI : ∀ r ∈ t.rows, p r = true → I r → I (f r)) (h : ∀ r ∈ t.rows, I r) :
    ∀ r ∈ (t.update p f hf).rows, I r := by
  intro r hr
  obtain ⟨r₀, hr₀, rfl⟩ := mem_update.mp hr
  split
  · exact hI r₀ hr₀ ‹_› (h r₀ hr₀)
  · exact h r₀ hr₀

theorem matched_pos {t : Table key} {p : ρ → Bool} : 0 < t.matched p ↔ ∃ r ∈ t.rows, p r = true := by
  simp [matched, List.countP_pos_iff]

/-! ## Absorbing values -/

section absorbs

variable {S : Type} {state : ρ → S} {fin : S → Bool} [DecidableEq κ]

/-- Every row of `t'` comes from the row of `t` with its key, and a value of `state` that is final there
is still the same. -/
def Absorbs (state : ρ → S) (fin : S → Bool) (t t' : Table key) : Prop :=
  ∀ k r', t'.find? k = some r' → ∃ r, t.find? k = some r ∧ (fin (state r) = true → state r' = state r)

theorem Absorbs.refl (t : Table key) : Absorbs state fin t t :=
  fun _ r hr => ⟨r, hr, fun _ => rfl⟩

theorem Absorbs.trans {t₁ t₂ t₃ : Table key} (h₁ : Absorbs state fin t₁ t₂) (h₂ : Absorbs state fin t₂ t₃) :
    Absorbs state fin t₁ t₃ := by
  intro k r₃ hr₃
  obtain ⟨r₂, hr₂, h₂₃⟩ := h₂ k r₃ hr₃
  obtain ⟨r₁, hr₁, h₁₂⟩ := h₁ k r₂ hr₂
  refine ⟨r₁, hr₁, fun hfin => ?_⟩
  have heq := h₁₂ hfin
  rw [← heq]
  exact h₂₃ (by rw [heq]; exact hfin)

theorem absorbs_update {t : Table key} {p : ρ → Bool} {f : ρ → ρ} (hf : ∀ r, key (f r) = key r)
    (h : ∀ r ∈ t.rows, p r = true → fin (state r) = true → state (f r) = state r) :
    Absorbs state fin t (t.update p f hf) := by
  intro k r' hr'
  rw [find?_update, Option.map_eq_some_iff] at hr'
  obtain ⟨r, hr, rfl⟩ := hr'
  refine ⟨r, hr, fun hfin => ?_⟩
  split
  · exact h r (mem_of_find? hr) ‹_› hfin
  · rfl

theorem absorbs_delete (t : Table key) (p : ρ → Bool) : Absorbs state fin t (t.delete p) := by
  intro k r' hr'
  rw [find?_delete, Option.filter_eq_some_iff] at hr'
  exact ⟨r', hr'.1, fun _ => rfl⟩

end absorbs

end Table

end Fts3.Sql
