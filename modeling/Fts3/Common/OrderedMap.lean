import Mathlib.Algebra.BigOperators.Group.List.Basic
import Mathlib.Algebra.Ring.Nat
import Mathlib.Data.String.Basic
import Mathlib.Order.RelClasses

/-!
# Maps

A `std::map`, as the list of its entries in the order of the keys.
-/

namespace Fts3

variable {κ β : Type} [LT κ]

/-- A `std::map` lists its entries in the order of the keys. -/
def Ordered (m : List (κ × β)) : Prop :=
  m.Pairwise fun a b => a.1 < b.1

theorem ordered_iff_keys {m : List (κ × β)} : Ordered m ↔ (m.map (·.1)).Pairwise (· < ·) :=
  List.pairwise_map.symm

theorem Ordered.nodup_keys [IsStrictTotalOrder κ (· < ·)] {m : List (κ × β)} (hm : Ordered m) :
    (m.map (·.1)).Nodup :=
  List.pairwise_map.mpr (hm.imp fun h => ne_of_irrefl (r := (· < ·)) h)

variable [DecidableEq κ]

omit [LT κ] in
theorem lookup_cons_eq (k : κ) (e : κ × β) (m : List (κ × β)) :
    (e :: m).lookup k = if k = e.1 then some e.2 else m.lookup k := by
  obtain ⟨k₀, v₀⟩ := e
  rw [List.lookup_cons]
  by_cases h : k = k₀
  · simp [h]
  · simp [h, beq_false_of_ne h]

omit [LT κ] in
theorem mem_of_lookup {m : List (κ × β)} {k : κ} {v : β} (h : m.lookup k = some v) : (k, v) ∈ m := by
  obtain ⟨pre, post, rfl, -⟩ := List.lookup_eq_some_iff.mp h
  simp

theorem Ordered.lookup_of_mem [IsStrictTotalOrder κ (· < ·)] {m : List (κ × β)} (hm : Ordered m) {e : κ × β}
    (he : e ∈ m) : m.lookup e.1 = some e.2 := by
  induction m with
  | nil => cases he
  | cons e' m ih =>
      obtain ⟨hhead, htail⟩ := List.pairwise_cons.mp hm
      cases he with
      | head => simp [lookup_cons_eq]
      | tail _ he =>
          have hne : e.1 ≠ e'.1 := ne_of_irrefl' (hhead e he)
          simp [lookup_cons_eq, hne, ih htail he]

variable [DecidableLT κ]

instance (m : List (κ × β)) : Decidable (Ordered m) :=
  inferInstanceAs (Decidable (m.Pairwise fun a b => a.1 < b.1))

/-- `m[k] = v`. -/
def mapInsert (k : κ) (v : β) : List (κ × β) → List (κ × β)
  | [] => [(k, v)]
  | e :: m => if k < e.1 then (k, v) :: e :: m else if k = e.1 then (k, v) :: m else e :: mapInsert k v m

theorem lookup_mapInsert (k k' : κ) (v : β) (m : List (κ × β)) :
    (mapInsert k v m).lookup k' = if k' = k then some v else m.lookup k' := by
  induction m with
  | nil => simp [mapInsert, lookup_cons_eq]
  | cons e m ih =>
      simp only [mapInsert]
      split
      · rw [lookup_cons_eq]
      · split
        · rename_i hk
          simp only [lookup_cons_eq, hk]
          split <;> rfl
        · rename_i hk
          rw [lookup_cons_eq, ih, lookup_cons_eq]
          by_cases h : k' = k
          · subst h
            simp [hk]
          · simp [h]

theorem key_of_mem_mapInsert {k : κ} {v : β} {m : List (κ × β)} {e : κ × β}
    (he : e ∈ mapInsert k v m) : e.1 = k ∨ e ∈ m := by
  induction m with
  | nil => exact .inl (by simp_all [mapInsert])
  | cons e' m ih =>
      simp only [mapInsert] at he
      split at he
      · cases he with
        | head => exact .inl rfl
        | tail _ he => exact .inr he
      · split at he
        · cases he with
          | head => exact .inl rfl
          | tail _ he => exact .inr (.tail _ he)
        · cases he with
          | head => exact .inr (.head _)
          | tail _ he => exact (ih he).imp_right (.tail _)

/-- A fold that writes entries leaves the last one for each key. -/
theorem lookup_foldl_mapInsert {α : Type} (key : α → κ) (val : α → β) (xs : List α) (m : List (κ × β)) (k : κ) :
    (xs.foldl (fun m x => mapInsert (key x) (val x) m) m).lookup k =
      ((xs.reverse.find? fun x => key x = k).map val).or (m.lookup k) := by
  induction xs generalizing m with
  | nil => simp
  | cons x xs ih =>
      rw [List.foldl_cons, ih, lookup_mapInsert, List.reverse_cons, List.find?_append]
      cases xs.reverse.find? fun x => key x = k with
      | some x' => simp
      | none =>
          by_cases h : key x = k
          · simp [h]
          · simp [h, Ne.symm h]

variable [IsStrictTotalOrder κ (· < ·)]

theorem Ordered.mapInsert {m : List (κ × β)} (hm : Ordered m) (k : κ) (v : β) : Ordered (mapInsert k v m) := by
  induction m with
  | nil => simp [Fts3.mapInsert, Ordered]
  | cons e m ih =>
      obtain ⟨hhead, htail⟩ := List.pairwise_cons.mp hm
      simp only [Fts3.mapInsert]
      split
      · rename_i hk
        apply List.pairwise_cons.mpr
        refine ⟨fun e' he' => ?_, hm⟩
        cases he' with
        | head => exact hk
        | tail _ he' => exact trans_of (· < ·) hk (hhead e' he')
      · rename_i hk
        split
        · rename_i heq
          exact List.pairwise_cons.mpr ⟨fun e' he' => by simpa [heq] using hhead e' he', htail⟩
        · rename_i hne
          apply List.pairwise_cons.mpr
          refine ⟨fun e' he' => ?_, ih htail⟩
          cases key_of_mem_mapInsert he' with
          | inl h =>
              rw [h]
              exact ((trichotomous_of (· < ·) e.1 k).resolve_right fun h' => h'.elim (fun heq => hne heq.symm) hk)
          | inr h => exact hhead e' h

/-- Writing the value of a key that is there. -/
theorem Ordered.mapInsert_mid {pre post : List (κ × β)} {k : κ} {x : β}
    (hm : Ordered (pre ++ (k, x) :: post)) (y : β) :
    Fts3.mapInsert k y (pre ++ (k, x) :: post) = pre ++ (k, y) :: post := by
  induction pre with
  | nil => simp [Fts3.mapInsert, irrefl_of (· < ·) k]
  | cons e pre ih =>
      obtain ⟨hhead, htail⟩ := List.pairwise_cons.mp hm
      have hlt : e.1 < k := hhead (k, x) (by simp)
      simp only [List.cons_append, Fts3.mapInsert, if_neg (asymm_of (· < ·) hlt), if_neg (ne_of_irrefl' hlt), ih htail]

/-- Counting one more for a key. -/
theorem Ordered.sum_mapInsert {m : List (κ × Nat)} (hm : Ordered m) (k : κ) :
    ((Fts3.mapInsert k ((m.lookup k).getD 0 + 1) m).map (·.2)).sum = (m.map (·.2)).sum + 1 := by
  induction m with
  | nil => simp [Fts3.mapInsert]
  | cons e m ih =>
      obtain ⟨hhead, htail⟩ := List.pairwise_cons.mp hm
      obtain ⟨k₀, v₀⟩ := e
      simp only [Fts3.mapInsert]
      split
      · rename_i hk
        have hnone : ((k₀, v₀) :: m).lookup k = none := by
          rw [List.lookup_eq_none_iff]
          intro e he
          cases he with
          | head => simpa using ne_of_irrefl hk
          | tail _ he => simpa using ne_of_irrefl (trans_of (· < ·) hk (hhead e he))
        simp [hnone]
        omega
      · split
        · rename_i hk
          simp [hk]
          omega
        · rename_i hk
          have hlookup : ((k₀, v₀) :: m).lookup k = m.lookup k := by simp [lookup_cons_eq, hk]
          rw [hlookup, List.map_cons, List.sum_cons, ih htail, List.map_cons, List.sum_cons]
          omega

theorem ordered_foldl_mapInsert {α : Type} (key : α → κ) (val : α → β) (xs : List α) {m : List (κ × β)}
    (hm : Ordered m) : Ordered (xs.foldl (fun m x => mapInsert (key x) (val x) m) m) := by
  induction xs generalizing m with
  | nil => exact hm
  | cons x xs ih => exact ih (hm.mapInsert _ _)

/-! ## Maps with their order -/

section lookup

variable {γ : Type}

omit [LT κ] [DecidableLT κ] [IsStrictTotalOrder κ (· < ·)] in
theorem lookup_filter_ne (k k' : κ) (m : List (κ × β)) :
    (m.filter (·.1 ≠ k)).lookup k' = if k' = k then none else m.lookup k' := by
  induction m with
  | nil => simp
  | cons e m ih =>
      by_cases he : e.1 = k
      · rw [List.filter_cons_of_neg (by simp [he]), ih, lookup_cons_eq, he]
        split <;> rfl
      · rw [List.filter_cons_of_pos (by simp [he]), lookup_cons_eq, ih, lookup_cons_eq]
        by_cases hk : k' = k
        · simp [hk, Ne.symm he]
        · simp [hk]

omit [LT κ] [DecidableLT κ] [IsStrictTotalOrder κ (· < ·)] in
theorem lookup_map_val (f : β → γ) (k : κ) (m : List (κ × β)) :
    (m.map fun e => (e.1, f e.2)).lookup k = (m.lookup k).map f := by
  induction m with
  | nil => rfl
  | cons e m ih =>
      rw [List.map_cons, lookup_cons_eq, lookup_cons_eq, ih]
      split <;> rfl

end lookup

/-- A `std::map`. -/
structure StdMap (κ β : Type) [LT κ] where
  entries : List (κ × β)
  ordered : Ordered entries

namespace StdMap

variable {γ : Type}

omit [DecidableEq κ] [DecidableLT κ] [IsStrictTotalOrder κ (· < ·)] in
def empty : StdMap κ β :=
  ⟨[], .nil⟩

def find? (m : StdMap κ β) (k : κ) : Option β :=
  m.entries.lookup k

def insert (m : StdMap κ β) (k : κ) (v : β) : StdMap κ β :=
  ⟨mapInsert k v m.entries, m.ordered.mapInsert k v⟩

def erase (m : StdMap κ β) (k : κ) : StdMap κ β :=
  ⟨m.entries.filter (·.1 ≠ k), m.ordered.sublist List.filter_sublist⟩

def mapVal (f : β → γ) (m : StdMap κ β) : StdMap κ γ where
  entries := m.entries.map fun e => (e.1, f e.2)
  ordered := by
    rw [ordered_iff_keys, List.map_map]
    exact ordered_iff_keys.mp m.ordered

omit [DecidableLT κ] [IsStrictTotalOrder κ (· < ·)] in
@[simp] theorem find?_empty (k : κ) : (empty : StdMap κ β).find? k = none := rfl

@[simp] theorem find?_insert (m : StdMap κ β) (k k' : κ) (v : β) :
    (m.insert k v).find? k' = if k' = k then some v else m.find? k' :=
  lookup_mapInsert k k' v m.entries

omit [DecidableLT κ] [IsStrictTotalOrder κ (· < ·)] in
@[simp] theorem find?_erase (m : StdMap κ β) (k k' : κ) :
    (m.erase k).find? k' = if k' = k then none else m.find? k' :=
  lookup_filter_ne k k' m.entries

omit [DecidableLT κ] [IsStrictTotalOrder κ (· < ·)] in
@[simp] theorem find?_mapVal (f : β → γ) (m : StdMap κ β) (k : κ) : (m.mapVal f).find? k = (m.find? k).map f :=
  lookup_map_val f k m.entries

omit [DecidableLT κ] in
theorem mem_entries {m : StdMap κ β} {k : κ} {v : β} : (k, v) ∈ m.entries ↔ m.find? k = some v :=
  ⟨fun h => m.ordered.lookup_of_mem h, mem_of_lookup⟩

omit [DecidableLT κ] [IsStrictTotalOrder κ (· < ·)] in
theorem find?_eq_none_of_entries {m : StdMap κ β} (h : m.entries = []) (k : κ) : m.find? k = none := by
  rw [find?, h]
  rfl

end StdMap

end Fts3
