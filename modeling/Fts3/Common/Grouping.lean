import Fts3.Common.OrderedMap
import Mathlib.Data.List.Nodup
import Mathlib.Data.List.Perm.Basic
import Mathlib.Data.List.Perm.Lattice

/-!
# Grouping

The loop that looks the key of each element up in a map, and puts a first group there or adds to the one that it finds.
-/

namespace Fts3.StdMap

variable {κ α β γ : Type} [LT κ] [DecidableEq κ] [DecidableLT κ] [IsStrictTotalOrder κ (· < ·)]

/-! ## Entries -/

section entries

variable {m : StdMap κ γ} {k : κ} {v : γ}

omit [DecidableEq κ] [DecidableLT κ] in
theorem nodup_entries (m : StdMap κ γ) : m.entries.Nodup :=
  m.ordered.nodup_keys.of_map _

theorem entries_insert_perm (m : StdMap κ γ) (k : κ) (v : γ) :
    (m.insert k v).entries.Perm ((k, v) :: (m.erase k).entries) := by
  have hnew : (k, v) ∉ (m.erase k).entries := by simp [mem_entries]
  apply (List.perm_ext_iff_of_nodup (nodup_entries _) (List.nodup_cons.mpr ⟨hnew, nodup_entries _⟩)).mpr
  rintro ⟨k', v'⟩
  rw [List.mem_cons, mem_entries, mem_entries, find?_insert, find?_erase]
  by_cases hk : k' = k
  · simp [hk, eq_comm]
  · simp [hk]

omit [DecidableLT κ] in
theorem entries_perm_erase (h : m.find? k = some v) : m.entries.Perm ((k, v) :: (m.erase k).entries) := by
  have hnew : (k, v) ∉ (m.erase k).entries := by simp [mem_entries]
  apply (List.perm_ext_iff_of_nodup (nodup_entries _) (List.nodup_cons.mpr ⟨hnew, nodup_entries _⟩)).mpr
  rintro ⟨k', v'⟩
  rw [List.mem_cons, mem_entries, mem_entries, find?_erase]
  by_cases hk : k' = k
  · simp [hk, h, eq_comm]
  · simp [hk]

omit [DecidableLT κ] in
theorem entries_erase_of_none (h : m.find? k = none) : (m.erase k).entries = m.entries := by
  apply List.filter_eq_self.mpr
  rintro ⟨k', v'⟩ he
  have hne : k' ≠ k := by
    rintro rfl
    simp [mem_entries.mp he] at h
  simpa using hne

end entries

/-! ## The loop -/

section group

variable (key : α → κ) (first : α → γ) (add : γ → α → γ)

/-- The group of the element, with it. -/
def groupOf (m : StdMap κ γ) (a : α) : γ :=
  match m.find? (key a) with
  | none => first a
  | some c => add c a

/-- One turn of the loop. -/
def groupStep (m : StdMap κ γ) (a : α) : StdMap κ γ :=
  m.insert (key a) (groupOf key first add m a)

def group (as : List α) : StdMap κ γ :=
  as.foldl (groupStep key first add) .empty

variable {key first add}

/-- What holds of the first group of a key and is kept by each element that is added holds of all groups. -/
theorem group_forall {P : κ → γ → Prop} {as : List α} (hfirst : ∀ a ∈ as, P (key a) (first a))
    (hadd : ∀ a ∈ as, ∀ c, P (key a) c → P (key a) (add c a)) :
    ∀ e ∈ (group key first add as).entries, P e.1 e.2 := by
  have hfold : ∀ (as : List α) (m : StdMap κ γ), (∀ a ∈ as, P (key a) (first a)) →
      (∀ a ∈ as, ∀ c, P (key a) c → P (key a) (add c a)) → (∀ k c, m.find? k = some c → P k c) →
      ∀ k c, (as.foldl (groupStep key first add) m).find? k = some c → P k c := by
    intro as
    induction as with
    | nil => exact fun m _ _ hm => hm
    | cons a as ih =>
        intro m hfirst hadd hm
        apply ih _ (fun b hb => hfirst b (List.mem_cons_of_mem a hb)) fun b hb => hadd b (List.mem_cons_of_mem a hb)
        intro k c hc
        rw [groupStep, find?_insert] at hc
        split at hc
        case isTrue hk =>
          cases hk
          cases hc
          unfold groupOf
          cases hfind : m.find? (key a) with
          | none => exact hfirst a List.mem_cons_self
          | some c => exact hadd a List.mem_cons_self c (hm _ _ hfind)
        case isFalse => exact hm k c hc
  rintro ⟨k, c⟩ he
  exact hfold as .empty hfirst hadd (fun k c hc => by simp at hc) k c (mem_entries.mp he)

/-- One turn adds to the contents of the groups what the element brings. -/
theorem contents_groupStep {content : κ → γ → List β} {brings : α → List β} {a : α}
    (hfirst : (content (key a) (first a)).Perm (brings a))
    (hadd : ∀ c, (content (key a) (add c a)).Perm (content (key a) c ++ brings a)) (m : StdMap κ γ) :
    ((groupStep key first add m a).entries.flatMap fun e => content e.1 e.2).Perm
      ((m.entries.flatMap fun e => content e.1 e.2) ++ brings a) := by
  apply ((entries_insert_perm m (key a) (groupOf key first add m a)).flatMap_right fun e => content e.1 e.2).trans
  rw [List.flatMap_cons, groupOf]
  cases hfind : m.find? (key a) with
  | none =>
      rw [entries_erase_of_none hfind]
      exact (hfirst.append_right _).trans List.perm_append_comm
  | some c =>
      have hsplit := (entries_perm_erase hfind).flatMap_right fun e => content e.1 e.2
      rw [List.flatMap_cons] at hsplit
      calc (content (key a) (add c a) ++ (m.erase (key a)).entries.flatMap fun e => content e.1 e.2).Perm
            ((content (key a) c ++ brings a) ++ (m.erase (key a)).entries.flatMap fun e => content e.1 e.2) :=
              (hadd c).append_right _
        List.Perm _
            ((content (key a) c ++ (m.erase (key a)).entries.flatMap fun e => content e.1 e.2) ++ brings a) := by
              rw [List.append_assoc, List.append_assoc]
              exact List.perm_append_comm.append_left _
        List.Perm _ ((m.entries.flatMap fun e => content e.1 e.2) ++ brings a) := hsplit.symm.append_right _

/-- Nothing is lost or repeated in the groups. -/
theorem contents_group (content : κ → γ → List β) {brings : α → List β}
    (hfirst : ∀ a, (content (key a) (first a)).Perm (brings a))
    (hadd : ∀ a c, (content (key a) (add c a)).Perm (content (key a) c ++ brings a)) (as : List α) :
    ((group key first add as).entries.flatMap fun e => content e.1 e.2).Perm (as.flatMap brings) := by
  have hfold : ∀ (as : List α) (m : StdMap κ γ),
      ((as.foldl (groupStep key first add) m).entries.flatMap fun e => content e.1 e.2).Perm
        ((m.entries.flatMap fun e => content e.1 e.2) ++ as.flatMap brings) := by
    intro as
    induction as with
    | nil => exact fun m => by simp
    | cons a as ih =>
        intro m
        apply (ih _).trans
        rw [List.flatMap_cons, ← List.append_assoc]
        exact (contents_groupStep (hfirst a) (hadd a) m).append_right _
  exact hfold as .empty

end group

end Fts3.StdMap

/-! ## By the keys of a list -/

namespace Fts3

/-- A list, one key after the other. -/
theorem flatMap_filter_perm {α κ : Type} [DecidableEq κ] (f : α → κ) {keys : List κ} (hkeys : keys.Nodup) {as : List α}
    (has : ∀ a ∈ as, f a ∈ keys) : (keys.flatMap fun k => as.filter fun a => f a = k).Perm as := by
  induction keys generalizing as with
  | nil =>
      rw [List.eq_nil_iff_forall_not_mem.mpr fun a ha => List.not_mem_nil (has a ha)]
      rfl
  | cons k keys ih =>
      obtain ⟨hk, hkeys⟩ := List.nodup_cons.mp hkeys
      have hrest : ∀ k' ∈ keys, (as.filter fun a => f a = k') =
          (as.filter fun a => !decide (f a = k)).filter fun a => f a = k' := by
        intro k' hk'
        rw [List.filter_filter]
        apply List.filter_congr
        intro a _
        have hne : k' ≠ k := fun h => hk (h ▸ hk')
        by_cases h : f a = k'
        · simp [h, hne]
        · simp [h]
      rw [List.flatMap_cons, List.flatMap_congr hrest]
      refine ((ih hkeys fun a ha => ?_).append_left _).trans (List.filter_append_perm (fun a => decide (f a = k)) as)
      rw [List.mem_filter] at ha
      exact (List.mem_cons.mp (has a ha.1)).resolve_left (by simpa using ha.2)

/-- Lists that share no key, each without a repeated one. -/
theorem nodup_map_flatMap {α β γ : Type} {f : α → List β} {g : β → γ} {as : List α} (has : as.Nodup)
    (hf : ∀ a ∈ as, ((f a).map g).Nodup) (hkey : ∀ a ∈ as, ∀ a' ∈ as, ∀ b ∈ f a, ∀ b' ∈ f a', g b = g b' → a = a') :
    ((as.flatMap f).map g).Nodup := by
  rw [List.map_flatMap]
  refine List.nodup_flatMap.mpr ⟨hf, has.pairwise_of_forall_ne fun a ha a' ha' hne => ?_⟩
  refine List.disjoint_left.mpr fun k hk hk' => ?_
  obtain ⟨b, hb, rfl⟩ := List.mem_map.mp hk
  obtain ⟨b', hb', heq⟩ := List.mem_map.mp hk'
  exact hne (hkey a ha a' ha' b hb b' hb' heq.symm)

end Fts3
