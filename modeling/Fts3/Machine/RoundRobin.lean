import Mathlib.Data.List.Perm.Basic
import Mathlib.Logic.Function.Basic

/-!
# Taking turns

Several queues are served in turn, one item at a time. A queue without any more items is removed, and the turn goes to
the queue that stood after it.
-/

namespace Fts3.Machine

/-- The queues by key, and the position of the one whose turn it is. -/
structure RoundRobin (κ α : Type) where
  queues : List (κ × List α)
  next : Nat := 0

namespace RoundRobin

variable {κ α : Type} {q q' : RoundRobin κ α} {k : κ} {a : α}

/-- Past the last queue it wraps around. -/
def position (q : RoundRobin κ α) : Nat := if q.next < q.queues.length then q.next else 0

/-- The next item, with the key of its queue. -/
def turn (q : RoundRobin κ α) : Option ((κ × α) × RoundRobin κ α) :=
  match q.queues[q.position]? with
  | some (k, a :: rest) =>
      if rest.isEmpty then some ((k, a), { queues := q.queues.eraseIdx q.position, next := q.position })
      else some ((k, a), { queues := q.queues.set q.position (k, rest), next := q.position + 1 })
  | _ => none

def items (q : RoundRobin κ α) : List (κ × α) :=
  q.queues.flatMap fun e => e.2.map fun a => (e.1, a)

/-- The keys are distinct, no queue is empty, and the position is in the list or at its end. -/
structure WellFormed (q : RoundRobin κ α) : Prop where
  nodup : (q.queues.map (·.1)).Nodup
  nonempty : ∀ e ∈ q.queues, e.2 ≠ []
  next : q.next ≤ q.queues.length

/-- The queues before the position have had one turn more than the others. -/
def Balanced (count : κ → Nat) (q : RoundRobin κ α) : Prop :=
  ∃ c, (∀ e ∈ q.queues.take q.next, count e.1 = c + 1) ∧ ∀ e ∈ q.queues.drop q.next, count e.1 = c

/-! ## One turn -/

theorem position_lt (h : q.queues ≠ []) : q.position < q.queues.length := by
  unfold position
  split
  · assumption
  · exact List.length_pos_iff.mpr h

theorem position_present (h : q.WellFormed) (hne : q.queues ≠ []) :
    ∃ k a rest, q.queues[q.position]? = some (k, a :: rest) := by
  have hget := List.getElem?_eq_getElem (position_lt hne)
  have hitems := h.nonempty _ (List.mem_of_getElem? hget)
  obtain ⟨a, rest, hrest⟩ := List.exists_cons_of_ne_nil hitems
  exact ⟨_, a, rest, by rw [hget, ← hrest]⟩

theorem turn_isSome (h : q.WellFormed) (hne : q.queues ≠ []) : ∃ k a q', q.turn = some ((k, a), q') := by
  obtain ⟨k, a, rest, hget⟩ := position_present h hne
  unfold turn
  rw [hget]
  cases rest with
  | nil => exact ⟨k, a, _, rfl⟩
  | cons b rest => exact ⟨k, a, _, rfl⟩

/-- All that a turn can do. -/
theorem turn_cases (h : q.turn = some ((k, a), q')) :
    ∃ before rest after, q.queues = before ++ (k, a :: rest) :: after ∧ before.length = q.position ∧
      (rest = [] ∧ q' = ⟨before ++ after, q.position⟩ ∨ rest ≠ [] ∧ q' = ⟨before ++ (k, rest) :: after, q.position + 1⟩) := by
  unfold turn at h
  split at h
  · rename_i k' a' rest hget
    obtain ⟨hlt, heq⟩ := List.getElem?_eq_some_iff.mp hget
    obtain ⟨before, after, hqueues, hlength⟩ : ∃ before after,
        q.queues = before ++ (k', a' :: rest) :: after ∧ before.length = q.position := by
      refine ⟨q.queues.take q.position, q.queues.drop (q.position + 1), ?_, List.length_take_of_le (Nat.le_of_lt hlt)⟩
      rw [← heq, List.getElem_cons_drop, List.take_append_drop]
    cases rest with
    | nil =>
        simp only [List.isEmpty_nil, if_true, Option.some.injEq, Prod.mk.injEq] at h
        obtain ⟨⟨rfl, rfl⟩, rfl⟩ := h
        refine ⟨before, [], after, hqueues, hlength, .inl ⟨rfl, ?_⟩⟩
        rw [hqueues, ← hlength]
        simp [List.eraseIdx_append_of_length_le]
    | cons b rest =>
        simp only [List.isEmpty_cons, Bool.false_eq_true, if_false, Option.some.injEq, Prod.mk.injEq] at h
        obtain ⟨⟨rfl, rfl⟩, rfl⟩ := h
        refine ⟨before, b :: rest, after, hqueues, hlength, .inr ⟨by simp, ?_⟩⟩
        rw [hqueues, ← hlength]
        simp [List.set_append_right]
  · cases h

/-- A turn takes its item and no other. -/
theorem turn_perm (h : q.turn = some ((k, a), q')) : ((k, a) :: q'.items).Perm q.items := by
  obtain ⟨before, rest, after, hqueues, -, ⟨rfl, rfl⟩ | ⟨-, rfl⟩⟩ := turn_cases h
  · simp only [items, hqueues, List.flatMap_append, List.flatMap_cons, List.map_cons, List.map_nil]
    exact List.perm_middle.symm
  · simp only [items, hqueues, List.flatMap_append, List.flatMap_cons, List.map_cons, List.cons_append]
    exact List.perm_middle.symm

theorem WellFormed.turn (hq : q.WellFormed) (h : q.turn = some ((k, a), q')) : q'.WellFormed := by
  obtain ⟨hnodup, hnonempty, -⟩ := hq
  obtain ⟨before, rest, after, hqueues, hlength, ⟨rfl, rfl⟩ | ⟨hrest, rfl⟩⟩ := turn_cases h
  · rw [hqueues] at hnodup hnonempty
    refine ⟨hnodup.sublist ?_, fun e he => hnonempty e ?_, ?_⟩
    · exact (List.Sublist.append_left (List.sublist_cons_self _ _) before).map _
    · rcases List.mem_append.mp he with hbefore | hafter
      · exact List.mem_append_left _ hbefore
      · exact List.mem_append_right _ (List.mem_cons_of_mem _ hafter)
    · simp [← hlength]
  · rw [hqueues] at hnodup hnonempty
    refine ⟨by simpa using hnodup, fun e he => ?_, ?_⟩
    · rcases List.mem_append.mp he with hbefore | hother
      · exact hnonempty e (List.mem_append_left _ hbefore)
      · rcases List.mem_cons.mp hother with rfl | hafter
        · exact hrest
        · exact hnonempty e (List.mem_append_right _ (List.mem_cons_of_mem _ hafter))
    · simp [← hlength]

/-! ## Balance -/

section balance

variable {count : κ → Nat}

theorem balanced_start (h : q.next = 0) : q.Balanced fun _ => 0 :=
  ⟨0, by simp [h], by simp⟩

/-- Around the turn: where all queues have had the same number of turns, the first one is next. -/
theorem Balanced.position (h : q.Balanced count) :
    ∃ c, (∀ e ∈ q.queues.take q.position, count e.1 = c + 1) ∧ ∀ e ∈ q.queues.drop q.position, count e.1 = c := by
  obtain ⟨c, hbefore, hafter⟩ := h
  unfold RoundRobin.position
  split
  · exact ⟨c, hbefore, hafter⟩
  · rename_i hend
    rw [List.take_of_length_le (Nat.le_of_not_lt hend)] at hbefore
    exact ⟨c + 1, by simp, by simpa using hbefore⟩

theorem Balanced.turn [DecidableEq κ] (hb : q.Balanced count) (hq : q.WellFormed) (h : q.turn = some ((k, a), q')) :
    q'.Balanced (Function.update count k (count k + 1)) := by
  obtain ⟨c, hbefore, hafter⟩ := hb.position
  obtain ⟨before, rest, after, hqueues, hlength, hcases⟩ := turn_cases h
  have hnodup := hq.nodup
  rw [hqueues, List.map_append, List.map_cons, List.perm_middle.nodup_iff, List.nodup_cons, ← List.map_append] at hnodup
  have hne : ∀ e ∈ before ++ after, e.1 ≠ k := fun e he hk => hnodup.1 (List.mem_map.mpr ⟨e, he, hk⟩)
  rw [hqueues, ← hlength, List.take_left] at hbefore
  rw [hqueues, ← hlength, List.drop_left] at hafter
  have hcount : count k = c := hafter (k, a :: rest) List.mem_cons_self
  refine ⟨c, ?_, ?_⟩
  · intro e he
    by_cases hk : e.1 = k
    · rw [hk, Function.update_self, hcount]
    · rw [Function.update_of_ne hk]
      apply hbefore
      rcases hcases with ⟨-, rfl⟩ | ⟨-, rfl⟩
      · simpa [← hlength] using he
      · simp only [← hlength] at he
        rw [List.take_append, List.take_of_length_le (by omega), Nat.add_sub_cancel_left] at he
        simp only [List.take_succ_cons, List.take_zero, List.mem_append, List.mem_singleton] at he
        rcases he with he | rfl
        · exact he
        · exact (hk rfl).elim
  · intro e he
    have hmem : e ∈ after := by
      rcases hcases with ⟨-, rfl⟩ | ⟨-, rfl⟩
      · simpa [← hlength] using he
      · simp only [← hlength] at he
        rw [List.drop_append, List.drop_of_length_le (by omega), Nat.add_sub_cancel_left] at he
        simpa using he
    rw [Function.update_of_ne (hne e (List.mem_append_right _ hmem))]
    exact hafter e (List.mem_cons_of_mem _ hmem)

/-- Two queues that both still have items differ by one turn at most. -/
theorem Balanced.le_succ (h : q.Balanced count) {e e' : κ × List α} (he : e ∈ q.queues) (he' : e' ∈ q.queues) :
    count e.1 ≤ count e'.1 + 1 := by
  obtain ⟨c, hbefore, hafter⟩ := h
  have hvalue : ∀ e ∈ q.queues, count e.1 = c + 1 ∨ count e.1 = c := by
    intro e he
    rw [← List.take_append_drop q.next q.queues, List.mem_append] at he
    rcases he with he | he
    · exact .inl (hbefore e he)
    · exact .inr (hafter e he)
  rcases hvalue e he with h₁ | h₁ <;> rcases hvalue e' he' with h₂ | h₂ <;> omega

end balance

end RoundRobin

end Fts3.Machine
