import Fts3.MySql.ActivityShares
import Mathlib.Algebra.Order.BigOperators.Group.List
import Mathlib.Algebra.Order.Field.Basic
import Mathlib.Algebra.Order.Field.Rat
import Mathlib.Tactic.Linarith
import Mathlib.Tactic.Ring

/-!
# Slots of the activities

How the slots of a link are drawn for the activities of a queue, by their shares.
-/

namespace Fts3.MySql

open Fts3.Sql

/-! ## Drawing the slots -/

section draws

variable {name : String → String} {share : String → Rat} {weight : String → Rat}

/-- The files that are left. -/
def filesLeft (queue : List (String × Int)) : Nat :=
  (queue.map fun e => e.2.toNat).sum

/-- The shares of the activities with files left. -/
def weightLeft (weight : String → Rat) (queue : List (String × Int)) : Rat :=
  (queue.map fun e => if 0 < e.2 then weight e.1 else 0).sum

/-- The files that are left for the activities with a name. -/
def filesLeftOf (name : String → String) (n : String) (queue : List (String × Int)) : Nat :=
  (queue.map fun e => if name e.1 = n then e.2.toNat else 0).sum

def Weighs (weight : String → Rat) (queue : List (String × Int)) : Prop :=
  ∀ e ∈ queue, 0 < weight e.1

theorem weightLeft_append (pre post : List (String × Int)) :
    weightLeft weight (pre ++ post) = weightLeft weight pre + weightLeft weight post := by
  simp [weightLeft]

theorem weightLeft_cons (e : String × Int) (queue : List (String × Int)) :
    weightLeft weight (e :: queue) = (if 0 < e.2 then weight e.1 else 0) + weightLeft weight queue := by
  simp [weightLeft]

theorem Weighs.nonneg {queue : List (String × Int)} (h : Weighs weight queue) : 0 ≤ weightLeft weight queue := by
  induction queue with
  | nil => simp [weightLeft]
  | cons e queue ih =>
      rw [weightLeft_cons]
      have hrest := ih fun e he => h e (by simp [he])
      have hhead := h e (by simp)
      split <;> linarith

theorem weightLeft_eq_zero {queue : List (String × Int)} (h : filesLeft queue = 0) : weightLeft weight queue = 0 := by
  induction queue with
  | nil => simp [weightLeft]
  | cons e queue ih =>
      simp only [filesLeft, List.map_cons, List.sum_cons, Nat.add_eq_zero_iff] at h
      rw [weightLeft_cons, ih h.2, if_neg (by omega), add_zero]

theorem Weighs.le_weightLeft {queue : List (String × Int)} (h : Weighs weight queue) {e : String × Int} (he : e ∈ queue)
    (hleft : 0 < e.2) : weight e.1 ≤ weightLeft weight queue := by
  obtain ⟨pre, post, rfl⟩ := List.append_of_mem he
  rw [weightLeft_append, weightLeft_cons, if_pos hleft]
  have hpre : 0 ≤ weightLeft weight pre := Weighs.nonneg fun e he => h e (by simp [he])
  have hpost : 0 ≤ weightLeft weight post := Weighs.nonneg fun e he => h e (by simp [he])
  linarith

theorem filesLeft_pos_iff {queue : List (String × Int)} : 0 < filesLeft queue ↔ ∃ e ∈ queue, 0 < e.2 := by
  induction queue with
  | nil => simp [filesLeft]
  | cons e queue ih =>
      have hsum : filesLeft (e :: queue) = e.2.toNat + filesLeft queue := by simp [filesLeft]
      rw [hsum, List.exists_mem_cons_iff, ← ih]
      omega

theorem exists_first {queue : List (String × Int)} (h : 0 < filesLeft queue) :
    ∃ pre a n post, queue = pre ++ (a, n) :: post ∧ 0 < n ∧ filesLeft pre = 0 := by
  induction queue with
  | nil => simp [filesLeft] at h
  | cons e queue ih =>
      by_cases he : 0 < e.2
      · exact ⟨[], e.1, e.2, queue, rfl, he, rfl⟩
      · have hrest : 0 < filesLeft queue := by
          simp only [filesLeft, List.map_cons, List.sum_cons] at h ⊢
          omega
        obtain ⟨pre, a, n, post, rfl, hn, hpre⟩ := ih hrest
        refine ⟨e :: pre, a, n, post, rfl, hn, ?_⟩
        simp only [filesLeft, List.map_cons, List.sum_cons] at hpre ⊢
        omega

/-! ### One draw -/

theorem pickActivity_eq_none_iff {sum : Rat} (hsum : 0 < sum) (r interval : Rat) {queue : List (String × Int)}
    (hweight : Weighs weight queue) :
    pickActivity weight sum r interval queue = none ↔
      filesLeft queue = 0 ∨ interval + weightLeft weight queue / sum ≤ r := by
  induction queue generalizing interval with
  | nil => simp [pickActivity, filesLeft]
  | cons e queue ih =>
      obtain ⟨a, n⟩ := e
      have hrest : Weighs weight queue := fun e he => hweight e (by simp [he])
      have hfiles : filesLeft ((a, n) :: queue) = n.toNat + filesLeft queue := by simp [filesLeft]
      rw [hfiles, weightLeft_cons, pickActivity]
      by_cases hn : n ≤ 0
      · simp only [if_pos hn, if_neg hn.not_gt, zero_add]
        rw [ih interval hrest, Int.toNat_of_nonpos hn, zero_add]
      · have hpos : 0 < n := not_le.mp hn
        have hfilled : n.toNat + filesLeft queue ≠ 0 := by omega
        have hsplit : interval + (weight a + weightLeft weight queue) / sum =
            interval + weight a / sum + weightLeft weight queue / sum := by ring
        have hquot : 0 ≤ weightLeft weight queue / sum := div_nonneg hrest.nonneg hsum.le
        simp only [if_neg hn, if_pos hpos, hsplit, hfilled, false_or]
        split
        · rename_i hr
          simp only [reduceCtorEq, false_iff, not_le]
          linarith
        · rename_i hr
          rw [ih _ hrest]
          constructor
          · rintro (hzero | hle)
            · rw [weightLeft_eq_zero hzero]
              simpa using hr
            · exact hle
          · exact .inr

theorem pickActivity_eq_some {sum r interval : Rat} {queue : List (String × Int)} {a : String} {n : Int}
    (h : pickActivity weight sum r interval queue = some (a, n)) :
    0 < n ∧ ∃ pre post, queue = pre ++ (a, n) :: post ∧
      (interval ≤ r → interval + weightLeft weight pre / sum ≤ r) := by
  induction queue generalizing interval with
  | nil => cases h
  | cons e queue ih =>
      obtain ⟨b, m⟩ := e
      rw [pickActivity] at h
      split at h
      · rename_i hm
        obtain ⟨hn, pre, post, rfl, hr⟩ := ih h
        refine ⟨hn, (b, m) :: pre, post, rfl, ?_⟩
        rw [weightLeft_cons, if_neg hm.not_gt, zero_add]
        exact hr
      · rename_i hm
        split at h
        · cases h
          exact ⟨not_le.mp hm, [], queue, rfl, by simp [weightLeft]⟩
        · rename_i hr
          obtain ⟨hn, pre, post, rfl, hle⟩ := ih h
          refine ⟨hn, (b, m) :: pre, post, rfl, fun _ => ?_⟩
          rw [weightLeft_cons, if_pos (not_le.mp hm), add_div, ← add_assoc]
          exact hle (not_lt.mp hr)

/-- The interval of an activity. -/
theorem pickActivity_of_interval {sum : Rat} (hsum : 0 < sum) {r interval : Rat} {pre post : List (String × Int)}
    {a : String} {n : Int} (hn : 0 < n) (hweight : Weighs weight pre)
    (hle : interval + weightLeft weight pre / sum ≤ r)
    (hlt : r < interval + weightLeft weight pre / sum + weight a / sum) :
    pickActivity weight sum r interval (pre ++ (a, n) :: post) = some (a, n) := by
  induction pre generalizing interval with
  | nil =>
      simp only [weightLeft, List.map_nil, List.sum_nil, zero_div, add_zero] at hlt
      simp [pickActivity, hn, hlt]
  | cons e pre ih =>
      obtain ⟨b, m⟩ := e
      have hrest : Weighs weight pre := fun e he => hweight e (by simp [he])
      rw [List.cons_append, pickActivity]
      rw [weightLeft_cons] at hle hlt
      by_cases hm : m ≤ 0
      · simp only [if_neg hm.not_gt, zero_add] at hle hlt
        rw [if_pos hm]
        exact ih hrest hle hlt
      · simp only [if_pos (not_le.mp hm), add_div, ← add_assoc] at hle hlt
        have hquot : 0 ≤ weightLeft weight pre / sum := div_nonneg hrest.nonneg hsum.le
        rw [if_neg hm, if_neg (not_lt.mpr (by linarith))]
        exact ih hrest hle hlt

end draws

/-! ### A run of draws -/

section runs

variable {name : String → String} {share : String → Rat} {s s' : Slots}

/-- A slot goes to an activity between `pre` and `post` with `n` files left. -/
structure Slots.Gives (name : String → String) (share : String → Rat) (s : Slots) (pre post : List (String × Int))
    (a : String) (n : Int) (s' : Slots) : Prop where
  queue : s.inQueue = pre ++ (a, n) :: post
  waits : 0 < n
  inQueue : s'.inQueue = pre ++ (a, n - 1) :: post
  assigned : s'.assigned = mapInsert (name a) ((s.assigned.lookup (name a)).getD 0 + 1) s.assigned
  sum : s'.sum = if n = 1 then s.sum - share (name a) else s.sum

theorem assign_of_pick (hqueue : Ordered s.inQueue) (hsum : 0 < s.sum) {r : Rat} {pre post : List (String × Int)}
    {a : String} {n : Int} (hinQueue : s.inQueue = pre ++ (a, n) :: post) (hn : 0 < n)
    (hpick : pickActivity (fun a => share (name a)) s.sum r 0 s.inQueue = some (a, n)) :
    s.Gives name share pre post a n (s.assign name share r) := by
  have hmid : mapInsert a (n - 1) s.inQueue = pre ++ (a, n - 1) :: post := by
    rw [hinQueue] at hqueue ⊢
    exact hqueue.mapInsert_mid _
  rw [Slots.assign, if_neg hsum.not_ge, hpick]
  exact ⟨hinQueue, hn, hmid, rfl, rfl⟩

variable (name share) in
/-- What a draw can do. -/
theorem assign_cases (hqueue : Ordered s.inQueue) (r : Rat) :
    s.assign name share r = s ∧
        (s.sum ≤ 0 ∨ pickActivity (fun a => share (name a)) s.sum r 0 s.inQueue = none) ∨
      0 < s.sum ∧ ∃ pre post a n, s.Gives name share pre post a n (s.assign name share r) ∧
        (0 ≤ r → weightLeft (fun a => share (name a)) pre / s.sum ≤ r) := by
  by_cases hsum : s.sum ≤ 0
  · exact .inl ⟨by rw [Slots.assign, if_pos hsum], .inl hsum⟩
  · cases hpick : pickActivity (fun a => share (name a)) s.sum r 0 s.inQueue with
    | none => exact .inl ⟨by rw [Slots.assign, if_neg hsum, hpick], .inr rfl⟩
    | some e =>
        obtain ⟨hn, pre, post, hinQueue, hle⟩ := pickActivity_eq_some hpick
        rw [zero_add] at hle
        exact .inr ⟨not_le.mp hsum, pre, post, e.1, e.2, assign_of_pick hqueue (not_le.mp hsum) hinQueue hn hpick, hle⟩

namespace Slots.Gives

variable {pre post : List (String × Int)} {a : String} {n : Int} (h : s.Gives name share pre post a n s')

include h

theorem keys : s'.inQueue.map (·.1) = s.inQueue.map (·.1) := by
  simp [h.inQueue, h.queue]

theorem ordered (hqueue : Ordered s.inQueue) : Ordered s'.inQueue := by
  rw [ordered_iff_keys, h.keys]
  exact ordered_iff_keys.mp hqueue

theorem weighs {weight : String → Rat} (hweight : Weighs weight s.inQueue) : Weighs weight s'.inQueue := by
  intro e he
  have hmem : e.1 ∈ s.inQueue.map (·.1) := h.keys ▸ List.mem_map_of_mem he
  obtain ⟨e', he', heq⟩ := List.mem_map.mp hmem
  exact heq ▸ hweight e' he'

theorem filesLeft_eq : filesLeft s.inQueue = filesLeft s'.inQueue + 1 := by
  have hn := h.waits
  simp only [filesLeft, h.queue, h.inQueue, List.map_append, List.map_cons, List.sum_append, List.sum_cons]
  omega

/-- The shares of the activities with files left and the sum go down by the same. -/
theorem surplus_eq : weightLeft (fun a => share (name a)) s'.inQueue - s'.sum =
    weightLeft (fun a => share (name a)) s.inQueue - s.sum := by
  have hn := h.waits
  rw [h.queue, h.inQueue, h.sum, weightLeft_append, weightLeft_append, weightLeft_cons, weightLeft_cons, if_pos hn]
  by_cases hone : n = 1
  · rw [if_pos hone, if_neg (by omega)]
    ring
  · rw [if_neg hone, if_pos (by omega)]

theorem total_eq (hassigned : Ordered s.assigned) :
    (s'.assigned.map (·.2)).sum = (s.assigned.map (·.2)).sum + 1 := by
  rw [h.assigned]
  exact hassigned.sum_mapInsert _

theorem conserves (k : String) : (s'.assigned.lookup k).getD 0 + filesLeftOf name k s'.inQueue =
    (s.assigned.lookup k).getD 0 + filesLeftOf name k s.inQueue := by
  have hn := h.waits
  simp only [filesLeftOf, h.queue, h.inQueue, h.assigned, lookup_mapInsert, List.map_append, List.map_cons,
    List.sum_append, List.sum_cons]
  by_cases hk : k = name a
  · subst hk
    simp only [if_true, Option.getD_some]
    omega
  · simp [hk, Ne.symm hk]

/-- An activity with files left still had them before. -/
theorem waits_of_waits {e : String × Int} (he : e ∈ s'.inQueue) (hleft : 0 < e.2) :
    ∃ e' ∈ s.inQueue, e'.1 = e.1 ∧ 0 < e'.2 := by
  rw [h.inQueue, List.mem_append, List.mem_cons] at he
  rw [h.queue]
  rcases he with he | rfl | he
  · exact ⟨e, by simp [he], rfl, hleft⟩
  · exact ⟨(a, n), by simp, rfl, h.waits⟩
  · exact ⟨e, by simp [he], rfl, hleft⟩

end Slots.Gives

def Slots.run (name : String → String) (share : String → Rat) (s : Slots) (dice : List Rat) : Slots :=
  dice.foldl (Slots.assign name share) s

/-- What holds of the slots in every run. -/
structure Slots.Sound (name : String → String) (share : String → Rat) (queue : List (String × Int)) (s : Slots) :
    Prop where
  ordered : Ordered s.inQueue
  orderedAssigned : Ordered s.assigned
  weighs : Weighs (fun a => share (name a)) s.inQueue
  total : (s.assigned.map (·.2)).sum + filesLeft s.inQueue = filesLeft queue
  conserved : ∀ k, (s.assigned.lookup k).getD 0 + filesLeftOf name k s.inQueue = filesLeftOf name k queue

theorem Slots.Sound.assign {queue : List (String × Int)} (h : s.Sound name share queue) (r : Rat) :
    (s.assign name share r).Sound name share queue := by
  rcases assign_cases name share h.ordered r with ⟨heq, -⟩ | ⟨-, pre, post, a, n, hgives, -⟩
  · rw [heq]
    exact h
  · have htotal := hgives.total_eq h.orderedAssigned
    have hfiles := hgives.filesLeft_eq
    refine ⟨hgives.ordered h.ordered, ?_, hgives.weighs h.weighs, ?_, fun k => ?_⟩
    · rw [hgives.assigned]
      exact h.orderedAssigned.mapInsert _ _
    · rw [htotal, ← h.total]
      omega
    · rw [hgives.conserves, h.conserved]

theorem Slots.Sound.run {queue : List (String × Int)} (h : s.Sound name share queue) (dice : List Rat) :
    (s.run name share dice).Sound name share queue := by
  induction dice generalizing s with
  | nil => exact h
  | cons r dice ih => exact ih (h.assign r)

theorem Slots.Gives.assigned_pos {pre post : List (String × Int)} {a : String} {n : Int}
    (h : s.Gives name share pre post a n s') : 0 < (s'.assigned.lookup (name a)).getD 0 := by
  rw [h.assigned, lookup_mapInsert, if_pos rfl, Option.getD_some]
  omega

theorem le_lookup_assign (r : Rat) (k : String) :
    (s.assigned.lookup k).getD 0 ≤ ((s.assign name share r).assigned.lookup k).getD 0 := by
  rw [Slots.assign]
  split
  · exact le_rfl
  · split
    · exact le_rfl
    · simp only [lookup_mapInsert]
      split
      · rename_i hk
        rw [hk, Option.getD_some]
        omega
      · exact le_rfl

theorem le_lookup_run (dice : List Rat) (k : String) :
    (s.assigned.lookup k).getD 0 ≤ ((s.run name share dice).assigned.lookup k).getD 0 := by
  induction dice generalizing s with
  | nil => exact le_rfl
  | cons r dice ih => exact (le_lookup_assign r k).trans ih

variable (name share) in
/-- The first slot that is assigned goes to an activity whose interval begins below 1. -/
theorem run_cases (hqueue : Ordered s.inQueue) {dice : List Rat} (hdice : ∀ r ∈ dice, 0 ≤ r ∧ r < 1) :
    s.run name share dice = s ∨ ∃ pre post a n, s.inQueue = pre ++ (a, n) :: post ∧ 0 < n ∧
      weightLeft (fun a => share (name a)) pre < s.sum ∧
        0 < ((s.run name share dice).assigned.lookup (name a)).getD 0 := by
  induction dice with
  | nil => exact .inl rfl
  | cons r dice ih =>
      have hr := hdice r (by simp)
      rcases assign_cases name share hqueue r with
        ⟨heq, -⟩ | ⟨hsum, pre, post, a, n, hgives, hle⟩
      · have hrun : s.run name share (r :: dice) = s.run name share dice := by
          change (s.assign name share r).run name share dice = _
          rw [heq]
        rw [hrun]
        exact ih fun r hr => hdice r (by simp [hr])
      · have hlt := (hle hr.1).trans_lt hr.2
        rw [div_lt_one hsum] at hlt
        exact .inr ⟨pre, post, a, n, hgives.queue, hgives.waits, hlt, hgives.assigned_pos.trans_le (le_lookup_run dice _)⟩

/-- Such an activity gets the slot for some dice. -/
theorem exists_dice_of_interval {queue : List (String × Int)} (h : s.Sound name share queue) (hsum : 0 < s.sum)
    {pre post : List (String × Int)} {a : String} {n : Int} (hinQueue : s.inQueue = pre ++ (a, n) :: post) (hn : 0 < n)
    (hlt : weightLeft (fun a => share (name a)) pre < s.sum) :
    ∃ r, (0 < r ∧ r < 1) ∧ s.Gives name share pre post a n (s.assign name share r) := by
  have hpre : Weighs (fun a => share (name a)) pre := fun e he => h.weighs e (by simp [hinQueue, he])
  have hweight : 0 < share (name a) / s.sum := div_pos (h.weighs (a, n) (by simp [hinQueue])) hsum
  have hbegin : 0 ≤ weightLeft (fun a => share (name a)) pre / s.sum := div_nonneg hpre.nonneg hsum.le
  have hbelow : weightLeft (fun a => share (name a)) pre / s.sum < 1 := (div_lt_one hsum).mpr hlt
  obtain ⟨r, hr, hr'⟩ := exists_between (lt_min (lt_add_of_pos_right _ hweight) hbelow)
  refine ⟨r, ⟨hbegin.trans_lt hr, (lt_min_iff.mp hr').2⟩, ?_⟩
  apply assign_of_pick h.ordered hsum hinQueue hn
  rw [hinQueue]
  apply pickActivity_of_interval hsum hn hpre
  · rw [zero_add]
    exact hr.le
  · rw [zero_add]
    exact (lt_min_iff.mp hr').1

/-! ### No slot is lost -/

def Slots.surplus (name : String → String) (share : String → Rat) (s : Slots) : Rat :=
  weightLeft (fun a => share (name a)) s.inQueue - s.sum

/-- The intervals cover the dice, and the sum stays positive to the last file. -/
def Slots.Covers (name : String → String) (share : String → Rat) (s : Slots) : Prop :=
  0 ≤ s.surplus name share ∧ ∀ e ∈ s.inQueue, 0 < e.2 → s.surplus name share < share (name e.1)

/-- Every draw with files left assigns a slot. -/
def Slots.Saturates (name : String → String) (share : String → Rat) (s : Slots) : Prop :=
  ∀ dice : List Rat, (∀ r ∈ dice, 0 ≤ r ∧ r < 1) →
    filesLeft (s.run name share dice).inQueue = filesLeft s.inQueue - dice.length

theorem Slots.Covers.gives {queue : List (String × Int)} (hcovers : s.Covers name share)
    (h : s.Sound name share queue) (hleft : 0 < filesLeft s.inQueue) {r : Rat} (hr : r < 1) :
    ∃ pre post a n, s.Gives name share pre post a n (s.assign name share r) := by
  obtain ⟨hzero, hlt⟩ := hcovers
  obtain ⟨e, he, hwaits⟩ := filesLeft_pos_iff.mp hleft
  have hweight := h.weighs.le_weightLeft he hwaits
  have hsurplus := hlt e he hwaits
  rw [Slots.surplus] at hzero hsurplus
  have hsum : 0 < s.sum := by linarith
  rcases assign_cases name share h.ordered r with ⟨-, hnone⟩ | ⟨-, pre, post, a, n, hgives, -⟩
  · rcases hnone with hle | hnone
    · exact absurd hle hsum.not_ge
    · rw [pickActivity_eq_none_iff hsum _ _ h.weighs] at hnone
      rcases hnone with hempty | hle
      · omega
      · have hone : 1 ≤ weightLeft (fun a => share (name a)) s.inQueue / s.sum := by
          rw [one_le_div hsum]
          linarith
        linarith
  · exact ⟨pre, post, a, n, hgives⟩

theorem Slots.Covers.of_gives {pre post : List (String × Int)} {a : String} {n : Int} (hcovers : s.Covers name share)
    (h : s.Gives name share pre post a n s') : s'.Covers name share := by
  have hsurplus : s'.surplus name share = s.surplus name share := h.surplus_eq
  refine ⟨hsurplus ▸ hcovers.1, fun e he hwaits => ?_⟩
  obtain ⟨e', he', heq, hwaits'⟩ := h.waits_of_waits he hwaits
  rw [hsurplus, ← heq]
  exact hcovers.2 e' he' hwaits'

theorem assign_eq_of_empty {queue : List (String × Int)} (h : s.Sound name share queue)
    (hempty : filesLeft s.inQueue = 0) (r : Rat) : s.assign name share r = s := by
  rcases assign_cases name share h.ordered r with ⟨heq, -⟩ | ⟨-, pre, post, a, n, hgives, -⟩
  · exact heq
  · have hfiles := hgives.filesLeft_eq
    omega

theorem Slots.Covers.saturates {queue : List (String × Int)} (h : s.Sound name share queue)
    (hcovers : filesLeft s.inQueue = 0 ∨ s.Covers name share) : s.Saturates name share := by
  intro dice hdice
  induction dice generalizing s with
  | nil => simp [Slots.run]
  | cons r dice ih =>
      have hrest : ∀ r ∈ dice, 0 ≤ r ∧ r < 1 := fun r hr => hdice r (by simp [hr])
      change filesLeft ((s.assign name share r).run name share dice).inQueue = _
      by_cases hempty : filesLeft s.inQueue = 0
      · rw [assign_eq_of_empty h hempty r, ih h (.inl hempty) hrest, hempty]
        simp
      · have hcovers := hcovers.resolve_left hempty
        obtain ⟨pre, post, a, n, hgives⟩ := hcovers.gives h (by omega) (hdice r (by simp)).2
        rw [ih (h.assign r) (.inr (hcovers.of_gives hgives)) hrest, hgives.filesLeft_eq, List.length_cons]
        omega

theorem Slots.Saturates.gives {queue : List (String × Int)} (hsat : s.Saturates name share)
    (h : s.Sound name share queue) (hleft : 0 < filesLeft s.inQueue) {r : Rat} (hr : 0 ≤ r ∧ r < 1) :
    ∃ pre post a n, s.Gives name share pre post a n (s.assign name share r) ∧
      weightLeft (fun a => share (name a)) pre / s.sum ≤ r := by
  have hone := hsat [r] (by simpa using hr)
  rcases assign_cases name share h.ordered r with ⟨heq, -⟩ | ⟨-, pre, post, a, n, hgives, hle⟩
  · simp only [Slots.run, List.foldl_cons, List.foldl_nil, heq, List.length_singleton] at hone
    omega
  · exact ⟨pre, post, a, n, hgives, hle hr.1⟩

theorem Slots.Saturates.of_gives {pre post : List (String × Int)} {a : String} {n : Int} {r : Rat}
    (hsat : s.Saturates name share) (hr : 0 ≤ r ∧ r < 1)
    (h : s.Gives name share pre post a n (s.assign name share r)) : (s.assign name share r).Saturates name share := by
  intro dice hdice
  have hrun := hsat (r :: dice) (by simpa [hr] using hdice)
  change filesLeft ((s.assign name share r).run name share dice).inQueue = _ at hrun
  have hfiles := h.filesLeft_eq
  rw [hrun, List.length_cons]
  omega

theorem Slots.Saturates.sum_pos {queue : List (String × Int)} (hsat : s.Saturates name share)
    (h : s.Sound name share queue) (hleft : 0 < filesLeft s.inQueue) : 0 < s.sum := by
  by_contra hsum
  obtain ⟨pre, post, a, n, hgives, -⟩ := hsat.gives h hleft (r := 0) ⟨le_rfl, by norm_num⟩
  have hsame : s.assign name share 0 = s := by rw [Slots.assign, if_pos (not_lt.mp hsum)]
  have hfiles := hgives.filesLeft_eq
  rw [hsame] at hfiles
  omega

theorem Slots.Saturates.surplus_nonneg {queue : List (String × Int)} (hsat : s.Saturates name share)
    (h : s.Sound name share queue) (hleft : 0 < filesLeft s.inQueue) : 0 ≤ s.surplus name share := by
  have hsum := hsat.sum_pos h hleft
  by_contra hneg
  rw [Slots.surplus] at hneg
  -- a dice beyond the last interval
  let r := weightLeft (fun a => share (name a)) s.inQueue / s.sum
  have hr : 0 ≤ r ∧ r < 1 := ⟨div_nonneg h.weighs.nonneg hsum.le, by
    rw [div_lt_one hsum]
    linarith⟩
  have hnone : pickActivity (fun a => share (name a)) s.sum r 0 s.inQueue = none := by
    rw [pickActivity_eq_none_iff hsum _ _ h.weighs, zero_add]
    exact .inr le_rfl
  obtain ⟨pre, post, a, n, hgives, -⟩ := hsat.gives h hleft hr
  have hsame : s.assign name share r = s := by rw [Slots.assign, if_neg hsum.not_ge, hnone]
  have hfiles := hgives.filesLeft_eq
  rw [hsame] at hfiles
  omega

/-- The activity whose interval begins at the dice gets the slot. -/
theorem assign_at_interval {queue : List (String × Int)} (h : s.Sound name share queue) (hsum : 0 < s.sum)
    {pre post : List (String × Int)} {a : String} {n : Int} (hinQueue : s.inQueue = pre ++ (a, n) :: post) (hn : 0 < n) :
    s.Gives name share pre post a n (s.assign name share (weightLeft (fun a => share (name a)) pre / s.sum)) := by
  have hweight : 0 < share (name a) := h.weighs (a, n) (by simp [hinQueue])
  apply assign_of_pick h.ordered hsum hinQueue hn
  rw [hinQueue]
  apply pickActivity_of_interval hsum hn fun e he => h.weighs e (by simp [hinQueue, he])
  · rw [zero_add]
  · have hquot := div_pos hweight hsum
    linarith

theorem Slots.Saturates.covers {queue : List (String × Int)} (hsat : s.Saturates name share)
    (h : s.Sound name share queue) (hleft : 0 < filesLeft s.inQueue) : s.Covers name share := by
  refine ⟨hsat.surplus_nonneg h hleft, ?_⟩
  -- induction on the files left: what is said of the activities left after a draw holds before it
  induction hfiles : filesLeft s.inQueue generalizing s with
  | zero => omega
  | succ k ih =>
      have hsum := hsat.sum_pos h hleft
      have hafter : ∀ {r : Rat}, 0 ≤ r → r < 1 → ∀ {pre post : List (String × Int)} {a : String} {n : Int},
          s.Gives name share pre post a n (s.assign name share r) → ∀ e ∈ (s.assign name share r).inQueue, 0 < e.2 →
            s.surplus name share < share (name e.1) := by
        intro r h0 h1 pre post a n hgives e he hwaits
        have hfiles' := hgives.filesLeft_eq
        have hleft' : 0 < filesLeft (s.assign name share r).inQueue := filesLeft_pos_iff.mpr ⟨e, he, hwaits⟩
        have hrest := ih (hsat.of_gives ⟨h0, h1⟩ hgives) (h.assign r) hleft' (by omega) e he hwaits
        rwa [show (s.assign name share r).surplus name share = s.surplus name share from hgives.surplus_eq] at hrest
      obtain ⟨pre, f, n, post, hinQueue, hn, hpre⟩ := exists_first hleft
      have hstart : weightLeft (fun a => share (name a)) pre / s.sum = 0 := by
        rw [weightLeft_eq_zero hpre, zero_div]
      have hfirst := assign_at_interval h hsum hinQueue hn
      rw [hstart] at hfirst
      have hothers := hafter le_rfl (by norm_num) hfirst
      rw [hfirst.inQueue] at hothers
      -- the activity that a dice of 0 picks, when it was its last file
      have hf : s.surplus name share < share (name f) := by
        by_cases hlast : n = 1
        · by_cases hpost : filesLeft post = 0
          · have hweight : weightLeft (fun a => share (name a)) s.inQueue = share (name f) := by
              rw [hinQueue, weightLeft_append, weightLeft_cons, weightLeft_eq_zero hpre, weightLeft_eq_zero hpost,
                if_pos hn, zero_add, add_zero]
            rw [Slots.surplus, hweight]
            linarith
          · obtain ⟨pre', b, m, post', rfl, hm, hpre'⟩ := exists_first (Nat.pos_of_ne_zero hpost)
            have hb : s.surplus name share < share (name b) := hothers (b, m) (by simp) hm
            have hsplit : s.inQueue = (pre ++ (f, n) :: pre') ++ (b, m) :: post' := by simp [hinQueue]
            have hsecond := assign_at_interval h hsum hsplit hm
            have hbefore : weightLeft (fun a => share (name a)) (pre ++ (f, n) :: pre') = share (name f) := by
              rw [weightLeft_append, weightLeft_cons, weightLeft_eq_zero hpre, weightLeft_eq_zero hpre', if_pos hn,
                zero_add, add_zero]
            have hnonneg : 0 ≤ share (name f) := (h.weighs (f, n) (by simp [hinQueue])).le
            have hlt : share (name f) < s.sum := by
              have hpost' : 0 ≤ weightLeft (fun a => share (name a)) post' :=
                Weighs.nonneg fun e he => h.weighs e (by simp [hinQueue, he])
              rw [Slots.surplus, hsplit, weightLeft_append, hbefore, weightLeft_cons, if_pos hm] at hb
              simp only at hb
              linarith
            rw [hbefore] at hsecond
            have hmem : (f, n) ∈ (s.assign name share (share (name f) / s.sum)).inQueue := by
              rw [hsecond.inQueue]
              simp
            exact hafter (div_nonneg hnonneg hsum.le) ((div_lt_one hsum).mpr hlt) hsecond (f, n) hmem hn
        · exact hothers (f, n - 1) (by simp) (by show 0 < n - 1; omega)
      intro e he hwaits
      rw [hinQueue, List.mem_append, List.mem_cons] at he
      rcases he with he | rfl | he
      · exact hothers e (by simp [he]) hwaits
      · exact hf
      · exact hothers e (by simp [he]) hwaits

end runs

/-! ## The slots of the activities -/

section shares

/-- `activityShares[activity]`. -/
def shareOf (activityShares : List (String × Rat)) (activity : String) : Rat :=
  (activityShares.lookup activity).getD 0

/-- If the activity has not been defined it falls to default. -/
def isDefault (activityShares : List (String × Rat)) (activity : String) : Bool :=
  (activityShares.lookup activity).isNone || activity = "default"

def defaultActivities (activityShares : List (String × Rat)) (queue : List (String × Int)) : List String :=
  (queue.map (·.1)).filter (isDefault activityShares)

/-- The name of an activity of the queue, `default` if it was not defined. -/
def slotName (activityShares : List (String × Rat)) (queue : List (String × Int)) (activity : String) : String :=
  if activity ∈ defaultActivities activityShares queue then "default" else activity

/-- The slots before the first draw. -/
def Slots.start (activityShares : List (String × Rat)) (queue : List (String × Int)) : Slots where
  inQueue := queue
  sum := (((queue.map (·.1)).filter fun activity => !isDefault activityShares activity).map (shareOf activityShares)).sum +
    if (defaultActivities activityShares queue).isEmpty then 0 else shareOf activityShares "default"

/-- What `getFilesNumPerActivity` makes of the shares and the activities in the queue. -/
def assignSlots (activityShares : List (String × Rat)) (queue : List (String × Int)) (dice : List Rat) :
    List (String × Nat) :=
  ((Slots.start activityShares queue).run (slotName activityShares queue) (shareOf activityShares) dice).assigned

theorem getFilesNumPerActivity_answer (node : Node) (chance : Chance) (q : QueueId) (filesNum : Nat) (db : Db) :
    (getFilesNumPerActivity node chance q filesNum).answer Stmt.exec db =
      if (getActivityShareConf q.voName db).isEmpty then ([], [])
      else (assignSlots (getActivityShareConf q.voName db) (histogram node.activity (db.waitingIn node q))
          ((List.range filesNum).map (chance.dice q)),
        defaultActivities (getActivityShareConf q.voName db) (histogram node.activity (db.waitingIn node q))) := by
  simp only [getFilesNumPerActivity, Proc.bind_eq, select_bind, Proc.answer_select, apply_ite (fun p => Proc.answer
    Stmt.exec p db)]
  rfl

/-- Every share is positive, that of `default` included. -/
structure SharesPositive (activityShares : List (String × Rat)) : Prop where
  positive : ∀ e ∈ activityShares, 0 < e.2
  default : (activityShares.lookup "default").isSome

variable {activityShares : List (String × Rat)} {queue : List (String × Int)}

theorem slotName_eq {e : String × Int} (he : e ∈ queue) :
    slotName activityShares queue e.1 = if isDefault activityShares e.1 then "default" else e.1 := by
  have hmem : e.1 ∈ defaultActivities activityShares queue ↔ isDefault activityShares e.1 = true := by
    rw [defaultActivities, List.mem_filter]
    exact and_iff_right (List.mem_map_of_mem he)
  simp only [slotName, hmem]

theorem SharesPositive.shareOf_pos (h : SharesPositive activityShares) {activity : String}
    (hsome : (activityShares.lookup activity).isSome) : 0 < shareOf activityShares activity := by
  obtain ⟨x, hx⟩ := Option.isSome_iff_exists.mp hsome
  rw [shareOf, hx]
  exact h.positive _ (mem_of_lookup hx)

theorem SharesPositive.weighs (h : SharesPositive activityShares) (queue : List (String × Int)) :
    Weighs (fun a => shareOf activityShares (slotName activityShares queue a)) queue := by
  intro e he
  apply h.shareOf_pos
  rw [slotName_eq he]
  split
  · exact h.default
  · rename_i hdefault
    simp only [isDefault, Bool.or_eq_true, not_or, Bool.not_eq_true, Option.isNone_eq_false_iff] at hdefault
    exact hdefault.1

theorem Slots.start_sound (h : SharesPositive activityShares) (hqueue : Ordered queue) :
    (Slots.start activityShares queue).Sound (slotName activityShares queue) (shareOf activityShares) queue where
  ordered := hqueue
  orderedAssigned := List.Pairwise.nil
  weighs := h.weighs queue
  total := by simp [start]
  conserved k := by simp [start]

/-- The shares of the configured activities. -/
def namedShares (activityShares : List (String × Rat)) (queue : List (String × Int)) : List Rat :=
  ((queue.map (·.1)).filter fun a => !isDefault activityShares a).map (shareOf activityShares)

theorem SharesPositive.namedShares_pos (h : SharesPositive activityShares) (queue : List (String × Int)) :
    ∀ x ∈ namedShares activityShares queue, 0 < x := by
  intro x hx
  obtain ⟨a, ha, rfl⟩ := List.mem_map.mp hx
  have hconfigured := (List.mem_filter.mp ha).2
  simp only [isDefault, Bool.not_eq_true', Bool.or_eq_false_iff, Option.isNone_eq_false_iff] at hconfigured
  exact h.shareOf_pos hconfigured.1

theorem Slots.start_sum_pos (h : SharesPositive activityShares) (hqueue : queue ≠ []) :
    0 < (Slots.start activityShares queue).sum := by
  have hdefault := h.shareOf_pos h.default
  have hnamed := h.namedShares_pos queue
  unfold namedShares at hnamed
  have hnonneg := List.sum_nonneg fun x hx => (hnamed x hx).le
  rw [start]
  cases hnames : defaultActivities activityShares queue with
  | cons a names =>
      simp only [List.isEmpty_cons, Bool.false_eq_true, if_false]
      linarith
  | nil =>
      obtain ⟨e, he⟩ := List.exists_mem_of_ne_nil _ hqueue
      have hconfigured : isDefault activityShares e.1 = false := by
        rw [defaultActivities, List.filter_eq_nil_iff] at hnames
        simpa using hnames e.1 (List.mem_map_of_mem he)
      have hmem : shareOf activityShares e.1 ∈
          ((queue.map (·.1)).filter fun a => !isDefault activityShares a).map (shareOf activityShares) :=
        List.mem_map_of_mem (List.mem_filter.mpr ⟨List.mem_map_of_mem he, by simp [hconfigured]⟩)
      have hle := List.single_le_sum (fun x hx => (hnamed x hx).le) _ hmem
      have hpos := hnamed _ hmem
      simp only [List.isEmpty_nil, if_true, add_zero]
      linarith

/-- The activity can get the first slot: it has files, and its interval begins below 1. -/
def CanBeFirst (activityShares : List (String × Rat)) (queue : List (String × Int)) (activity : String) : Prop :=
  ∃ pre n post, queue = pre ++ (activity, n) :: post ∧ 0 < n ∧
    weightLeft (fun a => shareOf activityShares (slotName activityShares queue a)) pre <
      (Slots.start activityShares queue).sum

/-- Where no activity waits that falls to default, the shares of those that wait come to no more than those of the configured
activities. -/
theorem weightLeft_le_namedShares (h : SharesPositive activityShares) {l : List (String × Int)} (hsub : l ⊆ queue)
    (hnone : ∀ e ∈ l, ¬(0 < e.2 ∧ isDefault activityShares e.1 = true)) :
    weightLeft (fun a => shareOf activityShares (slotName activityShares queue a)) l ≤
      (namedShares activityShares l).sum := by
  induction l with
  | nil => simp [weightLeft, namedShares]
  | cons e l ih =>
      have htail := ih (fun e he => hsub (.tail _ he)) fun e he => hnone e (.tail _ he)
      have hhead := h.namedShares_pos [e]
      have hnot := hnone e (.head _)
      rw [weightLeft_cons, slotName_eq (hsub (.head _))]
      cases hdefault : isDefault activityShares e.1 with
      | true =>
          have hwaits : ¬0 < e.2 := fun hwaits => hnot ⟨hwaits, hdefault⟩
          simpa [namedShares, hdefault, hwaits] using htail
      | false =>
          simp only [namedShares, List.map_cons, List.map_nil, List.filter_cons, hdefault, Bool.not_false, if_true,
            List.filter_nil, List.mem_singleton, forall_eq, List.sum_cons] at hhead htail ⊢
          simp only [Bool.false_eq_true, if_false]
          split <;> linarith

/-- The first activity with files that falls to default can get the first slot. -/
theorem exists_default_canBeFirst (h : SharesPositive activityShares)
    (hwaits : ∃ e ∈ queue, 0 < e.2 ∧ isDefault activityShares e.1 = true) :
    ∃ activity, CanBeFirst activityShares queue activity ∧ slotName activityShares queue activity = "default" := by
  have hsome : (queue.find? fun e => 0 < e.2 && isDefault activityShares e.1).isSome := by
    obtain ⟨e, he, hn, hdefault⟩ := hwaits
    exact List.find?_isSome.mpr ⟨e, he, by simp [hn, hdefault]⟩
  obtain ⟨e, he⟩ := Option.isSome_iff_exists.mp hsome
  obtain ⟨hfirst, pre, post, rfl, hpre⟩ := List.find?_eq_some_iff_append.mp he
  simp only [Bool.and_eq_true, decide_eq_true_eq] at hfirst
  have hsub : pre ⊆ pre ++ e :: post := List.subset_append_left _ _
  have hle := weightLeft_le_namedShares h hsub fun e he hboth => by
    have hnot := hpre e he
    simp [hboth.1, hboth.2] at hnot
  have hrest := List.sum_nonneg fun x hx => (h.namedShares_pos (e :: post) x hx).le
  have hdefault := h.shareOf_pos h.default
  have hnames : (defaultActivities activityShares (pre ++ e :: post)).isEmpty = false := by
    rw [List.isEmpty_eq_false_iff_exists_mem]
    exact ⟨e.1, List.mem_filter.mpr ⟨by simp, hfirst.2⟩⟩
  refine ⟨e.1, ⟨pre, e.2, post, rfl, hfirst.1, hle.trans_lt ?_⟩, ?_⟩
  · have happend : namedShares activityShares (pre ++ e :: post) =
        namedShares activityShares pre ++ namedShares activityShares (e :: post) := by
      simp only [namedShares, List.map_append, List.filter_append]
    have hsum : (Slots.start activityShares (pre ++ e :: post)).sum =
        (namedShares activityShares (pre ++ e :: post)).sum + shareOf activityShares "default" := by
      rw [Slots.start, hnames]
      rfl
    rw [hsum, happend, List.sum_append]
    linarith
  · rw [slotName_eq (by simp), if_pos hfirst.2]

theorem filesLeftOf_default : filesLeftOf (slotName activityShares queue) "default" queue =
    ((queue.filter fun e => isDefault activityShares e.1).map fun e => e.2.toNat).sum := by
  have hname : ∀ e ∈ queue, slotName activityShares queue e.1 = "default" ↔ isDefault activityShares e.1 = true := by
    intro e he
    rw [slotName_eq he]
    split
    · simp_all
    · rename_i hdefault
      refine iff_of_false (fun h => ?_) hdefault
      simp [isDefault, h] at hdefault
  have hsum : filesLeftOf (slotName activityShares queue) "default" queue =
      (queue.map fun e => if isDefault activityShares e.1 = true then e.2.toNat else 0).sum := by
    rw [filesLeftOf]
    congr 1
    apply List.map_congr_left
    intro e he
    simp only [hname e he]
  rw [hsum, List.sum_map_ite]
  simp

/-- A slot of `default` is for a file of an activity that falls to it. -/
theorem exists_default_of_assigned (h : SharesPositive activityShares) (hqueue : Ordered queue) {dice : List Rat} {k : Nat}
    (hmem : ("default", k) ∈ assignSlots activityShares queue dice) (hk : 0 < k) :
    ∃ e ∈ queue, 0 < e.2 ∧ isDefault activityShares e.1 = true := by
  have hsound := (Slots.start_sound h hqueue).run dice
  have hconserved := hsound.conserved "default"
  have hlookup : (assignSlots activityShares queue dice).lookup "default" = some k := hsound.orderedAssigned.lookup_of_mem hmem
  rw [← assignSlots, hlookup, Option.getD_some] at hconserved
  have hpos : 0 < ((queue.filter fun e => isDefault activityShares e.1).map fun e => e.2.toNat).sum := by
    rw [← filesLeftOf_default]
    omega
  by_contra hnone
  have hzero : ((queue.filter fun e => isDefault activityShares e.1).map fun e => e.2.toNat).sum = 0 := by
    rw [List.sum_eq_zero]
    intro n hn
    obtain ⟨e, he, rfl⟩ := List.mem_map.mp hn
    obtain ⟨hmem, hdefault⟩ := List.mem_filter.mp he
    by_contra hne
    exact hnone ⟨e, hmem, by omega, hdefault⟩
  omega

theorem assignSlots_cases (hqueue : Ordered queue) {dice : List Rat} (hdice : ∀ r ∈ dice, 0 ≤ r ∧ r < 1) :
    assignSlots activityShares queue dice = [] ∨ ∃ a k, CanBeFirst activityShares queue a ∧
      (slotName activityShares queue a, k) ∈ assignSlots activityShares queue dice ∧ 0 < k := by
  rcases run_cases (slotName activityShares queue) (shareOf activityShares) (s := Slots.start activityShares queue)
    hqueue hdice with hsame | ⟨pre, post, a, n, hinQueue, hn, hlt, hpos⟩
  · rw [assignSlots, hsame]
    exact .inl rfl
  · refine .inr ⟨a, _, ⟨pre, n, post, hinQueue, hn, hlt⟩, ?_, hpos⟩
    rw [← assignSlots] at hpos ⊢
    cases hlookup : (assignSlots activityShares queue dice).lookup (slotName activityShares queue a) with
    | none => simp [hlookup] at hpos
    | some k => exact mem_of_lookup hlookup

theorem CanBeFirst.exists_dice {a : String} (h : CanBeFirst activityShares queue a)
    (hshares : SharesPositive activityShares) (hqueue : Ordered queue) :
    ∃ r, (0 < r ∧ r < 1) ∧ assignSlots activityShares queue [r] = [(slotName activityShares queue a, 1)] := by
  obtain ⟨pre, n, post, hinQueue, hn, hlt⟩ := h
  have hsum : 0 < (Slots.start activityShares queue).sum := Slots.start_sum_pos hshares (by simp [hinQueue])
  obtain ⟨r, hr, hgives⟩ := exists_dice_of_interval (Slots.start_sound hshares hqueue) hsum hinQueue hn hlt
  refine ⟨r, hr, ?_⟩
  rw [assignSlots, Slots.run, List.foldl_cons, List.foldl_nil, hgives.assigned]
  rfl

/-- By how much the shares of the activities with files exceed the sum that they are divided by: `default` counts for
each activity that falls to it, and an activity without files does not count. -/
def surplus (activityShares : List (String × Rat)) (queue : List (String × Int)) : Rat :=
  (((queue.filter fun e => 0 < e.2 && isDefault activityShares e.1).length : Rat) -
      if (defaultActivities activityShares queue).isEmpty then 0 else 1) * shareOf activityShares "default" -
    ((queue.filter fun e => e.2 ≤ 0 && !isDefault activityShares e.1).map fun e => shareOf activityShares e.1).sum

theorem Slots.start_surplus : (Slots.start activityShares queue).surplus (slotName activityShares queue)
    (shareOf activityShares) = MySql.surplus activityShares queue := by
  have hweights : ∀ queue' ⊆ queue,
      weightLeft (fun a => shareOf activityShares (slotName activityShares queue a)) queue' =
        (((queue'.map (·.1)).filter fun a => !isDefault activityShares a).map (shareOf activityShares)).sum +
          ((queue'.filter fun e => 0 < e.2 && isDefault activityShares e.1).length : Rat) * shareOf activityShares "default" -
          ((queue'.filter fun e => e.2 ≤ 0 && !isDefault activityShares e.1).map
            fun e => shareOf activityShares e.1).sum := by
    intro queue'
    induction queue' with
    | nil => simp [weightLeft]
    | cons e queue' ih =>
        intro hsub
        rw [weightLeft_cons, ih fun e he => hsub (.tail _ he), slotName_eq (hsub (.head _))]
        by_cases hn : 0 < e.2
        · cases hdefault : isDefault activityShares e.1 with
          | true =>
              simp [hn, hdefault]
              ring
          | false =>
              simp [hn, hdefault]
              ring
        · have hle : e.2 ≤ 0 := not_lt.mp hn
          cases hdefault : isDefault activityShares e.1 with
          | true => simp [hn, hle, hdefault]
          | false =>
              simp [hn, hle, hdefault]
              ring
  rw [Slots.surplus, MySql.surplus]
  simp only [start]
  rw [hweights queue fun _ h => h]
  split <;> ring

/-- Every slot goes to a file while there are files, and no activity has more slots than files. -/
structure LosesNoSlot (activityShares : List (String × Rat)) (queue : List (String × Int)) (filesNum : Nat)
    (assigned : List (String × Nat)) : Prop where
  total : (assigned.map (·.2)).sum = min filesNum (filesLeft queue)
  configured : ∀ activity, isDefault activityShares activity = false →
    (assigned.lookup activity).getD 0 ≤ ((queue.lookup activity).getD 0).toNat
  default : (assigned.lookup "default").getD 0 ≤
    ((queue.filter fun e => isDefault activityShares e.1).map fun e => e.2.toNat).sum

theorem filesLeftOf_configured {activity : String} (hactivity : isDefault activityShares activity = false)
    (hqueue : Ordered queue) :
    filesLeftOf (slotName activityShares queue) activity queue = ((queue.lookup activity).getD 0).toNat := by
  have hne : activity ≠ "default" := by
    rintro rfl
    simp [isDefault] at hactivity
  have hname : ∀ e ∈ queue, slotName activityShares queue e.1 = activity ↔ e.1 = activity := by
    intro e he
    rw [slotName_eq he]
    split
    · rename_i hdefault
      constructor
      · exact fun h => absurd h.symm hne
      · rintro rfl
        simp [hactivity] at hdefault
    · exact Iff.rfl
  have hsum : filesLeftOf (slotName activityShares queue) activity queue =
      (queue.map fun e => if e.1 = activity then e.2.toNat else 0).sum := by
    rw [filesLeftOf]
    congr 1
    apply List.map_congr_left
    intro e he
    simp only [hname e he]
  rw [hsum]
  clear hsum hname
  induction queue with
  | nil => simp
  | cons e queue ih =>
      obtain ⟨hhead, htail⟩ := List.pairwise_cons.mp hqueue
      rw [List.map_cons, List.sum_cons, ih htail, lookup_cons_eq]
      by_cases h : e.1 = activity
      · have hnone : queue.lookup activity = none := by
          rw [List.lookup_eq_none_iff]
          intro e' he'
          simpa [← h] using (hhead e' he').ne
        simp [h, hnone]
      · simp [h, Ne.symm h]

theorem assignSlots_losesNoSlot_iff (h : SharesPositive activityShares) (hqueue : Ordered queue) (dice : List Rat) :
    LosesNoSlot activityShares queue dice.length (assignSlots activityShares queue dice) ↔
      filesLeft ((Slots.start activityShares queue).run (slotName activityShares queue) (shareOf activityShares)
        dice).inQueue = filesLeft queue - dice.length := by
  have hsound := (Slots.start_sound h hqueue).run dice
  have htotal := hsound.total
  constructor
  · intro hloses
    have hassigned := hloses.total
    rw [assignSlots] at hassigned
    omega
  · intro hleft
    refine ⟨?_, fun activity hactivity => ?_, ?_⟩
    · rw [assignSlots]
      omega
    · have hconserved := hsound.conserved activity
      rw [filesLeftOf_configured hactivity hqueue] at hconserved
      rw [assignSlots]
      omega
    · have hconserved := hsound.conserved "default"
      rw [filesLeftOf_default] at hconserved
      rw [assignSlots]
      omega

/-- No slot is lost, whatever the dice, when no file waits, or the shares of the activities with files come to no less
than the sum, and to more than it by less than each of them. -/
theorem slots_never_lost_iff (activityShares : List (String × Rat)) (queue : List (String × Int))
    (hshares : SharesPositive activityShares) (hqueue : Ordered queue) :
    (∀ (filesNum : Nat) (dice : Nat → Rat), (∀ i < filesNum, 0 ≤ dice i ∧ dice i < 1) →
        LosesNoSlot activityShares queue filesNum
          (assignSlots activityShares queue ((List.range filesNum).map dice))) ↔
      filesLeft queue = 0 ∨ 0 ≤ surplus activityShares queue ∧ ∀ e ∈ queue, 0 < e.2 →
        surplus activityShares queue < shareOf activityShares (slotName activityShares queue e.1) := by
  have hstart := Slots.start_sound hshares hqueue
  constructor
  · intro hall
    have hsat : (Slots.start activityShares queue).Saturates (slotName activityShares queue)
        (shareOf activityShares) := by
      intro dice hdice
      have hloses := hall dice.length (fun i => dice.getD i 0) (by
        intro i hi
        simpa [hi] using hdice _ (List.getElem_mem hi))
      have hmap : (List.range dice.length).map (fun i => dice.getD i 0) = dice := by
        apply List.ext_getElem
        · simp
        · intro i h₁ h₂
          simp [h₂]
      rw [hmap] at hloses
      exact (assignSlots_losesNoSlot_iff hshares hqueue dice).mp hloses
    by_cases hempty : filesLeft queue = 0
    · exact .inl hempty
    · have hcovers := hsat.covers hstart (Nat.pos_of_ne_zero hempty)
      rw [Slots.Covers, Slots.start_surplus] at hcovers
      exact .inr hcovers
  · intro hcond filesNum dice hdice
    have hcovers : filesLeft queue = 0 ∨ (Slots.start activityShares queue).Covers (slotName activityShares queue)
        (shareOf activityShares) := by
      rw [Slots.Covers, Slots.start_surplus]
      exact hcond
    have hsat := Slots.Covers.saturates hstart hcovers
    have hiff := assignSlots_losesNoSlot_iff hshares hqueue ((List.range filesNum).map dice)
    rw [List.length_map, List.length_range] at hiff
    rw [hiff]
    have hrun := hsat ((List.range filesNum).map dice) (by simpa using hdice)
    rw [List.length_map, List.length_range] at hrun
    exact hrun

/-- When there are files for every activity in the queue, at most one of them may fall to `default`. -/
theorem covered_iff_of_waiting (hshares : SharesPositive activityShares) (hwaits : ∀ e ∈ queue, 0 < e.2) :
    (filesLeft queue = 0 ∨ 0 ≤ surplus activityShares queue ∧ ∀ e ∈ queue, 0 < e.2 →
        surplus activityShares queue < shareOf activityShares (slotName activityShares queue e.1)) ↔
      (defaultActivities activityShares queue).length ≤ 1 := by
  have hdefault := hshares.shareOf_pos hshares.default
  have hempty : (queue.filter fun e => e.2 ≤ 0 && !isDefault activityShares e.1) = [] := by
    rw [List.filter_eq_nil_iff]
    intro e he
    simp [(hwaits e he).not_ge]
  have hlength : (queue.filter fun e => 0 < e.2 && isDefault activityShares e.1).length =
      (defaultActivities activityShares queue).length := by
    rw [defaultActivities, List.filter_map, List.length_map]
    congr 1
    apply List.filter_congr
    intro e he
    simp [hwaits e he]
  rw [surplus, hempty, hlength]
  cases hnames : defaultActivities activityShares queue with
  | nil =>
      simp only [List.length_nil, List.isEmpty_nil, List.map_nil, List.sum_nil, Nat.cast_zero, if_true, sub_zero, zero_mul,
        le_refl, true_and, zero_le, iff_true]
      exact .inr fun e he _ => hshares.weighs queue e he
  | cons a names =>
      simp only [List.length_cons, List.isEmpty_cons, List.map_nil, List.sum_nil, Bool.false_eq_true, if_false, sub_zero,
        Nat.cast_add, Nat.cast_one, add_sub_cancel_right]
      constructor
      · intro hcond
        obtain ⟨hmem, hisDefault⟩ := List.mem_filter.mp (show a ∈ defaultActivities activityShares queue by simp [hnames])
        obtain ⟨e, he, rfl⟩ := List.mem_map.mp hmem
        have hleft : filesLeft queue ≠ 0 := (filesLeft_pos_iff.mpr ⟨e, he, hwaits e he⟩).ne'
        have hlt := (hcond.resolve_left hleft).2 e he (hwaits e he)
        rw [slotName_eq he, if_pos hisDefault] at hlt
        have hone : (names.length : Rat) < 1 := by
          by_contra hge
          have hmul := mul_le_mul_of_nonneg_right (not_lt.mp hge) hdefault.le
          linarith
        have hnat : names.length < 1 := by exact_mod_cast hone
        omega
      · intro hle
        have hzero : names.length = 0 := by omega
        rw [hzero, Nat.cast_zero, zero_mul]
        exact .inr ⟨le_rfl, fun e he _ => hshares.weighs queue e he⟩

theorem slots_never_lost_oneDefault :
    LosesNoSlot [("default", 1), ("prod", 2)] [("prod", 2), ("test", 1)] 3
      (assignSlots [("default", 1), ("prod", 2)] [("prod", 2), ("test", 1)] [0, 1/2, 1/4]) :=
  (slots_never_lost_iff [("default", 1), ("prod", 2)] [("prod", 2), ("test", 1)]
      ⟨by decide, by decide⟩ (by decide +kernel)).mpr (by decide +kernel) 3
    (fun i => if i = 0 then 0 else if i = 1 then 1/2 else 1/4) (by decide +kernel)

/-- Two activities fall to `default`, and the second slot is not assigned. -/
theorem slots_lost_twoDefaults :
    SharesPositive [("default", 1)] ∧ Ordered [("a", (1 : Int)), ("b", 1)] ∧
      ¬LosesNoSlot [("default", 1)] [("a", 1), ("b", 1)] 2 (assignSlots [("default", 1)] [("a", 1), ("b", 1)] [0, 0]) := by
  refine ⟨⟨by decide, by decide⟩, by decide +kernel, fun h => ?_⟩
  have htotal := h.total
  revert htotal
  decide +kernel

end shares

end Fts3.MySql
