import Fts3.Optimizer.Algorithm

/-!
# The working range

The limits of a link come from `t_link_config`, and where it leaves them open from the defaults and from `t_se`. The
lower one is filled in without a look at the upper one, so a configured upper limit may be below it.
-/

namespace Fts3.Optimizer

open Fts3.Sql Fts3.MySql

/-- What the assertion at the end of `getOptimizerWorkingRange` says. -/
def Valid (range : Range) : Prop := 0 < range.min ∧ range.min ≤ range.max

instance (range : Range) : Decidable (Valid range) :=
  inferInstanceAs (Decidable (0 < range.min ∧ range.min ≤ range.max))

/-- The lower limit, or the default where it is not set. -/
def lowerLimit (pair : Pair) (min : Int) : Int :=
  if min ≤ 0 then defaultMin pair else min

/-- The row of the link leaves one limit open, sets no upper one, or sets one that is not below the lower. -/
def LimitsInOrder (pair : Pair) (db : Db) : Prop :=
  ∀ row ∈ db.linkConfig? pair, ∀ min ∈ row.2.minActive, ∀ max ∈ row.2.maxActive, 0 < max → lowerLimit pair min ≤ max

section range

variable {pair : Pair} {answer : Range × StorageLimits}

theorem defaultMin_pos (pair : Pair) : 0 < defaultMin pair := by
  unfold defaultMin
  split <;> decide

theorem lowerLimit_pos (pair : Pair) (min : Int) : 0 < lowerLimit pair min := by
  unfold lowerLimit
  split
  · exact defaultMin_pos pair
  · omega

theorem workingRange_min (pair : Pair) (answer : Range × StorageLimits) :
    (getOptimizerWorkingRange pair answer).1.min = lowerLimit pair answer.1.min := by
  obtain ⟨range, limits⟩ := answer
  by_cases hmax : 0 < range.max <;> simp [getOptimizerWorkingRange, lowerLimit, hmax]

theorem workingRange_max_of_pos (h : 0 < answer.1.max) :
    (getOptimizerWorkingRange pair answer).1.max = answer.1.max := by
  obtain ⟨range, limits⟩ := answer
  simp only at h
  simp [getOptimizerWorkingRange, h]

/-- An upper limit that the storages give is raised to the lower limit. -/
theorem workingRange_le_of_not_pos (h : ¬0 < answer.1.max) :
    (getOptimizerWorkingRange pair answer).1.min ≤ (getOptimizerWorkingRange pair answer).1.max := by
  obtain ⟨range, limits⟩ := answer
  simp only at h
  simp only [getOptimizerWorkingRange, h, if_false]
  split <;> split <;> omega

theorem workingRange_min_pos (pair : Pair) (answer : Range × StorageLimits) :
    0 < (getOptimizerWorkingRange pair answer).1.min := by
  rw [workingRange_min]
  exact lowerLimit_pos pair answer.1.min

theorem valid_workingRange_iff : Valid (getOptimizerWorkingRange pair answer).1 ↔
    (0 < answer.1.max → lowerLimit pair answer.1.min ≤ answer.1.max) := by
  constructor
  · rintro ⟨-, hle⟩ hmax
    rwa [workingRange_min, workingRange_max_of_pos hmax] at hle
  · intro h
    refine ⟨workingRange_min_pos pair answer, ?_⟩
    by_cases hmax : 0 < answer.1.max
    · rw [workingRange_min, workingRange_max_of_pos hmax]
      exact h hmax
    · exact workingRange_le_of_not_pos hmax

end range

theorem getPairLimits_range (pair : Pair) (db : Db) :
    ((getPairLimits pair).answer Stmt.exec db).1 = db.linkRange pair := rfl

theorem linkRange_in_order_iff (pair : Pair) (db : Db) :
    (0 < (db.linkRange pair).max → lowerLimit pair (db.linkRange pair).min ≤ (db.linkRange pair).max) ↔
      LimitsInOrder pair db := by
  unfold Db.linkRange LimitsInOrder
  cases db.linkConfig? pair with
  | none => simp
  | some row =>
      obtain ⟨configured, row⟩ := row
      cases hmin : row.minActive with
      | none => simp [hmin]
      | some min =>
          cases hmax : row.maxActive with
          | none => simp [hmin, hmax]
          | some max => simp [hmin, hmax]

/-- The assertion holds where the row of the link has its limits in order. -/
theorem working_range_valid_iff (pair : Pair) (db : Db) :
    Valid (getOptimizerWorkingRange pair ((getPairLimits pair).answer Stmt.exec db)).1 ↔ LimitsInOrder pair db := by
  rw [valid_workingRange_iff, getPairLimits_range]
  exact linkRange_in_order_iff pair db

/-- Two storages of one site, with an upper limit below the default for a local network. -/
def lanPair : Pair := ⟨"srm://a.example", "srm://b.example"⟩

def lanDb : Db where
  linkConfig := [{ sourceSe := "srm://a.example", destSe := "*", minActive := some 0, maxActive := some 5 }]
  se := [{ storage := "*", inboundMaxActive := some 200, outboundMaxActive := some 200 }]

theorem working_range_upside_down :
    (getOptimizerWorkingRange lanPair ((getPairLimits lanPair).answer Stmt.exec lanDb)).1 =
      { min := 10, max := 5, specific := true } ∧
    ¬Valid (getOptimizerWorkingRange lanPair ((getPairLimits lanPair).answer Stmt.exec lanDb)).1 := by
  decide +kernel

end Fts3.Optimizer
