import Fts3.Optimizer.Decisions

/-!
# The direction of a decision

Which way a decision may go from the previous value, where no throughput limit is exceeded. How two averages are
compared on the logarithmic scale is a parameter of the configuration.
-/

namespace Fts3.Optimizer

open Fts3.MySql

/-! ## What is asked for -/

section asked

variable {cfg : Config}

theorem optimizeLowSuccessRate_le (hdecrease : 0 ≤ cfg.decreaseStepSize) (current previous : PairState)
    (previousValue : Int) : (optimizeLowSuccessRate cfg current previous previousValue).1 ≤ previousValue := by
  unfold optimizeLowSuccessRate
  split
  · exact Int.le_refl _
  · split <;> simp only <;> omega

theorem optimizeGoodSuccessRate_emptying {current previous : PairState} {previousValue decreaseStepSize increaseStepSize : Int}
    (h : current.queueSize < previousValue) :
    (optimizeGoodSuccessRate cfg current previous previousValue decreaseStepSize increaseStepSize).1 = previousValue := by
  unfold optimizeGoodSuccessRate
  rw [if_pos h]

theorem optimizeGoodSuccessRate_le {current previous : PairState} {previousValue decreaseStepSize increaseStepSize : Int}
    (hdecrease : 0 ≤ decreaseStepSize) (hincrease : 0 ≤ increaseStepSize) :
    (optimizeGoodSuccessRate cfg current previous previousValue decreaseStepSize increaseStepSize).1 ≤
      previousValue + increaseStepSize := by
  unfold optimizeGoodSuccessRate
  split
  · simp only
    omega
  · split
    · split
      · exact Int.le_refl _
      · split <;> simp only <;> omega
    · split <;> exact Int.le_refl _

variable (optMode : OptimizerMode) (current previous : PairState) (previousValue : Int)

/-- With a low success rate it is never more. -/
theorem optimize_low (hdecrease : 0 ≤ cfg.decreaseStepSize) (h : current.successRate < cfg.lowSuccessRate) :
    (optimize cfg optMode current previous previousValue).1 ≤ previousValue := by
  rw [optimize, if_pos h]
  exact optimizeLowSuccessRate_le hdecrease current previous previousValue

/-- Nor is it while the queue is emptying. -/
theorem optimize_emptying (h : ¬current.successRate < cfg.lowSuccessRate) (hqueue : current.queueSize < previousValue) :
    (optimize cfg optMode current previous previousValue).1 = previousValue := by
  rw [optimize, if_neg h]
  split
  · rfl
  · exact optimizeGoodSuccessRate_emptying hqueue

theorem optimize_le (hdecrease : 0 ≤ cfg.decreaseStepSize) (hincrease : 0 ≤ cfg.localIncreaseStep optMode) :
    (optimize cfg optMode current previous previousValue).1 ≤ previousValue + cfg.localIncreaseStep optMode := by
  unfold optimize
  split
  · have hle := optimizeLowSuccessRate_le hdecrease current previous previousValue
    omega
  · split
    · simp only [optimizeNotEnoughInformation]
      omega
    · exact optimizeGoodSuccessRate_le hdecrease hincrease

end asked

/-! ## What is decided -/

/-- The margins do not raise a decision above what it was, or the lower end of the range. -/
theorem applyMargins_le {range : Range} (h : range.min ≤ range.max) {decision : Int × String} {bound : Int}
    (hbound : decision.1 ≤ bound) : (applyMargins range decision).1 ≤ min range.max (max range.min bound) := by
  rw [applyMargins_fst]
  split
  · omega
  · split <;> omega

/-- What a decision is held to, from the previous value, the working range, the success rate and the queue. -/
structure GoesRight (cfg : Config) (c : Call) (decision : Int) : Prop where
  low : (currentState c.dataSource).successRate < cfg.lowSuccessRate → decision ≤ max c.previousValue c.range.min
  emptying : cfg.lowSuccessRate ≤ (currentState c.dataSource).successRate →
    (currentState c.dataSource).queueSize < c.previousValue → decision ≤ max c.previousValue c.range.min
  step : decision ≤ max c.previousValue
    (min c.range.max (max c.range.min (c.previousValue + cfg.localIncreaseStep c.dataSource.getOptimizerMode)))
  conservative : c.dataSource.getOptimizerMode = .conservative → c.previousValue < decision →
    decision ≤ (currentState c.dataSource).queueSize

section decided

variable {cfg : Config} {c : Call} {m : Memory}

/-- The previous value is stored again. -/
theorem goesRight_previous : GoesRight cfg c c.previousValue where
  low _ := by omega
  emptying _ _ := by omega
  step := by omega
  conservative _ h := absurd h (Int.lt_irrefl _)

theorem goesRight_margins (hdecrease : 0 ≤ cfg.decreaseStepSize)
    (hincrease : 0 ≤ cfg.localIncreaseStep c.dataSource.getOptimizerMode) (hrange : c.range.min < c.range.max)
    (hheld : c.heldBack cfg m = false) :
    GoesRight cfg c (applyMargins c.range
      (optimize cfg c.dataSource.getOptimizerMode (c.current cfg m) (c.previous m) c.previousValue)).1 where
  low h := by
    have hle := applyMargins_le hrange.le
      (optimize_low c.dataSource.getOptimizerMode (c.current cfg m) (c.previous m) c.previousValue hdecrease h)
    omega
  emptying h hqueue := by
    have heq : (optimize cfg c.dataSource.getOptimizerMode (c.current cfg m) (c.previous m) c.previousValue).1 =
        c.previousValue :=
      optimize_emptying c.dataSource.getOptimizerMode (c.current cfg m) (c.previous m) c.previousValue (not_lt.mpr h) hqueue
    have hle := applyMargins_le hrange.le heq.le
    omega
  step := by
    have hle := applyMargins_le hrange.le
      (optimize_le c.dataSource.getOptimizerMode (c.current cfg m) (c.previous m) c.previousValue hdecrease hincrease)
    omega
  conservative hmode hlt := by
    simp only [Call.heldBack, notEnoughFiles, hmode, Bool.or_eq_false_iff] at hheld
    rw [hmode] at hlt ⊢
    have hqueue : (currentState c.dataSource).queueSize = c.dataSource.getSubmitted := rfl
    rw [hqueue]
    simpa [hlt] using hheld.1

end decided

/-- Where no throughput limit is exceeded, the decision of every call that finds a previous value goes the right way:
not up with a low success rate or while the queue is emptying, by one increase at most, and in the conservative mode not
up to more than there are files. -/
theorem decision_goes_right (cfg : Config) (c : Call) (m : Memory) (hdecrease : 0 ≤ cfg.decreaseStepSize)
    (hincrease : 0 ≤ cfg.increaseStepSize) (haggressive : 0 ≤ cfg.increaseAggressiveStepSize)
    (hprevious : 0 < c.previousValue) (hrange : c.range.min < c.range.max)
    (hlimited : c.limited = false) :
    ∀ w ∈ (optimizeConnectionsForPair cfg c.dataSource.getOptimizerMode c.pair c.dataSource m).2.2, ∀ d ∈ w.decision?,
      GoesRight cfg c d := by
  have hstep : 0 ≤ cfg.localIncreaseStep c.dataSource.getOptimizerMode := by
    unfold Config.localIncreaseStep
    split
    · exact haggressive
    · exact hincrease
  have hdecided : (c.decided cfg m).map (·.decision) = _ := Call.decided_of_not_limited hrange.ne hlimited
  rw [optimizeConnections_of_ne hprevious.ne']
  cases hd : c.decided cfg m with
  | none => simp
  | some decision =>
      rw [hd, Option.map_some] at hdecided
      cases hskips : c.skips cfg m with
      | true => simp [hskips] at hdecided
      | false =>
          simp only [hskips, Bool.false_eq_true, if_false, Option.some.injEq] at hdecided
          simp only [setOptimizerDecision, List.forall_mem_cons, List.not_mem_nil, false_implies, implies_true,
            and_true, Write.decision?, Option.mem_def, Option.some.injEq, forall_eq']
          rw [hdecided]
          cases hheld : c.heldBack cfg m with
          | true => exact goesRight_previous
          | false => exact goesRight_margins hdecrease hstep hrange hheld

/-- Two connections become four. -/
theorem decision_of_sample_goes_right :
    ((optimizeConnectionsForPair plainConfig .normal (sampleCall 2 0).pair (sampleCall 2 0).dataSource
      fun _ => none).2.2.filterMap Write.decision?) = [4] ∧
    ∀ w ∈ (optimizeConnectionsForPair plainConfig .normal (sampleCall 2 0).pair (sampleCall 2 0).dataSource
      fun _ => none).2.2, ∀ d ∈ w.decision?, GoesRight plainConfig (sampleCall 2 0) d :=
  ⟨by decide +kernel, decision_goes_right plainConfig (sampleCall 2 0) (fun _ => none) (by decide) (by decide) (by decide)
    (by decide +kernel) (by decide +kernel) (by decide +kernel)⟩

end Fts3.Optimizer
