import Fts3.Optimizer.Streams
import Fts3.Optimizer.WorkingRange

/-!
# Decisions within the working range

Of the five places where `optimizeConnectionsForPair` stores a decision one applies the margins, and two corrections come
after it. The decrease for a throughput limit is stored as it is, and the corrections go back to the previous value, which
may be below the range by now.
-/

namespace Fts3.Optimizer

open Fts3.MySql Fts3.Machine

def Write.decision? : Write → Option Int
  | .storeOptimizerDecision _ activeDecision _ _ _ => some activeDecision
  | .storeOptimizerStreams _ _ => none

def InRange (range : Range) (decision : Int) : Prop :=
  range.min ≤ decision ∧ decision ≤ range.max ∧ 1 ≤ decision

instance (range : Range) (decision : Int) : Decidable (InRange range decision) :=
  inferInstanceAs (Decidable (range.min ≤ decision ∧ decision ≤ range.max ∧ 1 ≤ decision))

/-- Every decision that the call stores is in the working range of the call. -/
def StoresInRange (cfg : Config) (o : State) (c : Call) : Prop :=
  ∀ w ∈ (runOptimizerForPair cfg c.pair c.dataSource o.inMemoryStore).2, ∀ d ∈ w.decision?, InRange c.range d

instance (cfg : Config) (o : State) (c : Call) : Decidable (StoresInRange cfg o c) :=
  inferInstanceAs (Decidable (∀ w ∈ (runOptimizerForPair cfg c.pair c.dataSource o.inMemoryStore).2, _))

/-- Success rate and throughput are good enough for more connections. -/
def Call.PushesForward (c : Call) (cfg : Config) (m : Memory) : Prop :=
  cfg.lowSuccessRate ≤ (c.current cfg m).successRate ∧ (c.current cfg m).ema ≠ 0 ∧
    c.previousValue ≤ c.dataSource.getSubmitted ∧
    ((c.current cfg m).ema < (c.previous m).ema →
      cfg.lowerMagnitude (c.current cfg m).filesizeAvg (c.previous m).filesizeAvg = true)

/-- The success rate is low and not improving, or the throughput has lost an order of magnitude. -/
def Call.StepsBack (c : Call) (cfg : Config) (m : Memory) : Prop :=
  (c.current cfg m).successRate < cfg.lowSuccessRate ∧
      ¬ ((c.previous m).successRate < (c.current cfg m).successRate ∧
        cfg.baseSuccessRate ≤ (c.current cfg m).successRate ∧ (c.current cfg m).retryCount ≤ (c.previous m).retryCount) ∨
    cfg.lowSuccessRate ≤ (c.current cfg m).successRate ∧ (c.current cfg m).ema ≠ 0 ∧
      c.previousValue ≤ c.dataSource.getSubmitted ∧ (c.current cfg m).ema < (c.previous m).ema ∧
      cfg.lowerMagnitude (c.current cfg m).filesizeAvg (c.previous m).filesizeAvg = false ∧
      cfg.lowerMagnitude (c.current cfg m).ema (c.previous m).ema = true

instance (c : Call) (cfg : Config) (m : Memory) : Decidable (c.PushesForward cfg m) := by
  unfold Call.PushesForward
  infer_instance

instance (c : Call) (cfg : Config) (m : Memory) : Decidable (c.StepsBack cfg m) := by
  unfold Call.StepsBack
  infer_instance

/-- There are files for so many connections, where the mode counts them. -/
def Call.EnoughFor (c : Call) (cfg : Config) (connections : Int) : Prop :=
  (c.dataSource.getOptimizerMode = .conservative → connections ≤ c.dataSource.getSubmitted) ∧
    (OptimizerMode.normal ≤ c.dataSource.getOptimizerMode →
      connections ≤ c.dataSource.getSubmitted * cfg.maxNumberOfStreams)

/-- There are files for the lower end of the range, and for what is asked for above it. -/
def Call.EnoughFiles (c : Call) (cfg : Config) (m : Memory) : Prop :=
  c.EnoughFor cfg c.range.min ∧
    (c.PushesForward cfg m →
      c.EnoughFor cfg (min c.range.max (c.previousValue + cfg.localIncreaseStep c.dataSource.getOptimizerMode))) ∧
    (c.StepsBack cfg m → c.EnoughFor cfg (min c.range.max (c.previousValue - cfg.decreaseStepSize)))

/-- The working range is one, a decrease for a throughput limit stays in it, and a previous value below it is not stored
again for want of files. -/
def KeepsToRange (cfg : Config) (o : State) (c : Call) : Prop :=
  if c.previousValue = 0 ∨ c.range.min = c.range.max then c.range.min ≤ c.range.max
  else if c.limited then
    c.range.min ≤ c.previousValue - cfg.decreaseStepSize ∧ c.previousValue - cfg.decreaseStepSize ≤ c.range.max
  else c.skips cfg o.inMemoryStore = true ∨
    c.range.min ≤ c.range.max ∧ (c.range.min ≤ c.previousValue ∨ c.EnoughFiles cfg o.inMemoryStore)

section margins

variable {range : Range}

theorem applyMargins_fst (range : Range) (decision : Int × String) : (applyMargins range decision).1 =
    if decision.1 < range.min then range.min else if range.max < decision.1 then range.max else decision.1 := by
  simp only [applyMargins, apply_ite Prod.fst]

theorem applyMargins_mem (h : range.min ≤ range.max) (decision : Int × String) :
    range.min ≤ (applyMargins range decision).1 ∧ (applyMargins range decision).1 ≤ range.max := by
  rw [applyMargins_fst]
  split
  · exact ⟨Int.le_refl _, h⟩
  · split
    · exact ⟨h, Int.le_refl _⟩
    · exact ⟨by omega, by omega⟩

theorem noInformation_mem (h : range.min ≤ range.max) :
    range.min ≤ (noInformation range).1 ∧ (noInformation range).1 ≤ range.max := by
  unfold noInformation
  split
  · exact ⟨h, Int.le_refl _⟩
  · have hhalf : 0 ≤ (range.max - range.min).tdiv 2 ∧ (range.max - range.min).tdiv 2 ≤ range.max - range.min := by
      rw [Int.tdiv_eq_ediv_of_nonneg (by omega)]
      omega
    constructor <;> omega

theorem applyQueue_fst (cfg : Config) (optMode : OptimizerMode) (queueSize previousValue : Int) (decision : Int × String) :
    (applyQueue cfg optMode queueSize previousValue decision).1 =
      if notEnoughFiles optMode queueSize previousValue decision.1 ||
        tooManyStreams cfg optMode queueSize previousValue decision.1 then previousValue else decision.1 := by
  unfold applyQueue
  cases notEnoughFiles optMode queueSize previousValue decision.1 with
  | true => rfl
  | false =>
      cases tooManyStreams cfg optMode queueSize previousValue decision.1 with
      | true => rfl
      | false => rfl

end margins

section call

variable {cfg : Config} {c : Call} {m : Memory}

theorem Call.range_min_pos (c : Call) : 0 < c.range.min :=
  workingRange_min_pos c.pair c.dataSource.getPairLimits

theorem inRange_iff {d : Int} : InRange c.range d ↔ c.range.min ≤ d ∧ d ≤ c.range.max := by
  have hmin := c.range_min_pos
  unfold InRange
  omega

/-- What success rate and throughput ask for. -/
theorem Call.optimize_fst (c : Call) (cfg : Config) (m : Memory) :
    (optimize cfg c.dataSource.getOptimizerMode (c.current cfg m) (c.previous m) c.previousValue).1 =
      if c.PushesForward cfg m then c.previousValue + cfg.localIncreaseStep c.dataSource.getOptimizerMode
      else if c.StepsBack cfg m then c.previousValue - cfg.decreaseStepSize else c.previousValue := by
  have hqueue : (c.current cfg m).queueSize = c.dataSource.getSubmitted := rfl
  unfold optimize
  by_cases hlow : (c.current cfg m).successRate < cfg.lowSuccessRate
  · have hpushes : ¬ c.PushesForward cfg m := fun h => absurd hlow (not_lt.mpr h.1)
    rw [if_pos hlow, if_neg hpushes, optimizeLowSuccessRate]
    split
    · rename_i himproving
      have hback : ¬ c.StepsBack cfg m := by
        rintro (⟨-, hnot⟩ | ⟨hgood, -⟩)
        · exact hnot himproving
        · exact absurd hlow (not_lt.mpr hgood)
      rw [if_neg hback]
    · rename_i hnot
      have hback : c.StepsBack cfg m := .inl ⟨hlow, hnot⟩
      rw [if_pos hback]
      split <;> rfl
  · have hgood := not_lt.mp hlow
    rw [if_neg hlow]
    by_cases hema : (c.current cfg m).ema = 0
    · simp [Call.PushesForward, Call.StepsBack, hlow, hema, optimizeNotEnoughInformation]
    · rw [if_neg hema, optimizeGoodSuccessRate, hqueue]
      by_cases hempty : c.dataSource.getSubmitted < c.previousValue
      · simp [Call.PushesForward, Call.StepsBack, hlow, hempty, not_le.mpr hempty]
      · have hfull := not_lt.mp hempty
        rw [if_neg hempty]
        by_cases hworse : (c.current cfg m).ema < (c.previous m).ema
        · cases hsizes : cfg.lowerMagnitude (c.current cfg m).filesizeAvg (c.previous m).filesizeAvg with
          | true => simp [Call.PushesForward, hgood, hema, hfull, hworse, hsizes]
          | false =>
              cases hlower : cfg.lowerMagnitude (c.current cfg m).ema (c.previous m).ema <;>
                simp [Call.PushesForward, Call.StepsBack, hlow, hgood, hema, hfull, hworse, hsizes, hlower]
        · have hpushes : c.PushesForward cfg m := ⟨hgood, hema, hfull, fun h => absurd h hworse⟩
          rw [if_neg hworse, if_pos hpushes]
          split <;> rfl

/-- There are too few files for the new decision, and the previous value is stored again. -/
def Call.heldBack (c : Call) (cfg : Config) (m : Memory) : Bool :=
  let optMode := c.dataSource.getOptimizerMode
  let decision := applyMargins c.range (optimize cfg optMode (c.current cfg m) (c.previous m) c.previousValue)
  notEnoughFiles optMode c.dataSource.getSubmitted c.previousValue decision.1 ||
    tooManyStreams cfg optMode c.dataSource.getSubmitted c.previousValue decision.1

/-- The value that is stored again is below the decision, so it is in the range where it is not below it. -/
theorem Call.heldBack_lt (h : c.heldBack cfg m = true) : c.previousValue <
    (applyMargins c.range
      (optimize cfg c.dataSource.getOptimizerMode (c.current cfg m) (c.previous m) c.previousValue)).1 := by
  unfold Call.heldBack at h
  simp only [notEnoughFiles, tooManyStreams, Bool.or_eq_true, Bool.and_eq_true, decide_eq_true_eq] at h
  rcases h with h | h
  · exact h.1.2
  · exact h.1.2

theorem Call.PushesForward.not_stepsBack (h : c.PushesForward cfg m) : ¬ c.StepsBack cfg m := by
  obtain ⟨hgood, -, -, hsizes⟩ := h
  rintro (⟨hlow, -⟩ | ⟨-, -, -, hworse, hnot, -⟩)
  · exact absurd hlow (not_lt.mpr hgood)
  · rw [hsizes hworse] at hnot
    cases hnot

theorem Call.EnoughFor.mono {connections connections' : Int} (h : c.EnoughFor cfg connections')
    (hle : connections ≤ connections') : c.EnoughFor cfg connections :=
  ⟨fun hmode => hle.trans (h.1 hmode), fun hmode => hle.trans (h.2 hmode)⟩

theorem Call.enoughFor_max {connections connections' : Int} :
    c.EnoughFor cfg (max connections connections') ↔ c.EnoughFor cfg connections ∧ c.EnoughFor cfg connections' := by
  constructor
  · exact fun h => ⟨h.mono (le_max_left ..), h.mono (le_max_right ..)⟩
  · rintro ⟨h, h'⟩
    rcases max_choice connections connections' with hmax | hmax
    · rwa [hmax]
    · rwa [hmax]

/-- A previous value below the range is stored again for want of files. -/
theorem Call.heldBack_eq_false_iff (hvalid : c.range.min ≤ c.range.max) (hbelow : c.previousValue < c.range.min) :
    c.heldBack cfg m = false ↔ c.EnoughFiles cfg m := by
  have hmargins (decision : Int × String) : (applyMargins c.range decision).1 =
      max c.range.min (min c.range.max decision.1) := by
    rw [applyMargins_fst]
    split
    · omega
    · split <;> omega
  have hguards {decision : Int} (hlt : c.previousValue < decision) :
      (notEnoughFiles c.dataSource.getOptimizerMode c.dataSource.getSubmitted c.previousValue decision ||
        tooManyStreams cfg c.dataSource.getOptimizerMode c.dataSource.getSubmitted c.previousValue decision) = false ↔
      c.EnoughFor cfg decision := by
    simp [notEnoughFiles, tooManyStreams, Call.EnoughFor, hlt]
  have hlt (decision : Int) : c.previousValue < max c.range.min decision := lt_of_lt_of_le hbelow (le_max_left ..)
  rw [Call.heldBack]
  simp only [hmargins]
  rw [hguards (hlt _), enoughFor_max, c.optimize_fst, Call.EnoughFiles]
  refine and_congr_right fun hmin => ?_
  by_cases hpushes : c.PushesForward cfg m
  · simp [hpushes, hpushes.not_stepsBack]
  · by_cases hback : c.StepsBack cfg m
    · simp [hpushes, hback]
    · simp only [hpushes, hback, if_false, false_implies, and_self, iff_true]
      exact hmin.mono (by omega)

theorem Call.decided_of_range (h : c.range.min = c.range.max) :
    (c.decided cfg m).map (·.decision) = some c.range.min := by
  rw [Call.decided, decideConnections, if_pos h, Option.map_some]

theorem Call.decided_of_limited (h : c.range.min ≠ c.range.max) (hlimited : c.limited = true) :
    (c.decided cfg m).map (·.decision) = some (c.previousValue - cfg.decreaseStepSize) := by
  rw [Call.limited, Bool.or_eq_true] at hlimited
  rw [Call.decided, decideConnections, if_neg h]
  by_cases hsource : sourceLimited c.limits c.dataSource = true
  · rw [if_pos hsource, Option.map_some]
  · rw [if_neg hsource, if_pos (hlimited.resolve_left hsource), Option.map_some]

theorem Call.decided_of_not_limited (h : c.range.min ≠ c.range.max) (hlimited : c.limited = false) :
    (c.decided cfg m).map (·.decision) = if c.skips cfg m then none else
      some (if c.heldBack cfg m then c.previousValue else (applyMargins c.range
        (optimize cfg c.dataSource.getOptimizerMode (c.current cfg m) (c.previous m) c.previousValue)).1) := by
  rw [Call.limited, Bool.or_eq_false_iff] at hlimited
  rw [Call.decided, decideConnections, if_neg h, hlimited.1, hlimited.2, ← Call.skips]
  simp only [Bool.false_eq_true, if_false]
  cases c.skips cfg m with
  | true => rfl
  | false =>
      simp only [Bool.false_eq_true, if_false, Option.map_some, applyQueue_fst]
      rfl

/-- The decision of a call that finds a previous value. -/
theorem decided_inRange_iff (h : c.previousValue ≠ 0) (o : State) :
    (∀ d ∈ (c.decided cfg o.inMemoryStore).map (·.decision), InRange c.range d) ↔ KeepsToRange cfg o c := by
  unfold KeepsToRange
  by_cases hrange : c.range.min = c.range.max
  · rw [Call.decided_of_range hrange, if_pos (.inr hrange)]
    simp [inRange_iff]
  · rw [if_neg (by simp [h, hrange])]
    cases hlimited : c.limited with
    | true =>
        rw [Call.decided_of_limited hrange hlimited]
        simp [inRange_iff]
    | false =>
        rw [Call.decided_of_not_limited hrange hlimited]
        cases c.skips cfg o.inMemoryStore with
        | true => simp
        | false =>
            simp only [Bool.false_eq_true, if_false, Option.mem_def, Option.some.injEq, forall_eq', inRange_iff, false_or]
            cases hheld : c.heldBack cfg o.inMemoryStore with
            | true =>
                have hlt := Call.heldBack_lt hheld
                rw [if_pos rfl]
                constructor
                · rintro ⟨hmin, hmax⟩
                  exact ⟨Int.le_trans hmin hmax, .inl hmin⟩
                · rintro ⟨hvalid, henough⟩
                  have hmin : c.range.min ≤ c.previousValue := by
                    by_contra hbelow
                    have hfiles := henough.resolve_left hbelow
                    rw [(Call.heldBack_eq_false_iff hvalid (not_le.mp hbelow)).mpr hfiles] at hheld
                    cases hheld
                  have hmem := applyMargins_mem hvalid (optimize cfg c.dataSource.getOptimizerMode
                    (c.current cfg o.inMemoryStore) (c.previous o.inMemoryStore) c.previousValue)
                  exact ⟨hmin, by omega⟩
            | false =>
                rw [if_neg (by simp)]
                constructor
                · rintro ⟨hmin, hmax⟩
                  have hvalid := Int.le_trans hmin hmax
                  refine ⟨hvalid, ?_⟩
                  by_cases hbelow : c.previousValue < c.range.min
                  · exact .inr ((Call.heldBack_eq_false_iff hvalid hbelow).mp hheld)
                  · exact .inl (not_lt.mp hbelow)
                · exact fun h => applyMargins_mem h.1 _

theorem storesInRange_iff (cfg : Config) (o : State) (c : Call) : StoresInRange cfg o c ↔ KeepsToRange cfg o c := by
  unfold StoresInRange
  by_cases hprev : c.previousValue = 0
  · rw [run_of_zero hprev, KeepsToRange, if_pos (.inl hprev)]
    simp only [List.forall_mem_cons, List.not_mem_nil, false_implies, implies_true, and_true, Write.decision?,
      Option.mem_def, Option.some.injEq, forall_eq', reduceCtorEq, inRange_iff]
    constructor
    · rintro ⟨hmin, hmax⟩
      exact Int.le_trans hmin hmax
    · exact noInformation_mem
  · rw [← decided_inRange_iff hprev]
    cases hd : c.decided cfg o.inMemoryStore with
    | none => simp [run_of_skipped hprev hd]
    | some d => simp [run_of_decided hprev hd, Write.decision?]

end call

/-- In a run of the optimizer, over any pairs and any answers of the data source, every decision that is stored is in the
working range of its call where every call keeps to it. -/
theorem decisions_in_range_iff (cfg : Config) (o : State) (calls : List Call) :
    Meets (step cfg) (StoresInRange cfg) o calls ↔ Meets (step cfg) (KeepsToRange cfg) o calls :=
  meets_iff (I := fun _ => True) (fun o c _ => storesInRange_iff cfg o c) (fun _ _ _ _ => trivial) trivial

/-- The decreases go on below the range and reach zero, which is read back as no information. -/
theorem decisions_out_of_range :
    ¬Meets (step plainConfig) (StoresInRange plainConfig) {} [sampleCall 2 100, sampleCall 1 100, sampleCall 0 100] ∧
      (run (step plainConfig) {} [sampleCall 2 100, sampleCall 1 100, sampleCall 0 100]).writes.filterMap
        Write.decision? = [1, 0, 130] := by
  decide +kernel

/-! ## Values that are read back -/

/-- A call that finds nothing or a value in the range, where a decrease for a throughput limit does not leave it. -/
theorem keepsToRange_of_previous {cfg : Config} {c : Call} (horder : c.range.min ≤ c.range.max)
    (hprevious : c.previousValue = 0 ∨ InRange c.range c.previousValue) (hstep : 0 ≤ cfg.decreaseStepSize)
    (hlimited : c.limited = true → c.range.min ≤ c.previousValue - cfg.decreaseStepSize) (o : State) :
    KeepsToRange cfg o c := by
  unfold KeepsToRange
  split
  · exact horder
  · rename_i hother
    rw [not_or] at hother
    obtain ⟨hmin, hmax, -⟩ := hprevious.resolve_left hother.1
    split
    · rename_i hlim
      have hdecrease := hlimited hlim
      exact ⟨hdecrease, by omega⟩
    · exact .inr ⟨horder, .inl hmin⟩

/-- The link keeps its range, and the call reads the last decision back. What is read at first is nothing, or in the
range. -/
def ReadsBack (range : Pair → Range) (o : State) (c : Call) : Prop :=
  c.range = range c.pair ∧ c.range.min ≤ c.range.max ∧
    match lastDecision c.pair o.writes with
    | some d => c.previousValue = d
    | none => c.previousValue = 0 ∨ InRange c.range c.previousValue

section readsBack

variable {cfg : Config} {range : Pair → Range} {o : State} {c : Call}

def AllInRange (range : Pair → Range) (o : State) : Prop :=
  ∀ pair d, lastDecision pair o.writes = some d → InRange (range pair) d

theorem ReadsBack.previous (h : ReadsBack range o c) (ho : AllInRange range o) :
    c.previousValue = 0 ∨ InRange c.range c.previousValue := by
  obtain ⟨hrange, -, hread⟩ := h
  cases hlast : lastDecision c.pair o.writes with
  | none =>
      rw [hlast] at hread
      exact hread
  | some d =>
      rw [hlast] at hread
      simp only at hread
      rw [hread, hrange]
      exact .inr (ho c.pair d hlast)

/-- The last decision for the pair of the call is the one that it stores, or the one before. -/
theorem lastDecision_step {d : Int} (h : lastDecision c.pair (step cfg o c).writes = some d) :
    (∃ w ∈ (runOptimizerForPair cfg c.pair c.dataSource o.inMemoryStore).2, w.decision? = some d) ∨
      lastDecision c.pair o.writes = some d := by
  by_cases hprev : c.previousValue = 0
  · left
    rw [(step_of_zero cfg o hprev).2, if_pos rfl] at h
    rw [run_of_zero hprev]
    exact ⟨_, List.mem_cons_self, h⟩
  · cases hd : c.decided cfg o.inMemoryStore with
    | none =>
        rw [(step_of_skipped hprev hd).1] at h
        exact .inr h
    | some decision =>
        left
        rw [(step_of_decided hprev hd).2, if_pos rfl] at h
        rw [run_of_decided hprev hd]
        exact ⟨_, List.mem_cons_self, h⟩

theorem AllInRange.step (ho : AllInRange range o) (hrange : c.range = range c.pair) (h : StoresInRange cfg o c) :
    AllInRange range (step cfg o c) := by
  intro pair d hlast
  by_cases hpair : pair = c.pair
  · subst hpair
    rcases lastDecision_step hlast with ⟨w, hw, hd⟩ | hbefore
    · rw [← hrange]
      exact h w hw d hd
    · exact ho c.pair d hbefore
  · rw [(step_of_ne cfg o hpair).2] at hlast
    exact ho pair d hlast

end readsBack

/-- In a run that reads its decisions back, where the links keep their ranges: as long as no decrease for a throughput
limit leaves the range, no decision does. -/
theorem decisions_stay_in_range (cfg : Config) (range : Pair → Range) (calls : List Call)
    (hstep : 0 ≤ cfg.decreaseStepSize)
    (h : Meets (step cfg) (fun o c => ReadsBack range o c ∧
      (c.limited = true → c.range.min ≤ c.previousValue - cfg.decreaseStepSize)) {} calls) :
    Meets (step cfg) (StoresInRange cfg) {} calls := by
  have hstores : ∀ o c, AllInRange range o → ReadsBack range o c ∧
      (c.limited = true → c.range.min ≤ c.previousValue - cfg.decreaseStepSize) → StoresInRange cfg o c := by
    intro o c ho hc
    exact (storesInRange_iff cfg o c).mpr (keepsToRange_of_previous hc.1.2.1 (hc.1.previous ho) hstep hc.2 o)
  refine h.imp hstores (fun o c hc ho => ho.step hc.1.1 (hstores o c ho hc)) fun pair d hd => ?_
  cases hd

end Fts3.Optimizer
