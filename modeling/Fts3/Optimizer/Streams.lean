import Fts3.Machine.Run
import Fts3.Optimizer.Algorithm

/-!
# Connections and streams

The streams are computed from the connections that the memory has for the pair. `setOptimizerDecision` keeps them there
with each decision; but a call that starts the pair overwrites the entry afterwards with one that says `1`.
-/

namespace Fts3.Optimizer

open Fts3.MySql Fts3.Machine

/-- The last decision that was stored for the pair. -/
def lastDecision (pair : Pair) (writes : List Write) : Option Int :=
  writes.foldl (fun last w => match w with
    | .storeOptimizerDecision p activeDecision _ _ _ => if p = pair then some activeDecision else last
    | .storeOptimizerStreams _ _ => last) none

/-- After the call the memory has the last decision for the pair. -/
def ConnectionsAgree (cfg : Config) (o : State) (c : Call) : Prop :=
  ∃ state, (step cfg o c).inMemoryStore c.pair = some state ∧
    lastDecision c.pair (step cfg o c).writes = some state.connections

/-- What the call stores as the number of streams. -/
def StreamsAgree (cfg : Config) (o : State) (c : Call) : Prop :=
  ∀ s, .storeOptimizerStreams c.pair s ∈ (runOptimizerForPair cfg c.pair c.dataSource o.inMemoryStore).2 →
    if c.dataSource.getOptimizerMode ≤ .conservative then s = 1
    else 1 ≤ s ∧ s ≤ max 1 cfg.maxNumberOfStreams ∧
      (s = 1 ∨ ∃ d, lastDecision c.pair (step cfg o c).writes = some d ∧
        s * (c.dataSource.getActive + c.dataSource.getSubmitted) ≤ d)

/-- The call finds a value, or it starts the pair with one connection. -/
def Call.startsAtOne (c : Call) : Prop :=
  c.previousValue = 0 →
    (if c.range.specific then c.range.max else c.range.min + (c.range.max - c.range.min).tdiv 2) = 1

/-- The memory has the last decision of every pair that it knows. -/
def Consistent (o : State) : Prop :=
  ∀ pair state, o.inMemoryStore pair = some state → lastDecision pair o.writes = some state.connections

section streams

variable {cfg : Config}

theorem streamsDecision_bounds (cfg : Config) (connections transfers : Int) :
    1 ≤ streamsDecision cfg connections transfers ∧
      streamsDecision cfg connections transfers ≤ max 1 cfg.maxNumberOfStreams := by
  unfold streamsDecision
  split
  · simp only
    split
    · omega
    · split <;> omega
  · omega

theorem tdiv_mul_le_of_pos {a b : Int} (hb : 0 < b) (h : 0 < a.tdiv b) : a.tdiv b * b ≤ a := by
  have ha : 0 ≤ a := by
    by_contra hneg
    have hquotient : 0 ≤ (-a).tdiv b := Int.tdiv_nonneg (by omega) (by omega)
    rw [Int.neg_tdiv] at hquotient
    omega
  rw [Int.tdiv_eq_ediv_of_nonneg ha]
  exact Int.ediv_mul_le a (by omega)

/-- All streams of all transfers together take no more than the connections. -/
theorem streamsDecision_mul_le (cfg : Config) (connections transfers : Int) :
    streamsDecision cfg connections transfers = 1 ∨
      streamsDecision cfg connections transfers * transfers ≤ connections := by
  unfold streamsDecision
  split
  · rename_i htransfers
    simp only
    split
    · exact .inl rfl
    · rename_i hpos
      have hmul := tdiv_mul_le_of_pos htransfers (Int.not_le.mp hpos)
      split
      · right
        refine Int.le_trans (Int.mul_le_mul_of_nonneg_right ?_ (Int.le_of_lt htransfers)) hmul
        omega
      · exact .inr hmul
  · exact .inl rfl

theorem streamsDecision_one (cfg : Config) (transfers : Int) : streamsDecision cfg 1 transfers = 1 := by
  have hbounds := streamsDecision_bounds cfg 1 transfers
  rcases streamsDecision_mul_le cfg 1 transfers with h | h
  · exact h
  · by_cases htransfers : 0 < transfers
    · have hle : streamsDecision cfg 1 transfers * 1 ≤ streamsDecision cfg 1 transfers * transfers :=
        Int.mul_le_mul_of_nonneg_left htransfers (by omega)
      omega
    · rw [streamsDecision, if_neg htransfers]

end streams

section step

variable {cfg : Config} {o : State} {c : Call} {d : Int}

/-- A decision, and the streams after it. -/
theorem lastDecision_append (pair pair' : Pair) (writes : List Write) (d : Int) (state : PairState) (diff : Int)
    (rationale : String) (s : Int) :
    lastDecision pair (writes ++ [.storeOptimizerDecision pair' d state diff rationale, .storeOptimizerStreams pair' s]) =
      if pair' = pair then some d else lastDecision pair writes := by
  rw [lastDecision, List.foldl_append]
  rfl

theorem step_of_zero (cfg : Config) (o : State) (h : c.previousValue = 0) :
    (step cfg o c).inMemoryStore = o.inMemoryStore.store c.pair c.firstFeedback ∧
      ∀ pair, lastDecision pair (step cfg o c).writes =
        if c.pair = pair then some (noInformation c.range).1 else lastDecision pair o.writes := by
  unfold step
  rw [run_of_zero h]
  exact ⟨rfl, fun pair => lastDecision_append ..⟩

theorem step_of_decided (h : c.previousValue ≠ 0) {d : Decision} (hd : c.decided cfg o.inMemoryStore = some d) :
    (step cfg o c).inMemoryStore = (c.remembered o.inMemoryStore).store c.pair
        { c.current cfg o.inMemoryStore with connections := d.decision } ∧
      ∀ pair, lastDecision pair (step cfg o c).writes =
        if c.pair = pair then some d.decision else lastDecision pair o.writes := by
  unfold step
  rw [run_of_decided h hd]
  exact ⟨rfl, fun pair => lastDecision_append ..⟩

/-- A call is skipped only where the pair has an entry, so nothing changes. -/
theorem step_of_skipped (h : c.previousValue ≠ 0) (hd : c.decided cfg o.inMemoryStore = none) :
    step cfg o c = o ∧ (o.inMemoryStore c.pair).isSome = true := by
  have hseen : (o.inMemoryStore c.pair).isNone = false := by
    rw [Call.decided, decideConnections] at hd
    split at hd
    · cases hd
    · split at hd
      · cases hd
      · split at hd
        · cases hd
        · split at hd
          · rename_i hsteady
            simp only [steady, Bool.and_eq_true, Bool.not_eq_true'] at hsteady
            exact hsteady.1.1.1
          · cases hd
  have hremembered : c.remembered o.inMemoryStore = o.inMemoryStore := by
    rw [Call.remembered, hseen]
    rfl
  refine ⟨?_, by simpa [← Option.not_isSome] using hseen⟩
  unfold step
  rw [run_of_skipped h hd, hremembered]
  simp

/-- The streams of a call that stores the decision `d`, from an entry that has it or that says `1`. -/
theorem streamsFor_agrees (hwrites : lastDecision c.pair (step cfg o c).writes = some d) {state : PairState}
    (hconnections : state.connections = d ∨ state.connections = 1) (hactive : state.activeCount = c.dataSource.getActive)
    (hqueue : state.queueSize = c.dataSource.getSubmitted) :
    if c.dataSource.getOptimizerMode ≤ .conservative then streamsFor cfg c.dataSource.getOptimizerMode state = 1
    else 1 ≤ streamsFor cfg c.dataSource.getOptimizerMode state ∧
      streamsFor cfg c.dataSource.getOptimizerMode state ≤ max 1 cfg.maxNumberOfStreams ∧
        (streamsFor cfg c.dataSource.getOptimizerMode state = 1 ∨
          ∃ d, lastDecision c.pair (step cfg o c).writes = some d ∧
            streamsFor cfg c.dataSource.getOptimizerMode state *
              (c.dataSource.getActive + c.dataSource.getSubmitted) ≤ d) := by
  unfold streamsFor
  split
  · rfl
  · rw [hactive, hqueue]
    have hbounds := streamsDecision_bounds cfg state.connections (c.dataSource.getActive + c.dataSource.getSubmitted)
    refine ⟨hbounds.1, hbounds.2, ?_⟩
    rcases hconnections with h | h
    · rw [h]
      rcases streamsDecision_mul_le cfg d (c.dataSource.getActive + c.dataSource.getSubmitted) with hone | hle
      · exact .inl hone
      · exact .inr ⟨d, hwrites, hle⟩
    · left
      rw [h]
      exact streamsDecision_one cfg _

theorem streamsAgree (cfg : Config) (o : State) (c : Call) : StreamsAgree cfg o c := by
  intro s hs
  by_cases hprev : c.previousValue = 0
  · have hwrites := (step_of_zero cfg o hprev).2 c.pair
    rw [if_pos rfl] at hwrites
    rw [run_of_zero hprev] at hs
    obtain rfl : s = streamsFor cfg c.dataSource.getOptimizerMode c.firstFeedback := by simpa using hs
    exact streamsFor_agrees hwrites (.inr rfl) rfl rfl
  · cases hd : c.decided cfg o.inMemoryStore with
    | none =>
        rw [run_of_skipped hprev hd] at hs
        cases hs
    | some d =>
        have hwrites := (step_of_decided hprev hd).2 c.pair
        rw [if_pos rfl] at hwrites
        rw [run_of_decided hprev hd] at hs
        obtain rfl : s = streamsFor cfg c.dataSource.getOptimizerMode
            { c.current cfg o.inMemoryStore with connections := d.decision } := by simpa using hs
        exact streamsFor_agrees hwrites (.inl rfl) rfl rfl

theorem noInformation_fst (range : Range) : (noInformation range).1 =
    if range.specific then range.max else range.min + (range.max - range.min).tdiv 2 := by
  simp only [noInformation, apply_ite Prod.fst]

theorem connectionsAgree_iff (cfg : Config) (ho : Consistent o) : ConnectionsAgree cfg o c ↔ c.startsAtOne := by
  unfold ConnectionsAgree
  by_cases hprev : c.previousValue = 0
  · obtain ⟨hmemory, hwrites⟩ := step_of_zero cfg o hprev
    rw [hmemory, hwrites, if_pos rfl, Memory.store_self, noInformation_fst]
    simp [Call.startsAtOne, hprev, Call.firstFeedback, currentState]
  · simp only [Call.startsAtOne, hprev, false_implies, iff_true]
    cases hd : c.decided cfg o.inMemoryStore with
    | none =>
        obtain ⟨hstep, hseen⟩ := step_of_skipped hprev hd
        obtain ⟨state, hstate⟩ := Option.isSome_iff_exists.mp hseen
        rw [hstep]
        exact ⟨state, hstate, ho c.pair state hstate⟩
    | some d =>
        obtain ⟨hmemory, hwrites⟩ := step_of_decided hprev hd
        rw [hmemory, hwrites, if_pos rfl, Memory.store_self]
        exact ⟨_, rfl, rfl⟩

/-- A call touches its own pair only. -/
theorem step_of_ne (cfg : Config) (o : State) {pair : Pair} (h : pair ≠ c.pair) :
    (step cfg o c).inMemoryStore pair = o.inMemoryStore pair ∧
      lastDecision pair (step cfg o c).writes = lastDecision pair o.writes := by
  by_cases hprev : c.previousValue = 0
  · obtain ⟨hmemory, hwrites⟩ := step_of_zero cfg o hprev
    rw [hmemory, hwrites, if_neg (Ne.symm h), Memory.store_of_ne _ h]
    exact ⟨rfl, rfl⟩
  · cases hd : c.decided cfg o.inMemoryStore with
    | none =>
        rw [(step_of_skipped hprev hd).1]
        exact ⟨rfl, rfl⟩
    | some d =>
        obtain ⟨hmemory, hwrites⟩ := step_of_decided hprev hd
        rw [hmemory, hwrites, if_neg (Ne.symm h), Memory.store_of_ne _ h, Call.remembered]
        split
        · rw [Memory.store_of_ne _ h]
          exact ⟨rfl, rfl⟩
        · exact ⟨rfl, rfl⟩

theorem Consistent.step (ho : Consistent o) (h : c.startsAtOne) : Consistent (step cfg o c) := by
  intro pair state hstate
  by_cases hpair : pair = c.pair
  · subst hpair
    obtain ⟨state', hstate', hwrites⟩ := (connectionsAgree_iff cfg ho).mpr h
    rw [hstate'] at hstate
    rw [← Option.some.inj hstate]
    exact hwrites
  · obtain ⟨hmemory, hwrites⟩ := step_of_ne cfg o hpair
    rw [hwrites]
    exact ho pair state (hmemory ▸ hstate)

end step

/-- In a run of the optimizer from its start, over any pairs and any answers of the data source: the memory and the stored
decision of the pair agree after every call, and the streams with them, where no call starts a pair with more than one
connection. -/
theorem connections_and_streams_agree_iff (cfg : Config) (calls : List Call) :
    Meets (step cfg) (fun o c => ConnectionsAgree cfg o c ∧ StreamsAgree cfg o c) {} calls ↔
      Meets (step cfg) (fun _ c => c.startsAtOne) {} calls := by
  refine meets_iff (I := Consistent) (fun o c ho => ?_) (fun o c h ho => ho.step h) ?_
  · rw [connectionsAgree_iff cfg ho]
    exact and_iff_left (streamsAgree cfg o c)
  · intro pair state hstate
    cases hstate

def plainConfig : Config where
  printDouble _ := "100"

/-- A link between 2 and 130 connections, with the value that was stored last. -/
def sampleCall (value : Int) (throughputLimit : Rat) : Call where
  pair := ⟨"srm://a.org", "srm://b.com"⟩
  dataSource :=
    { time := 0
      getOptimizerMode := .normal
      getPairLimits := ({ min := 2, max := 130, specific := true },
        { source := 200, destination := 200, throughputSource := throughputLimit })
      getOptimizerValue := value
      getAverageDuration _ := 60
      getThroughputInfo _ := ⟨150, 1000, 0⟩
      getSuccessRateForPair _ := (100, 0)
      getActive := 2
      getSubmitted := 10
      getThroughputAsSource := 150
      getThroughputAsDestination := 0 }

/-- The pair starts with 130 connections, and the memory says `1`. -/
theorem connections_forgotten_at_start :
    ((step plainConfig {} (sampleCall 0 0)).inMemoryStore (sampleCall 0 0).pair).map (·.connections) = some 1 ∧
      lastDecision (sampleCall 0 0).pair (step plainConfig {} (sampleCall 0 0)).writes = some 130 ∧
      ¬Meets (step plainConfig) (fun o c => ConnectionsAgree plainConfig o c ∧ StreamsAgree plainConfig o c) {}
        [sampleCall 0 0] := by
  refine ⟨by decide +kernel, by decide +kernel, fun h => ?_⟩
  obtain ⟨state, hstate, hwrites⟩ := h.1.1
  have hone : ((step plainConfig {} (sampleCall 0 0)).inMemoryStore (sampleCall 0 0).pair).map (·.connections) = some 1 := by
    decide +kernel
  have hstart : lastDecision (sampleCall 0 0).pair (step plainConfig {} (sampleCall 0 0)).writes = some 130 := by
    decide +kernel
  rw [hstate, Option.map_some] at hone
  rw [hwrites, hone] at hstart
  simp at hstart

end Fts3.Optimizer
