import Mathlib.Data.Int.Log
import Mathlib.Data.Rat.Floor
import Mathlib.Logic.Function.Basic
import Fts3.Common.Uri
import Fts3.MySql.Optimizer

/-!
# The optimizer

`Optimizer.cpp`, `OptimizerConnections.cpp` and `OptimizerStreams.cpp`: how many connections, and how many streams for
each transfer, a pair of storages gets. What the data source answers to one call for a pair is a value of `DataSource`,
so that every sequence of answers is a list of calls. The assertions of the source are left to the theorems, since a
release build does not check them. A number of type `double` is the rational that it stands for; what the machine makes of
sums and products of them is a parameter, and so are the logarithms.
-/

namespace Fts3.Optimizer

open Fts3.MySql

/-! ## The data source -/

structure ThroughputInfo where
  throughput : Rat
  filesizeAvg : Rat
  filesizeStdDev : Rat

/-- The answers to one call. The intervals are in seconds. -/
structure DataSource where
  time : Int
  getOptimizerMode : OptimizerMode
  getPairLimits : Range × StorageLimits
  getOptimizerValue : Int
  getAverageDuration : Int → Int
  getThroughputInfo : Int → ThroughputInfo
  getSuccessRateForPair : Int → Rat × Int
  getActive : Int
  getSubmitted : Int
  getThroughputAsSource : Rat
  getThroughputAsDestination : Rat

/-- What the optimizer has the data source store. -/
inductive Write where
  | storeOptimizerDecision (pair : Pair) (activeDecision : Int) (newState : PairState) (diff : Int) (rationale : String)
  | storeOptimizerStreams (pair : Pair) (streams : Int)

/-! ## Configuration -/

/-- `round(log10(x))` for a positive number: the largest `n` with `10 ^ (2 n - 1) ≤ x ^ 2`. -/
def roundLog10 (x : Rat) : Int :=
  (Int.log 10 (x * x) + 1) / 2

/-- `round(log10(a)) < round(log10(b))`. The logarithm of zero is below all others, and a comparison with that of a
negative number is false. -/
def lowerMagnitude (a b : Rat) : Bool :=
  if a < 0 ∨ b ≤ 0 then false else a = 0 || roundLog10 a < roundLog10 b

structure Config where
  optimizerSteadyInterval : Int := 60
  maxNumberOfStreams : Int := 10
  lowSuccessRate : Int := 97
  baseSuccessRate : Int := 96
  decreaseStepSize : Int := 1
  increaseStepSize : Int := 1
  increaseAggressiveStepSize : Int := 2
  emaAlpha : Rat := 1 / 10
  /-- What the machine computes for `(sample * alpha) + ((1 - alpha) * cur)`. -/
  weightedSum : Rat → Rat → Rat → Rat := fun sample alpha cur => sample * alpha + (1 - alpha) * cur
  /-- What a stream prints for a `double`. -/
  printDouble : Rat → String
  /-- How two averages are compared on the logarithmic scale. -/
  lowerMagnitude : Rat → Rat → Bool := Optimizer.lowerMagnitude

def Config.localIncreaseStep (cfg : Config) (optMode : OptimizerMode) : Int :=
  if OptimizerMode.normal ≤ optMode then cfg.increaseAggressiveStepSize else cfg.increaseStepSize

/-- `inMemoryStore`. -/
abbrev Memory := Pair → Option PairState

def Memory.store (m : Memory) (pair : Pair) (state : PairState) : Memory :=
  Function.update m pair (some state)

/-! ## Connections -/

def exponentialMovingAverage (cfg : Config) (sample alpha cur : Rat) : Rat :=
  if 0 < sample then cfg.weightedSum sample alpha cur else cur

/-- In seconds. -/
def calculateTimeFrame (avgDuration : Int) : Int :=
  if 0 < avgDuration ∧ avgDuration < 30 then 5 * 60
  else if 30 < avgDuration ∧ avgDuration < 900 then 15 * 60
  else 30 * 60

def defaultMinActive : Int := 2

def defaultLanActive : Int := 10

/-- The lower limit of a link that has none configured. -/
def defaultMin (pair : Pair) : Int :=
  if isLanTransfer pair.source pair.destination then defaultLanActive else defaultMinActive

/-- The working range, from what `getPairLimits` has answered. -/
def getOptimizerWorkingRange (pair : Pair) : Range × StorageLimits → Range × StorageLimits
  | (range, limits) =>
      -- If range not set, use defaults
      let range := { range with min := if range.min ≤ 0 then defaultMin pair else range.min }
      let isMaxConfigured := 0 < range.max
      if isMaxConfigured then (range, limits)
      else
        let max := min limits.source limits.destination
        ({ range with max := if max < range.min then range.min else max, storageSpecific := true }, limits)

/-- To be called for low success rates. -/
def optimizeLowSuccessRate (cfg : Config) (current previous : PairState) (previousValue : Int) : Int × String :=
  -- If improving, keep it stable
  if previous.successRate < current.successRate ∧ cfg.baseSuccessRate ≤ current.successRate ∧
      current.retryCount ≤ previous.retryCount then
    (previousValue, "Bad link efficiency but progressively improving")
  -- If worse or the same, step back
  else if current.successRate < previous.successRate then
    (previousValue - cfg.decreaseStepSize, "Bad link efficiency")
  else (previousValue - cfg.decreaseStepSize, "Bad link efficiency, no changes")

/-- To be called when there is not enough information to decide what to do. -/
def optimizeNotEnoughInformation (previousValue : Int) : Int × String :=
  (previousValue, "Steady, not enough throughput information")

/-- To be called when the success rate is good. -/
def optimizeGoodSuccessRate (cfg : Config) (current previous : PairState)
    (previousValue decreaseStepSize increaseStepSize : Int) : Int × String :=
  if current.queueSize < previousValue then (previousValue, "Queue emptying. Hold on.")
  else if current.ema < previous.ema then
    -- If the file sizes are decreasing, then it could be that the throughput deterioration is due to this.
    if cfg.lowerMagnitude current.filesizeAvg previous.filesizeAvg then
      (previousValue + increaseStepSize, "Good link efficiency, throughput deterioration, avg. filesize decreasing")
    -- Compare on the logarithmic scale, to reduce sensitivity
    else if cfg.lowerMagnitude current.ema previous.ema then
      (previousValue - decreaseStepSize, "Good link efficiency, throughput deterioration")
    else (previousValue, "Good link efficiency, small throughput deterioration")
  else if previous.ema < current.ema then
    (previousValue + increaseStepSize,
      "Good link efficiency, current average throughput is larger than the preceding average")
  else (previousValue + increaseStepSize, "Good link efficiency. Increment")

/-- What the success rate and the throughput ask for. -/
def optimize (cfg : Config) (optMode : OptimizerMode) (current previous : PairState) (previousValue : Int) : Int × String :=
  -- For low success rates, do not even care about throughput
  if current.successRate < cfg.lowSuccessRate then optimizeLowSuccessRate cfg current previous previousValue
  -- No throughput info
  else if current.ema = 0 then optimizeNotEnoughInformation previousValue
  else
    optimizeGoodSuccessRate cfg current previous previousValue cfg.decreaseStepSize (cfg.localIncreaseStep optMode)

/-- Apply margins to the decision. -/
def applyMargins (range : Range) (decision : Int × String) : Int × String :=
  let link := if range.specific then "" else ". Using *->* link configuration"
  if decision.1 < range.min then (range.min, decision.2 ++ ". Hit lower range limit" ++ link)
  else if range.max < decision.1 then
    let storage := if range.specific && range.storageSpecific then ". Link not configured. Using SE limits" else ""
    (range.max, decision.2 ++ ". Hit upper range limit" ++ link ++ storage)
  else decision

/-- In the conservative mode a file takes one connection. -/
def notEnoughFiles (optMode : OptimizerMode) (queueSize previousValue decision : Int) : Bool :=
  optMode = .conservative && previousValue < decision && queueSize < decision

/-- From the normal mode on a file takes as many connections as it may have streams. -/
def tooManyStreams (cfg : Config) (optMode : OptimizerMode) (queueSize previousValue decision : Int) : Bool :=
  OptimizerMode.normal ≤ optMode && previousValue < decision && queueSize * cfg.maxNumberOfStreams < decision

/-- If stream optimize is enabled, push forward and let the extra connections go into streams. Otherwise, stop pushing. -/
def applyQueue (cfg : Config) (optMode : OptimizerMode) (queueSize previousValue : Int) (decision : Int × String) :
    Int × String :=
  if notEnoughFiles optMode queueSize previousValue decision.1 then
    (previousValue, decision.2 ++ ". Not enough files in the queue")
  -- Do not go too far with the number of connections
  else if tooManyStreams cfg optMode queueSize previousValue decision.1 then
    (previousValue, decision.2 ++ ". Too many streams")
  else decision

structure Decision where
  decision : Int
  diff : Int
  rationale : String

/-- There is no value yet. In this case, pick the high value if configured, mid-range otherwise. -/
def noInformation (range : Range) : Int × String :=
  if range.specific then (range.max, "No information. Use configured range max.")
  else (range.min + (range.max - range.min).tdiv 2, "No information. Start halfway.")

def sourceLimited (limits : StorageLimits) (ds : DataSource) : Bool :=
  0 < limits.throughputSource && limits.throughputSource < ds.getThroughputAsSource

def destinationLimited (limits : StorageLimits) (ds : DataSource) : Bool :=
  0 < limits.throughputDestination && limits.throughputDestination < ds.getThroughputAsDestination

/-- Run only when it makes sense: nothing has changed, and not enough time passed since the last update. -/
def steady (cfg : Config) (firstRun : Bool) (current previous : PairState) : Bool :=
  !firstRun && current.successRate = previous.successRate && current.ema = previous.ema &&
    current.timestamp - previous.timestamp < cfg.optimizerSteadyInterval

/-- The decision of `optimizeConnectionsForPair` where there is a previous value; `none` when it is skipped. -/
def decideConnections (cfg : Config) (optMode : OptimizerMode) (range : Range) (limits : StorageLimits) (ds : DataSource)
    (firstRun : Bool) (current previous : PairState) (previousValue : Int) : Option Decision :=
  -- If we have no range, leave it here
  if range.min = range.max then some ⟨range.min, 0, "Range fixed"⟩
  -- Apply bandwidth limits
  else if sourceLimited limits ds then
    some ⟨previousValue - cfg.decreaseStepSize, 0,
      "Source throughput limitation reached (" ++ cfg.printDouble limits.throughputSource ++ ")"⟩
  else if destinationLimited limits ds then
    some ⟨previousValue - cfg.decreaseStepSize, 0,
      "Destination throughput limitation reached (" ++ cfg.printDouble limits.throughputDestination ++ ")"⟩
  else if steady cfg firstRun current previous then none
  else
    let decision := applyQueue cfg optMode current.queueSize previousValue
      (applyMargins range (optimize cfg optMode current previous previousValue))
    some ⟨decision.1, decision.1 - previousValue, decision.2⟩

/-- What is known about the pair now. -/
def currentState (ds : DataSource) : PairState :=
  let avgDuration := ds.getAverageDuration (30 * 60)
  let timeFrame := calculateTimeFrame avgDuration
  let info := ds.getThroughputInfo timeFrame
  let success := ds.getSuccessRateForPair timeFrame
  { timestamp := ds.time, avgDuration, throughput := info.throughput, filesizeAvg := info.filesizeAvg
    filesizeStdDev := info.filesizeStdDev, successRate := success.1, retryCount := success.2
    activeCount := ds.getActive, queueSize := ds.getSubmitted }

def setOptimizerDecision (pair : Pair) (decision : Int) (current : PairState) (diff : Int) (rationale : String)
    (m : Memory) : Memory × List Write :=
  (m.store pair { current with connections := decision },
    [.storeOptimizerDecision pair decision current diff rationale])

/-- Whether a decision is stored, the memory after it, and what is stored. -/
def optimizeConnectionsForPair (cfg : Config) (optMode : OptimizerMode) (pair : Pair) (ds : DataSource) (m : Memory) :
    Bool × Memory × List Write :=
  let (range, limits) := getOptimizerWorkingRange pair ds.getPairLimits
  let previousValue := ds.getOptimizerValue
  let current := currentState ds
  if previousValue = 0 then
    let (decision, rationale) := noInformation range
    let (m, writes) := setOptimizerDecision pair decision current decision rationale m
    (true, m.store pair { current with ema := current.throughput }, writes)
  else
    -- There is information, but it may be the first time seen since the restart
    let firstRun := (m pair).isNone
    let m := if firstRun then m.store pair { current with ema := current.throughput } else m
    let previous := (m pair).getD {}
    let current := { current with ema := exponentialMovingAverage cfg current.throughput cfg.emaAlpha previous.ema }
    match decideConnections cfg optMode range limits ds firstRun current previous previousValue with
    | none => (false, m, [])
    | some d => (true, setOptimizerDecision pair d.decision current d.diff d.rationale m)

/-! ## Streams -/

/-- Divide the number of connections between the number of queued and active transfers. -/
def streamsDecision (cfg : Config) (connectionsAvailable availableTransfers : Int) : Int :=
  if 0 < availableTransfers then
    let streams := connectionsAvailable.tdiv availableTransfers
    if streams ≤ 0 then 1
    else if cfg.maxNumberOfStreams < streams then max cfg.maxNumberOfStreams 1
    else streams
  else 1

def optimizeStreamsForPair (cfg : Config) (optMode : OptimizerMode) (pair : Pair) (m : Memory) : Memory × List Write :=
  -- No optimization for streams, so go for 1
  if optMode ≤ .conservative then (m, [.storeOptimizerStreams pair 1])
  else
    let state := (m pair).getD {}
    (m.store pair state,
      [.storeOptimizerStreams pair (streamsDecision cfg state.connections (state.activeCount + state.queueSize))])

/-! ## Runs -/

def runOptimizerForPair (cfg : Config) (pair : Pair) (ds : DataSource) (m : Memory) : Memory × List Write :=
  let (stored, m, writes) := optimizeConnectionsForPair cfg ds.getOptimizerMode pair ds m
  if stored then
    -- Optimize streams only if optimizeConnectionsForPair did store something
    let (m, streams) := optimizeStreamsForPair cfg ds.getOptimizerMode pair m
    (m, writes ++ streams)
  else (m, writes)

/-- The memory of the optimizer, and everything that it has stored, in order. -/
structure State where
  inMemoryStore : Memory := fun _ => none
  writes : List Write := []

/-- A call of `runOptimizerForPair`, with what the data source answers to it. -/
structure Call where
  pair : Pair
  dataSource : DataSource

def step (cfg : Config) (o : State) (c : Call) : State :=
  let (m, writes) := runOptimizerForPair cfg c.pair c.dataSource o.inMemoryStore
  ⟨m, o.writes ++ writes⟩

/-! ## What a call finds and does -/

namespace Call

variable (c : Call)

def range : Range := (getOptimizerWorkingRange c.pair c.dataSource.getPairLimits).1

def limits : StorageLimits := (getOptimizerWorkingRange c.pair c.dataSource.getPairLimits).2

def previousValue : Int := c.dataSource.getOptimizerValue

/-- A throughput limit of one of the storages is exceeded. -/
def limited : Bool := sourceLimited c.limits c.dataSource || destinationLimited c.limits c.dataSource

/-- What is known about the pair now, and what there is to compare it with the first time. -/
def firstFeedback : PairState :=
  { currentState c.dataSource with ema := (currentState c.dataSource).throughput }

def previous (m : Memory) : PairState := (m c.pair).getD c.firstFeedback

def current (cfg : Config) (m : Memory) : PairState :=
  { currentState c.dataSource with
    ema := exponentialMovingAverage cfg (currentState c.dataSource).throughput cfg.emaAlpha (c.previous m).ema }

/-- Nothing has changed since the last call. -/
def skips (cfg : Config) (m : Memory) : Bool :=
  steady cfg (m c.pair).isNone (c.current cfg m) (c.previous m)

/-- What the call decides, where there is a previous value. -/
def decided (cfg : Config) (m : Memory) : Option Decision :=
  decideConnections cfg c.dataSource.getOptimizerMode c.range c.limits c.dataSource (m c.pair).isNone (c.current cfg m)
    (c.previous m) c.previousValue

def remembered (m : Memory) : Memory :=
  if (m c.pair).isNone then m.store c.pair c.firstFeedback else m

end Call

section connections

variable {cfg : Config} {c : Call} {m : Memory}

@[simp] theorem Memory.store_self (m : Memory) (pair : Pair) (state : PairState) : m.store pair state pair = some state :=
  Function.update_self ..

theorem Memory.store_of_ne (m : Memory) {pair pair' : Pair} (h : pair' ≠ pair) (state : PairState) :
    m.store pair state pair' = m pair' :=
  Function.update_of_ne h ..

theorem Call.remembered_pair (c : Call) (m : Memory) : c.remembered m c.pair = some (c.previous m) := by
  unfold Call.remembered Call.previous
  cases hm : m c.pair <;> simp [hm]

theorem optimizeConnections_of_zero (h : c.previousValue = 0) :
    optimizeConnectionsForPair cfg c.dataSource.getOptimizerMode c.pair c.dataSource m =
      (true,
        ((m.store c.pair { currentState c.dataSource with connections := (noInformation c.range).1 }).store c.pair
          c.firstFeedback,
        [.storeOptimizerDecision c.pair (noInformation c.range).1 (currentState c.dataSource) (noInformation c.range).1
          (noInformation c.range).2])) := by
  rw [Call.previousValue] at h
  simp only [optimizeConnectionsForPair, h, if_true]
  rfl

theorem optimizeConnections_of_ne (h : c.previousValue ≠ 0) :
    optimizeConnectionsForPair cfg c.dataSource.getOptimizerMode c.pair c.dataSource m =
      match c.decided cfg m with
      | none => (false, c.remembered m, [])
      | some d => (true, setOptimizerDecision c.pair d.decision (c.current cfg m) d.diff d.rationale (c.remembered m)) := by
  have hprevious : ((if (m c.pair).isNone then m.store c.pair c.firstFeedback else m) c.pair).getD {} = c.previous m := by
    rw [← Call.remembered, Call.remembered_pair, Option.getD_some]
  rw [Call.previousValue] at h
  simp only [optimizeConnectionsForPair, h, if_false]
  rw [← Call.firstFeedback, hprevious]
  rfl

/-! ### The three ends of a call -/

/-- The streams for a state of the pair. -/
def streamsFor (cfg : Config) (optMode : OptimizerMode) (state : PairState) : Int :=
  if optMode ≤ .conservative then 1
  else streamsDecision cfg state.connections (state.activeCount + state.queueSize)

theorem optimizeStreamsForPair_eq {pair : Pair} {state : PairState} (h : m pair = some state) (optMode : OptimizerMode) :
    optimizeStreamsForPair cfg optMode pair m = (m, [.storeOptimizerStreams pair (streamsFor cfg optMode state)]) := by
  unfold optimizeStreamsForPair streamsFor
  split
  · rfl
  · simp only [h, Option.getD_some]
    rw [Memory.store, ← h, Function.update_eq_self]

theorem run_of_zero (h : c.previousValue = 0) : runOptimizerForPair cfg c.pair c.dataSource m =
    (m.store c.pair c.firstFeedback,
      [.storeOptimizerDecision c.pair (noInformation c.range).1 (currentState c.dataSource) (noInformation c.range).1
          (noInformation c.range).2,
        .storeOptimizerStreams c.pair (streamsFor cfg c.dataSource.getOptimizerMode c.firstFeedback)]) := by
  rw [runOptimizerForPair, optimizeConnections_of_zero h]
  simp only [if_true]
  rw [optimizeStreamsForPair_eq (Memory.store_self ..), Memory.store, Memory.store, Function.update_idem]
  rfl

theorem run_of_decided (h : c.previousValue ≠ 0) {d : Decision} (hd : c.decided cfg m = some d) :
    runOptimizerForPair cfg c.pair c.dataSource m =
      ((c.remembered m).store c.pair { c.current cfg m with connections := d.decision },
        [.storeOptimizerDecision c.pair d.decision (c.current cfg m) d.diff d.rationale,
          .storeOptimizerStreams c.pair (streamsFor cfg c.dataSource.getOptimizerMode
            { c.current cfg m with connections := d.decision })]) := by
  rw [runOptimizerForPair, optimizeConnections_of_ne h, hd]
  simp only [if_true, setOptimizerDecision]
  rw [optimizeStreamsForPair_eq (Memory.store_self ..)]
  rfl

theorem run_of_skipped (h : c.previousValue ≠ 0) (hd : c.decided cfg m = none) :
    runOptimizerForPair cfg c.pair c.dataSource m = (c.remembered m, []) := by
  rw [runOptimizerForPair, optimizeConnections_of_ne h, hd]
  rfl

end connections

end Fts3.Optimizer
