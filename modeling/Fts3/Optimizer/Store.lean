import Fts3.MySql.Lemmas.Stranded
import Fts3.Optimizer.Decisions

/-!
# The optimizer on the database

`t_optimizer` has the decision that the next call reads back, so the range of one call is an invariant of the table: from a
value in the range of its link, and as long as no decrease for a throughput limit leaves the range, the value of a pair
stays in it, whatever else is executed in between.
-/

namespace Fts3.Optimizer

open Fts3.Sql Fts3.MySql Fts3.Machine

/-- What `MySqlOptimizerDataSource` executes. -/
def Write.store : Write → Op Unit
  | .storeOptimizerDecision pair activeDecision newState diff rationale => do
      setNewOptimizerValue pair activeDecision newState.ema
      updateOptimizerEvolution pair activeDecision diff rationale newState
  | .storeOptimizerStreams pair streams => MySql.storeOptimizerStreams pair streams

/-- The value that `getOptimizerValue` reads. -/
def storedValue (db : Db) (pair : Pair) : Int :=
  (getOptimizerValue pair).answer Stmt.exec db

/-- The working range that the tables give to the link. -/
def linkWorkingRange (db : Db) (pair : Pair) : Range :=
  (getOptimizerWorkingRange pair ((getPairLimits pair).answer Stmt.exec db)).1

/-- A call on the database. The answers about the transfers are left open. -/
def callOn (db : Db) (pair : Pair) (transfers : DataSource) : Call where
  pair := pair
  dataSource :=
    { transfers with
      getOptimizerMode := (getOptimizerModeInner pair).answer Stmt.exec db
      getPairLimits := (getPairLimits pair).answer Stmt.exec db
      getOptimizerValue := storedValue db pair }

/-- The service: a call for a pair, or a statement of another one. -/
inductive Event where
  | call (pair : Pair) (transfers : DataSource)
  | other (s : Stmt)

def serve (cfg : Config) (x : Db × State) : Event → Db × State
  | .call pair transfers =>
      let c := callOn x.1 pair transfers
      let writes := (runOptimizerForPair cfg c.pair c.dataSource x.2.inMemoryStore).2
      (Op.alone (writes.forM Write.store) x.1, step cfg x.2 c)
  | .other s => ((s.exec x.1).2, x.2)

/-- A decrease for a throughput limit stays in the range, and the table is left to the optimizer. -/
def Event.Within (cfg : Config) (x : Db × State) : Event → Prop
  | .call pair transfers =>
      let c := callOn x.1 pair transfers
      c.limited = true → c.range.min ≤ c.previousValue - cfg.decreaseStepSize
  | .other (.optimizer _) => False
  | .other _ => True

/-- Nothing is stored for the pair, or a value in the range of the link. -/
def Settled (db : Db) (pair : Pair) (value : Int) : Prop :=
  value = 0 ∨ InRange (linkWorkingRange db pair) value

/-! ## The table -/

section table

variable {db : Db} {pair pair' : Pair}

/-- The limits are set elsewhere: no statement of the services writes them. -/
theorem exec_limits (s : Stmt) (db : Db) : (s.exec db).2.linkConfig = db.linkConfig ∧ (s.exec db).2.se = db.se := by
  cases s <;> exact ⟨rfl, rfl⟩

theorem linkWorkingRange_congr {db' : Db} (h : db'.linkConfig = db.linkConfig ∧ db'.se = db.se) (pair : Pair) :
    linkWorkingRange db' pair = linkWorkingRange db pair := by
  have hlink : ∀ source dest, db'.link? source dest = db.link? source dest := by
    intro source dest
    rw [Db.link?, h.1, Db.link?]
  have hse : ∀ storage, db'.se? storage = db.se? storage := by
    intro storage
    rw [Db.se?, h.2, Db.se?]
  simp only [linkWorkingRange, getPairLimits, Proc.bind_eq, select_bind, Proc.answer_select, Proc.pure_eq, Proc.answer_ret,
    Db.outboundLimits, Db.inboundLimits, Db.linkRange, Db.linkConfig?, hlink, hse]

/-- The row of the pair. -/
def OptimizerRow.isOf (pair : Pair) (r : OptimizerRow) : Bool :=
  r.sourceSe = pair.source && r.destSe = pair.destination

/-- The value in the rows of `t_optimizer`. -/
def rowsValue (pair : Pair) (rows : List OptimizerRow) : Int :=
  ((rows.find? (OptimizerRow.isOf pair)).bind (·.active)).getD 0

theorem isOf_eq {r : OptimizerRow} (h : OptimizerRow.isOf pair r = true) (h' : OptimizerRow.isOf pair' r = true) :
    pair' = pair := by
  simp only [OptimizerRow.isOf, Bool.and_eq_true, decide_eq_true_eq] at h h'
  cases pair
  cases pair'
  simp_all

theorem find?_map_isOf {f : OptimizerRow → OptimizerRow} (hf : ∀ r, OptimizerRow.isOf pair (f r) = OptimizerRow.isOf pair r)
    (rows : List OptimizerRow) :
    (rows.map f).find? (OptimizerRow.isOf pair) = (rows.find? (OptimizerRow.isOf pair)).map f := by
  rw [List.find?_map]
  congr 2
  exact funext hf

/-- An `UPDATE` of other columns, or of other pairs. -/
theorem rowsValue_map {f : OptimizerRow → OptimizerRow} (hf : ∀ r, OptimizerRow.isOf pair (f r) = OptimizerRow.isOf pair r)
    (hactive : ∀ r, OptimizerRow.isOf pair r = true → (f r).active = r.active) (rows : List OptimizerRow) :
    rowsValue pair (rows.map f) = rowsValue pair rows := by
  rw [rowsValue, find?_map_isOf hf, rowsValue]
  cases hfind : rows.find? (OptimizerRow.isOf pair) with
  | none => rfl
  | some r =>
      rw [Option.map_some, Option.bind_some, Option.bind_some, hactive r (List.find?_some hfind)]

theorem rowsValue_upsert (active : Int) (ema : Rat) (now : Nat) (rows : List OptimizerRow) :
    rowsValue pair (upsertOptimizer pair'.source pair'.destination active ema now rows) =
      if pair' = pair then active else rowsValue pair rows := by
  have hkey : ∀ r : OptimizerRow, OptimizerRow.isOf pair (if r.sourceSe = pair'.source ∧ r.destSe = pair'.destination then
      { r with active := some active, ema := some ema, datetime := now } else r) = OptimizerRow.isOf pair r := by
    intro r
    split <;> rfl
  unfold upsertOptimizer
  by_cases hpair : pair' = pair
  · subst hpair
    rw [if_pos rfl]
    split
    · rename_i hany
      obtain ⟨r, hr, hrow⟩ := List.any_eq_true.mp hany
      have hsome : (rows.find? (OptimizerRow.isOf pair')).isSome = true := List.find?_isSome.mpr ⟨r, hr, hrow⟩
      obtain ⟨r', hr'⟩ := Option.isSome_iff_exists.mp hsome
      have hmatch : r'.sourceSe = pair'.source ∧ r'.destSe = pair'.destination := by
        simpa [OptimizerRow.isOf] using List.find?_some hr'
      rw [rowsValue, find?_map_isOf hkey, hr', Option.map_some, Option.bind_some, if_pos hmatch]
      rfl
    · simp [rowsValue, OptimizerRow.isOf]
  · rw [if_neg hpair]
    have hother : ∀ r, OptimizerRow.isOf pair r = true → ¬(r.sourceSe = pair'.source ∧ r.destSe = pair'.destination) :=
      fun r hr hrow => hpair (isOf_eq hr (by simpa [OptimizerRow.isOf] using hrow))
    split
    · refine rowsValue_map hkey (fun r hr => ?_) rows
      rw [if_neg (hother r hr)]
    · rw [rowsValue, List.find?_cons_of_neg, rowsValue]
      intro hrow
      exact hother _ hrow ⟨rfl, rfl⟩

/-- A decision, and the streams after it. -/
theorem storedValue_decision (db : Db) (pair pair' : Pair) (d : Int) (state : PairState) (diff : Int) (rationale : String)
    (s : Int) :
    storedValue (Op.alone (List.forM [Write.storeOptimizerDecision pair' d state diff rationale,
      Write.storeOptimizerStreams pair' s] Write.store) db) pair = if pair' = pair then d else storedValue db pair := by
  have hstreams : ∀ rows now, rowsValue pair
      ((OptimizerUpdate.storeOptimizerStreams pair'.source pair'.destination s).optimizer now rows) = rowsValue pair rows := by
    intro rows now
    refine rowsValue_map (fun r => ?_) (fun r _ => ?_) rows
    · split <;> rfl
    · split <;> rfl
  exact (hstreams _ _).trans (rowsValue_upsert d state.ema db.now db.optimizer)

end table

/-! ## Runs of the service -/

section service

variable {cfg : Config} {db₀ : Db} {x : Db × State}

/-- The limits are as at first, and the value of every pair is settled. -/
def Kept (db₀ : Db) (x : Db × State) : Prop :=
  (x.1.linkConfig = db₀.linkConfig ∧ x.1.se = db₀.se) ∧ ∀ pair, Settled db₀ pair (storedValue x.1 pair)

theorem callOn_range (hx : Kept db₀ x) (pair : Pair) (transfers : DataSource) :
    (callOn x.1 pair transfers).range = linkWorkingRange db₀ pair :=
  linkWorkingRange_congr hx.1 pair

theorem callOn_keepsToRange (hx : Kept db₀ x) {pair : Pair} (hvalid : Valid (linkWorkingRange db₀ pair))
    (hstep : 0 ≤ cfg.decreaseStepSize) {transfers : DataSource} (h : (Event.call pair transfers).Within cfg x) :
    KeepsToRange cfg x.2 (callOn x.1 pair transfers) := by
  have hrange := callOn_range hx pair transfers
  apply keepsToRange_of_previous
  · rw [hrange]
    exact hvalid.2
  · rw [hrange]
    exact hx.2 pair
  · exact hstep
  · exact h

/-- What a call stores for its pair is in the range; other pairs are left alone. -/
theorem storedValue_call (c : Call) (o : State) (h : StoresInRange cfg o c) (db : Db) (pair : Pair) :
    let db' := Op.alone ((runOptimizerForPair cfg c.pair c.dataSource o.inMemoryStore).2.forM Write.store) db
    storedValue db' pair = storedValue db pair ∨ c.pair = pair ∧ InRange c.range (storedValue db' pair) := by
  intro db'
  by_cases hprev : c.previousValue = 0
  · have hin := h _ (by rw [run_of_zero hprev]; exact List.mem_cons_self) _ rfl
    simp only [db', run_of_zero hprev, storedValue_decision]
    split
    · exact .inr ⟨‹_›, hin⟩
    · exact .inl rfl
  · cases hd : c.decided cfg o.inMemoryStore with
    | none =>
        left
        simp only [db', run_of_skipped hprev hd]
        rfl
    | some d =>
        have hin := h _ (by rw [run_of_decided hprev hd]; exact List.mem_cons_self) _ rfl
        simp only [db', run_of_decided hprev hd, storedValue_decision]
        split
        · exact .inr ⟨‹_›, hin⟩
        · exact .inl rfl

theorem Kept.serve (hvalid : ∀ pair, Valid (linkWorkingRange db₀ pair)) (hstep : 0 ≤ cfg.decreaseStepSize) {e : Event}
    (h : e.Within cfg x) (hx : Kept db₀ x) : Kept db₀ (serve cfg x e) := by
  cases e with
  | call pair transfers =>
      have hstores := (storesInRange_iff cfg x.2 _).mpr (callOn_keepsToRange hx (hvalid pair) hstep h)
      refine ⟨?_, fun pair' => ?_⟩
      · exact Op.alone_keeps (I := fun db => db.linkConfig = db₀.linkConfig ∧ db.se = db₀.se)
          (fun s db hdb => ⟨(exec_limits s db).1.trans hdb.1, (exec_limits s db).2.trans hdb.2⟩) _ hx.1
      · rcases storedValue_call (callOn x.1 pair transfers) x.2 hstores x.1 pair' with hsame | ⟨hpair, hin⟩
        · exact hsame ▸ hx.2 pair'
        · rw [callOn_range hx] at hin
          have hpair' : pair = pair' := hpair
          subst hpair'
          exact .inr hin
  | other s =>
      refine ⟨⟨(exec_limits s x.1).1.trans hx.1.1, (exec_limits s x.1).2.trans hx.1.2⟩, fun pair => ?_⟩
      cases s with
      | optimizer u => exact h.elim
      | _ => exact hx.2 pair

end service

/-- With limits in order, and from values in the ranges of their links: in every run of the service in which no decrease
for a throughput limit leaves the range, with any other statements in between, the value of every pair stays in the range
of its link. -/
theorem optimizer_stays_in_range (cfg : Config) (db₀ : Db) (events : List Event) (hstep : 0 ≤ cfg.decreaseStepSize)
    (horder : ∀ pair, LimitsInOrder pair db₀) (hdb₀ : ∀ pair, Settled db₀ pair (storedValue db₀ pair))
    (h : Meets (serve cfg) (fun x e => e.Within cfg x) (db₀, {}) events) (pair : Pair) :
    Settled db₀ pair (storedValue (run (serve cfg) (db₀, {}) events).1 pair) := by
  have hvalid : ∀ pair, Valid (linkWorkingRange db₀ pair) := fun pair =>
    valid_workingRange_iff.mpr ((linkRange_in_order_iff pair db₀).mpr (horder pair))
  have hkept : Kept db₀ (run (serve cfg) (db₀, {}) events) :=
    h.invariant (fun x e he hx => hx.serve hvalid hstep he) ⟨⟨rfl, rfl⟩, hdb₀⟩
  exact hkept.2 pair

end Fts3.Optimizer
