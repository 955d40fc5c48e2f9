import Fts3.MySql.Lemmas.Spares

/-!
# Dead hosts and their transfers

`recoverFromDeadHosts` cancels the transfers of the servers whose beat is older than two hours, and the lead node
deletes the rows with a beat that old from `t_hosts`. What a run needs for the recovery to find every dead host is that
no row is deleted while a transfer is assigned to its host.
-/

namespace Fts3.MySql

open Fts3.Sql

/-- The host that a `READY` or `ACTIVE` transfer is assigned to. -/
def FileRow.assigned? (r : FileRow) : Option String :=
  if r.fileState = .ready ∨ r.fileState = .active then r.transferHost else none

/-- No beat of the server on the host is younger than two hours. -/
def Db.silent (db : Db) (h : String) : Bool :=
  db.hosts.all fun row =>
    !(row.hostname = h && row.serviceName = "fts_server") || row.beat.all fun t => t + 120 * 60 < db.now

/-- The hosts that `recoverFromDeadHosts` selects. -/
def Db.deadHosts (db : Db) : List String :=
  (db.hosts.filter fun h => (h.beat.any fun t => t + 120 * 60 < db.now) && h.serviceName = "fts_server").map (·.hostname)

def Db.registered (db : Db) (h : String) : Bool :=
  db.hosts.any fun row => row.hostname = h && row.serviceName = "fts_server" && row.beat.isSome

/-- Every transfer that is assigned to a host has the row of its server. -/
def Housed (db : Db) : Prop :=
  ∀ r ∈ db.files.rows, ∀ h ∈ r.assigned?, db.registered h = true

instance (db : Db) : Decidable (Housed db) :=
  inferInstanceAs (Decidable (∀ r ∈ db.files.rows, ∀ h ∈ r.assigned?, db.registered h = true))

/-- The step assigns transfers to registered hosts only, and deletes no row of a host with transfers. -/
def Step.keepsHosts (e : Step) : Bool :=
  match e.act with
  | .update .deleteOldHosts => e.pre.hosts.all fun row =>
      !(row.isOld e.pre.now && row.serviceName = "fts_server") ||
        e.pre.files.rows.all fun r => r.assigned? ≠ some row.hostname
  | .update (.file u) => e.pre.files.rows.all fun r =>
      !u.selects r || (u.sets e.pre.now r).assigned?.all fun h => r.assigned? = some h || e.pre.registered h
  | _ => true

/-- The recovery selects every host that has been silent for two hours and has a transfer. -/
def DeadHostsKnown (db : Db) : Prop :=
  ∀ r ∈ db.files.rows, ∀ h ∈ r.assigned?, db.silent h = true → h ∈ db.deadHosts

instance (db : Db) : Decidable (DeadHostsKnown db) :=
  inferInstanceAs (Decidable (∀ r ∈ db.files.rows, ∀ h ∈ r.assigned?, db.silent h = true → h ∈ db.deadHosts))

section registered

variable {db : Db} {h : String}

theorem registered_iff : db.registered h = true ↔
    ∃ row ∈ db.hosts, row.hostname = h ∧ row.serviceName = "fts_server" ∧ row.beat.isSome = true := by
  simp [Db.registered, and_assoc]

theorem mem_deadHosts (hreg : db.registered h = true) (hsilent : db.silent h = true) : h ∈ db.deadHosts := by
  obtain ⟨row, hrow, rfl, hservice, hbeat⟩ := registered_iff.mp hreg
  obtain ⟨t, ht⟩ := Option.isSome_iff_exists.mp hbeat
  have hold := List.all_eq_true.mp hsilent row hrow
  simp only [hservice, ht, decide_true, Bool.and_self, Bool.not_true, Bool.false_or, Option.all_some] at hold
  refine List.mem_map_of_mem (List.mem_filter.mpr ⟨hrow, ?_⟩)
  simpa [ht, hservice] using hold

theorem registered_upsertBeat (host service : String) (hreg : db.registered h = true) :
    ((Stmt.updateBeat host service).exec db).2.registered h = true := by
  obtain ⟨row, hrow, rfl, hservice, hbeat⟩ := registered_iff.mp hreg
  rw [registered_iff]
  simp only [Stmt.exec, upsertBeat]
  split
  · refine ⟨_, List.mem_map_of_mem hrow, ?_⟩
    split
    · exact ⟨rfl, hservice, rfl⟩
    · exact ⟨rfl, hservice, hbeat⟩
  · exact ⟨row, List.mem_cons_of_mem _ hrow, rfl, hservice, hbeat⟩

end registered

/-! ## Runs -/

theorem Housed.step {e : Step} (he : e.Executes Stmt.exec) (hkeeps : e.keepsHosts = true) (h : Housed e.pre) :
    Housed e.post := by
  unfold Event.Executes at he
  unfold Step.keepsHosts at hkeeps
  split at he
  · rename_i s hs
    rw [he.2]
    rw [hs] at hkeeps
    cases s with
    | file u =>
        refine Table.forall_update (u.sets_fileId e.pre.now) (I := fun r => ∀ h ∈ r.assigned?, e.pre.registered h = true)
          (fun r hr hsel hrow host hhost => ?_) h
        have hnew := List.all_eq_true.mp hkeeps r hr
        rw [Option.mem_def] at hhost
        simp only [hsel, hhost, Bool.not_true, Bool.false_or, Option.all_some, Bool.or_eq_true, decide_eq_true_eq] at hnew
        rcases hnew with hold | hreg
        · exact hrow host hold
        · exact hreg
    | updateBeat host service => exact fun r hr host' hhost => registered_upsertBeat host service (h r hr host' hhost)
    | deleteOldHosts =>
        intro r hr host hhost
        obtain ⟨row, hrow, rfl, hservice, hbeat⟩ := registered_iff.mp (h r hr host hhost)
        refine registered_iff.mpr ⟨row, List.mem_filter.mpr ⟨hrow, ?_⟩, rfl, hservice, hbeat⟩
        rw [Bool.not_eq_true', ← Bool.not_eq_true]
        intro hold
        have hnone := List.all_eq_true.mp hkeeps row hrow
        simp only [hold, hservice, decide_true, Bool.and_self, Bool.not_true, Bool.false_or, List.all_eq_true,
          decide_eq_true_eq] at hnone
        exact hnone r hr hhost
    | deleteFiles ids => exact fun r hr => h r (List.mem_filter.mp hr).1
    | _ => exact h
  · rw [he]
    exact h

theorem housed_after {db : Db} (hdb : Housed db) (calls : List Call) (schedule : List Nat)
    (h : ∀ e ∈ System.steps db calls schedule, Step.keepsHosts e = true) :
    Housed (System.after db calls schedule).store := by
  refine Pool.run_invariant (C := fun e => Step.keepsHosts e = true) (I := fun P => Housed P.store) ?_ schedule h hdb
  intro P P' i e hs hkeeps hP
  obtain ⟨hpre, hpost⟩ := Pool.step_store hs
  rw [← hpost]
  exact Housed.step (Pool.step_act hs) hkeeps (hpre ▸ hP)

/-! ## The recovery -/

section recovery

variable {node : Node} {db : Db} {f : Nat} {r : FileRow}

def offlineMessage (deadHost : String) : String :=
  "Transfer has been forced-canceled because host " ++ deadHost ++
    " is offline and the transfer is still assigned to it"

/-- The body of the loop over the dead hosts. -/
def recoverHost (node : Node) (deadHost : String) : Op Unit := do
  let active ← select .rows fun db =>
    db.files.select fun r => r.fileState = .active && r.transferHost = some deadHost
  active.forM (recoverFile node .canceled (offlineMessage deadHost))

theorem recoverFromDeadHosts_alone (node : Node) (db : Db) :
    (recoverFromDeadHosts node).alone db = Op.alone (db.deadHosts.forM (recoverHost node)) db := rfl

theorem recoverHost_eq (node : Node) : recoverHost node = fun h =>
    recoverSelected node .canceled (fun r => r.fileState = .active && r.transferHost = some h) fun _ => offlineMessage h := rfl

/-- The recovery cancels an `ACTIVE` transfer of a dead host. -/
theorem recoverFromDeadHosts_cancels (hdb : db.Keyed) (hr : db.files.find? f = some r) (hst : r.fileState = .active)
    {h : String} (hhost : r.transferHost = some h) (hdead : h ∈ db.deadHosts) :
    ((recoverFromDeadHosts node).alone db).fileState? f = some .canceled := by
  obtain ⟨r', hr', hst', -⟩ := recoverEach_stores node .canceled
    (fun h r => r.fileState = .active && r.transferHost = some h) (fun h _ => offlineMessage h) hdb hr (by simp [hst])
    (by simp [refused, hst]) (by simp) (by simp) (fun h r hst => by simp [hst]) ⟨h, hdead, by simp [hst, hhost]⟩
  rw [recoverFromDeadHosts_alone, recoverHost_eq, Db.fileState?, hr', Option.map_some, hst']

/-- It leaves a `READY` one as it is. -/
theorem recoverFromDeadHosts_ready (hdb : db.Keyed) (hr : db.files.find? f = some r) (hst : r.fileState = .ready) :
    ((recoverFromDeadHosts node).alone db).files.find? f = some r := by
  rw [recoverFromDeadHosts_alone, recoverHost_eq]
  exact recoverEach_spares hdb hr (by simp [hst]) fun h _ => by simp [hst]

end recovery

theorem keyed_after {db : Db} (hdb : db.Keyed) (calls : List Call) (schedule : List Nat) :
    (System.after db calls schedule).store.Keyed := by
  refine Pool.run_invariant (C := fun _ => True) (I := fun P => Db.Keyed P.store) ?_ schedule (fun _ _ => trivial) hdb
  intro P P' i e hs _ hP
  obtain ⟨hpre, hpost⟩ := Pool.step_store hs
  have hexec := Pool.step_act hs
  rw [← hpost]
  unfold Event.Executes at hexec
  split at hexec
  · rw [hexec.2, hpre]
    exact hP.exec _
  · rw [hexec, hpre]
    exact hP

/-- In a run that deletes no row of a host with transfers, and assigns transfers to registered hosts only: the host of
a transfer is known to the recovery once it has been silent for two hours, and the recovery cancels the transfer if it
is `ACTIVE`. -/
theorem dead_hosts_known (db : Db) (calls : List Call) (schedule : List Nat) (hdb : Housed db) (hkeyed : db.Keyed)
    (h : ∀ e ∈ System.steps db calls schedule, Step.keepsHosts e = true) :
    DeadHostsKnown (System.after db calls schedule).store ∧
      ∀ r ∈ (System.after db calls schedule).store.files.rows, ∀ host ∈ r.assigned?,
        (System.after db calls schedule).store.silent host = true → ∀ node,
          (((recoverFromDeadHosts node).alone (System.after db calls schedule).store).fileState? r.fileId =
            some .canceled ↔ r.fileState = .active) := by
  have hknown : DeadHostsKnown (System.after db calls schedule).store := fun r hr host hhost hsilent =>
    mem_deadHosts (housed_after hdb calls schedule h r hr host hhost) hsilent
  refine ⟨hknown, fun r hr host hhost hsilent node => ?_⟩
  have hdead := hknown r hr host hhost hsilent
  have hkeyed' := keyed_after hkeyed calls schedule
  rw [Option.mem_def, FileRow.assigned?, ite_eq_iff] at hhost
  simp only [reduceCtorEq, and_false, or_false] at hhost
  obtain ⟨hst | hst, hhost⟩ := hhost
  · rw [Db.fileState?, recoverFromDeadHosts_ready hkeyed' (Table.find?_key hr) hst, Option.map_some, hst]
    simp
  · simp only [hst, iff_true]
    exact recoverFromDeadHosts_cancels hkeyed' (Table.find?_key hr) hst hhost hdead

/-- Host `b`, with an `ACTIVE` transfer, does not beat any more. -/
def deadHostDb (drain : Int) : Db where
  files := .ofRows [{ fileId := 1, jobId := "j", fileState := .active, transferHost := some "b" }]
  jobs := .ofRows [{ jobId := "j", jobState := .active, jobType := some .regular }]
  hosts := [{ hostname := "b", serviceName := "fts_server", beat := some 0, drain := some drain }]

/-- Two hours later the lead node beats. -/
def leadBeats : List Call := [.tick 7201, .updateHeartBeat { hostname := "a" } "fts_server"]

theorem dead_hosts_known_draining :
    (System.after (deadHostDb 1) leadBeats [0, 1, 1, 1, 1, 1, 1, 1]).store.deadHosts = ["b"] ∧
      DeadHostsKnown (System.after (deadHostDb 1) leadBeats [0, 1, 1, 1, 1, 1, 1, 1]).store :=
  ⟨by decide, (dead_hosts_known (deadHostDb 1) leadBeats [0, 1, 1, 1, 1, 1, 1, 1] (by decide) (by decide) (by decide)).1⟩

theorem dead_host_forgotten :
    Housed (deadHostDb 0) ∧ ¬DeadHostsKnown (System.after (deadHostDb 0) leadBeats [0, 1, 1, 1, 1, 1, 1, 1]).store := by
  decide

end Fts3.MySql
