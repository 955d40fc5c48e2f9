import Fts3.MySql.Lemmas.Stranded

/-!
# The best next replica

`getBestNextReplica` on the rows as they stand in `t_file`, where `source_se`, `dest_se` and `vo_name` may
be `NULL`, and with the links in whatever order the database lists them.
-/

namespace Fts3.MySql

open Fts3.Sql

abbrev Link := Option String × Option String

/-- The columns of `t_file` that `getBestNextReplica` reads. -/
structure ReplicaRow where
  fileId : Nat
  jobId : String
  fileState : FileState
  sourceSe : Option String
  destSe : Option String
  voName : Option String
  deriving DecidableEq

/-- The `=` of SQL: nothing equals `NULL`. -/
def sqlEq (a b : Option String) : Bool :=
  a.isSome && a = b

@[simp] theorem sqlEq_some {a : Option String} {s : String} : sqlEq a (some s) = true ↔ a = some s := by
  simp only [sqlEq, Bool.and_eq_true, decide_eq_true_eq, and_iff_right_iff_imp]
  rintro rfl
  rfl

theorem sqlEq_some_some (s t : String) : sqlEq (some s) (some t) = decide (s = t) := by
  simp [sqlEq]

namespace ReplicaRow

def link (r : ReplicaRow) : Link := (r.sourceSe, r.destSe)

/-- A replica of the job that has not been tried. -/
def unused (jobId : String) (r : ReplicaRow) : Bool :=
  r.jobId = jobId && r.fileState = .notUsed

end ReplicaRow

/-- The `select count(*)` on one link. -/
def linkQueue (rows : List ReplicaRow) (voName : String) (link : Link) : Nat :=
  rows.countP fun r => r.fileState = .submitted && sqlEq r.sourceSe link.1 && sqlEq r.destSe link.2 &&
    sqlEq r.voName (some voName)

/-- The loop over the rowset: `NULL` is read as the empty string, and a free link ends the loop. -/
def queuedPairs (rows : List ReplicaRow) (voName : String) : List Link → List ((String × String) × Nat)
  | [] => []
  | it :: rs =>
      let key := (it.1.getD "", it.2.getD "")
      let queued := linkQueue rows voName (some key.1, some key.2)
      if queued = 0 then [(key, queued)] else (key, queued) :: queuedPairs rows voName rs

def bestNextReplica (rows : List ReplicaRow) (rs : List Link) (jobId voName : String) : Nat :=
  match minLink (queuedPairs rows voName rs) with
  | none => 0
  | some best =>
      ((rows.find? fun r => r.fileState = .notUsed && sqlEq r.sourceSe (some best.1) &&
        sqlEq r.destSe (some best.2) && r.jobId = jobId).map (·.fileId)).getD 0

/-- The answer for the job: 0 without a replica, and else one on a link with the shortest queue. -/
structure IsBestReplica (rows : List ReplicaRow) (jobId voName : String) (best : Nat) : Prop where
  none_iff : best = 0 ↔ ∀ r ∈ rows, r.unused jobId = false
  shortest : best ≠ 0 → ∃ r ∈ rows, r.unused jobId = true ∧ r.fileId = best ∧
    ∀ r' ∈ rows, r'.unused jobId = true → linkQueue rows voName r.link ≤ linkQueue rows voName r'.link

/-! ## The loop over the links -/

section loop

variable {rows : List ReplicaRow} {voName : String} {rs : List Link}

theorem queuedPairs_value : ∀ e ∈ queuedPairs rows voName rs,
    e.2 = linkQueue rows voName (some e.1.1, some e.1.2) ∧ ∃ it ∈ rs, e.1 = (it.1.getD "", it.2.getD "") := by
  induction rs with
  | nil => simp [queuedPairs]
  | cons it rs ih =>
      intro e he
      simp only [queuedPairs] at he
      split at he
      · rw [List.mem_singleton.mp he]
        exact ⟨rfl, it, by simp, rfl⟩
      · rcases List.mem_cons.mp he with rfl | he
        · exact ⟨rfl, it, by simp, rfl⟩
        · obtain ⟨hvalue, it', hit', hkey⟩ := ih e he
          exact ⟨hvalue, it', List.mem_cons_of_mem _ hit', hkey⟩

/-- The loop has seen every link, or has ended at a free one. -/
theorem queuedPairs_le {it : Link} (hit : it ∈ rs) : ∃ e ∈ queuedPairs rows voName rs,
    e.2 ≤ linkQueue rows voName (some (it.1.getD ""), some (it.2.getD "")) := by
  induction rs with
  | nil => cases hit
  | cons it' rs ih =>
      simp only [queuedPairs]
      split
      · rename_i hfree
        exact ⟨_, List.mem_singleton_self _, by omega⟩
      · rcases List.mem_cons.mp hit with rfl | hit
        · exact ⟨_, List.mem_cons_self, le_refl _⟩
        · obtain ⟨e, he, hle⟩ := ih hit
          exact ⟨e, List.mem_cons_of_mem _ he, hle⟩

theorem queuedPairs_ne_nil (hrs : rs ≠ []) : queuedPairs rows voName rs ≠ [] := by
  cases rs with
  | nil => exact absurd rfl hrs
  | cons it rs =>
      simp only [queuedPairs]
      split
      · simp
      · simp

end loop

/-! ## The answer -/

section answer

variable {rows : List ReplicaRow} {rs : List Link} {j vo : String}

theorem bestNextReplica_nil : bestNextReplica rows [] j vo = 0 := rfl

/-- Every unused replica has its two storages. -/
def StoragesKnown (j : String) (rows : List ReplicaRow) : Prop :=
  ∀ r ∈ rows, r.unused j = true → r.sourceSe.isSome = true ∧ r.destSe.isSome = true

/-- The rowset of the `select distinct`, in any order. -/
def ListsUnused (j : String) (rows : List ReplicaRow) (rs : List Link) : Prop :=
  ∀ it, it ∈ rs ↔ ∃ r ∈ rows, r.unused j = true ∧ r.link = it

theorem StoragesKnown.link_eq (h : StoragesKnown j rows) {r : ReplicaRow} (hr : r ∈ rows) (hu : r.unused j = true) :
    (some (r.link.1.getD ""), some (r.link.2.getD "")) = r.link := by
  obtain ⟨hsrc, hdst⟩ := h r hr hu
  obtain ⟨s, hs⟩ := Option.isSome_iff_exists.mp hsrc
  obtain ⟨d, hd⟩ := Option.isSome_iff_exists.mp hdst
  simp [ReplicaRow.link, hs, hd]

/-- The second query finds a replica on the chosen link. -/
theorem bestNextReplica_of_minLink {best : String × String} (hmin : minLink (queuedPairs rows vo rs) = some best)
    {r : ReplicaRow} (hr : r ∈ rows) (hu : r.unused j = true) (hlink : r.link = (some best.1, some best.2)) :
    ∃ r' ∈ rows, r'.unused j = true ∧ r'.link = (some best.1, some best.2) ∧
      r'.fileId = bestNextReplica rows rs j vo := by
  simp only [bestNextReplica, hmin]
  simp only [ReplicaRow.unused, ReplicaRow.link, Bool.and_eq_true, decide_eq_true_eq, Prod.mk.injEq] at hu hlink ⊢
  cases hfind : rows.find? (fun r => decide (r.fileState = .notUsed) && sqlEq r.sourceSe (some best.1) &&
      sqlEq r.destSe (some best.2) && decide (r.jobId = j)) with
  | none =>
      rw [List.find?_eq_none] at hfind
      refine absurd ?_ (hfind r hr)
      simp [hu, hlink]
  | some r' =>
      have hsel := List.find?_some hfind
      simp only [Bool.and_eq_true, decide_eq_true_eq, sqlEq_some] at hsel
      exact ⟨r', List.mem_of_find?_eq_some hfind, ⟨hsel.2, hsel.1.1.1⟩, ⟨hsel.1.1.2, hsel.1.2⟩, rfl⟩

/-- With a replica left, the answer is a replica on a link with the shortest queue. -/
theorem bestNextReplica_shortest (hlist : ListsUnused j rows rs) (hknown : StoragesKnown j rows) {r₀ : ReplicaRow}
    (hr₀ : r₀ ∈ rows) (hu₀ : r₀.unused j = true) :
    ∃ r ∈ rows, r.unused j = true ∧ r.fileId = bestNextReplica rows rs j vo ∧
      ∀ r' ∈ rows, r'.unused j = true → linkQueue rows vo r.link ≤ linkQueue rows vo r'.link := by
  have hmem₀ : r₀.link ∈ rs := (hlist _).mpr ⟨r₀, hr₀, hu₀, rfl⟩
  have hne : queuedPairs rows vo rs ≠ [] := queuedPairs_ne_nil (List.ne_nil_of_mem hmem₀)
  obtain ⟨e, he, hmin, hleast⟩ := minLink_least hne
  obtain ⟨hvalue, it, hit, hkey⟩ := queuedPairs_value e he
  obtain ⟨r₁, hr₁, hu₁, rfl⟩ := (hlist it).mp hit
  have hlink₁ : r₁.link = (some e.1.1, some e.1.2) := by
    rw [hkey]
    exact (hknown.link_eq hr₁ hu₁).symm
  obtain ⟨r, hr, hu, hlink, hid⟩ := bestNextReplica_of_minLink hmin hr₁ hu₁ hlink₁
  refine ⟨r, hr, hu, hid, fun r' hr' hu' => ?_⟩
  obtain ⟨e', he', hle⟩ : ∃ e' ∈ queuedPairs rows vo rs, e'.2 ≤ linkQueue rows vo (some (r'.link.1.getD ""),
      some (r'.link.2.getD "")) := queuedPairs_le ((hlist _).mpr ⟨r', hr', hu', rfl⟩)
  calc linkQueue rows vo r.link = e.2 := by rw [hlink, hvalue]
    _ ≤ e'.2 := hleast e' he'
    _ ≤ linkQueue rows vo r'.link := by rwa [hknown.link_eq hr' hu'] at hle

/-- `getBestNextReplica` gives the best replica, in whatever order the links are listed. -/
theorem bestNextReplica_isBest (hids : ∀ r ∈ rows, 0 < r.fileId) (hlist : ListsUnused j rows rs)
    (hknown : StoragesKnown j rows) : IsBestReplica rows j vo (bestNextReplica rows rs j vo) := by
  by_cases hleft : ∃ r ∈ rows, r.unused j = true
  · obtain ⟨r₀, hr₀, hu₀⟩ := hleft
    obtain ⟨r, hr, hu, hid, hshort⟩ : ∃ r ∈ rows, r.unused j = true ∧ r.fileId = bestNextReplica rows rs j vo ∧
        ∀ r' ∈ rows, r'.unused j = true → linkQueue rows vo r.link ≤ linkQueue rows vo r'.link :=
      bestNextReplica_shortest hlist hknown hr₀ hu₀
    refine ⟨⟨fun hzero => ?_, fun hnone => ?_⟩, fun _ => ⟨r, hr, hu, hid, hshort⟩⟩
    · have hpos := hids r hr
      omega
    · simp [hnone r₀ hr₀] at hu₀
  · have hnone : ∀ r ∈ rows, r.unused j = false := fun r hr => by
      simpa using fun hu => hleft ⟨r, hr, hu⟩
    have hrs : rs = [] := List.eq_nil_iff_forall_not_mem.mpr fun it hit =>
      let ⟨r, hr, hu, _⟩ := (hlist it).mp hit
      hleft ⟨r, hr, hu⟩
    subst hrs
    exact ⟨⟨fun _ => hnone, fun _ => bestNextReplica_nil⟩, fun h => absurd bestNextReplica_nil h⟩

end answer

/-- Two replicas, the second on a link with nothing queued, listed after the busy one. -/
def busyAndFreeLink : List ReplicaRow :=
  [⟨1, "j", .notUsed, some "a", some "d", some "atlas"⟩, ⟨2, "j", .notUsed, some "b", some "d", some "atlas"⟩,
    ⟨3, "k", .submitted, some "a", some "d", some "atlas"⟩]

theorem bestNextReplica_of_freeLink :
    IsBestReplica busyAndFreeLink "j" "atlas"
      (bestNextReplica busyAndFreeLink [(some "a", some "d"), (some "b", some "d")] "j" "atlas") :=
  bestNextReplica_isBest (by decide)
    (fun it => ⟨fun hit => by
      rcases List.mem_cons.mp hit with rfl | hit
      · exact ⟨busyAndFreeLink[0], by decide, by decide, rfl⟩
      · exact ⟨busyAndFreeLink[1], by decide, by decide, (List.mem_singleton.mp hit).symm⟩,
      fun ⟨r, hr, hu, hit⟩ => by
        have hlinks : ∀ r ∈ busyAndFreeLink, r.unused "j" = true →
            r.link ∈ [(some "a", some "d"), (some "b", some "d")] := by decide
        exact hit ▸ hlinks r hr hu⟩)
    (by simp [StoragesKnown, busyAndFreeLink, ReplicaRow.unused])

/-- A replica whose `source_se` is `NULL`: the link reads as free, and no file is found on it. -/
theorem bestNextReplica_of_null :
    ¬IsBestReplica [⟨1, "j", .notUsed, none, some "d", some "atlas"⟩] "j" "atlas"
      (bestNextReplica [⟨1, "j", .notUsed, none, some "d", some "atlas"⟩] [(none, some "d")] "j" "atlas") := by
  intro h
  exact absurd (h.none_iff.mp (by decide)) (by decide)

/-! ## The operation -/

def FileRow.replicaRow (r : FileRow) : ReplicaRow where
  fileId := r.fileId
  jobId := r.jobId
  fileState := r.fileState
  sourceSe := some r.sourceSe
  destSe := some r.destSe
  voName := some r.voName

theorem linkQueue_replicaRows (db : Db) (vo : String) (link : String × String) :
    linkQueue (db.files.rows.map FileRow.replicaRow) vo (some link.1, some link.2) = db.files.matched fun r =>
      r.fileState = .submitted && r.sourceSe = link.1 && r.destSe = link.2 && r.voName = vo := by
  simp only [linkQueue, List.countP_map, Table.matched, FileRow.replicaRow, Function.comp_def, sqlEq_some_some]
  rfl

theorem queuedPerLink_refines (db : Db) (vo : String) (links : List (String × String)) :
    ((queuedPerLink vo links).run Stmt.exec db).1 = queuedPairs (db.files.rows.map FileRow.replicaRow) vo
      (links.map fun link => (some link.1, some link.2)) := by
  induction links with
  | nil => rfl
  | cons link links ih =>
      simp only [queuedPerLink, Proc.bind_eq, select_bind, Proc.run_select, List.map_cons, queuedPairs,
        Option.getD_some, linkQueue_replicaRows]
      split
      · rename_i hfree
        simp [hfree]
      · simp [Proc.run_bind, ih]

/-- The operation computes `bestNextReplica` on the rows of the table. -/
theorem getBestNextReplica_refines (node : Node) (db : Db) (j vo : String) :
    ((getBestNextReplica node j vo).run Stmt.exec db).1 =
      bestNextReplica (db.files.rows.map FileRow.replicaRow) ((node.listLinks (((db.filesOf j).filter fun r =>
        r.fileState = .notUsed).map fun r => (r.sourceSe, r.destSe)).dedup).map fun link => (some link.1, some link.2))
        j vo := by
  simp only [getBestNextReplica, Proc.bind_eq, select_bind, Proc.run_select, Proc.run_bind,
    (queuedPerLink_run vo _ db).1, queuedPerLink_refines, bestNextReplica]
  cases minLink (queuedPairs (db.files.rows.map FileRow.replicaRow) vo ((node.listLinks (((db.filesOf j).filter fun r =>
      r.fileState = .notUsed).map fun r => (r.sourceSe, r.destSe)).dedup).map fun link => (some link.1, some link.2))) with
  | none => rfl
  | some best =>
      simp only [select, Proc.query, Proc.run_select, Proc.run_ret, List.find?_map, Option.map_map, FileRow.replicaRow,
        Function.comp_def, sqlEq_some_some]
      rfl

end Fts3.MySql
