import Fts3.MySql.Scheduling
import Fts3.Sql.Group
import Mathlib.Algebra.BigOperators.Ring.Finset

/-!
# Activities in the queue

How many files wait for each activity of a queue.
-/

namespace Fts3.MySql

open Fts3.Sql

/-- A file counts as its index in its job. -/
def FileRow.indexInJob (r : FileRow) : Option (String × Int) := r.fileIndex.map fun i => (r.jobId, i)

/-- The name that the activity of a file goes by. -/
def FileRow.activityName (r : FileRow) : String := MySql.activityName r.activity

variable (c : ActivityColumn)

/-- The name that the group of a file goes by. -/
def FileRow.countedAs (rows : List FileRow) (r : FileRow) : String :=
  MySql.activityName ((rows.find? fun r' => r'.activityKey c = r.activityKey c).bind (·.activity))

/-- The loop of `getActivitiesInQueue` over the groups of the rows. -/
def histogram (rows : List FileRow) : List (String × Int) :=
  (rows.map (FileRow.activityKey c)).dedup.foldl (fun m k =>
    mapInsert (MySql.activityName ((rows.find? fun r => r.activityKey c = k).bind (·.activity)))
      (countDistinct FileRow.indexInJob (rows.filter fun r => r.activityKey c = k) : Int) m) []

/-- The files that wait in a queue. -/
def Db.waitingIn (node : Node) (q : QueueId) (db : Db) : List FileRow :=
  db.files.select (FileRow.queuedIn node q db)

theorem getActivitiesInQueue_answer (node : Node) (q : QueueId) (db : Db) :
    (getActivitiesInQueue node q).answer Stmt.exec db = histogram node.activity (db.waitingIn node q) := rfl

theorem ordered_histogram (rows : List FileRow) : Ordered (histogram c rows) :=
  ordered_foldl_mapInsert _ _ _ List.Pairwise.nil

variable {c} {rows : List FileRow} {r r' : FileRow} {name : String}

theorem exists_activity (h : r.activityName ≠ "default") : ∃ a, r.activity = some a ∧ r.activityName = a.toLower := by
  unfold FileRow.activityName MySql.activityName at h ⊢
  cases hactivity : r.activity with
  | none =>
      rw [hactivity] at h
      exact absurd (by decide +kernel) h
  | some a =>
      rw [hactivity] at h
      by_cases ha : a = ""
      · exact absurd (by rw [ha]; decide +kernel) h
      · exact ⟨a, rfl, by simp [ha]⟩

/-- Files that go by one name are in one group, unless it is `default`. -/
theorem activityKey_eq (h : r.activityName ≠ "default") (heq : r.activityName = r'.activityName) :
    r.activityKey c = r'.activityKey c := by
  obtain ⟨a, ha, hname⟩ := exists_activity h
  obtain ⟨a', ha', hname'⟩ := exists_activity (heq ▸ h)
  rw [FileRow.activityKey, FileRow.activityKey, ha, ha', Option.map_some, Option.map_some, ← c.key_toLower a,
    ← c.key_toLower a', ← hname, ← hname', heq]

theorem countedAs_congr (h : r.activityKey c = r'.activityKey c) : r.countedAs c rows = r'.countedAs c rows := by
  rw [FileRow.countedAs, FileRow.countedAs, h]

/-- The name of a group is that of one of its files. -/
theorem exists_countedAs (c : ActivityColumn) (hr : r ∈ rows) :
    ∃ r' ∈ rows, r'.activityKey c = r.activityKey c ∧ r'.activityName = r.countedAs c rows := by
  have hsome : (rows.find? fun r' => r'.activityKey c = r.activityKey c).isSome :=
    List.find?_isSome.mpr ⟨r, hr, by simp⟩
  obtain ⟨r', hr'⟩ := Option.isSome_iff_exists.mp hsome
  refine ⟨r', List.mem_of_find?_eq_some hr', by simpa using List.find?_some hr', ?_⟩
  rw [FileRow.countedAs, hr']
  rfl

/-- The file whose group is read last among those that go by a name. -/
def lastOf (c : ActivityColumn) (rows : List FileRow) (name : String) : Option FileRow :=
  rows.reverse.find? fun r => r.countedAs c rows = name

/-- The entry of a name counts one of its groups. -/
theorem histogram_lookup (c : ActivityColumn) (rows : List FileRow) (name : String) : (histogram c rows).lookup name =
    (lastOf c rows name).map fun last =>
      (countDistinct FileRow.indexInJob (rows.filter fun r => r.activityKey c = last.activityKey c) : Int) := by
  rw [histogram, lookup_foldl_mapInsert, find?_reverse_dedup, ← List.map_reverse, List.find?_map]
  simp only [List.lookup_nil, Option.or_none, Option.map_map]
  rfl

theorem mem_lastOf {last : FileRow} (h : lastOf c rows name = some last) : last ∈ rows ∧ last.countedAs c rows = name := by
  refine ⟨List.mem_reverse.mp (List.mem_of_find?_eq_some h), ?_⟩
  simpa using List.find?_some h

theorem lastOf_isSome (hr : r ∈ rows) (h : r.countedAs c rows = name) : (lastOf c rows name).isSome :=
  List.find?_isSome.mpr ⟨r, List.mem_reverse.mpr hr, by simpa using h⟩

theorem exists_activityName (h : name ∈ (histogram c rows).map (·.1)) : ∃ r ∈ rows, r.activityName = name := by
  obtain ⟨e, he, rfl⟩ := List.mem_map.mp h
  have hlookup := (ordered_histogram c rows).lookup_of_mem he
  rw [histogram_lookup] at hlookup
  obtain ⟨last, hlast, -⟩ := Option.map_eq_some_iff.mp hlookup
  obtain ⟨hmem, hcounted⟩ := mem_lastOf hlast
  obtain ⟨r, hr, -, hname⟩ := exists_countedAs c hmem
  exact ⟨r, hr, hname.trans hcounted⟩

/-- Each activity has the number of its files. When the files of an index agree on their activity, the numbers come to
that of the files in the queue. -/
structure CountsFiles (rows : List FileRow) (activities : List (String × Int)) : Prop where
  counts : ∀ name, (activities.lookup name).getD 0 =
    countDistinct FileRow.indexInJob (rows.filter fun r => r.activityName = name)
  total : (∀ r ∈ rows, ∀ r' ∈ rows, ∀ i, r.indexInJob = some i → r'.indexInJob = some i →
      r.activityName = r'.activityName) →
    (activities.map (·.2)).sum = countDistinct FileRow.indexInJob rows

/-- How the groups have to stand to the names. A file of another activity than the default is in a group of its name; the
files of the default are in the group of that name that is read last, and where one of them is in a group of another
name, a file of this name has its index. -/
structure GroupsNamed (c : ActivityColumn) (rows : List FileRow) : Prop where
  ownName : ∀ r ∈ rows, r.activityName ≠ "default" → r.indexInJob.isSome → r.countedAs c rows = r.activityName
  inLast : ∀ r ∈ rows, r.activityName = "default" → ∀ i, r.indexInJob = some i → ∃ r' ∈ rows,
    (lastOf c rows "default").map (FileRow.activityKey c) = some (r'.activityKey c) ∧ r'.indexInJob = some i
  inOther : ∀ r ∈ rows, r.activityName = "default" → r.countedAs c rows ≠ "default" → ∀ i, r.indexInJob = some i →
    ∃ r' ∈ rows, r'.activityName = r.countedAs c rows ∧ r'.indexInJob = some i

/-- The number of files of a name. -/
def filesNamed (rows : List FileRow) (name : String) : Nat :=
  countDistinct FileRow.indexInJob (rows.filter fun r => r.activityName = name)

theorem filesNamed_pos (hr : r ∈ rows) (hindex : r.indexInJob.isSome) : 0 < filesNamed rows r.activityName := by
  obtain ⟨i, hi⟩ := Option.isSome_iff_exists.mp hindex
  refine List.length_pos_of_mem (a := i) (List.mem_dedup.mpr (List.mem_filterMap.mpr ⟨r, ?_, hi⟩))
  exact List.mem_filter.mpr ⟨hr, by simp⟩

theorem filesNamed_eq_zero (h : ∀ r ∈ rows, r.activityName = name → r.indexInJob = none) : filesNamed rows name = 0 := by
  have hnil : (rows.filter fun r => r.activityName = name).filterMap FileRow.indexInJob = [] := by
    rw [List.filterMap_eq_nil_iff]
    intro r hr
    obtain ⟨hr, hname⟩ := List.mem_filter.mp hr
    exact h r hr (of_decide_eq_true hname)
  rw [filesNamed, countDistinct, hnil]
  rfl

/-- The files of another name than the default that go by it are all in its one group. -/
theorem activityKey_last {last : FileRow} (hname : name ≠ "default") (hlast : lastOf c rows name = some last)
    (h : r.activityName = name) : r.activityKey c = last.activityKey c := by
  obtain ⟨hmem, hcounted⟩ := mem_lastOf hlast
  obtain ⟨first, -, hkey, hfirst⟩ := exists_countedAs c hmem
  rw [← hkey]
  exact activityKey_eq (h ▸ hname) (by rw [h, hfirst, hcounted])

section counts

variable (hcounts : ∀ name, ((histogram c rows).lookup name).getD 0 = (filesNamed rows name : Int))

include hcounts

theorem groupsNamed_ownName (hr : r ∈ rows) (hname : r.activityName ≠ "default") (hindex : r.indexInJob.isSome) :
    r.countedAs c rows = r.activityName := by
  have hpos := filesNamed_pos hr hindex
  have hcount := hcounts r.activityName
  rw [histogram_lookup] at hcount
  cases hlast : lastOf c rows r.activityName with
  | none =>
      rw [hlast, Option.map_none, Option.getD_none] at hcount
      omega
  | some last => rw [countedAs_congr (activityKey_last hname hlast rfl), (mem_lastOf hlast).2]

theorem groupsNamed_inLast (hr : r ∈ rows) (hname : r.activityName = "default") {i : String × Int}
    (hi : r.indexInJob = some i) : ∃ r' ∈ rows,
      (lastOf c rows "default").map (FileRow.activityKey c) = some (r'.activityKey c) ∧ r'.indexInJob = some i := by
  have hcount := hcounts "default"
  have hpos := filesNamed_pos hr (by rw [hi]; rfl)
  rw [histogram_lookup] at hcount
  cases hlast : lastOf c rows "default" with
  | none =>
      rw [hlast, Option.map_none, Option.getD_none] at hcount
      rw [hname] at hpos
      omega
  | some last =>
      rw [hlast, Option.map_some, Option.getD_some, Int.natCast_inj, filesNamed, countDistinct_filter_eq_iff] at hcount
      · obtain ⟨r', hr', hkey, hi'⟩ := hcount r hr (by simpa using hname) i hi
        exact ⟨r', hr', by rw [Option.map_some, of_decide_eq_true hkey], hi'⟩
      · -- whatever is in the group goes by `default`, or its own group had another name
        intro r' hr' hkey i' hi'
        refine ⟨r', hr', ?_, hi'⟩
        by_contra hother
        have hne : r'.activityName ≠ "default" := fun h => hother (decide_eq_true h)
        have hown := groupsNamed_ownName hcounts hr' hne (by rw [hi']; rfl)
        rw [countedAs_congr (of_decide_eq_true hkey), (mem_lastOf hlast).2] at hown
        exact hne hown.symm

theorem groupsNamed_inOther (hr : r ∈ rows) (hother : r.countedAs c rows ≠ "default")
    {i : String × Int} (hi : r.indexInJob = some i) :
    ∃ r' ∈ rows, r'.activityName = r.countedAs c rows ∧ r'.indexInJob = some i := by
  have hcount := hcounts (r.countedAs c rows)
  obtain ⟨last, hlast⟩ := Option.isSome_iff_exists.mp (lastOf_isSome (c := c) hr rfl)
  rw [histogram_lookup, hlast, Option.map_some, Option.getD_some, Int.natCast_inj, filesNamed, eq_comm,
    countDistinct_filter_eq_iff] at hcount
  · obtain ⟨first, -, hkey, hfirst⟩ := exists_countedAs c hr
    have hin : r.activityKey c = last.activityKey c := by
      rw [← hkey]
      exact activityKey_last hother hlast hfirst
    obtain ⟨r', hr', hname, hi'⟩ := hcount r hr (by simpa using hin) i hi
    exact ⟨r', hr', of_decide_eq_true hname, hi'⟩
  · intro r' hr' hname i' hi'
    exact ⟨r', hr', by simpa using activityKey_last hother hlast (of_decide_eq_true hname), hi'⟩

/-- When the files of an index agree on their activity, the numbers come to that of the files. -/
theorem sum_histogram (hone : ∀ r ∈ rows, ∀ r' ∈ rows, ∀ i, r.indexInJob = some i → r'.indexInJob = some i →
      r.activityName = r'.activityName) :
    ((histogram c rows).map (·.2)).sum = (countDistinct FileRow.indexInJob rows : Int) := by
  have hvalues : (histogram c rows).map (·.2) =
      ((histogram c rows).map (·.1)).map fun name => (filesNamed rows name : Int) := by
    rw [List.map_map]
    apply List.map_congr_left
    intro e he
    have h := hcounts e.1
    rw [(ordered_histogram c rows).lookup_of_mem he] at h
    exact h
  have hkeys : ∀ r ∈ rows, ∀ i, r.indexInJob = some i → r.activityName ∈ (histogram c rows).map (·.1) := by
    intro r hr i hi
    have hpos := filesNamed_pos hr (by rw [hi]; rfl)
    have hcount := hcounts r.activityName
    cases hlookup : (histogram c rows).lookup r.activityName with
    | none =>
        rw [hlookup, Option.getD_none] at hcount
        omega
    | some n => exact List.mem_map.mpr ⟨_, mem_of_lookup hlookup, rfl⟩
  have hsum := sum_countDistinct_filter hone (ordered_histogram c rows).nodup_keys hkeys
  rw [hvalues, ← hsum, Nat.cast_list_sum]
  simp only [List.map_map, Function.comp_def, filesNamed]

end counts

/-- The group that an entry counts has the indexes of the files that go by its name. -/
theorem GroupsNamed.counts (h : GroupsNamed c rows) (name : String) :
    ((histogram c rows).lookup name).getD 0 = (filesNamed rows name : Int) := by
  rw [histogram_lookup]
  cases hlast : lastOf c rows name with
  | none =>
      rw [Option.map_none, Option.getD_none, filesNamed_eq_zero]
      · rfl
      · intro r hr hname
        by_contra hindex
        obtain ⟨i, hi⟩ := Option.ne_none_iff_exists'.mp hindex
        by_cases hdefault : name = "default"
        · subst hdefault
          obtain ⟨r', -, hkey, -⟩ := h.inLast r hr hname i hi
          simp [hlast] at hkey
        · have hown := h.ownName r hr (hname ▸ hdefault) (by rw [hi]; rfl)
          have hsome := lastOf_isSome (c := c) hr (hown.trans hname)
          simp [hlast] at hsome
  | some last =>
      obtain ⟨hmem, hcounted⟩ := mem_lastOf hlast
      rw [Option.map_some, Option.getD_some, Int.natCast_inj, filesNamed, countDistinct_filter_eq_iff]
      · intro r hr hname i hi
        by_cases hdefault : name = "default"
        · subst hdefault
          obtain ⟨r', hr', hkey, hi'⟩ := h.inLast r hr (of_decide_eq_true hname) i hi
          rw [hlast, Option.map_some, Option.some.injEq] at hkey
          exact ⟨r', hr', by simpa using hkey.symm, hi'⟩
        · exact ⟨r, hr, by simpa using activityKey_last hdefault hlast (of_decide_eq_true hname), hi⟩
      · intro r hr hkey i hi
        have hread : r.countedAs c rows = name := (countedAs_congr (of_decide_eq_true hkey)).trans hcounted
        by_cases hname : r.activityName = "default"
        · by_cases hdefault : name = "default"
          · exact ⟨r, hr, by simpa [hdefault] using hname, hi⟩
          · obtain ⟨r', hr', hname', hi'⟩ := h.inOther r hr hname (hread ▸ hdefault) i hi
            exact ⟨r', hr', by simpa [hread] using hname', hi'⟩
        · have hown := h.ownName r hr hname (by rw [hi]; rfl)
          exact ⟨r, hr, by simpa [hread] using hown.symm, hi⟩

/-- The numbers are right when the groups stand to the names as they have to. -/
theorem activities_in_queue_iff (node : Node) (q : QueueId) (db : Db) :
    CountsFiles (db.waitingIn node q) ((getActivitiesInQueue node q).answer Stmt.exec db) ↔
      GroupsNamed node.activity (db.waitingIn node q) := by
  rw [getActivitiesInQueue_answer]
  constructor
  · intro h
    exact {
      ownName := fun r hr hname hindex => groupsNamed_ownName h.counts hr hname hindex
      inLast := fun r hr hname i hi => groupsNamed_inLast h.counts hr hname hi
      inOther := fun r hr _ hother i hi => groupsNamed_inOther h.counts hr hother hi }
  · intro h
    exact ⟨h.counts, sum_histogram h.counts⟩

/-- A queue with one file without an activity and one with the activity `default`. -/
def defaultDb : Db where
  files := .ofRows [
    { fileId := 1, jobId := "j", fileState := .submitted, fileIndex := some 0, sourceSe := "s", destSe := "d",
      voName := "v", activity := none },
    { fileId := 2, jobId := "j", fileState := .submitted, fileIndex := some 1, sourceSe := "s", destSe := "d",
      voName := "v", activity := some "default" }]
  jobs := .ofRows [{ jobId := "j", jobState := .submitted, jobType := some .regular, voName := "v" }]

theorem activities_in_queue_overwritten :
    ¬CountsFiles (defaultDb.waitingIn { hostname := "a" } ⟨"s", "d", "v", 0⟩)
      ((getActivitiesInQueue { hostname := "a" } ⟨"s", "d", "v", 0⟩).answer Stmt.exec defaultDb) := by
  intro h
  have hcount := h.counts "default"
  revert hcount
  decide +kernel

end Fts3.MySql
