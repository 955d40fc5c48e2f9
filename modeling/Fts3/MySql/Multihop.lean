import Fts3.MySql.Lemmas.Status

/-!
# Multihop jobs

The hops of a job are used one after the other: a hop that finishes makes room for the next one, and
`multihopSanitySate` repairs jobs whose next hop was not used.
-/

namespace Fts3.MySql

open Fts3.Sql

/-! ## The order of the hops -/

/-- In use, or finished. A hop that failed or was canceled may never have been used. -/
def FileState.begun (st : FileState) : Bool := st ≠ .notUsed && st ≠ .failed && st ≠ .canceled

theorem FileState.begun_of_inProgress {st : FileState} (h : st.inProgress = true) : st.begun = true := by
  cases st <;> first | rfl | cases h

def FileRow.precedes (a b : FileRow) : Bool :=
  match a.fileIndex, b.fileIndex with
  | some i, some k => i < k
  | _, _ => false

/-- The order of the indexes is the order of the ids. -/
theorem lt_of_precedes {j : String} {db : Db}
    (h : ∀ a ∈ db.filesOf j, ∀ b ∈ db.filesOf j, a.fileId < b.fileId → a.precedes b = true) {a b : FileRow}
    (ha : a ∈ db.filesOf j) (hb : b ∈ db.filesOf j) (hab : a.precedes b = true) : a.fileId < b.fileId := by
  unfold FileRow.precedes at hab
  split at hab
  · rename_i i k hi hk
    rw [decide_eq_true_eq] at hab
    rcases Nat.lt_trichotomy a.fileId b.fileId with hlt | heq | hgt
    · exact hlt
    · rw [eq_of_mem_filesOf ha hb heq, hk] at hi
      obtain rfl := Option.some.inj hi
      omega
    · have := h b hb a ha hgt
      simp only [FileRow.precedes, hi, hk, decide_eq_true_eq] at this
      omega
  · cases hab

/-- The hops of a multihop job are stored in the order of their indexes. -/
structure MultihopJob (j : String) (db : Db) : Prop where
  type : ∃ job, db.jobs.find? j = some job ∧ job.jobType = some .multiHop
  precedes : ∀ a ∈ db.filesOf j, ∀ b ∈ db.filesOf j, a.fileId < b.fileId → a.precedes b = true

/-- The job as it is submitted: the first hop is in progress, the others are `NOT_USED`. -/
structure MultihopJob.Submitted (j : String) (db : Db) : Prop extends MultihopJob j db where
  first : ∃ a ∈ db.filesOf j, a.fileState.inProgress = true ∧
    ∀ b ∈ db.filesOf j, b.fileId ≠ a.fileId → a.fileId < b.fileId ∧ b.fileState = .notUsed

/-- A hop that this step takes from `NOT_USED` into progress finds all hops before it `FINISHED`. -/
def Step.usesInOrder (j : String) (e : Step) : Bool :=
  (e.pre.filesOf j).all fun b =>
    !(b.fileState = .notUsed && (e.post.fileState? b.fileId).any (·.inProgress)) ||
      (e.pre.filesOf j).all fun a => !a.precedes b || a.fileState = .finished

def FileUpdate.usesNext : FileUpdate → Bool
  | useNextHop _ | fixFilesInNotUsedState _ _ => true
  | _ => false

/-- No hop is taken out of `FINISHED`, a hop that has not begun is only taken into use by `useNextHop` and the
repair, and `useNextHop` has looked for the next hop when the others were all over or still unused. -/
def Step.hopsInTurn (j : String) (e : Step) : Bool :=
  match e.act with
  | .update (.file u) =>
      ((e.pre.filesOf j).all fun r => !u.selects r || u.writes?.all fun st =>
        (r.fileState ≠ .finished || st = .finished) && (r.fileState.begun || !st.begun || u.usesNext)) &&
      match u with
      | .useNextHop f => !((e.pre.filesOf j).any fun r => r.fileId = f) ||
          (e.last.filesOf j).all fun r => r.fileState = .finished || r.fileState = .notUsed
      | _ => true
  | _ => true


/-- What has begun has all hops before it `FINISHED`. -/
def InOrder (j : String) (db : Db) : Prop :=
  ∀ a ∈ db.filesOf j, ∀ b ∈ db.filesOf j, a.fileId < b.fileId → b.fileState.begun = true → a.fileState = .finished

structure HopsKept (j : String) (db db' : Db) : Prop where
  row : ∀ f r', db'.files.find? f = some r' → ∃ r, db.files.find? f = some r ∧ r'.jobId = r.jobId ∧
    r'.fileIndex = r.fileIndex ∧ (r.jobId = j → r.fileState = .finished → r'.fileState = .finished)
  inOrder : InOrder j db → InOrder j db'

namespace HopsKept

variable {j : String} {db db' : Db}

theorem refl (db : Db) : HopsKept j db db :=
  ⟨fun _ r hr => ⟨r, hr, rfl, rfl, fun _ h => h⟩, id⟩

theorem trans {db₁ db₂ db₃ : Db} (h₁ : HopsKept j db₁ db₂) (h₂ : HopsKept j db₂ db₃) : HopsKept j db₁ db₃ := by
  refine ⟨fun f r₃ hr₃ => ?_, fun h => h₂.inOrder (h₁.inOrder h)⟩
  obtain ⟨r₂, hr₂, hj₂, hi₂, hf₂⟩ := h₂.row f r₃ hr₃
  obtain ⟨r₁, hr₁, hj₁, hi₁, hf₁⟩ := h₁.row f r₂ hr₂
  refine ⟨r₁, hr₁, hj₂.trans hj₁, hi₂.trans hi₁, fun hj hfin => ?_⟩
  exact hf₂ (hj₁.trans hj) (hf₁ hj hfin)

theorem hop (h : HopsKept j db db') {r' : FileRow} (hr' : r' ∈ db'.filesOf j) :
    ∃ r ∈ db.filesOf j, r.fileId = r'.fileId ∧ r'.fileIndex = r.fileIndex ∧
      (r.fileState = .finished → r'.fileState = .finished) := by
  obtain ⟨hfind, hj'⟩ := mem_filesOf.mp hr'
  obtain ⟨r, hr, hj, hi, hf⟩ := h.row _ _ hfind
  have hid : r.fileId = r'.fileId := Table.find?_some hr
  have hrj : r.jobId = j := hj.symm.trans hj'
  exact ⟨r, mem_filesOf.mpr ⟨hid ▸ hr, hrj⟩, hid, hi, hf hrj⟩

theorem precedes (h : HopsKept j db db')
    (hdb : ∀ a ∈ db.filesOf j, ∀ b ∈ db.filesOf j, a.fileId < b.fileId → a.precedes b = true) :
    ∀ a ∈ db'.filesOf j, ∀ b ∈ db'.filesOf j, a.fileId < b.fileId → a.precedes b = true := by
  intro a' ha' b' hb' hlt
  obtain ⟨a, ha, hida, hia, -⟩ := h.hop ha'
  obtain ⟨b, hb, hidb, hib, -⟩ := h.hop hb'
  have := hdb a ha b hb (by omega)
  simpa only [FileRow.precedes, hia, hib] using this

end HopsKept

/-- The hops are stored in order and used in order. -/
def HopsInOrder (j : String) (db : Db) : Prop :=
  (∀ a ∈ db.filesOf j, ∀ b ∈ db.filesOf j, a.fileId < b.fileId → a.precedes b = true) ∧ InOrder j db

theorem HopsKept.hopsInOrder {j : String} {db db' : Db} (h : HopsKept j db db') (hdb : HopsInOrder j db) :
    HopsInOrder j db' :=
  ⟨h.precedes hdb.1, h.inOrder hdb.2⟩

/-- What begins between `db` and `db'` has all hops before it `FINISHED`. -/
def BeginsInOrder (j : String) (db db' : Db) : Prop :=
  ∀ b ∈ db.filesOf j, b.fileState.begun = false →
    ∀ b', db'.files.find? b.fileId = some b' → b'.fileState.begun = true →
    ∀ a ∈ db.filesOf j, a.fileId < b.fileId → a.fileState = .finished

theorem beginsInOrder_of_files {j : String} {db db' : Db} (h : db'.files = db.files) : BeginsInOrder j db db' := by
  intro b hb hb₀ b' hb' hbegun
  rw [h, (mem_filesOf.mp hb).1] at hb'
  obtain rfl := Option.some.inj hb'
  rw [hb₀] at hbegun
  cases hbegun

theorem beginsInOrder_file {j : String} {u : FileUpdate} {db : Db}
    (h : ∀ b ∈ db.filesOf j, u.selects b = true → b.fileState.begun = false →
      ∀ st, u.writes? = some st → st.begun = true →
      ∀ a ∈ db.filesOf j, a.fileId < b.fileId → a.fileState = .finished) :
    BeginsInOrder j db ((Stmt.file u).exec db).2 := by
  intro b hb hb₀ b' hb' hbegun
  simp only [Stmt.exec, Table.find?_update, (mem_filesOf.mp hb).1, Option.map_some, Option.some.injEq] at hb'
  subst hb'
  split at hbegun
  · rename_i hsel
    rw [u.sets_fileState] at hbegun
    cases hw : u.writes? with
    | none =>
        rw [hw, Option.getD_none, hb₀] at hbegun
        cases hbegun
    | some st =>
        rw [hw, Option.getD_some] at hbegun
        exact h b hb hsel hb₀ st hw hbegun
  · rw [hb₀] at hbegun
    cases hbegun

theorem hopsKept_file {j : String} {u : FileUpdate} {db : Db}
    (hfin : ∀ r ∈ db.filesOf j, u.selects r = true → ∀ st, u.writes? = some st → r.fileState = .finished →
      st = .finished)
    (hbegin : BeginsInOrder j db ((Stmt.file u).exec db).2) : HopsKept j db ((Stmt.file u).exec db).2 := by
  have hstate : ∀ r ∈ db.filesOf j, r.fileState = .finished →
      (if u.selects r then u.sets db.now r else r).fileState = .finished := by
    intro r hr hrfin
    split
    · rename_i hsel
      rw [u.sets_fileState]
      cases hw : u.writes? with
      | none => exact hrfin
      | some st => exact hfin r hr hsel st hw hrfin
    · exact hrfin
  constructor
  · intro f r' hr'
    simp only [Stmt.exec, Table.find?_update, Option.map_eq_some_iff] at hr'
    obtain ⟨r, hr, rfl⟩ := hr'
    refine ⟨r, hr, ?_, ?_, fun hj => hstate r (mem_filesOf.mpr ⟨Table.find?_key (Table.mem_of_find? hr), hj⟩)⟩
    · split
      · exact u.sets_jobId db.now r
      · rfl
    · split
      · exact u.sets_fileIndex db.now r
      · rfl
  · intro hdb a' ha' b' hb' hlt hbegun
    have hfind := (mem_filesOf.mp hb').1
    rw [exec_file_filesOf] at ha' hb'
    obtain ⟨a, ha, rfl⟩ := List.mem_map.mp ha'
    obtain ⟨b, hb, rfl⟩ := List.mem_map.mp hb'
    have hid : ∀ r, (if u.selects r then u.sets db.now r else r).fileId = r.fileId := by
      intro r
      split
      · exact u.sets_fileId db.now r
      · rfl
    rw [hid] at hfind
    rw [hid, hid] at hlt
    refine hstate a ha ?_
    cases hb₀ : b.fileState.begun with
    | true => exact hdb a ha b hb hlt hb₀
    | false => exact hbegin b hb hb₀ _ hfind hbegun a ha hlt

theorem hopsKept_of_files {j : String} {db db' : Db} (h : db'.files = db.files) : HopsKept j db db' := by
  constructor
  · intro f r hr
    exact ⟨r, h ▸ hr, rfl, rfl, fun _ h => h⟩
  · intro hdb
    unfold InOrder Db.filesOf
    rw [h]
    exact hdb

def hopContract (j : String) : Contract Db Sel Stmt where
  rely := HopsKept j
  refl := .refl
  trans := .trans
  cond a last pre := Step.hopsInTurn j ⟨0, a, last, pre, pre, 0⟩ = true
  promise u _ pre := BeginsInOrder j pre (u.exec pre).2

section contract

variable {j : String}

theorem hopsInTurn_file {u : FileUpdate} {last pre : Db} {g : Nat}
    (h : (hopContract j).Ready (.update (.file u)) g last pre) :
    (∀ r ∈ pre.filesOf j, u.selects r = true → ∀ st, u.writes? = some st → r.fileState = .finished →
      st = .finished) ∧
    ∀ r ∈ pre.filesOf j, u.selects r = true → ∀ st, u.writes? = some st → r.fileState.begun = false →
      st.begun = true → u.usesNext = true := by
  have hcond : Step.hopsInTurn j ⟨0, .update (.file u), last, pre, pre, 0⟩ = true := h.cond
  simp only [Step.hopsInTurn, Bool.and_eq_true, List.all_eq_true] at hcond
  have hrow : ∀ r ∈ pre.filesOf j, u.selects r = true → ∀ st, u.writes? = some st →
      (r.fileState = .finished → st = .finished) ∧
      (r.fileState.begun = false → st.begun = true → u.usesNext = true) := by
    intro r hr hsel st hw
    have := hcond.1 r hr
    simp only [hsel, hw, Bool.not_true, Bool.false_or, Option.all_some, Bool.and_eq_true, Bool.or_eq_true,
      decide_eq_true_eq, Bool.not_eq_true'] at this
    refine ⟨fun hfin => this.1.resolve_left (by simp [hfin]), fun hb hst => ?_⟩
    simpa [hb, hst] using this.2
  exact ⟨fun r hr hsel st hw => (hrow r hr hsel st hw).1, fun r hr hsel st hw => (hrow r hr hsel st hw).2⟩

/-- What the operations issue besides the `UPDATE`s of `useNextHop` and the repair. -/
def Stmt.KeepsHops : Stmt → Prop
  | .file u => u.usesNext = false
  | .job _ | .insertRetryError _ => True
  | _ => False

theorem allows_keepsHops : Allows (hopContract j) (HopsInOrder j) Stmt.KeepsHops where
  stable _ _ h := h.hopsInOrder
  update s db db' hs hdb hready := by
    cases s with
    | file u =>
        obtain ⟨hfin, hbegin⟩ := hopsInTurn_file hready
        have huse : BeginsInOrder j db' ((Stmt.file u).exec db').2 := by
          refine beginsInOrder_file fun b hb hsel hb₀ st hw hst => ?_
          have hnext := hbegin b hb hsel st hw hb₀ hst
          rw [show u.usesNext = false from hs] at hnext
          cases hnext
        exact ⟨huse, hopsKept_file hfin huse, Nat.le_refl _⟩
    | job u => exact ⟨beginsInOrder_of_files rfl, hopsKept_of_files rfl, Nat.le_refl _⟩
    | insertRetryError row => exact ⟨beginsInOrder_of_files rfl, hopsKept_of_files rfl, Nat.le_refl _⟩
    | _ => cases hs

/-- The first hop that is `NOT_USED` has only `FINISHED` hops before it when the others are all over or
unused. -/
theorem useNextHop_within (j' : String) {db : Db} (hdb : HopsInOrder j db) :
    (useNextHop j').Within (hopContract j) (HopsInOrder j) db := by
  simp only [useNextHop, getNextHop, Proc.bind_eq, select_bind, Op.Within, Proc.honors_select]
  intro db₁ h₁
  have hdb₁ : HopsInOrder j db₁ := HopsKept.hopsInOrder h₁.rely hdb
  split
  · exact hdb₁
  · rename_i hne
    intro db₂ h₂
    obtain ⟨hfin, -⟩ := hopsInTurn_file h₂
    have huse : BeginsInOrder j db₂ ((Stmt.file (.useNextHop (minNotUsed j' db₁))).exec db₂).2 := by
      refine beginsInOrder_file fun b hb hsel _ _ _ _ a ha hlt => ?_
      have hidb : b.fileId = minNotUsed j' db₁ := by
        simp only [FileUpdate.selects, Bool.and_eq_true, decide_eq_true_eq] at hsel
        exact hsel.1
      obtain ⟨b₁, hb₁, hidb₁, -, -⟩ := HopsKept.hop h₂.rely hb
      obtain ⟨r, hr, -, hidr⟩ := minNotUsed_mem hne
      -- the hop was looked up in this job
      have hrow : r = b₁ := eq_of_mem_filesOf hr hb₁ (by omega)
      obtain rfl : j = j' := by rw [← (mem_filesOf.mp hr).2, hrow, (mem_filesOf.mp hb₁).2]
      obtain ⟨a₁, ha₁, hida₁, -, hafin⟩ := HopsKept.hop h₂.rely ha
      have hcond : Step.hopsInTurn j
          ⟨0, .update (.file (.useNextHop (minNotUsed j db₁))), db₁, db₂, db₂, 0⟩ = true := h₂.cond
      have hany : (db₂.filesOf j).any (fun r => r.fileId = minNotUsed j db₁) = true :=
        List.any_eq_true.mpr ⟨b, hb, by simpa using hidb⟩
      simp only [Step.hopsInTurn, hany, Bool.not_true, Bool.false_or, Bool.and_eq_true, List.all_eq_true,
        Bool.or_eq_true, decide_eq_true_eq] at hcond
      rcases hcond.2 a₁ ha₁ with hst | hst
      · exact hafin hst
      · have := minNotUsed_le ha₁ hst
        omega
    exact ⟨huse, hopsKept_file hfin huse, 0, Nat.le_refl _,
      HopsKept.hopsInOrder (hopsKept_file hfin huse) (HopsKept.hopsInOrder h₂.rely hdb₁)⟩

/-- All hops up to the index `i` are `FINISHED`. -/
def FinishedUpTo (j : String) (i : Int) (db : Db) : Prop :=
  ∀ a ∈ db.filesOf j, (∃ k ≤ i, a.fileIndex = some k) → a.fileState = .finished

theorem HopsKept.finishedUpTo {db db' : Db} {i : Int} (h : HopsKept j db db') (hdb : FinishedUpTo j i db) :
    FinishedUpTo j i db' := by
  rintro a' ha' ⟨k, hk, hi⟩
  obtain ⟨a, ha, -, hia, hfin⟩ := h.hop ha'
  exact hfin (hdb a ha ⟨k, hk, hia ▸ hi⟩)

theorem HopsInOrder.finishedUpTo {db : Db} {i : Int} (h : HopsInOrder j db) {r : FileRow} (hr : r ∈ db.filesOf j)
    (hfin : r.fileState = .finished) (hi : r.fileIndex = some i) : FinishedUpTo j i db := by
  rintro a ha ⟨k, hk, hia⟩
  rcases Nat.lt_trichotomy a.fileId r.fileId with hlt | heq | hgt
  · exact h.2 a ha r hr hlt (by rw [hfin]; rfl)
  · rw [eq_of_mem_filesOf ha hr heq, hfin]
  · have := h.1 r hr a ha hgt
    simp only [FileRow.precedes, hi, hia, decide_eq_true_eq] at this
    omega

theorem fixStuckHop_within (j' : String) {db : Db} (hdb : HopsInOrder j db) :
    (fixStuckHop j').Within (hopContract j) (HopsInOrder j) db := by
  simp only [fixStuckHop, Proc.bind_eq, select_bind, Op.Within, Proc.honors_select]
  intro db₁ h₁
  have hdb₁ : HopsInOrder j db₁ := HopsKept.hopsInOrder h₁.rely hdb
  split
  · exact hdb₁
  · rename_i i hmax
    rw [Proc.honors_select]
    intro db₂ h₂
    have hdb₂ : HopsInOrder j db₂ := HopsKept.hopsInOrder h₂.rely hdb₁
    split
    · intro db₃ h₃
      obtain ⟨hfin, -⟩ := hopsInTurn_file h₃
      have hdb₃ : HopsInOrder j db₃ := HopsKept.hopsInOrder h₃.rely hdb₂
      have huse : BeginsInOrder j db₃ ((Stmt.file (.fixFilesInNotUsedState j' (i + 1))).exec db₃).2 := by
        refine beginsInOrder_file fun b hb hsel _ _ _ _ a ha hlt => ?_
        simp only [FileUpdate.selects, Bool.and_eq_true, decide_eq_true_eq] at hsel
        obtain rfl : j' = j := hsel.2.symm.trans (mem_filesOf.mp hb).2
        obtain ⟨r, hr, hri⟩ := List.mem_filterMap.mp (List.max?_mem hmax)
        obtain ⟨hrj, hrfin⟩ := List.mem_filter.mp hr
        have hup : FinishedUpTo j' i db₃ :=
          HopsKept.finishedUpTo (HopsKept.trans h₂.rely h₃.rely) (hdb₁.finishedUpTo hrj (by simpa using hrfin) hri)
        have hprec := hdb₃.1 a ha b hb hlt
        unfold FileRow.precedes at hprec
        rw [hsel.1] at hprec
        split at hprec
        · rename_i k m hk hm
          simp only [Option.some.injEq, decide_eq_true_eq] at hm hprec
          exact hup a ha ⟨k, by omega, hk⟩
        · cases hprec
      exact ⟨huse, hopsKept_file hfin huse, 0, Nat.le_refl _,
        HopsKept.hopsInOrder (hopsKept_file hfin huse) hdb₃⟩
    · exact hdb₂

theorem multihopSanitySate_within (node : Node) {db : Db} (hdb : HopsInOrder j db) :
    (multihopSanitySate node).Within (hopContract j) (HopsInOrder j) db := by
  unfold multihopSanitySate
  split
  · exact .ret hdb
  · simp only [fixFilesInNotUsedState, Proc.bind_eq, beginTx_bind, select_bind]
    intro db₁ h₁ db₂ h₂
    have hdb₂ : HopsInOrder j db₂ := HopsKept.hopsInOrder h₂.rely (HopsKept.hopsInOrder h₁.rely hdb)
    refine (Op.Within.forM (fun j' _ _ h => fixStuckHop_within j' h) hdb₂).bind ?_
    exact fun _ db₃ hdb₃ db₄ h₄ => HopsKept.hopsInOrder h₄.rely hdb₃

theorem updateJob_keepsHops (node : Node) (j' : String) (st : FileState) :
    (updateJobTransferStatusInternal node j' st).Issues Stmt.KeepsHops :=
  issues_updateJobTransferStatusInternal (P := Stmt.KeepsHops) (fun _ _ _ _ => trivial) trivial (fun _ => trivial)
    trivial rfl node st

theorem storeFileState_within {node : Node} {a : TransferStatus} {j' : String} {f : Nat} {job : JobInfo}
    {stored : Option FileState} {uuid : Option String} {archiving : Bool} {db : Db} (hdb : HopsInOrder j db) :
    (storeFileState node a j' f job stored uuid archiving).Within (hopContract j) (HopsInOrder j) db := by
  have hafter : ∀ st db, HopsInOrder j db →
      (afterFileUpdate node j' f job st uuid).Within (hopContract j) (HopsInOrder j) db := by
    intro st db hdb
    unfold afterFileUpdate
    extract_lets jobAlive
    split
    · refine allows_keepsHops.within ?_ hdb
      split
      · exact (issues_useFileReplica node j' f uuid fun _ => rfl).bind fun _ => issues_commit.mpr trivial
      · trivial
    · split
      · intro db₁ h₁
        refine (useNextHop_within j' (HopsKept.hopsInOrder h₁.rely hdb)).bind ?_
        exact fun _ db₂ hdb₂ db₃ h₃ => HopsKept.hopsInOrder h₃.rely hdb₂
      · refine allows_keepsHops.within ?_ hdb
        simp [setNullDestSURLMultiHop, Stmt.KeepsHops, FileUpdate.usesNext]
    · exact .ret hdb
  have hcas : ∀ s, (updateFile (.updateFileTransferStatus s)).Issues Stmt.KeepsHops :=
    fun _ => ⟨rfl, fun _ => trivial⟩
  simp only [storeFileState, Proc.bind_eq]
  refine (allows_keepsHops.within (hcas _) hdb).bind fun n db₁ hdb₁ => ?_
  split
  · exact fun db₂ h₂ => HopsKept.hopsInOrder h₂.rely hdb₁
  · intro db₂ h₂
    exact (hafter _ db₂ (HopsKept.hopsInOrder h₂.rely hdb₁)).bind fun _ _ hdb => .ret hdb

theorem updateTransferStatus_within (node : Node) (a : TransferStatus) {db : Db} (hdb : HopsInOrder j db) :
    (updateFileTransferStatusInternal node a).Within (hopContract j) (HopsInOrder j) db := by
  refine updateFileTransferStatusInternal_honors (T := fun _ _ _ => True) allows_keepsHops.stable
    (fun _ _ _ _ _ _ => trivial) (fun _ _ _ _ _ => trivial) (fun j' f db hdb _ => ?_) hdb trivial
  exact updateFileState_honors (J := fun _ _ => True) allows_keepsHops.stable (fun _ _ h => h)
    (fun _ _ _ _ _ => trivial) (fun _ _ => trivial) (fun _ _ _ _ _ hdb _ _ _ => storeFileState_within hdb) hdb

end contract

/-- The calls that the hops of a job are used by. -/
def Call.movesHops : Call → Bool
  | .updateTransferStatus _ _ | .updateStagingState _ _ | .updateArchivingState _ _ | .multihopSanitySate _ => true
  | _ => false

theorem Call.within_hops {j : String} {c : Call} (hc : c.movesHops = true) {db : Db} (hdb : HopsInOrder j db) :
    c.prog.Within (hopContract j) (HopsInOrder j) db := by
  cases c with
  | updateTransferStatus node a => exact (updateTransferStatus_within node a hdb).bind fun _ _ h => .ret h
  | updateStagingState node ops =>
      refine (updateStagingStateInternal_within allows_keepsHops
        (fun _ _ _ _ _ _ h => useNextHop_within _ h) (fun _ _ => rfl) (fun _ _ _ _ => rfl) (fun _ => trivial)
        (fun _ _ => rfl) (fun _ _ _ => rfl) (fun _ _ _ => updateJob_keepsHops node _ _) hdb).bind ?_
      exact fun _ _ h => .ret h
  | updateArchivingState node ops =>
      refine (updateArchivingStateInternal_within allows_keepsHops (fun _ _ => rfl)
        (fun _ _ _ => updateJob_keepsHops node _ _) hdb).bind ?_
      exact fun _ _ h => .ret h
  | multihopSanitySate node => exact (multihopSanitySate_within node hdb).bind fun _ _ h => .ret h
  | _ => cases hc

theorem InOrder.atMostOneLive {j : String} {db : Db} (h : InOrder j db) : Db.AtMostOneLive j db := by
  refine countP_le_one_of_eq (db.files.select_nodup _) fun a ha b hb hlive hlive' => ?_
  -- of two live hops the later one has begun
  have hlt : ∀ a ∈ db.filesOf j, ∀ b ∈ db.filesOf j, a.fileState.inProgress = true → b.fileState.inProgress = true →
      ¬a.fileId < b.fileId := by
    intro a ha b hb hlive hlive' hlt
    rw [h a ha b hb hlt (FileState.begun_of_inProgress hlive')] at hlive
    cases hlive
  have hab := hlt a ha b hb hlive hlive'
  have hba := hlt b hb a ha hlive' hlive
  exact eq_of_mem_filesOf ha hb (by omega)

theorem MultihopJob.Submitted.hopsInOrder {j : String} {db : Db} (h : MultihopJob.Submitted j db) :
    HopsInOrder j db := by
  refine ⟨h.precedes, fun a ha b hb hlt hbegun => ?_⟩
  obtain ⟨first, hfirst, -, hrest⟩ := h.first
  by_cases hb₀ : b.fileId = first.fileId
  · have ha₀ := hrest a ha (by omega)
    omega
  · rw [(hrest b hb hb₀).2] at hbegun
    cases hbegun

theorem Step.usesInOrder_of_begins {j : String} {e : Step} (hpre : HopsInOrder j e.pre)
    (h : BeginsInOrder j e.pre e.post) : e.usesInOrder j = true := by
  simp only [usesInOrder, List.all_eq_true, Bool.or_eq_true, Bool.not_eq_true', Bool.and_eq_false_iff,
    decide_eq_false_iff_not, decide_eq_true_eq, Option.any_eq_false]
  intro b hb
  by_cases hnot : b.fileState = .notUsed
  · by_cases hlive : ∀ st, e.post.fileState? b.fileId = some st → st.inProgress = false
    · exact .inl (.inr (by simpa using hlive))
    · right
      intro a ha
      by_cases hab : a.precedes b = true
      · right
        simp only [not_forall, Bool.not_eq_false, Db.fileState?, Option.map_eq_some_iff] at hlive
        obtain ⟨st, ⟨b', hb', hst⟩, hlive⟩ := hlive
        have hbegun : b'.fileState.begun = true := by
          rw [hst]
          exact FileState.begun_of_inProgress hlive
        exact h b hb (by rw [hnot]; rfl) b' hb' hbegun a ha (lt_of_precedes hpre.1 ha hb hab)
      · exact .inl (by simpa using hab)
  · exact .inl (.inl hnot)

/-- A run in which the hops are used in turn has at most one live hop at any moment, and uses a hop when all
hops before it are `FINISHED`. -/
theorem hops_in_order (j : String) (db : Db) (calls : List Call) (schedule : List Nat)
    (hcalls : ∀ c ∈ calls, c.movesHops = true) (hdb : MultihopJob.Submitted j db)
    (h : ∀ e ∈ System.steps db calls schedule, Step.hopsInTurn j e = true) :
    Db.AtMostOneLive j db ∧ ∀ e ∈ System.steps db calls schedule,
      Db.AtMostOneLive j e.post ∧ Step.usesInOrder j e = true := by
  have hstart : (System.init db calls).HonorsWith Stmt.exec (hopContract j) _ :=
    honorsWith_init (Nat.le_refl 0) fun c hc => (c.within_hops (hcalls c hc) hdb.hopsInOrder).honors
  refine ⟨hdb.hopsInOrder.2.atMostOneLive, fun e he => ?_⟩
  obtain ⟨hpre, hpost⟩ := hstart.invariant schedule h allows_keepsHops.stable hdb.hopsInOrder e he
  refine ⟨hpost.2.atMostOneLive, Step.usesInOrder_of_begins hpre ?_⟩
  have hexec := (steps_spec he).1
  have hpromise := (hstart.trace schedule h e he).2
  unfold Event.Executes at hexec
  split at hexec
  · rename_i u hact
    rw [hexec.2]
    exact hpromise u hact
  · rw [hexec]
    exact beginsInOrder_of_files rfl

def threeHops : Db where
  files := .ofRows [
    { fileId := 1, jobId := "j", fileState := .started, fileIndex := some 0, sourceSurl := some "s", destSurl := some "s" },
    { fileId := 2, jobId := "j", fileState := .notUsed, fileIndex := some 1 },
    { fileId := 3, jobId := "j", fileState := .notUsed, fileIndex := some 2 }]
  jobs := .ofRows [{ jobId := "j", jobState := .staging, jobType := some .multiHop }]

theorem submitted_threeHops : MultihopJob.Submitted "j" threeHops where
  type := ⟨_, rfl, rfl⟩
  precedes := by decide
  first := by decide

/-- The first hop becomes active and finishes, the repair finds nothing to do, and the second hop is claimed. -/
def hopByHop : List Call :=
  [.updateTransferStatus { hostname := "a" } { jobId := "j", fileId := 1, newFileState := .active },
    .updateTransferStatus { hostname := "a" } { jobId := "j", fileId := 1, newFileState := .finished },
    .multihopSanitySate { hostname := "a" },
    .updateTransferStatus { hostname := "a" } { jobId := "j", fileId := 2, newFileState := .ready }]

/-- The end of the stage-in of the first hop is reported twice. -/
def stagedTwice : List Call :=
  List.replicate 2 (.updateStagingState { hostname := "a" } [(⟨"j", 1, .finished, "", false⟩, 7)])

theorem hops_in_order_hopByHop :
    (∀ e ∈ System.steps threeHops hopByHop
        (List.replicate 8 0 ++ List.replicate 10 1 ++ List.replicate 6 2 ++ List.replicate 8 3),
      Db.AtMostOneLive "j" e.post ∧ Step.usesInOrder "j" e = true) ∧
    (System.after threeHops hopByHop
      (List.replicate 8 0 ++ List.replicate 10 1 ++ List.replicate 6 2 ++ List.replicate 8 3)).store.fileState? 2 =
        some .ready :=
  ⟨(hops_in_order "j" threeHops hopByHop _ (by decide) submitted_threeHops (by decide)).2, by decide⟩

theorem not_hops_in_order_stagedTwice :
    MultihopJob.Submitted "j" threeHops ∧ (∀ c ∈ stagedTwice, c.movesHops = true) ∧
      ¬Db.AtMostOneLive "j"
        (System.after threeHops stagedTwice (List.replicate 30 0 ++ List.replicate 30 1)).store :=
  ⟨submitted_threeHops, by decide, by unfold Db.AtMostOneLive; decide⟩

/-! ## The repair -/

/-- The `UPDATE` of the repair changes only rows that are `NOT_USED`. -/
def Step.repairsUnused (e : Step) : Bool :=
  match e.act with
  | .update (.file (.fixFilesInNotUsedState _ _)) => e.pre.files.rows.all fun r =>
      e.post.fileState? r.fileId = some r.fileState || r.fileState = .notUsed
  | _ => true

/-- Between the look at the state of the hop and the `UPDATE` of the repair, the hop has at most become
`SUBMITTED`, and it is the only one with its index. -/
def Step.repairUndisturbed (e : Step) : Bool :=
  match e.act with
  | .update (.file (.fixFilesInNotUsedState j i)) =>
      let hop := (FileUpdate.fixFilesInNotUsedState j i).selects
      e.last.files.rows.countP hop ≤ 1 && e.pre.files.rows.all fun r =>
        !hop r || r.fileState = .submitted || e.last.files.rows.any fun r₀ => hop r₀ && r₀.fileState = r.fileState
  | _ => true

/-- The repair updates the hop whose state it has just read as `NOT_USED`. -/
def ReadUnused : Stmt → Db → Db → Prop
  | .file (.fixFilesInNotUsedState j i), last, _ =>
      ((last.filesOf j).find? fun r => r.fileIndex = some i).map (·.fileState) = some .notUsed
  | _, _, _ => True

def repairContract : Contract Db Sel Stmt where
  rely _ _ := True
  refl _ := trivial
  trans _ _ := trivial
  promise := ReadUnused

theorem fixStuckHop_honors (j : String) (db : Db) :
    (fixStuckHop j).Honors Stmt.exec repairContract (fun _ _ _ => True) 0 db := by
  simp only [fixStuckHop, Proc.bind_eq, select_bind, Proc.honors_select]
  intro db₁ _
  split
  · trivial
  · rw [Proc.honors_select]
    intro db₂ _
    split
    · rename_i hunused
      exact fun db₃ _ => ⟨hunused, trivial, 0, Nat.le_refl _, trivial⟩
    · trivial

theorem multihopSanitySate_honors (node : Node) (db : Db) :
    (multihopSanitySate node).Honors Stmt.exec repairContract (fun _ _ _ => True) 0 db := by
  unfold multihopSanitySate
  split
  · trivial
  · simp only [fixFilesInNotUsedState, Proc.bind_eq, beginTx_bind, select_bind, Proc.honors_tx,
      Proc.honors_select]
    intro db₁ _ db₂ _
    refine Proc.Honors.bind ?_ (Proc.honors_forM (I := fun _ => True) (fun j _ s _ => fixStuckHop_honors j s) trivial)
    exact fun _ _ _ _ _ _ => trivial

theorem Stmt.Routine.readUnused {s : Stmt} (h : s.Routine) (db db' : Db) : ReadUnused s db db' := by
  unfold ReadUnused
  split
  · exact h.elim
  · trivial

theorem Call.honors_repair (c : Call) (db : Db) :
    c.prog.Honors Stmt.exec repairContract (fun _ _ _ => True) 0 db := by
  cases hc : c.repairs with
  | false =>
      have hhonors : c.prog.Honors Stmt.exec repairContract _ 0 db := (prog_routine hc).honors (I := fun _ => True)
        (fun _ _ _ _ => trivial) (fun u s s' hu _ _ => ⟨hu.readUnused s s', trivial, Nat.le_refl _⟩) (s := db) trivial
      exact hhonors.mono fun _ _ _ _ => trivial
  | true =>
      cases c with
      | multihopSanitySate node =>
          refine Proc.Honors.bind ?_ (multihopSanitySate_honors node db)
          exact fun _ _ _ _ => trivial
      | _ => cases hc

theorem steps_readUnused {db : Db} {calls : List Call} {schedule : List Nat} {e : Step}
    (he : e ∈ System.steps db calls schedule) : ∀ u, e.act = .update u → ReadUnused u e.last e.pre := by
  have hstart : (System.init db calls).HonorsWith Stmt.exec repairContract _ :=
    honorsWith_init (Nat.le_refl 0) fun c _ => c.honors_repair db
  exact (hstart.trace schedule (fun _ _ => trivial) e he).2

theorem Step.repairsUnused_of_undisturbed {e : Step} (he : e.Executes Stmt.exec)
    (hread : ∀ u, e.act = .update u → ReadUnused u e.last e.pre) (h : e.repairUndisturbed = true) :
    e.repairsUnused = true := by
  unfold repairsUnused
  split
  · rename_i j i hact
    unfold Event.Executes at he
    simp only [repairUndisturbed, hact, Bool.and_eq_true, decide_eq_true_eq, List.all_eq_true] at h he
    obtain ⟨hone, hrows⟩ := h
    -- the only hop with this index was `NOT_USED` when the repair read it
    obtain ⟨r₁, hr₁, hst₁⟩ : ∃ r₁, (e.last.filesOf j).find? (fun r => r.fileIndex = some i) = some r₁ ∧
        r₁.fileState = .notUsed := by
      simpa [ReadUnused] using hread _ hact
    have hmem₁ : r₁ ∈ e.last.files.rows := (List.mem_filter.mp (List.mem_of_find?_eq_some hr₁)).1
    have hsel₁ : (FileUpdate.fixFilesInNotUsedState j i).selects r₁ = true := by
      have hj := (List.mem_filter.mp (List.mem_of_find?_eq_some hr₁)).2
      have hi := List.find?_some hr₁
      simpa [FileUpdate.selects, and_comm] using And.intro hj hi
    rw [List.all_eq_true]
    intro r hr
    rw [he.2]
    have hfind := Table.find?_key hr
    simp only [Db.fileState?, Stmt.exec, Table.find?_update, hfind, Option.map_some, Bool.or_eq_true,
      decide_eq_true_eq, Option.some.injEq]
    split
    · rename_i hsel
      have hrow := hrows r hr
      simp only [hsel, Bool.not_true, Bool.false_or, Bool.or_eq_true, decide_eq_true_eq, List.any_eq_true,
        Bool.and_eq_true] at hrow
      rcases hrow with hsub | ⟨r₀, hr₀, hsel₀, hst₀⟩
      · exact .inl hsub.symm
      · right
        rw [← hst₀, eq_of_countP_le_one hone hr₀ hsel₀ hmem₁ hsel₁, hst₁]
    · exact .inl rfl
  · rfl

/-- In a run in which no hop is changed between the look of the repair and its `UPDATE`, the repair changes
only hops that are `NOT_USED`. -/
theorem repair_harmless (db : Db) (calls : List Call) (schedule : List Nat)
    (h : ∀ e ∈ System.steps db calls schedule, Step.repairUndisturbed e = true) :
    ∀ e ∈ System.steps db calls schedule, Step.repairsUnused e = true := fun e he =>
  Step.repairsUnused_of_undisturbed (steps_spec he).1 (steps_readUnused he) (h e he)

def twoHops : Db where
  files := .ofRows [{ fileId := 1, jobId := "j", fileState := .active, fileIndex := some 0 },
    { fileId := 2, jobId := "j", fileState := .notUsed, fileIndex := some 1 }]
  jobs := .ofRows [{ jobId := "j", jobState := .active, jobType := some .multiHop }]

/-- The first hop finishes, the repair runs, and an executor claims the second hop. -/
def repairedWhileClaimed : List Call :=
  [.updateTransferStatus { hostname := "a" } { jobId := "j", fileId := 1, newFileState := .finished },
    .multihopSanitySate { hostname := "a" },
    .updateTransferStatus { hostname := "b" } { jobId := "j", fileId := 2, newFileState := .ready }]

/-- The next hop is used between the look of the repair and its `UPDATE`. -/
def repairLast : List Nat :=
  List.replicate 6 0 ++ List.replicate 4 1 ++ List.replicate 4 0 ++ [1, 1]

/-- The next hop is used and claimed between the look of the repair and its `UPDATE`. -/
def repairTooLate : List Nat :=
  List.replicate 6 0 ++ List.replicate 4 1 ++ List.replicate 4 0 ++ List.replicate 8 2 ++ [1, 1]

theorem repair_harmless_repairLast :
    (∀ e ∈ System.steps twoHops repairedWhileClaimed repairLast, Step.repairsUnused e = true) ∧
      (System.after twoHops repairedWhileClaimed repairLast).store.fileState? 2 = some .submitted :=
  ⟨repair_harmless _ _ _ (by decide), by decide⟩

theorem repair_not_harmless_repairTooLate :
    ¬∀ e ∈ System.steps twoHops repairedWhileClaimed repairTooLate, Step.repairsUnused e = true := by
  decide

end Fts3.MySql
