import Fts3.MySql.Lemmas.Status

/-!
# The reserved destinations of a multihop job

`dest_surl_uuid` reserves the destination of a file. The hops of a multihop job that wait for their turn hold
their reservation until a hop fails or is canceled.
-/

namespace Fts3.MySql

open Fts3.Sql

/-! ## The property -/

def FileState.lost (st : FileState) : Bool := st = .failed || st = .canceled

/-- A hop that is `NOT_USED` has the reservation that it had in `db`, unless a hop has failed or was canceled. -/
def ReservationsKept (j : String) (db db' : Db) : Prop :=
  (∀ r ∈ db'.filesOf j, r.fileState.lost = false) → ∀ r' ∈ db'.filesOf j, r'.fileState = .notUsed →
    ∃ r ∈ db.filesOf j, r.fileId = r'.fileId ∧ r.destSurlUuid = r'.destSurlUuid

/-- The job is a multihop job that is not over. -/
def OpenMultihopJob (j : String) (db : Db) : Prop :=
  ∃ job, db.jobs.find? j = some job ∧ job.type = .multiHop ∧ job.jobState.terminal = false

/-- The call reports a state of a transfer for a hop of the job. -/
def Call.reportsHop (j : String) (db : Db) : Call → Bool
  | .updateTransferStatus _ a => a.jobId = j && ((db.filesOf j).any fun r => r.fileId = a.fileId) &&
      a.newFileState ∈ [.ready, .active, .finished, .failed, .canceled]
  | _ => false

/-- Only `FINISHED`, `FAILED` and `CANCELED` are stored for a hop while another one waits for its turn with a
reservation. -/
def Step.sparesReservations (j : String) (e : Step) : Bool :=
  match e.act with
  | .update (.file (.updateFileTransferStatus u)) =>
      u.newState.terminal || !((e.pre.filesOf j).any (FileUpdate.updateFileTransferStatus u).selects) ||
        (e.pre.filesOf j).all fun r => r.fileState ≠ .notUsed || r.destSurlUuid.isNone
  | _ => true

/-! ## What the others rely on -/

structure ReservationStep (j : String) (db db' : Db) : Prop where
  jobs : db'.jobs = db.jobs
  row : ∀ f r', db'.files.find? f = some r' → ∃ r, db.files.find? f = some r ∧ r'.jobId = r.jobId
  waiting : ∀ r' ∈ db'.filesOf j, r'.fileState = .notUsed → ∃ r ∈ db.filesOf j, r.fileId = r'.fileId ∧
    r.fileState = .notUsed ∧ (r'.destSurlUuid = r.destSurlUuid ∨ r'.destSurlUuid = none)
  lost : (∃ r ∈ db.filesOf j, r.fileState.lost = true) → ∃ r ∈ db'.filesOf j, r.fileState.lost = true
  kept : ReservationsKept j db db'

/-- No reservation is left to be kept. -/
def Released (j : String) (db : Db) : Prop :=
  (∃ r ∈ db.filesOf j, r.fileState.lost = true) ∨
    ∀ r ∈ db.filesOf j, r.fileState = .notUsed → r.destSurlUuid = none

namespace ReservationStep

variable {j : String} {db db' : Db}

theorem refl (db : Db) : ReservationStep j db db where
  jobs := rfl
  row _ r hr := ⟨r, hr, rfl⟩
  waiting r hr hst := ⟨r, hr, rfl, hst, .inl rfl⟩
  lost := id
  kept _ r hr _ := ⟨r, hr, rfl, rfl⟩

theorem trans {db₁ db₂ db₃ : Db} (h₁ : ReservationStep j db₁ db₂) (h₂ : ReservationStep j db₂ db₃) :
    ReservationStep j db₁ db₃ where
  jobs := h₂.jobs.trans h₁.jobs
  row f r₃ hr₃ := by
    obtain ⟨r₂, hr₂, hj₂⟩ := h₂.row f r₃ hr₃
    obtain ⟨r₁, hr₁, hj₁⟩ := h₁.row f r₂ hr₂
    exact ⟨r₁, hr₁, hj₂.trans hj₁⟩
  waiting r₃ hr₃ hst₃ := by
    obtain ⟨r₂, hr₂, hid₂, hst₂, huuid₂⟩ := h₂.waiting r₃ hr₃ hst₃
    obtain ⟨r₁, hr₁, hid₁, hst₁, huuid₁⟩ := h₁.waiting r₂ hr₂ hst₂
    refine ⟨r₁, hr₁, hid₁.trans hid₂, hst₁, ?_⟩
    rcases huuid₂ with heq | hnone
    · rw [heq]
      exact huuid₁
    · exact .inr hnone
  lost h := h₂.lost (h₁.lost h)
  kept hno r₃ hr₃ hst₃ := by
    obtain ⟨r₂, hr₂, hid₂, huuid₂⟩ := h₂.kept hno r₃ hr₃ hst₃
    obtain ⟨r₂', hr₂', hid₂', hst₂', -⟩ := h₂.waiting r₃ hr₃ hst₃
    obtain rfl := eq_of_mem_filesOf hr₂ hr₂' (hid₂.trans hid₂'.symm)
    have hno₂ : ∀ r ∈ db₂.filesOf j, r.fileState.lost = false := by
      intro r hr
      rw [← Bool.not_eq_true]
      intro hlost
      obtain ⟨r', hr', hlost'⟩ := h₂.lost ⟨r, hr, hlost⟩
      rw [hno r' hr'] at hlost'
      cases hlost'
    obtain ⟨r₁, hr₁, hid₁, huuid₁⟩ := h₁.kept hno₂ r₂ hr₂ hst₂'
    exact ⟨r₁, hr₁, hid₁.trans hid₂, huuid₁.trans huuid₂⟩

theorem released (h : ReservationStep j db db') (hdb : Released j db) : Released j db' := by
  rcases hdb with hlost | hnone
  · exact .inl (h.lost hlost)
  · right
    intro r' hr' hst'
    obtain ⟨r, hr, -, hst, huuid⟩ := h.waiting r' hr' hst'
    rcases huuid with heq | hnone'
    · rw [heq, hnone r hr hst]
    · exact hnone'

theorem openMultihopJob (h : ReservationStep j db db') (hdb : OpenMultihopJob j db) : OpenMultihopJob j db' := by
  unfold OpenMultihopJob
  rw [h.jobs]
  exact hdb

end ReservationStep

/-- An `UPDATE` that leaves failed hops as they are and takes from the waiting ones no reservation that is still
to be kept. -/
theorem reservationStep_file {j : String} {u : FileUpdate} {db : Db}
    (hnot : u.writes? ≠ some .notUsed)
    (hlost : ∀ r ∈ db.filesOf j, u.selects r = true → r.fileState.lost = true → u.writes? = none)
    (hwait : ∀ r ∈ db.filesOf j, u.selects r = true → u.writes? = none → r.fileState = .notUsed →
      (u.sets db.now r).destSurlUuid = r.destSurlUuid ∨
        Released j db ∧ (u.sets db.now r).destSurlUuid = none) :
    ReservationStep j db ((Stmt.file u).exec db).2 := by
  have hid : ∀ r, (if u.selects r then u.sets db.now r else r).fileId = r.fileId := by
    intro r
    split
    · exact u.sets_fileId db.now r
    · rfl
  have hstep : ∀ r ∈ db.filesOf j, (if u.selects r then u.sets db.now r else r).fileState = .notUsed →
      r.fileState = .notUsed ∧ ((if u.selects r then u.sets db.now r else r).destSurlUuid = r.destSurlUuid ∨
        Released j db ∧ (if u.selects r then u.sets db.now r else r).destSurlUuid = none) := by
    intro r hr hst
    split at hst
    · rename_i hsel
      rw [u.sets_fileState] at hst
      cases hw : u.writes? with
      | none =>
          rw [hw, Option.getD_none] at hst
          rw [if_pos hsel]
          exact ⟨hst, hwait r hr hsel hw hst⟩
      | some st =>
          rw [hw, Option.getD_some] at hst
          rw [hw, hst] at hnot
          exact absurd rfl hnot
    · rename_i hsel
      rw [if_neg hsel]
      exact ⟨hst, .inl rfl⟩
  have hstays : ∀ r ∈ db.filesOf j, r.fileState.lost = true →
      (if u.selects r then u.sets db.now r else r).fileState.lost = true := by
    intro r hr hl
    split
    · rename_i hsel
      rw [u.sets_fileState, hlost r hr hsel hl]
      exact hl
    · exact hl
  constructor
  · rfl
  · intro f r' hr'
    rw [exec_file_find?, Option.map_eq_some_iff] at hr'
    obtain ⟨r, hr, rfl⟩ := hr'
    refine ⟨r, hr, ?_⟩
    split
    · exact u.sets_jobId db.now r
    · rfl
  · intro r' hr' hst'
    rw [exec_file_filesOf] at hr'
    obtain ⟨r, hr, rfl⟩ := List.mem_map.mp hr'
    obtain ⟨hst, huuid⟩ := hstep r hr hst'
    exact ⟨r, hr, (hid r).symm, hst, huuid.imp_right And.right⟩
  · rintro ⟨r, hr, hl⟩
    rw [exec_file_filesOf]
    exact ⟨_, List.mem_map_of_mem hr, hstays r hr hl⟩
  · intro hno r' hr' hst'
    rw [exec_file_filesOf] at hno hr'
    obtain ⟨r, hr, rfl⟩ := List.mem_map.mp hr'
    obtain ⟨hst, huuid⟩ := hstep r hr hst'
    refine ⟨r, hr, (hid r).symm, ?_⟩
    rcases huuid with heq | ⟨hrel, hnone⟩
    · exact heq.symm
    · rcases hrel with ⟨r₀, hr₀, hl⟩ | hall
      · have hl' := hstays r₀ hr₀ hl
        rw [hno _ (List.mem_map_of_mem hr₀)] at hl'
        cases hl'
      · rw [hnone, hall r hr hst]

def reservationContract (j : String) : Contract Db Sel Stmt where
  rely := ReservationStep j
  refl := .refl
  trans := .trans
  cond a last pre := Step.sparesReservations j ⟨0, a, last, pre, pre, 0⟩ = true

/-! ## The status operations -/

/-- What `updateTransferStatus` issues besides `setNullDestSURLMultiHop`. -/
def Stmt.KeepsReservations : Stmt → Prop
  | .file (.updateFileTransferStatus u) => u.Issued ∧ u.newState ≠ .notUsed
  | .file (.useFileReplica _ _ _) | .file (.useNextHop _) => True
  | _ => False

variable {j : String}

theorem allows_keepsReservations :
    Allows (reservationContract j) (OpenMultihopJob j) Stmt.KeepsReservations where
  stable _ _ h := h.openMultihopJob
  update s db db' hs hdb hready := by
    refine ⟨trivial, ?_, Nat.le_refl _⟩
    have hnotUsed : ∀ r : FileRow, r.fileState = .notUsed → r.fileState.lost ≠ true := by
      intro r hst
      rw [hst]
      decide
    cases s with
    | file u =>
        cases u with
        | updateFileTransferStatus u =>
            refine reservationStep_file (by simpa [FileUpdate.writes?] using hs.2) ?_ (by simp [FileUpdate.writes?])
            intro r _ hsel hlost
            have hlive := FileUpdate.selects_not_terminal (u := .updateFileTransferStatus u) hs.1 rfl rfl hsel
            cases hst : r.fileState <;> simp [hst, FileState.lost, FileState.terminal] at hlost hlive
        | useFileReplica j' f uuid =>
            refine reservationStep_file (by simp [FileUpdate.writes?]) ?_ (by simp [FileUpdate.writes?])
            intro r _ hsel hlost
            simp only [FileUpdate.selects, Bool.and_eq_true, decide_eq_true_eq] at hsel
            exact absurd hlost (hnotUsed r hsel.2)
        | useNextHop f =>
            refine reservationStep_file (by simp [FileUpdate.writes?]) ?_ (by simp [FileUpdate.writes?])
            intro r _ hsel hlost
            simp only [FileUpdate.selects, Bool.and_eq_true, decide_eq_true_eq] at hsel
            exact absurd hlost (hnotUsed r hsel.2)
        | _ => cases hs
    | _ => cases hs

theorem setNull_within {j' : String} {db : Db} (hrel : j' = j → Released j db) (hdb : OpenMultihopJob j db) :
    (setNullDestSURLMultiHop j').Within (reservationContract j) (OpenMultihopJob j) db := by
  intro db₁ h₁
  have hstep : ReservationStep j db₁ ((Stmt.file (.setNullDestSURLMultiHop j')).exec db₁).2 := by
    refine reservationStep_file (by simp [FileUpdate.writes?]) (fun _ _ _ _ => rfl) ?_
    intro r hr hsel _ _
    simp only [FileUpdate.selects, Bool.and_eq_true, decide_eq_true_eq] at hsel
    exact .inr ⟨ReservationStep.released h₁.rely (hrel (hsel.1.symm.trans (mem_filesOf.mp hr).2)), rfl⟩
  exact ⟨trivial, hstep, 0, Nat.le_refl _, hstep.openMultihopJob (ReservationStep.openMultihopJob h₁.rely hdb)⟩

theorem ReservationStep.fileOf {db db' : Db} {j' : String} {f : Nat} (h : ReservationStep j db db')
    (hdb : FileOf j' f db) : FileOf j' f db' := by
  intro r' hr'
  obtain ⟨r, hr, hj⟩ := h.row f r' hr'
  exact hj.trans (hdb r hr)

section store

variable {node : Node} {a : TransferStatus} {j' : String} {f : Nat} {job : JobInfo} {uuid : Option String} {db : Db}

theorem afterFileUpdate_within {st : FileState}
    (hrel : j' = j → job.jobType = .multiHop ∧ job.jobState ≠ some .canceled ∧ job.jobState ≠ some .failed ∧
      (st ≠ .finished → Released j db)) (hdb : OpenMultihopJob j db) :
    (afterFileUpdate node j' f job st uuid).Within (reservationContract j) (OpenMultihopJob j) db := by
  unfold afterFileUpdate
  extract_lets jobAlive
  split
  · refine allows_keepsReservations.within ?_ hdb
    split
    · exact (issues_useFileReplica node j' f uuid fun _ => trivial).bind fun _ => issues_commit.mpr trivial
    · trivial
  · split
    · refine allows_keepsReservations.within ?_ hdb
      exact (issues_useNextHop j' fun _ => trivial).bind fun _ => issues_commit.mpr trivial
    · rename_i hnext
      intro db₁ h₁
      refine (setNull_within (fun hj => ReservationStep.released h₁.rely ?_)
        (ReservationStep.openMultihopJob h₁.rely hdb)).bind ?_
      · obtain ⟨-, hcanceled, hfailed, hreleased⟩ := hrel hj
        exact hreleased fun hfin => hnext ⟨⟨hcanceled, hfailed⟩, hfin⟩
      · exact fun _ db₂ hdb₂ db₃ h₃ => ReservationStep.openMultihopJob h₃.rely hdb₂
  · exact .ret hdb

/-- After a hop has failed nothing is left to be kept, and the same holds after another state was stored in a
run that meets the condition. -/
theorem released_of_stored {u : StatusUpdate} {db db' : Db} (hfile : FileOf j u.fileId db')
    (hready : (reservationContract j).Ready (.update (.file (.updateFileTransferStatus u))) 0 db db')
    (hm : ((Stmt.file (.updateFileTransferStatus u)).exec db').1 ≠ 0) (hst : u.newState ≠ .finished)
    (hstep : ReservationStep j db' ((Stmt.file (.updateFileTransferStatus u)).exec db').2) :
    Released j ((Stmt.file (.updateFileTransferStatus u)).exec db').2 := by
  obtain ⟨r, hr, hsel⟩ := Table.matched_pos.mp (Nat.pos_of_ne_zero hm)
  have hid : r.fileId = u.fileId := by
    simp only [FileUpdate.selects, Bool.and_eq_true, decide_eq_true_eq] at hsel
    exact hsel.1
  have hrj : r ∈ db'.filesOf j := by
    have hfind := Table.find?_key hr
    exact mem_filesOf.mpr ⟨hfind, hfile r (hid ▸ hfind)⟩
  by_cases hlost : u.newState.lost = true
  · left
    refine ⟨(FileUpdate.updateFileTransferStatus u).sets db'.now r, ?_, hlost⟩
    rw [exec_file_filesOf]
    refine List.mem_map.mpr ⟨r, hrj, ?_⟩
    rw [if_pos hsel]
  · refine hstep.released (.inr ?_)
    have hcond : Step.sparesReservations j
        ⟨0, .update (.file (.updateFileTransferStatus u)), db, db', db', 0⟩ = true := hready.cond
    have hterm : u.newState.terminal = false := by
      cases hnew : u.newState <;> simp [hnew, FileState.lost, FileState.terminal] at hlost hst ⊢
    have hany : (db'.filesOf j).any (FileUpdate.updateFileTransferStatus u).selects = true :=
      List.any_eq_true.mpr ⟨r, hrj, hsel⟩
    simp only [Step.sparesReservations, hterm, hany, Bool.not_true, Bool.false_or, List.all_eq_true,
      Bool.or_eq_true, decide_eq_true_eq] at hcond
    intro r' hr' hst'
    simpa using (hcond r' hr').resolve_left (by simp [hst'])

theorem storeFileState_reserves {stored : Option FileState} {archiving : Bool}
    (href : refused stored a.newFileState a.processId = false)
    (harch : archiving = true → a.newFileState = .finished) (hnew : a.newFileState ≠ .notUsed)
    (hjob : j' = j → job.jobType = .multiHop ∧ job.jobState ≠ some .canceled ∧ job.jobState ≠ some .failed)
    (hfile : FileOf j' f db) (hdb : OpenMultihopJob j db) :
    (storeFileState node a j' f job stored uuid archiving).Within (reservationContract j) (OpenMultihopJob j) db := by
  refine storeFileState_honors href harch fun u hf _ hreq hissued db₁ h₁ => ?_
  have hplain : Stmt.KeepsReservations (.file (.updateFileTransferStatus u)) := by
    refine ⟨hissued, ?_⟩
    rcases hissued.2 with heq | ⟨-, heq⟩
    · rw [heq, hreq]
      exact hnew
    · rw [heq]
      decide
  obtain ⟨-, hstep, hcost⟩ := allows_keepsReservations.update _ _ _ hplain hdb h₁
  have hdb₁ := hstep.openMultihopJob (ReservationStep.openMultihopJob h₁.rely hdb)
  refine ⟨trivial, hstep, 0, hcost, fun db₂ h₂ => ⟨fun _ => h₂.openMultihopJob hdb₁, fun hm => ?_⟩⟩
  refine afterFileUpdate_within (fun hj => ?_) (h₂.openMultihopJob hdb₁)
  obtain ⟨hty, hcanceled, hfailed⟩ := hjob hj
  subst hj hf
  exact ⟨hty, hcanceled, hfailed, fun hst => h₂.released
    (released_of_stored (ReservationStep.fileOf h₁.rely hfile) h₁ hm hst hstep)⟩

end store

theorem Call.reportsHop_within {c : Call} {db : Db} (hc : c.reportsHop j db = true) (hdb : OpenMultihopJob j db) :
    c.prog.Within (reservationContract j) (OpenMultihopJob j) db := by
  cases c with
  | updateTransferStatus node a =>
      simp only [reportsHop, Bool.and_eq_true, decide_eq_true_eq, List.any_eq_true] at hc
      obtain ⟨⟨hj, r, hr, hid⟩, hst⟩ := hc
      have hnew : a.newFileState ≠ .notUsed := by
        intro h
        simp [h] at hst
      have hown : FileOf a.jobId a.fileId db := by
        intro r' hr'
        obtain ⟨hfind, hrj⟩ := mem_filesOf.mp hr
        rw [hid, hr'] at hfind
        rw [Option.some.inj hfind, hrj, hj]
      refine Op.Within.bind (p := updateFileTransferStatusInternal node a) ?_ fun _ _ h => .ret h
      refine updateFileTransferStatusInternal_honors (T := FileOf) allows_keepsReservations.stable
        (fun _ _ _ _ h => h.fileOf) (fun db r _ hr _ r' hr' => ?_) (fun j' f db hdb hfile => ?_) hdb hown
      · rw [Table.find?_key hr] at hr'
        rw [Option.some.inj hr']
      · refine updateFileState_honors (I := fun db => OpenMultihopJob j db ∧ FileOf j' f db)
          (J := fun job _ => j' = j → job.jobType = .multiHop ∧ job.jobState ≠ some .canceled ∧
            job.jobState ≠ some .failed) ?_ (fun _ _ h => h.1) (fun _ _ _ _ h => h) ?_ ?_ ⟨hdb, hfile⟩
        · exact fun _ _ h hdb => ⟨h.openMultihopJob hdb.1, h.fileOf hdb.2⟩
        · rintro db ⟨⟨job, hjob, hty, hlive⟩, -⟩ rfl
          simp only [jobInfo, hjob]
          refine ⟨hty, ?_, ?_⟩
          · intro h
            rw [Option.some.inj h] at hlive
            cases hlive
          · intro h
            rw [Option.some.inj h] at hlive
            cases hlive
        · intro job stored uuid archiving db hdb hjob href harch
          exact storeFileState_reserves href harch hnew hjob hdb.2 hdb.1
  | _ => cases hc

/-- In a run of status reports in which only `FINISHED`, `FAILED` and `CANCELED` are stored while hops wait, the
hops that wait keep their reservations until one has failed or was canceled. -/
theorem reservations_kept (j : String) (db : Db) (calls : List Call) (schedule : List Nat)
    (hdb : OpenMultihopJob j db) (hcalls : ∀ c ∈ calls, c.reportsHop j db = true)
    (h : ∀ e ∈ System.steps db calls schedule, Step.sparesReservations j e = true) :
    ReservationsKept j db (System.after db calls schedule).store := by
  have hstart : (System.init db calls).HonorsWith Stmt.exec (reservationContract j) _ :=
    honorsWith_init (Nat.le_refl 0) fun c hc => (c.reportsHop_within (hcalls c hc) hdb).honors
  exact (hstart.run schedule h).1.kept

def reservedHops : Db where
  files := .ofRows [
    { fileId := 1, jobId := "j", fileState := .submitted, fileIndex := some 0, destSurlUuid := some "a" },
    { fileId := 2, jobId := "j", fileState := .notUsed, fileIndex := some 1, destSurlUuid := some "b" },
    { fileId := 3, jobId := "j", fileState := .notUsed, fileIndex := some 2, destSurlUuid := some "c" }]
  jobs := .ofRows [{ jobId := "j", jobState := .submitted, jobType := some .multiHop }]

theorem openMultihopJob_reservedHops : OpenMultihopJob "j" reservedHops :=
  ⟨_, rfl, rfl, rfl⟩

theorem reservations_kept_finished :
    ReservationsKept "j" reservedHops (System.after reservedHops
      [.updateTransferStatus { hostname := "a" } { jobId := "j", fileId := 1, newFileState := .finished }]
      (List.replicate 10 0)).store ∧
    ((System.after reservedHops
      [.updateTransferStatus { hostname := "a" } { jobId := "j", fileId := 1, newFileState := .finished }]
      (List.replicate 10 0)).store.files.find? 3).bind (·.destSurlUuid) = some "c" :=
  ⟨reservations_kept "j" reservedHops _ _ openMultihopJob_reservedHops (by decide) (by decide), by decide⟩

/-- The claim of the first hop takes the reservations of the others. -/
theorem reservations_not_kept_ready :
    OpenMultihopJob "j" reservedHops ∧ ¬ReservationsKept "j" reservedHops (System.after reservedHops
      [.updateTransferStatus { hostname := "a" } { jobId := "j", fileId := 1, newFileState := .ready }]
      (List.replicate 8 0)).store := by
  refine ⟨openMultihopJob_reservedHops, ?_⟩
  unfold ReservationsKept
  decide

end Fts3.MySql
