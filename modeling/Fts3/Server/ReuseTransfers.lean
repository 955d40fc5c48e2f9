import Fts3.Server.FileTransferExecutor
import Fts3.MySql.Lemmas.Writes

/-!
# Session reuse

`ReuseTransfersService.cpp`: the transfers of a session reuse job are written into a file, the files of the job are
claimed, and one `fts_url_copy` is started for all of them.
-/

namespace Fts3.Server

open Fts3.Sql Fts3.MySql

/-! ## The bulk job file -/

/-- `UrlCopyCmd::prepareMetadataString`. -/
def prepareMetadataString (text : String) : String :=
  String.ofList (text.toList.flatMap fun c => if c = ' ' then ['?'] else if c = '"' then ['\\', '"'] else [c])

def orX (s : String) : String := if s = "" then "x" else s

/-- A line of the bulk job file. -/
def jobFileLine (r : FileRow) : String :=
  " ".intercalate [toString r.fileId, r.sourceSurl.getD "", r.destSurl.getD "", orX (r.checksum.getD ""),
    toString (r.userFilesize.getD 0), orX (prepareMetadataString (r.fileMetadata.getD "")),
    orX (prepareMetadataString (r.archiveMetadata.getD "")), orX (r.bringonlineToken.getD ""),
    toString (r.scitag.getD 0)]

/-- The file ids, and the lines that are written to the file. -/
def generateJobFile (files : List FileRow) : List Nat × List String :=
  (files.map (·.fileId), files.map jobFileLine)

/-! ## Starting the job -/

/-- After the claim: `fts_url_copy` is executed. -/
def executeBulk (node : Node) (spawn : Spawn) (jobId : String) (fileIds : List Nat) : Op Unit := do
  match spawn.pid with
  | none => forkFailed node jobId
  | some pid => setPidForJob jobId pid
  updateProtocol (fileIds.map spawn.message)

/-- The bulk job file that is handed to `fts_url_copy`, if it is started: the ids of its transfers. -/
def startUrlCopy (node : Node) (spawn : Spawn) (jobId : String) (files : List FileRow) :
    Op (Option (List Nat)) :=
  match files with
  -- jobs without files are not queued
  | [] => pure none
  | representative :: _ => do
      let fileIds := (generateJobFile files).1
      -- Can we run?
      let allowed ← isTrAllowed representative.sourceSe representative.destSe
      if allowed = some true then do
        -- Set all to ready, special case for session reuse
        let updatedFiles ← updateFileStatusReuse node representative.jobId .ready
        if updatedFiles = 0 then pure none
        else do
          executeBulk node spawn jobId fileIds
          pure (some fileIds)
      else pure none

/-- A session reuse job from its fetch to its start. -/
def runReuseJob (node : Node) (tTime : Nat) (spawn : Spawn) (jobId : String) : Op (Option (List Nat)) := do
  let files ← getSessionReuseTransfers node tTime jobId
  startUrlCopy node spawn jobId files

/-! ## What is claimed and what is shipped -/

/-- The files that a statement moves to `READY` for a session reuse job, in the database that it finds. -/
def claimedBy : Stmt × Db → List Nat
  | (.file (.updateFileStatusReuse jobId .ready hostname), db) =>
      (db.files.select (FileUpdate.updateFileStatusReuse jobId .ready hostname).selects).map (·.fileId)
  | _ => []

section job

variable (node : Node) (tTime : Nat) (spawn : Spawn) (jobId : String) (seen : Nat → Db)

/-- The files that the job moves to `READY`, while others are at work. -/
def claimed : List Nat :=
  ((runReuseJob node tTime spawn jobId).issuedAmid Stmt.exec seen).flatMap claimedBy

/-- The transfers in the bulk job file that is handed to `fts_url_copy`. -/
def shipped : List Nat :=
  ((runReuseJob node tTime spawn jobId).amid Stmt.exec seen).getD []

/-- The transfers that the first statement fetches. -/
def fetched : List FileRow :=
  (getSessionReuseTransfers node tTime jobId).amid Stmt.exec seen

/-- The answer of `isTrAllowed`, whose statements come after the fetch. -/
def allowed (r : FileRow) : Option Bool :=
  (isTrAllowed r.sourceSe r.destSe).amid Stmt.exec fun n => seen (n + 1)

end job

section exact

variable {node : Node} {tTime : Nat} {spawn : Spawn} {jobId : String} {seen : Nat → Db}

theorem mem_fetched {r : FileRow} : r ∈ fetched node tTime jobId seen ↔
    ((seen 0).jobs.find? jobId).isSome = true ∧ r ∈ (seen 0).filesOf jobId ∧ r.fetchable node tTime = true := by
  simp only [fetched, getSessionReuseTransfers, select, Proc.query, Proc.amid]
  split
  · rename_i hjob
    simp [hjob, Db.filesOf, Table.select, and_assoc]
  · rename_i hjob
    simp [hjob]

theorem claimedBy_of_issues {β : Type} {p : Op β} (hp : p.Issues fun s => ∀ db, claimedBy (s, db) = []) (seen : Nat → Db) :
    (p.issuedAmid Stmt.exec seen).flatMap claimedBy = [] := by
  rw [List.flatMap_eq_nil_iff]
  intro e he
  exact hp.issuedAmid seen e he e.2

theorem executeBulk_claims_nothing (fileIds : List Nat) :
    (executeBulk node spawn jobId fileIds).Issues fun s => ∀ db, claimedBy (s, db) = [] := by
  have hprotocol : (updateProtocol (fileIds.map spawn.message)).Issues fun s => ∀ db, claimedBy (s, db) = [] := by
    refine (Proc.issues_forM _ _ fun m _ => ?_).bind fun _ => trivial
    simp [claimedBy]
  unfold executeBulk
  cases spawn.pid with
  | none => exact ⟨fun _ => rfl, fun _ => ⟨fun _ => rfl, fun _ => hprotocol⟩⟩
  | some pid => exact ⟨fun _ => rfl, fun _ => hprotocol⟩

theorem isTrAllowed_amid {s d : String} (seen : Nat → Db) (h : (isTrAllowed s d).amid Stmt.exec seen = some true) :
    (isTrAllowed s d).lengthAmid Stmt.exec seen = 2 := by
  simp only [isTrAllowed, Proc.bind_eq, select_bind, Proc.amid, Proc.lengthAmid] at h ⊢
  split at h
  · cases h
  · rfl

theorem isTrAllowed_issues {P : Stmt → Prop} (s d : String) : (isTrAllowed s d).Issues P := by
  simp only [isTrAllowed, Proc.bind_eq, select_bind, Proc.issues_select]
  intro db
  split <;> simp [getActiveCount]

theorem issuedAmid_nil {β : Type} {p : Op β} (hp : p.Issues fun _ => False) (seen : Nat → Db) :
    p.issuedAmid Stmt.exec seen = [] := by
  rw [List.eq_nil_iff_forall_not_mem]
  exact fun e he => hp.issuedAmid seen e he

/-- The files of the job that are queued. -/
def queuedIds (jobId : String) (db : Db) : List Nat :=
  ((db.filesOf jobId).filter fun r => r.fileState = .submitted).map (·.fileId)

theorem claimed_ids (j h : String) (db : Db) :
    claimedBy (.file (.updateFileStatusReuse j .ready h), db) = queuedIds j db := by
  simp only [claimedBy, queuedIds, Db.filesOf, Table.select, List.filter_filter]
  congr 2
  funext r
  exact Bool.and_comm _ _

theorem updateFileStatusReuse_amid (j : String) (seen : Nat → Db) :
    (updateFileStatusReuse node j .ready).amid Stmt.exec seen = (queuedIds j (seen 1)).length ∧
    ((updateFileStatusReuse node j .ready).issuedAmid Stmt.exec seen).flatMap claimedBy = queuedIds j (seen 1) := by
  have hlength : ((Stmt.file (.updateFileStatusReuse j .ready node.hostname)).exec (seen 1)).1 =
      (queuedIds j (seen 1)).length := by
    rw [← claimed_ids j node.hostname, claimedBy, List.length_map]
    exact List.countP_eq_length_filter
  simp only [updateFileStatusReuse, Proc.bind_eq, beginTx_bind, updateFile_bind, Proc.amid, Proc.issuedAmid, Nat.zero_add,
    List.flatMap_cons, claimed_ids, hlength]
  cases (queuedIds j (seen 1)).length with
  | zero => simp [Proc.amid, Proc.issuedAmid]
  | succ n => simp [Proc.amid, Proc.issuedAmid, FileState.toJobState?, claimedBy]

/-- Once it may run, the job claims what is queued at the fifth statement, after the fetch, the two queries of
`isTrAllowed` and the `BEGIN`. -/
theorem startUrlCopy_amid {r : FileRow} {rs : List FileRow} {seen : Nat → Db}
    (hallowed : (isTrAllowed r.sourceSe r.destSe).amid Stmt.exec seen = some true) :
    ((startUrlCopy node spawn jobId (r :: rs)).amid Stmt.exec seen).getD [] =
      (if (queuedIds r.jobId (seen 3)).length = 0 then [] else (r :: rs).map (·.fileId)) ∧
    ((startUrlCopy node spawn jobId (r :: rs)).issuedAmid Stmt.exec seen).flatMap claimedBy =
      queuedIds r.jobId (seen 3) := by
  have hmatched : (updateFileStatusReuse node r.jobId .ready).amid Stmt.exec (fun n => seen (n + 2)) =
      (queuedIds r.jobId (seen 3)).length := (updateFileStatusReuse_amid r.jobId _).1
  have hclaimed : ((updateFileStatusReuse node r.jobId .ready).issuedAmid Stmt.exec fun n => seen (n + 2)).flatMap
      claimedBy = queuedIds r.jobId (seen 3) := (updateFileStatusReuse_amid r.jobId _).2
  have hlength := isTrAllowed_amid seen hallowed
  simp only [startUrlCopy, Proc.bind_eq, Proc.amid_bind, Proc.issuedAmid_bind, hallowed, hlength, if_true,
    issuedAmid_nil (isTrAllowed_issues _ _), List.nil_append, hmatched, List.flatMap_append, hclaimed]
  by_cases hnone : (queuedIds r.jobId (seen 3)).length = 0
  · simp [hnone, Proc.amid, Proc.issuedAmid]
  · have hbulk : ∀ fileIds seen, ((executeBulk node spawn jobId fileIds).issuedAmid Stmt.exec seen).flatMap claimedBy =
        [] := fun fileIds => claimedBy_of_issues (executeBulk_claims_nothing fileIds)
    simp [hnone, Proc.amid, Proc.issuedAmid, Proc.amid_bind, Proc.issuedAmid_bind, hbulk, generateJobFile]

theorem startUrlCopy_amid_of_not_allowed {r : FileRow} {rs : List FileRow} {seen : Nat → Db}
    (hallowed : ¬(isTrAllowed r.sourceSe r.destSe).amid Stmt.exec seen = some true) :
    (startUrlCopy node spawn jobId (r :: rs)).amid Stmt.exec seen = none ∧
      (startUrlCopy node spawn jobId (r :: rs)).issuedAmid Stmt.exec seen = [] := by
  simp [startUrlCopy, Proc.amid_bind, Proc.issuedAmid_bind, hallowed, issuedAmid_nil (isTrAllowed_issues _ _),
    Proc.amid, Proc.issuedAmid]

/-- A file is queued at the claim exactly when it was fetched: queued, in the hash segment of the node and due. -/
def FetchedExactly (node : Node) (tTime : Nat) (jobId : String) (atFetch atClaim : Db) : Prop :=
  (∀ r ∈ atClaim.filesOf jobId, r.fileState = .submitted →
    ∃ r' ∈ atFetch.filesOf jobId, r'.fileId = r.fileId ∧ r'.fetchable node tTime = true) ∧
  ∀ r ∈ atFetch.filesOf jobId, r.fetchable node tTime = true →
    ∃ r' ∈ atClaim.filesOf jobId, r'.fileId = r.fileId ∧ r'.fileState = .submitted

theorem mem_queuedIds {db : Db} {f : Nat} : f ∈ queuedIds jobId db ↔
    ∃ r ∈ db.filesOf jobId, r.fileState = .submitted ∧ r.fileId = f := by
  simp [queuedIds, and_assoc]

theorem fetchedExactly_iff (hjob : ((seen 0).jobs.find? jobId).isSome = true) :
    (∀ f, f ∈ queuedIds jobId (seen 4) ↔ f ∈ (fetched node tTime jobId seen).map (·.fileId)) ↔
      FetchedExactly node tTime jobId (seen 0) (seen 4) := by
  simp only [mem_queuedIds, List.mem_map, mem_fetched, hjob, true_and]
  constructor
  · intro h
    refine ⟨fun r hr hst => ?_, fun r hr hfetch => ?_⟩
    · obtain ⟨r', ⟨hr', hfetch⟩, hid⟩ := (h r.fileId).mp ⟨r, hr, hst, rfl⟩
      exact ⟨r', hr', hid, hfetch⟩
    · obtain ⟨r', hr', hst, hid⟩ := (h r.fileId).mpr ⟨r, ⟨hr, hfetch⟩, rfl⟩
      exact ⟨r', hr', hid, hst⟩
  · intro h f
    constructor
    · rintro ⟨r, hr, hst, rfl⟩
      obtain ⟨r', hr', hid, hfetch⟩ := h.1 r hr hst
      exact ⟨r', ⟨hr', hfetch⟩, hid⟩
    · rintro ⟨r, ⟨hr, hfetch⟩, rfl⟩
      obtain ⟨r', hr', hid, hst⟩ := h.2 r hr hfetch
      exact ⟨r', hr', hst, hid⟩

end exact

/-- The claimed files are the shipped ones exactly when the job is not started, or its queued files are those that
were fetched. -/
theorem claimed_iff_shipped (node : Node) (tTime : Nat) (spawn : Spawn) (jobId : String) (seen : Nat → Db) :
    (∀ f, f ∈ claimed node tTime spawn jobId seen ↔ f ∈ shipped node tTime spawn jobId seen) ↔
      ((∃ r, (fetched node tTime jobId seen).head? = some r ∧ allowed seen r = some true) →
        (∃ r ∈ (seen 4).filesOf jobId, r.fileState = .submitted) →
        FetchedExactly node tTime jobId (seen 0) (seen 4)) := by
  have hclaimed : claimed node tTime spawn jobId seen = ((startUrlCopy node spawn jobId
      (fetched node tTime jobId seen)).issuedAmid Stmt.exec fun n => seen (n + 1)).flatMap claimedBy := rfl
  have hshipped : shipped node tTime spawn jobId seen = ((startUrlCopy node spawn jobId
      (fetched node tTime jobId seen)).amid Stmt.exec fun n => seen (n + 1)).getD [] := rfl
  rw [hclaimed, hshipped]
  cases hfetched : fetched node tTime jobId seen with
  | nil => simp [startUrlCopy, Proc.amid, Proc.issuedAmid]
  | cons r rs =>
      have hmem : r ∈ fetched node tTime jobId seen := by simp [hfetched]
      obtain ⟨hjob, hr, -⟩ := mem_fetched.mp hmem
      have hrj : r.jobId = jobId := (mem_filesOf.mp hr).2
      by_cases hallowed : allowed seen r = some true
      · rw [(startUrlCopy_amid hallowed).1, (startUrlCopy_amid hallowed).2, hrj, ← hfetched, ← fetchedExactly_iff hjob]
        by_cases hnone : (queuedIds jobId (seen 4)).length = 0
        · have hno : ¬∃ r ∈ (seen 4).filesOf jobId, r.fileState = .submitted := by
            rintro ⟨r', hr', hst'⟩
            have hmem' := mem_queuedIds.mpr ⟨r', hr', hst', rfl⟩
            rw [List.length_eq_zero_iff.mp hnone] at hmem'
            cases hmem'
          simp [hno, List.length_eq_zero_iff.mp hnone]
        · have hsome : ∃ r ∈ (seen 4).filesOf jobId, r.fileState = .submitted := by
            obtain ⟨f, hf⟩ := List.exists_mem_of_length_pos (Nat.pos_of_ne_zero hnone)
            obtain ⟨r', hr', hst', -⟩ := mem_queuedIds.mp hf
            exact ⟨r', hr', hst'⟩
          simp [hnone, hsome, hfetched, hallowed]
      · rw [(startUrlCopy_amid_of_not_allowed hallowed).1, (startUrlCopy_amid_of_not_allowed hallowed).2]
        simp [hallowed]

/-- The second file of the job is to be retried later. -/
def retryLaterDb : Db where
  files := .ofRows [{ fileId := 1, jobId := "j", fileState := .submitted },
    { fileId := 2, jobId := "j", fileState := .submitted, retryTimestamp := some 500 }]
  jobs := .ofRows [{ jobId := "j", jobState := .active, jobType := some .sessionReuse }]

/-- It is claimed with the first one, but not shipped. -/
theorem claimed_not_shipped_retryLater :
    ¬∀ f, f ∈ claimed { hostname := "a" } 100 { pid := some 7 } "j" (fun _ => retryLaterDb) ↔
      f ∈ shipped { hostname := "a" } 100 { pid := some 7 } "j" (fun _ => retryLaterDb) := by
  intro h
  exact absurd ((h 2).mp (by decide)) (by decide)

end Fts3.Server
