import Fts3.MySql.Lemmas.Writes
import Fts3.QosDaemon.QosTransition

/-!
# Requests are polled

A daemon polls every transition that it has submitted, until the storage has decided, in exactly the runs in which it does
not abandon one.
-/

namespace Fts3.QosDaemon

open Fts3.Machine Fts3.Sql Fts3.MySql

/-! ## What a daemon is responsible for -/

/-- The daemon would find the file. -/
def CDMIDaemon.seen (d : CDMIDaemon) (q : QosDb) (r : FileRow) : Bool :=
  qosSelects d.node .qosRequestSubmitted true r && !(q.proxies r).isEmpty

/-- A poll is on its way, or a task that will add one. -/
def CDMIDaemon.polling (d : CDMIDaemon) : Bool :=
  d.transitions.any (·.anySuccessful) || !d.waitingRoom.isEmpty || !d.pollQueue.isEmpty

/-- The poll has still to check the file, or comes again. -/
def CDMIPoll.tracks (p : CDMIPoll) (f : Nat) : Bool :=
  p.anyPending || p.rest.any (fun op => op.fileId = f) || decide (f ∈ p.left)

def CDMIDaemon.tracks (d : CDMIDaemon) (f : Nat) : Bool :=
  d.polling || d.polls.any (·.tracks f)

/-- Every file that the daemon would find is tracked. -/
def CDMIDaemon.Polls (d : CDMIDaemon) (q : QosDb) : Prop :=
  ∀ r ∈ q.db.files.rows, d.seen q r = true → d.tracks r.fileId = true

/-- The event ends the last poll of a request that has not been decided: the process ends, its segment comes to include
other files, or a poll comes to its end with nothing pending after a check has failed. -/
def CDMIDaemon.Abandons (d : CDMIDaemon) (q : QosDb) : CDMIEvent → Prop
  | .beginPoll k _ =>
      k < d.pollQueue.length ∧ getFilesForQosTransition d.node .qosRequestSubmitted true q = none ∧
        ∃ r ∈ q.db.files.rows, d.seen q r = true
  | .endPoll k _ =>
      match d.polls[k]? with
      | none => False
      | some p =>
          p.rest = [] ∧ p.anyPending = false ∧ ∃ r ∈ q.db.files.rows, d.seen q r = true ∧ r.fileId ∈ p.left ∧
            { d with polls := d.polls.eraseIdx k }.tracks r.fileId = false
  | .heartBeat hashStart hashEnd =>
      ∃ r ∈ q.db.files.rows, { d with node := { d.node with hashStart, hashEnd } }.seen q r = true ∧
        d.tracks r.fileId = false
  | .restart => ∃ r ∈ q.db.files.rows, d.seen q r = true
  | _ => False

instance decidableAbandons (d : CDMIDaemon) (q : QosDb) : ∀ e, Decidable (d.Abandons q e)
  | .beginPoll _ _ => inferInstanceAs (Decidable (_ ∧ _ ∧ ∃ r ∈ q.db.files.rows, _))
  | .endPoll k _ => by
      unfold CDMIDaemon.Abandons
      dsimp only
      split <;> infer_instance
  | .heartBeat _ _ => inferInstanceAs (Decidable (∃ r ∈ q.db.files.rows, _))
  | .restart => inferInstanceAs (Decidable (∃ r ∈ q.db.files.rows, _))
  | .fetch | .begin _ | .change _ _ | .read _ | .write _ | .submitted _ | .wake _ | .check _ _ => .isFalse id

/-! ## What the others do to the files -/

/-- No request appears. -/
def Submitless (q q' : QosDb) : Prop :=
  ∀ r' ∈ q'.db.files.rows, r'.fileState = .qosRequestSubmitted → q'.proxies r' ≠ [] →
    ∃ r ∈ q.db.files.rows, r.fileId = r'.fileId ∧ r.fileState = .qosRequestSubmitted ∧
      r.transferHost = r'.transferHost ∧ r.hashedId = r'.hashedId ∧ q.proxies r ≠ []

section changes

variable {q q' q'' : QosDb} {d : CDMIDaemon}

theorem Submitless.refl (q : QosDb) : Submitless q q :=
  fun r' hr' hst hp => ⟨r', hr', rfl, hst, rfl, rfl, hp⟩

theorem Submitless.trans (h : Submitless q q') (h' : Submitless q' q'') : Submitless q q'' := by
  intro r'' hr'' hst hp
  obtain ⟨r', hr', hid', hst', hhost', hhash', hp'⟩ := h' r'' hr'' hst hp
  obtain ⟨r, hr, hid, hst, hhost, hhash, hp⟩ := h r' hr' hst' hp'
  exact ⟨r, hr, hid.trans hid', hst, hhost.trans hhost', hhash.trans hhash', hp⟩

theorem seen_iff {r : FileRow} : d.seen q r = true ↔
    qosSelects d.node .qosRequestSubmitted true r = true ∧ q.proxies r ≠ [] := by
  simp [CDMIDaemon.seen]

theorem qosSelects_iff {node : Node} {st : FileState} {r : FileRow} : qosSelects node st true r = true ↔
    r.fileState = st ∧ node.hashStart ≤ r.hashedId ∧ r.hashedId ≤ node.hashEnd ∧
      r.transferHost = some node.hostname := by
  simp [qosSelects, and_assoc]

theorem Submitless.seen (h : Submitless q q') {r' : FileRow} (hr' : r' ∈ q'.db.files.rows) (hseen : d.seen q' r' = true) :
    ∃ r ∈ q.db.files.rows, r.fileId = r'.fileId ∧ d.seen q r = true := by
  obtain ⟨hsel, hp⟩ := seen_iff.mp hseen
  obtain ⟨hst, hlo, hhi, hhost⟩ := qosSelects_iff.mp hsel
  obtain ⟨r, hr, hid, hst, hhost', hhash, hp⟩ := h r' hr' hst hp
  refine ⟨r, hr, hid, seen_iff.mpr ⟨qosSelects_iff.mpr ⟨hst, ?_, ?_, hhost'.trans hhost⟩, hp⟩⟩
  · rw [hhash]
    exact hlo
  · rw [hhash]
    exact hhi

theorem CDMIDaemon.Polls.submitless (h : d.Polls q) (hq : Submitless q q') : d.Polls q' := by
  intro r' hr' hseen
  obtain ⟨r, hr, hid, hseen⟩ := hq.seen hr' hseen
  rw [← hid]
  exact h r hr hseen

end changes

/-- The statement submits no request. -/
def Unsubmitting : Stmt → Prop
  | .file u => u.writes? ≠ some .qosRequestSubmitted
  | _ => True

section statements

variable {s : Stmt} {db : Db}

theorem sets_submitted {u : FileUpdate} {now : Nat} {r : FileRow}
    (hu : u.writes? ≠ some .qosRequestSubmitted) (hst : (u.sets now r).fileState = .qosRequestSubmitted) :
    r.fileState = .qosRequestSubmitted ∧ (u.sets now r).transferHost = r.transferHost ∧
      (u.sets now r).hashedId = r.hashedId := by
  rw [u.sets_fileState] at hst
  cases hw : u.writes? with
  | some st =>
      rw [hw] at hst hu
      exact absurd (congrArg some hst) hu
  | none =>
      rw [hw] at hst
      refine ⟨hst, ?_⟩
      cases u <;> first | exact ⟨rfl, rfl⟩ | cases hw

theorem rows_exec (hs : Unsubmitting s) : ∀ r' ∈ (s.exec db).2.files.rows, r'.fileState = .qosRequestSubmitted →
    ∃ r ∈ db.files.rows, r.fileId = r'.fileId ∧ r.jobId = r'.jobId ∧ r.fileState = .qosRequestSubmitted ∧
      r.transferHost = r'.transferHost ∧ r.hashedId = r'.hashedId := by
  intro r' hr' hst
  cases s with
  | file u =>
      obtain ⟨r, hr, rfl⟩ : ∃ r ∈ db.files.rows, (if u.selects r then u.sets db.now r else r) = r' := by
        simpa [Stmt.exec, Table.update] using hr'
      refine ⟨r, hr, ?_⟩
      split at hst
      case isTrue hsel =>
        rw [if_pos hsel]
        obtain ⟨hst, hhost, hhash⟩ := sets_submitted hs hst
        exact ⟨(u.sets_fileId db.now r).symm, (u.sets_jobId db.now r).symm, hst, hhost.symm, hhash.symm⟩
      case isFalse hsel =>
        rw [if_neg hsel]
        exact ⟨rfl, rfl, hst, rfl, rfl⟩
  | deleteFiles js => exact ⟨r', (List.mem_filter.mp hr').1, rfl, rfl, hst, rfl, rfl⟩
  | _ => exact ⟨r', hr', rfl, rfl, hst, rfl, rfl⟩

/-- No job appears, and none gets another credential. -/
theorem credId_exec (s : Stmt) (db : Db) {j : String} {job' : JobRow} (h : (s.exec db).2.jobs.find? j = some job') :
    ∃ job, db.jobs.find? j = some job ∧ job.credId = job'.credId := by
  cases s with
  | job u =>
      rw [Stmt.exec, Table.find?_update, Option.map_eq_some_iff] at h
      obtain ⟨job, hjob, rfl⟩ := h
      refine ⟨job, hjob, ?_⟩
      split
      · cases u <;> rfl
      · rfl
  | deleteJobs js =>
      rw [Stmt.exec, Table.find?_delete, Option.filter_eq_some_iff] at h
      exact ⟨job', h.1, rfl⟩
  | _ => exact ⟨job', h, rfl⟩

theorem submitless_exec {q : QosDb} (hs : Unsubmitting s) : Submitless q { q with db := (s.exec q.db).2 } := by
  intro r' hr' hst hp
  obtain ⟨r, hr, hid, hjob, hst, hhost, hhash⟩ := rows_exec hs r' hr' hst
  refine ⟨r, hr, hid, hst, hhost, hhash, fun hnone => hp ?_⟩
  unfold QosDb.proxies at hnone ⊢
  cases hfind : (s.exec q.db).2.jobs.find? r'.jobId with
  | none => rfl
  | some job' =>
      obtain ⟨job, hfind', hcred⟩ := credId_exec s q.db hfind
      rw [hjob, hfind'] at hnone
      simp only [← hcred]
      exact hnone

theorem submitless_run {α : Type} {p : Op α} {q : QosDb} (hp : p.Issues Unsubmitting) :
    Submitless q { q with db := p.alone q.db } := by
  have hrun : ∀ db, Submitless q { q with db } → Submitless q { q with db := p.alone db } := fun db hdb =>
    hp.run (I := fun db => Submitless q { q with db }) (fun _ _ hu h => h.trans (submitless_exec hu)) hdb
  exact hrun q.db (Submitless.refl q)

section terminate

variable {q : QosDb} {node : Node} {op : QosTransitionOperation} {st : FileState} {reason : String}

theorem issues_storeQosJob (j : String) (t : Nat) : (storeQosJob j t).Issues Unsubmitting := by
  simp only [storeQosJob, Proc.bind_eq, select_bind, Proc.issues_select]
  intro db
  split <;> simp [Unsubmitting]

theorem submitless_terminate (hst : st ≠ .qosRequestSubmitted) : Submitless q (q.terminate node op st reason) := by
  refine submitless_run ?_
  have hwrite : ∀ start finish duration host,
      Unsubmitting (.file (.updateFileStateToQosTerminal op.fileId st start finish duration host)) := by
    simpa [Unsubmitting, FileUpdate.writes?] using hst
  have hreason : Unsubmitting (.file (.qosTerminalReason op.fileId reason)) := by
    simp [Unsubmitting, FileUpdate.writes?]
  have hjob : ∀ t, Proc.Issues Unsubmitting ((storeQosJob op.jobId t).bind fun _ => commit) := fun t =>
    (issues_storeQosJob op.jobId t).bind fun _ => issues_commit.mpr trivial
  simp [updateFileStateToQosTerminal, hwrite, hreason, hjob]

theorem unsubmitted_terminate (hst : st ≠ .qosRequestSubmitted) :
    ∀ r ∈ (q.terminate node op st reason).db.files.rows, r.fileId = op.fileId → r.fileState ≠ .qosRequestSubmitted := by
  have hreason : Unsubmitting (.file (.qosTerminalReason op.fileId reason)) := by
    simp [Unsubmitting, FileUpdate.writes?]
  have hjob : ∀ t, Proc.Issues Unsubmitting ((storeQosJob op.jobId t).bind fun _ => commit) := fun t =>
    (issues_storeQosJob op.jobId t).bind fun _ => issues_commit.mpr trivial
  have hkept : ∀ {p : Op Unit} {db : Db}, p.Issues Unsubmitting →
      (∀ r ∈ db.files.rows, r.fileId = op.fileId → r.fileState ≠ .qosRequestSubmitted) →
        ∀ r ∈ (p.run Stmt.exec db).2.files.rows, r.fileId = op.fileId → r.fileState ≠ .qosRequestSubmitted := by
    intro p db hp
    refine hp.run (I := fun db => ∀ r ∈ db.files.rows, r.fileId = op.fileId → r.fileState ≠ .qosRequestSubmitted) ?_
    intro u db hu hdb r' hr' hid hst
    obtain ⟨r, hr, hid', -, hst, -⟩ := rows_exec hu r' hr' hst
    exact hdb r hr (hid'.trans hid) hst
  unfold QosDb.terminate Op.alone updateFileStateToQosTerminal
  simp only [Proc.bind_eq, beginTx_bind, select_bind, updateFile_bind, Proc.run_tx, Proc.run_select, Proc.run_update]
  refine hkept (by simp [hreason, hjob]) ?_
  intro r' hr' hid
  obtain ⟨r, hr, rfl⟩ := List.mem_map.mp hr'
  by_cases hop : r.fileId = op.fileId
  · simpa [FileUpdate.selects, FileUpdate.sets, hop] using hst
  · simp [FileUpdate.selects, hop] at hid

end terminate

end statements

/-! ## Steps -/

section lists

variable {α : Type} {p : α → Bool} {l : List α} {k : Nat} {a b : α}

theorem any_set (hk : l[k]? = some a) (h : p a = true → p b = true) (hl : l.any p = true) :
    (l.set k b).any p = true := by
  obtain ⟨x, hx, hpx⟩ := List.any_eq_true.mp hl
  obtain ⟨n, hn, rfl⟩ := List.mem_iff_getElem.mp hx
  have hlt := (List.getElem?_eq_some_iff.mp hk).1
  by_cases hnk : n = k
  · subst hnk
    refine List.any_eq_true.mpr ⟨b, List.mem_set hlt b, h ?_⟩
    rwa [(List.getElem?_eq_some_iff.mp hk).2] at hpx
  · refine List.any_eq_true.mpr ⟨l[n], ?_, hpx⟩
    exact List.mem_iff_getElem.mpr ⟨n, by simpa using hn, List.getElem_set_ne (Ne.symm hnk) _⟩

theorem any_eraseIdx (hk : l[k]? = some a) (h : p a = false) (hl : l.any p = true) : (l.eraseIdx k).any p = true := by
  obtain ⟨hlt, hget⟩ := List.getElem?_eq_some_iff.mp hk
  have hperm := List.getElem_cons_eraseIdx_perm hlt
  rw [hget] at hperm
  rw [← hperm.any_eq, List.any_cons, h, Bool.false_or] at hl
  exact hl

end lists

section daemon

variable {d d' : CDMIDaemon} {q q' : QosDb} {k : Nat}

theorem CDMIDaemon.Polls.of_polling (h : d.polling = true) (q : QosDb) : d.Polls q := by
  intro r _ _
  simp [CDMIDaemon.tracks, h]

/-- The same node, and nothing tracked less. -/
theorem CDMIDaemon.Polls.mono (h : d.Polls q) (hq : Submitless q q') (hnode : d'.node = d.node)
    (htracks : ∀ r ∈ q'.db.files.rows, r.fileState = .qosRequestSubmitted → d.tracks r.fileId = true →
      d'.tracks r.fileId = true) : d'.Polls q' := by
  intro r hr hseen
  obtain ⟨hsel, hp⟩ := seen_iff.mp hseen
  refine htracks r hr (qosSelects_iff.mp hsel).1 (h.submitless hq r hr ?_)
  rw [seen_iff, ← hnode]
  exact ⟨hsel, hp⟩

theorem tracks_setTransition {t t' : QoSTransitionTask} {f : Nat} (hk : d.transitions[k]? = some t)
    (ht : t.anySuccessful = true → t'.anySuccessful = true) (h : d.tracks f = true) :
    (d.setTransition k t').tracks f = true := by
  simp only [CDMIDaemon.tracks, CDMIDaemon.polling, CDMIDaemon.setTransition, Bool.or_eq_true] at h ⊢
  exact h.imp_left (Or.imp_left (Or.imp_left (any_set hk ht)))

theorem tracks_setPoll {p p' : CDMIPoll} {f : Nat} (hk : d.polls[k]? = some p)
    (hp : p.tracks f = true → p'.tracks f = true) (h : d.tracks f = true) : (d.setPoll k p').tracks f = true := by
  simp only [CDMIDaemon.tracks, CDMIDaemon.setPoll, Bool.or_eq_true] at h ⊢
  exact h.imp_right (any_set hk hp)

theorem polls_fetch (h : d.Polls q) : (d.step q .fetch).2.Polls (d.step q .fetch).1 := by
  unfold CDMIDaemon.step
  dsimp only
  split
  · exact h
  · exact h

theorem polls_begin (h : d.Polls q) : (d.step q (.begin k)).2.Polls (d.step q (.begin k)).1 := by
  unfold CDMIDaemon.step
  dsimp only
  split
  · exact h
  · refine h.mono (Submitless.refl q) rfl fun r _ _ htracks => ?_
    simpa [CDMIDaemon.tracks, CDMIDaemon.polling] using htracks

theorem submitless_change (t : QoSTransitionTask) (node : Node) (error : Option String) (q : QosDb) :
    Submitless q (t.change node error q).1 := by
  unfold QoSTransitionTask.change
  split
  · split
    · exact Submitless.refl q
    · exact submitless_terminate (by decide)
  · exact Submitless.refl q

theorem submitless_check (p : CDMIPoll) (node : Node) (answers : QosAnswers) (q : QosDb) :
    Submitless q (p.check node answers q).1 := by
  unfold CDMIPoll.check
  split
  · exact Submitless.refl q
  · split
    · exact submitless_terminate (by decide)
    · exact Submitless.refl q
    · exact submitless_terminate (by decide)
    · dsimp only
      split
      · exact submitless_terminate (by decide)
      · exact Submitless.refl q

theorem polls_change (error : Option String) (h : d.Polls q) :
    (d.step q (.change k error)).2.Polls (d.step q (.change k error)).1 := by
  unfold CDMIDaemon.step
  dsimp only
  split
  · exact h
  · rename_i t hk
    have hflag : (t.change d.node error q).2.anySuccessful = t.anySuccessful := by
      unfold QoSTransitionTask.change
      split
      · split <;> rfl
      · rfl
    exact h.mono (submitless_change t d.node error q) rfl fun r _ _ => tracks_setTransition hk fun ht => hflag.trans ht

theorem polls_read (h : d.Polls q) : (d.step q (.read k)).2.Polls (d.step q (.read k)).1 := by
  unfold CDMIDaemon.step
  dsimp only
  split
  · exact h
  · rename_i t hk
    have hflag : (t.read q).anySuccessful = t.anySuccessful := by
      unfold QoSTransitionTask.read
      split
      · split <;> rfl
      · rfl
    exact h.mono (Submitless.refl q) rfl fun r _ _ => tracks_setTransition hk fun ht => hflag.trans ht

theorem polls_write (h : d.Polls q) : (d.step q (.write k)).2.Polls (d.step q (.write k)).1 := by
  unfold CDMIDaemon.step
  dsimp only
  split
  · exact h
  · rename_i t hk
    unfold QoSTransitionTask.write
    split
    · refine CDMIDaemon.Polls.of_polling ?_ _
      have hlt := (List.getElem?_eq_some_iff.mp hk).1
      have hany : (d.transitions.set k { t.next with anySuccessful := true }).any (·.anySuccessful) = true :=
        List.any_eq_true.mpr ⟨_, List.mem_set hlt _, rfl⟩
      simp [CDMIDaemon.polling, CDMIDaemon.setTransition, hany]
    · exact h.mono (Submitless.refl q) rfl fun r _ _ => tracks_setTransition hk id

theorem polls_submitted (h : d.Polls q) : (d.step q (.submitted k)).2.Polls (d.step q (.submitted k)).1 := by
  unfold CDMIDaemon.step
  dsimp only
  split
  · exact h
  · rename_i t hk
    split
    · cases hflag : t.anySuccessful with
      | true => exact CDMIDaemon.Polls.of_polling (by simp [CDMIDaemon.polling]) _
      | false =>
          refine h.mono (Submitless.refl q) rfl fun r _ _ htracks => ?_
          simp only [CDMIDaemon.tracks, CDMIDaemon.polling, Bool.or_eq_true, Bool.false_eq_true, if_false,
            List.append_nil] at htracks ⊢
          exact htracks.imp_left (Or.imp_left (Or.imp_left (any_eraseIdx hk hflag)))
    · exact h

theorem polls_wake (now : Int) (h : d.Polls q) : (d.step q (.wake now)).2.Polls (d.step q (.wake now)).1 := by
  refine h.mono (Submitless.refl q) rfl fun r _ _ htracks => ?_
  have hroom : d.waitingRoom ≠ [] → (d.waitingRoom.filter fun p => decide (now < p.waitUntil)) ≠ [] ∨
      (d.waitingRoom.filter fun p => !decide (now < p.waitUntil)) ≠ [] := by
    intro hne
    obtain ⟨p, hp⟩ := List.exists_mem_of_ne_nil _ hne
    by_cases hwaits : now < p.waitUntil
    · exact .inl (List.ne_nil_of_mem (List.mem_filter.mpr ⟨hp, by simpa using hwaits⟩))
    · exact .inr (List.ne_nil_of_mem (List.mem_filter.mpr ⟨hp, by simpa using hwaits⟩))
  simp only [CDMIDaemon.step, CDMIDaemon.tracks, CDMIDaemon.polling, Bool.or_eq_true, Bool.not_eq_true',
    List.isEmpty_eq_false_iff, ne_eq, List.append_eq_nil_iff] at htracks hroom ⊢
  tauto

theorem restarted_polls_iff : d.restarted.Polls q ↔ ¬∃ r ∈ q.db.files.rows, d.seen q r = true := by
  constructor
  · rintro h ⟨r, hr, hseen⟩
    have htracks := h r hr hseen
    simp [CDMIDaemon.restarted, CDMIDaemon.tracks, CDMIDaemon.polling] at htracks
  · exact fun h r hr hseen => absurd ⟨r, hr, hseen⟩ h

theorem exists_of_mapM {α β : Type} {f : α → Option β} {xs : List α} {ys : List β} (h : xs.mapM f = some ys) {x : α}
    (hx : x ∈ xs) : ∃ y ∈ ys, f x = some y := by
  induction xs generalizing ys with
  | nil => cases hx
  | cons x' xs ih =>
      simp only [List.mapM_cons, Option.bind_eq_bind, Option.bind_eq_some_iff, Option.pure_def, Option.some.injEq] at h
      obtain ⟨y', hy', ys', hys', rfl⟩ := h
      cases hx with
      | head => exact ⟨y', List.mem_cons_self, hy'⟩
      | tail _ hx =>
          obtain ⟨y, hy, hxy⟩ := ih hys' hx
          exact ⟨y, List.mem_cons_of_mem _ hy, hxy⟩

/-- What the daemon would find is what a poll begins with. -/
theorem mem_of_seen {files : List QosTransitionOperation} {r : FileRow} (hr : r ∈ q.db.files.rows)
    (hseen : d.seen q r = true) (hfiles : getFilesForQosTransition d.node .qosRequestSubmitted true q = some files) :
    ∃ op ∈ files, op.fileId = r.fileId := by
  obtain ⟨hsel, hp⟩ := seen_iff.mp hseen
  obtain ⟨proxy, hproxy⟩ := List.exists_mem_of_ne_nil _ hp
  have hmem : (r, proxy) ∈ (q.db.files.rows.filter (qosSelects d.node .qosRequestSubmitted true)).flatMap fun r =>
      (q.proxies r).map fun p => (r, p) :=
    List.mem_flatMap.mpr ⟨r, List.mem_filter.mpr ⟨hr, hsel⟩, List.mem_map.mpr ⟨proxy, hproxy, rfl⟩⟩
  obtain ⟨op, hop, hrow⟩ := exists_of_mapM hfiles hmem
  simp only [QosDb.operation, Option.bind_eq_bind, Option.bind_eq_some_iff, Option.pure_def, Option.some.injEq] at hrow
  obtain ⟨surl, -, targetQos, -, rfl⟩ := hrow
  exact ⟨_, hop, rfl⟩

theorem polls_beginPoll_iff (maxPollRetries : Int) (h : d.Polls q) :
    (d.step q (.beginPoll k maxPollRetries)).2.Polls (d.step q (.beginPoll k maxPollRetries)).1 ↔
      ¬d.Abandons q (.beginPoll k maxPollRetries) := by
  unfold CDMIDaemon.step CDMIDaemon.Abandons
  dsimp only
  cases hk : d.pollQueue[k]? with
  | none =>
      have hge := List.getElem?_eq_none_iff.mp hk
      exact iff_of_true h fun hab => absurd hab.1 (by omega)
  | some task =>
      have hlt := (List.getElem?_eq_some_iff.mp hk).1
      cases hfiles : getFilesForQosTransition d.node .qosRequestSubmitted true q with
      | none =>
          simp only [hlt, true_and]
          exact restarted_polls_iff
      | some files =>
          refine iff_of_true (fun r hr hseen => ?_) (by simp)
          obtain ⟨op, hop, hid⟩ := mem_of_seen (d := d) hr hseen hfiles
          have htracks : (CDMIPoll.mk task maxPollRetries files false []).tracks r.fileId = true := by
            simp only [CDMIPoll.tracks, Bool.false_or, Bool.or_eq_true]
            exact .inl (List.any_eq_true.mpr ⟨op, hop, by simpa using hid⟩)
          simp [CDMIDaemon.tracks, htracks]

theorem polls_check (answers : QosAnswers) (h : d.Polls q) :
    (d.step q (.check k answers)).2.Polls (d.step q (.check k answers)).1 := by
  unfold CDMIDaemon.step
  dsimp only
  cases hk : d.polls[k]? with
  | none => exact h
  | some p =>
      dsimp only
      -- a decided file is not submitted any more, and the others stay in the poll
      have hdecided : ∀ {op rest st reason} {p' : CDMIPoll}, p.rest = op :: rest → st ≠ .qosRequestSubmitted →
          (∀ f, f ≠ op.fileId → p.tracks f = true → p'.tracks f = true) →
            (d.setPoll k p').Polls (q.terminate d.node op st reason) := by
        intro op rest st reason p' _ hst hp'
        refine h.mono (submitless_terminate hst) rfl fun r hr hsub => tracks_setPoll hk (hp' _ fun hid => ?_)
        exact unsubmitted_terminate hst r hr hid hsub
      unfold CDMIPoll.check
      split
      · exact h.mono (Submitless.refl q) rfl fun r _ _ => tracks_setPoll hk id
      · rename_i op rest hrest
        have hnext : ∀ f, f ≠ op.fileId → p.tracks f = true →
            ∀ p' : CDMIPoll, p'.anyPending = p.anyPending → p'.rest = rest → p'.left = p.left → p'.tracks f = true := by
          intro f hne hf p' hany hrest' hleft
          simpa [CDMIPoll.tracks, hrest, hany, hrest', hleft, Ne.symm hne] using hf
        split
        · exact hdecided hrest (by decide) fun f hne hf => hnext f hne hf _ rfl rfl rfl
        · refine h.mono (Submitless.refl q) rfl fun r _ _ => tracks_setPoll hk fun _ => ?_
          simp [CDMIPoll.tracks]
        · exact hdecided hrest (by decide) fun f hne hf => hnext f hne hf _ rfl rfl rfl
        · dsimp only
          split
          · exact hdecided hrest (by decide) fun f hne hf => hnext f hne hf _ rfl rfl rfl
          · refine h.mono (Submitless.refl q) rfl fun r _ _ => tracks_setPoll hk fun hf => ?_
            simp only [CDMIPoll.tracks, hrest, List.any_cons, Bool.or_eq_true, decide_eq_true_eq, List.mem_cons] at hf ⊢
            obtain (hany | hid | hrest) | hleft := hf
            · exact .inl (.inl hany)
            · exact .inr (.inl hid.symm)
            · exact .inl (.inr hrest)
            · exact .inr (.inr hleft)

theorem polls_endPoll_iff (now : Int) (h : d.Polls q) :
    (d.step q (.endPoll k now)).2.Polls (d.step q (.endPoll k now)).1 ↔ ¬d.Abandons q (.endPoll k now) := by
  unfold CDMIDaemon.step CDMIDaemon.Abandons
  dsimp only
  cases hk : d.polls[k]? with
  | none => exact iff_of_true h id
  | some p =>
      dsimp only
      cases hrest : p.rest with
      | cons op rest =>
          simp only [List.isEmpty_cons, Bool.false_eq_true, if_false]
          exact iff_of_true h fun hab => by cases hab.1
      | nil =>
          simp only [List.isEmpty_nil, if_true]
          cases hany : p.anyPending with
          | true =>
              exact iff_of_true (CDMIDaemon.Polls.of_polling (by simp [CDMIDaemon.polling]) _) fun hab => by cases hab.2.1
          | false =>
              simp only [Bool.false_eq_true, if_false, List.append_nil]
              constructor
              · rintro hpolls ⟨-, -, r, hr, hseen, -, htracks⟩
                rw [hpolls r hr hseen] at htracks
                cases htracks
              · intro hab r hr hseen
                by_contra htracks
                rw [Bool.not_eq_true] at htracks
                refine hab ⟨trivial, trivial, r, hr, hseen, ?_, htracks⟩
                -- only this poll tracks the file
                have hbefore := h r hr hseen
                by_contra hleft
                have hp : p.tracks r.fileId = false := by simp [CDMIPoll.tracks, hany, hrest, hleft]
                simp only [CDMIDaemon.tracks, Bool.or_eq_true] at hbefore
                have hafter : { d with polls := d.polls.eraseIdx k }.tracks r.fileId = true := by
                  simp only [CDMIDaemon.tracks, Bool.or_eq_true]
                  exact hbefore.imp_right (any_eraseIdx hk hp)
                rw [hafter] at htracks
                cases htracks

theorem polls_heartBeat_iff (hashStart hashEnd : Nat) :
    (d.step q (.heartBeat hashStart hashEnd)).2.Polls (d.step q (.heartBeat hashStart hashEnd)).1 ↔
      ¬d.Abandons q (.heartBeat hashStart hashEnd) := by
  constructor
  · rintro hpolls ⟨r, hr, hseen, htracks⟩
    have hafter : d.tracks r.fileId = true := hpolls r hr hseen
    rw [hafter] at htracks
    cases htracks
  · intro hab r hr hseen
    by_contra htracks
    rw [Bool.not_eq_true] at htracks
    exact hab ⟨r, hr, hseen, htracks⟩

/-- A step of the daemon leaves all its requests polled if and only if it abandons none. -/
theorem polls_step_iff (e : CDMIEvent) (h : d.Polls q) :
    (d.step q e).2.Polls (d.step q e).1 ↔ ¬d.Abandons q e := by
  cases e with
  | fetch => exact iff_of_true (polls_fetch h) id
  | begin k => exact iff_of_true (polls_begin h) id
  | change k error => exact iff_of_true (polls_change error h) id
  | read k => exact iff_of_true (polls_read h) id
  | write k => exact iff_of_true (polls_write h) id
  | submitted k => exact iff_of_true (polls_submitted h) id
  | wake now => exact iff_of_true (polls_wake now h) id
  | beginPoll k maxPollRetries => exact polls_beginPoll_iff maxPollRetries h
  | check k answers => exact iff_of_true (polls_check answers h) id
  | endPoll k now => exact polls_endPoll_iff now h
  | heartBeat hashStart hashEnd => exact polls_heartBeat_iff hashStart hashEnd
  | restart => exact restarted_polls_iff

theorem hostname_step (e : CDMIEvent) : (d.step q e).2.node.hostname = d.node.hostname := by
  cases e with
  | restart => rfl
  | heartBeat hashStart hashEnd => rfl
  | wake now => rfl
  | _ =>
      simp only [CDMIDaemon.step]
      repeat' split
      all_goals rfl

/-- What another daemon does to the database. -/
theorem polls_other {d' : CDMIDaemon} (e : CDMIEvent) (hhost : d'.node.hostname ≠ d.node.hostname) (h : d.Polls q) :
    d.Polls (d'.step q e).1 := by
  cases e with
  | write k =>
      simp only [CDMIDaemon.step]
      split
      · exact h
      · rename_i t _
        unfold QoSTransitionTask.write
        split
        · rename_i op rest _ _
          intro r' hr' hseen
          obtain ⟨r, hr, rfl⟩ := List.mem_map.mp hr'
          by_cases hop : r.jobId = op.jobId ∧ r.fileId = op.fileId
          · -- the row says that the other daemon has submitted it
            have hsel := qosSelects_iff.mp (seen_iff.mp hseen).1
            simp only [FileUpdate.selects, hop, decide_true, Bool.and_self, if_true, FileUpdate.sets,
              Option.some.injEq] at hsel
            exact absurd hsel.2.2.2 hhost
          · have hskip : (FileUpdate.updateFileStateToQosRequestSubmitted op.jobId op.fileId d'.node.hostname).selects r =
                false := by
              simpa [FileUpdate.selects] using hop
            simp only [hskip, Bool.false_eq_true, if_false] at hseen ⊢
            exact h r hr hseen
        · exact h
  | change k error =>
      simp only [CDMIDaemon.step]
      split
      · exact h
      · exact h.submitless (submitless_change _ d'.node error q)
  | check k answers =>
      simp only [CDMIDaemon.step]
      split
      · exact h
      · exact h.submitless (submitless_check _ d'.node answers q)
  | wake now => exact h
  | heartBeat hashStart hashEnd => exact h
  | restart => exact h
  | _ =>
      simp only [CDMIDaemon.step]
      repeat' split
      all_goals exact h

end daemon

/-! ## Every run -/

namespace CDMIService

variable {s : CDMIService} {i : Nat}

/-- Daemon `i` polls all its requests. -/
def Polls (s : CDMIService) (i : Nat) : Prop :=
  ∀ d, s.daemons[i]? = some d → d.Polls s.q

def Abandons (s : CDMIService) (i : Nat) : CDMIServiceEvent → Prop
  | .daemon k e => k = i ∧ match s.daemons[i]? with | none => False | some d => d.Abandons s.q e
  | .others _ => False

instance (s : CDMIService) (i : Nat) : ∀ e, Decidable (s.Abandons i e)
  | .daemon k e => by
      unfold Abandons
      dsimp only
      split <;> infer_instance
  | .others _ => .isFalse id

/-- Nobody but the daemons submits requests. -/
def OthersKeep (s : CDMIService) : CDMIServiceEvent → Prop
  | .daemon _ _ => True
  | .others q => Submitless s.q q

/-- Every host has one daemon. -/
def OnePerHost (s : CDMIService) : Prop :=
  (s.daemons.map (·.node.hostname)).Nodup

theorem OnePerHost.step (h : s.OnePerHost) (e : CDMIServiceEvent) : (s.step e).OnePerHost := by
  cases e with
  | others q => exact h
  | daemon k e =>
      unfold CDMIService.step
      dsimp only
      split
      · exact h
      · rename_i d hk
        obtain ⟨hlt, hget⟩ := List.getElem?_eq_some_iff.mp hk
        have hsame : (s.daemons.set k (d.step s.q e).2).map (·.node.hostname) = s.daemons.map (·.node.hostname) := by
          rw [List.map_set, hostname_step]
          refine List.ext_getElem (by simp) fun n _ hn => ?_
          rw [List.getElem_set]
          split
          · rename_i hkn
            subst hkn
            rw [List.getElem_map, hget]
          · rfl
        rw [OnePerHost, hsame]
        exact h

theorem polls_iff (e : CDMIServiceEvent) (hhosts : s.OnePerHost) (hothers : s.OthersKeep e) (h : s.Polls i) :
    (s.step e).Polls i ↔ ¬s.Abandons i e := by
  cases e with
  | others q => exact iff_of_true (fun d hd => (h d hd).submitless hothers) id
  | daemon k e =>
      unfold CDMIService.step Abandons
      dsimp only
      cases hk : s.daemons[k]? with
      | none =>
          refine iff_of_true h ?_
          rintro ⟨rfl, hab⟩
          rw [hk] at hab
          exact hab
      | some d' =>
          have hlt := (List.getElem?_eq_some_iff.mp hk).1
          by_cases hki : k = i
          · subst hki
            have hiff := polls_step_iff e (h d' hk)
            simp only [true_and, hk]
            rw [← hiff]
            constructor
            · intro hpolls
              exact hpolls _ (List.getElem?_set_self hlt)
            · intro hpolls d hd
              obtain rfl := Option.some.inj ((List.getElem?_set_self hlt).symm.trans hd)
              exact hpolls
          · refine iff_of_true (fun d hd => ?_) fun hab => hki hab.1
            rw [List.getElem?_set_ne hki] at hd
            refine polls_other e (fun hhost => hki ?_) (h d hd)
            refine (List.getElem?_inj (by simpa using hlt) hhosts).mp ?_
            simp [hk, hd, hhost]

/-- In a run of the daemons of all hosts, with anything that submits no request between their steps, every request that a
daemon has submitted is polled in all states if and only if the daemon never abandons one. -/
theorem requests_polled_iff (hhosts : s.OnePerHost) (hstart : s.Polls i) {es : List CDMIServiceEvent}
    (hothers : Meets step OthersKeep s es) :
    (∀ es₁ es₂, es = es₁ ++ es₂ → (run step s es₁).Polls i) ↔ Meets step (fun s e => ¬s.Abandons i e) s es := by
  induction es generalizing s with
  | nil =>
      refine iff_of_true (fun es₁ es₂ hes => ?_) trivial
      rw [(List.nil_eq_append_iff.mp hes).1]
      exact hstart
  | cons e es ih =>
      have hiff := polls_iff e hhosts hothers.1 hstart
      constructor
      · intro hpolls
        have hstep : (s.step e).Polls i := hpolls [e] es rfl
        refine ⟨hiff.mp hstep, (ih (hhosts.step e) hstep hothers.2).mp fun es₁ es₂ hes => ?_⟩
        exact hpolls (e :: es₁) es₂ (by rw [hes]; rfl)
      · rintro ⟨hkeeps, hrest⟩ es₁ es₂ hes
        cases es₁ with
        | nil => exact hstart
        | cons e' es₁ =>
            obtain ⟨rfl, hes'⟩ := List.cons.inj hes
            exact (ih (hhosts.step e) (hiff.mpr hkeeps) hothers.2).mpr hrest es₁ es₂ hes'

def requestService : CDMIService where
  q :=
    { db :=
        { files := .ofRows [{ fileId := 1, jobId := "j", fileState := .qosTransition, destSurl := some "https://d/f" }]
          jobs := .ofRows [{ jobId := "j", jobState := .submitted, credId := "c" }] }
      targetQos := fun _ => some "tape"
      credentials := [("c", "access:refresh")] }
  daemons := [{ node := { hostname := "a" } }]

/-- The request is submitted, and polled once. -/
def requestRun (answers : QosAnswers) : List CDMIServiceEvent :=
  [.fetch, .begin 0, .change 0 none, .read 0, .write 0, .submitted 0, .wake 0, .beginPoll 0 3, .check 0 answers,
    .endPoll 0 0].map (.daemon 0)

/-- The request is polled again when the storage has it pending, and abandoned when the first check fails. -/
theorem requests_polled_iff_failed :
    (∀ es₁ es₂, requestRun ⟨some "disk", some "tape", none⟩ = es₁ ++ es₂ → (run step requestService es₁).Polls 0) ∧
      ¬∀ es₁ es₂, requestRun ⟨none, none, none⟩ = es₁ ++ es₂ → (run step requestService es₁).Polls 0 := by
  have hstart : requestService.Polls 0 := by
    rintro d hd r hr hseen
    obtain rfl := Option.some.inj hd
    obtain rfl := List.mem_singleton.mp hr
    cases hseen
  have hothers : ∀ answers, Meets step OthersKeep requestService (requestRun answers) := fun _ =>
    ⟨trivial, trivial, trivial, trivial, trivial, trivial, trivial, trivial, trivial, trivial, trivial⟩
  refine ⟨(requests_polled_iff (by simp [OnePerHost, requestService]) hstart (hothers _)).mpr (by decide +kernel),
    fun h => ?_⟩
  have habandons := (requests_polled_iff (by simp [OnePerHost, requestService]) hstart (hothers _)).mp h
  revert habandons
  decide +kernel

end CDMIService

end Fts3.QosDaemon
