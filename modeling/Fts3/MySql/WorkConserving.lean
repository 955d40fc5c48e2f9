import Fts3.MySql.Lemmas.Ready
import Fts3.MySql.Slots

/-!
# Work conservation

A queue with a file that is due and a free slot is served. The highest priority, the activities and the transfers of a
queue come from three queries, each with conditions of its own.
-/

namespace Fts3.MySql

open Fts3.Sql

def QueueId.holds (q : QueueId) (r : FileRow) : Bool :=
  r.sourceSe = q.sourceSe && r.destSe = q.destSe && r.voName = q.voName

/-- The highest priority that waits in the queue. -/
def Db.maxPriority (node : Node) (q : QueueId) (db : Db) : Option Int :=
  ((db.files.select fun r =>
    r.voName = q.voName && r.sourceSe = q.sourceSe && r.destSe = q.destSe && r.fileState = .submitted &&
      node.hashStart ≤ r.hashedId && r.hashedId ≤ node.hashEnd).filterMap (·.priority)).max?

/-- A file that is due waits with the highest priority, in a job of one of the types. -/
def Db.HasTop (node : Node) (tTime : Nat) (q : QueueId) (jobTypes : List JobType) (inActivity : FileRow → Bool)
    (db : Db) : Prop :=
  ∃ p, db.maxPriority node q = some p ∧ ∃ r ∈ db.files.rows, q.holds r = true ∧ r.fetchable node tTime = true ∧
    inActivity r = true ∧ ∃ j, db.jobs.find? r.jobId = some j ∧ (∃ t ∈ jobTypes, j.jobType = some t) ∧ j.priority = some p

def TransferFile.inQueue (db : Db) (q : QueueId) (tf : TransferFile) : Bool :=
  (db.files.find? tf.fileId).any q.holds

/-- The slots that a link has left. -/
def Db.freeSlots (q : QueueId) (db : Db) : Int :=
  let maxActive := ((db.optimizer.find? fun o => o.sourceSe = q.sourceSe && o.destSe = q.destSe).bind (·.active)).getD 0
  if 0 < maxActive then maxActive - db.activeCount q.sourceSe q.destSe else 10

section answers

variable {node : Node} {tTime : Nat} {chance : Chance} {q : QueueId} {db : Db} {jobTypes : List JobType}
  {inActivity : FileRow → Bool} {p : Int} {n : Nat}

theorem mem_readyRows (hn : 0 < n) :
    readyRows node tTime q p jobTypes inActivity n db ≠ [] ↔ ∃ r ∈ db.files.rows, q.holds r = true ∧
      r.fetchable node tTime = true ∧ inActivity r = true ∧ ∃ j, db.jobs.find? r.jobId = some j ∧
        (∃ t ∈ jobTypes, j.jobType = some t) ∧ j.priority = some p := by
  rw [readyRows, ne_eq, List.take_eq_nil_iff, not_or, and_iff_right hn.ne']
  constructor
  · intro h
    obtain ⟨tf, htf⟩ := List.exists_mem_of_ne_nil _ h
    obtain ⟨r, hr, htf⟩ := List.mem_filterMap.mp htf
    obtain ⟨j, hj, -⟩ := Option.map_eq_some_iff.mp htf
    obtain ⟨hmem, hcond⟩ := List.mem_filter.mp ((List.mem_insertionSort _).mp hr)
    obtain ⟨hfind, hjob⟩ := Option.filter_eq_some_iff.mp hj
    simp only [Bool.and_eq_true, decide_eq_true_eq] at hcond hjob
    obtain ⟨t, htype, ht⟩ := (Option.any_eq_true ..).mp hjob.1
    exact ⟨r, hmem, by simpa [QueueId.holds] using hcond.1.1, hcond.1.2, hcond.2, j, hfind,
      ⟨t, by simpa using ht, htype⟩, hjob.2⟩
  · rintro ⟨r, hr, hholds, hfetch, hof, j, hj, ⟨t, ht, htype⟩, hprio⟩
    have hfilter : (db.jobs.find? r.jobId).filter
        (fun j => j.jobType.any (· ∈ jobTypes) && j.priority = some p) = some j := by
      rw [hj, Option.filter_some, if_pos (by simp [htype, ht, hprio])]
    apply List.ne_nil_of_mem (a := TransferFile.ofRow r j)
    refine List.mem_filterMap.mpr ⟨r, (List.mem_insertionSort _).mpr (List.mem_filter.mpr ⟨hr, ?_⟩), by rw [hfilter]; rfl⟩
    simp only [QueueId.holds] at hholds
    simp [hholds, hfetch, hof]

theorem readyRows_inQueue {tf : TransferFile} (h : tf ∈ readyRows node tTime q p jobTypes inActivity n db) :
    tf.inQueue db q = true := by
  obtain ⟨r, hr, htf⟩ := List.mem_filterMap.mp (List.mem_of_mem_take h)
  obtain ⟨j, -, rfl⟩ := Option.map_eq_some_iff.mp htf
  obtain ⟨hmem, hcond⟩ := List.mem_filter.mp ((List.mem_insertionSort _).mp hr)
  simp only [Bool.and_eq_true] at hcond
  simp only [TransferFile.inQueue, TransferFile.ofRow, Table.find?_key hmem, QueueId.holds, Option.any_some]
  simpa using hcond.1.1

/-- The marks do not change what is fetched. -/
theorem markLast_answer (db : Db) (tf : TransferFile) :
    ∃ tf', (markLast tf).answer Stmt.exec db = [tf'] ∧ tf'.fileId = tf.fileId := by
  unfold markLast
  split
  · exact ⟨_, rfl, rfl⟩
  · exact ⟨_, rfl, rfl⟩
  · exact ⟨_, rfl, rfl⟩

theorem collect_markLast_ne_nil (files : List TransferFile) :
    (Proc.collect markLast files).answer Stmt.exec db ≠ [] ↔ files ≠ [] := by
  rw [Proc.answer_collect]
  cases files with
  | nil => simp
  | cons tf files =>
      obtain ⟨tf', htf', -⟩ := markLast_answer db tf
      simp [htf']

theorem readyOfActivity_answer {defaults : List String} {slots : String × Nat} (hslots : 0 < slots.2) :
    (readyOfActivity node tTime q p defaults slots).answer Stmt.exec db =
      (ofActivity node.activity defaults slots.1).map fun inActivity =>
        ((Proc.collect markLast (readyRows node tTime q p [.regular, .multipleReplica] inActivity slots.2
          db)).answer Stmt.exec db).map fun tf => { tf with activity := slots.1 } := by
  rw [readyOfActivity, if_neg hslots.ne']
  cases ofActivity node.activity defaults slots.1 with
  | none => rfl
  | some inActivity => simp only [Proc.bind_eq, select_bind, Proc.answer_select, Proc.answer_bind]; rfl

/-- The slots of the activities of a queue, none if the VO has no shares. -/
def Db.activitySlots (node : Node) (chance : Chance) (q : QueueId) (n : Nat) (db : Db) : List (String × Nat) :=
  ((getFilesNumPerActivity node chance q n).answer Stmt.exec db).1

def Db.queueDefaults (node : Node) (q : QueueId) (db : Db) : List String :=
  defaultActivities (getActivityShareConf q.voName db) (histogram node.activity (db.waitingIn node q))

theorem readyOfQueue_answer (hfixed : node.useFixedJobPriority = 0) (hp : db.maxPriority node q = some p) :
    (readyOfQueue node tTime chance q n).answer Stmt.exec db =
      if db.activitySlots node chance q n = [] then
        some ((Proc.collect markLast (readyRows node tTime q p [.regular, .multipleReplica, .multiHop] (fun _ => true) n
          db)).answer Stmt.exec db)
      else (Proc.tryCollect (readyOfActivity node tTime q p (db.queueDefaults node q))
        (chance.shuffle q (db.activitySlots node chance q n))).answer Stmt.exec db := by
  have hmax : (getMaxPriority node q).answer Stmt.exec db = some p := by
    rw [getMaxPriority, if_pos hfixed]
    exact hp
  rw [readyOfQueue, Proc.bind_eq, Proc.answer_bind, hmax]
  simp only [Proc.bind_eq, Proc.answer_bind]
  have hdefaults : db.activitySlots node chance q n ≠ [] →
      ((getFilesNumPerActivity node chance q n).answer Stmt.exec db).2 = db.queueDefaults node q := by
    intro hne
    rw [Db.activitySlots, getFilesNumPerActivity_answer] at hne
    rw [getFilesNumPerActivity_answer]
    split at hne
    · exact absurd rfl hne
    · rename_i hshares
      rw [if_neg hshares]
      rfl
  by_cases hslots : db.activitySlots node chance q n = []
  · have hempty : ((getFilesNumPerActivity node chance q n).answer Stmt.exec db).1.isEmpty = true :=
      List.isEmpty_iff.mpr hslots
    rw [if_pos hempty, if_pos hslots]
    simp only [select_bind, Proc.answer_select, Proc.answer_bind]
    rfl
  · have hempty : ¬((getFilesNumPerActivity node chance q n).answer Stmt.exec db).1.isEmpty = true :=
      fun h => hslots (List.isEmpty_iff.mp h)
    rw [if_neg hempty, if_neg hslots, hdefaults hslots]
    rfl

theorem readyOfQueue_inQueue :
    ∀ tf ∈ ((readyOfQueue node tTime chance q n).answer Stmt.exec db).getD [], tf.inQueue db q = true := by
  have hread : ReadsReady (G := Unit) ⟨fun db' => db' = db, fun _ _ _ => (), fun _ _ => True⟩
      (fun tf => tf.inQueue db q = true) node tTime q := by
    rintro _ rfl p types inActivity n tf htf
    exact readyRows_inQueue htf
  obtain ⟨-, h⟩ := (readyOfQueue_follows (fun _ _ _ _ h => h) hread n ()).answer rfl
  exact h

theorem getReadyTransfersOf_answer :
    (getReadyTransfersOf node tTime chance q).answer Stmt.exec db =
      if db.freeSlots q ≤ 0 then some []
      else (readyOfQueue node tTime chance q (db.freeSlots q).toNat).answer Stmt.exec db := by
  rw [getReadyTransfersOf]
  simp only [getActiveCount, Proc.bind_eq, select_bind, Proc.answer_select]
  exact apply_ite (fun p => Proc.answer Stmt.exec p db) _ _ _

end answers

/-! ## A queue is served -/

/-- The dice are in (0, 1), and the activities are shuffled. -/
structure Chance.Fair (chance : Chance) : Prop where
  dice : ∀ q i, 0 < chance.dice q i ∧ chance.dice q i < 1
  shuffle : ∀ q m, (chance.shuffle q m).Perm m

/-- A file that is due waits in the queue. -/
def Db.Due (node : Node) (tTime : Nat) (q : QueueId) (db : Db) : Prop :=
  ∃ r ∈ db.files.rows, q.holds r = true ∧ r.fetchable node tTime = true ∧
    ∃ j, db.jobs.find? r.jobId = some j ∧ ∃ t ∈ [JobType.regular, .multipleReplica, .multiHop], j.jobType = some t

/-- Whatever the limit of the link and the dice, with a free slot a file of the queue is fetched. -/
def Db.Served (node : Node) (tTime : Nat) (q : QueueId) (db : Db) : Prop :=
  ∀ optimizer chance queues, chance.Fair → q ∈ queues → 0 < ({ db with optimizer } : Db).freeSlots q →
    ∃ tf ∈ ((getReadyTransfers node tTime chance queues).answer Stmt.exec { db with optimizer }).getD [],
      tf.inQueue db q = true

/-- A file that is due waits with the highest priority, for each activity that can get the first slot if the VO has
shares; the query for this activity is accepted. -/
def Db.TopIsDue (node : Node) (tTime : Nat) (q : QueueId) (db : Db) : Prop :=
  let activityShares := getActivityShareConf q.voName db
  let queue := histogram node.activity (db.waitingIn node q)
  if activityShares = [] ∨ filesLeft queue = 0 then
    db.HasTop node tTime q [.regular, .multipleReplica, .multiHop] fun _ => true
  else ∀ activity, CanBeFirst activityShares queue activity → ∃ inActivity,
    ofActivity node.activity (defaultActivities activityShares queue) (slotName activityShares queue activity) =
        some inActivity ∧
      db.HasTop node tTime q [.regular, .multipleReplica] inActivity

/-- In the queue waits an activity that falls to default, and the database rejects the list of these activities. -/
def Db.Rejects (node : Node) (q : QueueId) (db : Db) : Prop :=
  let activityShares := getActivityShareConf q.voName db
  let queue := histogram node.activity (db.waitingIn node q)
  activityShares ≠ [] ∧ db.maxPriority node q ≠ none ∧
    (∃ e ∈ queue, 0 < e.2 ∧ isDefault activityShares e.1 = true) ∧
    node.activity.readsList (defaultActivities activityShares queue) = none

/-- A name without a quote and without a backslash does not make the database reject the list. -/
theorem Db.not_rejects_of_plain {node : Node} {q : QueueId} {db : Db} (h : ∀ r ∈ db.files.rows, Plain r.activityName) :
    ¬db.Rejects node q := by
  rintro ⟨-, -, -, hnone⟩
  rw [node.activity.readsList_plain] at hnone
  · cases hnone
  · intro a ha
    obtain ⟨r, hr, rfl⟩ := exists_activityName (List.mem_filter.mp ha).1
    exact h r (List.mem_filter.mp hr).1

section served

variable {node : Node} {tTime : Nat} {chance : Chance} {q : QueueId} {db : Db} {n : Nat}

theorem activitySlots_eq (hshares : getActivityShareConf q.voName db ≠ []) : db.activitySlots node chance q n =
    assignSlots (getActivityShareConf q.voName db) (histogram node.activity (db.waitingIn node q))
      ((List.range n).map (chance.dice q)) := by
  rw [Db.activitySlots, getFilesNumPerActivity_answer, if_neg (by simpa using hshares)]

theorem activitySlots_eq_nil
    (h : getActivityShareConf q.voName db = [] ∨ filesLeft (histogram node.activity (db.waitingIn node q)) = 0)
    (hpositive : getActivityShareConf q.voName db ≠ [] → SharesPositive (getActivityShareConf q.voName db)) :
    db.activitySlots node chance q n = [] := by
  by_cases hshares : getActivityShareConf q.voName db = []
  · rw [Db.activitySlots, getFilesNumPerActivity_answer, if_pos (by simp [hshares])]
  · rw [activitySlots_eq hshares, assignSlots]
    have hsound := Slots.start_sound (hpositive hshares) (ordered_histogram node.activity (db.waitingIn node q))
    generalize (List.range n).map (chance.dice q) = dice
    induction dice with
    | nil => rfl
    | cons r dice ih =>
        rw [Slots.run, List.foldl_cons, assign_eq_of_empty hsound (h.resolve_left hshares)]
        exact ih

theorem Db.HasTop.widen {inActivity : FileRow → Bool} (h : db.HasTop node tTime q [.regular, .multipleReplica] inActivity) :
    db.HasTop node tTime q [.regular, .multipleReplica, .multiHop] fun _ => true := by
  obtain ⟨p, hp, r, hr, hholds, hfetch, -, j, hj, ⟨t, ht, htype⟩, hprio⟩ := h
  refine ⟨p, hp, r, hr, hholds, hfetch, rfl, j, hj, ⟨t, ?_, htype⟩, hprio⟩
  simp only [List.mem_cons, List.not_mem_nil, or_false] at ht ⊢
  exact ht.elim .inl fun h => .inr (.inl h)

theorem exists_canBeFirst (hpositive : SharesPositive (getActivityShareConf q.voName db))
    (hfiles : filesLeft (histogram node.activity (db.waitingIn node q)) ≠ 0) :
    ∃ activity, CanBeFirst (getActivityShareConf q.voName db) (histogram node.activity (db.waitingIn node q)) activity := by
  obtain ⟨pre, a, n, post, hqueue, hn, hpre⟩ := exists_first (Nat.pos_of_ne_zero hfiles)
  refine ⟨a, pre, n, post, hqueue, hn, ?_⟩
  rw [weightLeft_eq_zero hpre]
  apply Slots.start_sum_pos hpositive
  simp [hqueue]

theorem Db.TopIsDue.top (h : db.TopIsDue node tTime q)
    (hpositive : getActivityShareConf q.voName db ≠ [] → SharesPositive (getActivityShareConf q.voName db)) :
    db.HasTop node tTime q [.regular, .multipleReplica, .multiHop] fun _ => true := by
  rw [Db.TopIsDue] at h
  split at h
  · exact h
  · rename_i hcond
    obtain ⟨hshares, hfiles⟩ := not_or.mp hcond
    obtain ⟨activity, hactivity⟩ := exists_canBeFirst (hpositive hshares) hfiles
    obtain ⟨inActivity, -, htop⟩ := h activity hactivity
    exact htop.widen

/-- No query for the queue is rejected. -/
theorem Db.readyOfQueue_isSome (h : ¬db.Rejects node q) (hfixed : node.useFixedJobPriority = 0)
    (hpositive : getActivityShareConf q.voName db ≠ [] → SharesPositive (getActivityShareConf q.voName db))
    (hfair : chance.Fair) (n : Nat) : ((readyOfQueue node tTime chance q n).answer Stmt.exec db).isSome := by
  cases hp : db.maxPriority node q with
  | none =>
      have hmax : (getMaxPriority node q).answer Stmt.exec db = none := by
        rw [getMaxPriority, if_pos hfixed]
        exact hp
      rw [MySql.readyOfQueue, Proc.bind_eq, Proc.answer_bind, hmax]
      rfl
  | some p =>
      rw [readyOfQueue_answer hfixed hp]
      split
      · rfl
      · rename_i hslots
        have hshares : getActivityShareConf q.voName db ≠ [] := by
          intro hnone
          exact hslots (activitySlots_eq_nil (.inl hnone) hpositive)
        rw [Proc.answer_tryCollect, if_pos]
        · rfl
        · intro slots hmem
          by_cases hk : 0 < slots.2
          · rw [readyOfActivity_answer hk, Option.isSome_map, ofActivity]
            split
            · rename_i hdefault
              rw [Option.isSome_map, Option.isSome_iff_ne_none]
              rintro hnone
              have hassigned : ("default", slots.2) ∈ db.activitySlots node chance q n := by
                rw [← hdefault]
                exact (hfair.shuffle q _).mem_iff.mp hmem
              rw [activitySlots_eq hshares] at hassigned
              refine h ⟨hshares, by simp [hp], ?_, hnone⟩
              exact exists_default_of_assigned (hpositive hshares) (ordered_histogram _ _) hassigned hk
            · rfl
          · rw [readyOfActivity, if_pos (Nat.eq_zero_of_not_pos hk)]
            rfl

/-- With one slot for a queue that has such an activity and the right draw, the query is rejected. -/
theorem Db.Rejects.exists_chance (h : db.Rejects node q) (hfixed : node.useFixedJobPriority = 0)
    (hpositive : getActivityShareConf q.voName db ≠ [] → SharesPositive (getActivityShareConf q.voName db)) :
    ∃ chance : Chance, chance.Fair ∧ (readyOfQueue node tTime chance q 1).answer Stmt.exec db = none := by
  obtain ⟨hshares, hprio, hwaits, hnone⟩ := h
  obtain ⟨p, hp⟩ := Option.ne_none_iff_exists'.mp hprio
  obtain ⟨a, hfirst, hname⟩ := exists_default_canBeFirst (hpositive hshares) hwaits
  obtain ⟨r, hr, hslots⟩ := hfirst.exists_dice (hpositive hshares) (ordered_histogram _ _)
  refine ⟨{ dice := fun _ _ => r }, ⟨fun _ _ => hr, fun _ m => .refl m⟩, ?_⟩
  have hactivity : db.activitySlots node { dice := fun _ _ => r } q 1 = [("default", 1)] := by
    rw [activitySlots_eq hshares, ← hname]
    exact hslots
  rw [readyOfQueue_answer hfixed hp, hactivity, if_neg (List.cons_ne_nil _ _), Proc.answer_tryCollect, if_neg]
  intro hall
  have hone := hall ("default", 1) (by simp)
  rw [readyOfActivity_answer Nat.one_pos, Option.isSome_map, ofActivity, if_pos rfl, Option.isSome_map] at hone
  rw [Db.queueDefaults, hnone] at hone
  cases hone

theorem Db.TopIsDue.readyOfQueue (h : db.TopIsDue node tTime q) (hnot : ¬db.Rejects node q)
    (hfixed : node.useFixedJobPriority = 0)
    (hpositive : getActivityShareConf q.voName db ≠ [] → SharesPositive (getActivityShareConf q.voName db))
    (hfair : chance.Fair) (hn : 0 < n) : ((readyOfQueue node tTime chance q n).answer Stmt.exec db).getD [] ≠ [] := by
  obtain ⟨p, hp, htop⟩ := h.top hpositive
  have hsome : ((MySql.readyOfQueue node tTime chance q n).answer Stmt.exec db).isSome :=
    Db.readyOfQueue_isSome hnot hfixed hpositive hfair n
  rw [readyOfQueue_answer hfixed hp] at hsome ⊢
  split at hsome
  · rename_i hslots
    rw [if_pos hslots, Option.getD_some, collect_markLast_ne_nil, mem_readyRows hn]
    exact htop
  · rename_i hslots
    have hcond : ¬(getActivityShareConf q.voName db = [] ∨ filesLeft (histogram node.activity (db.waitingIn node q)) = 0) :=
      fun hcond => hslots (activitySlots_eq_nil hcond hpositive)
    obtain ⟨hshares, -⟩ := not_or.mp hcond
    rw [Db.TopIsDue, if_neg hcond] at h
    have hdice : ∀ r ∈ (List.range n).map (chance.dice q), 0 ≤ r ∧ r < 1 := by
      intro r hr
      obtain ⟨i, -, rfl⟩ := List.mem_map.mp hr
      exact ⟨(hfair.dice q i).1.le, (hfair.dice q i).2⟩
    rw [activitySlots_eq hshares] at hslots hsome ⊢
    obtain ⟨a, k, hfirst, hmem, hk⟩ := (assignSlots_cases (ordered_histogram _ _) hdice).resolve_left hslots
    obtain ⟨inActivity, hof, p', hp', htop'⟩ := h a hfirst
    obtain rfl : p' = p := Option.some.inj (hp'.symm.trans hp)
    have hready : ((readyOfActivity node tTime q p' (db.queueDefaults node q) (slotName (getActivityShareConf q.voName db)
        (histogram node.activity (db.waitingIn node q)) a, k)).answer Stmt.exec db).getD [] ≠ [] := by
      rw [readyOfActivity_answer hk, Db.queueDefaults, hof, Option.map_some, Option.getD_some, ne_eq, List.map_eq_nil_iff,
        ← ne_eq, collect_markLast_ne_nil, mem_readyRows hk]
      exact htop'
    obtain ⟨tf, htf⟩ := List.exists_mem_of_ne_nil _ hready
    rw [if_neg hslots, Proc.answer_tryCollect]
    rw [Proc.answer_tryCollect] at hsome
    split at hsome
    · rename_i hall
      rw [if_pos hall, Option.getD_some]
      exact List.ne_nil_of_mem (List.mem_flatMap.mpr ⟨_, (hfair.shuffle q _).mem_iff.mpr hmem, htf⟩)
    · cases hsome

/-- With one slot, the first draw decides. -/
theorem Db.topIsDue_of_readyOfQueue (hfixed : node.useFixedJobPriority = 0)
    (hpositive : getActivityShareConf q.voName db ≠ [] → SharesPositive (getActivityShareConf q.voName db))
    (h : ∀ chance : Chance, chance.Fair → ((readyOfQueue node tTime chance q 1).answer Stmt.exec db).getD [] ≠ []) :
    db.TopIsDue node tTime q := by
  have hhalf : Chance.Fair { dice := fun _ _ => 1 / 2 } := ⟨fun _ _ => by norm_num, fun _ m => .refl m⟩
  obtain ⟨p, hp⟩ : ∃ p, db.maxPriority node q = some p := by
    cases hp : db.maxPriority node q with
    | some p => exact ⟨p, rfl⟩
    | none =>
        have hmax : (getMaxPriority node q).answer Stmt.exec db = none := by
          rw [getMaxPriority, if_pos hfixed]
          exact hp
        have hne := h _ hhalf
        rw [MySql.readyOfQueue, Proc.bind_eq, Proc.answer_bind, hmax] at hne
        exact absurd rfl hne
  rw [Db.TopIsDue]
  split
  · rename_i hcond
    have hne := h _ hhalf
    rw [readyOfQueue_answer hfixed hp, if_pos (activitySlots_eq_nil hcond hpositive), Option.getD_some,
      collect_markLast_ne_nil, mem_readyRows Nat.one_pos] at hne
    exact ⟨p, hp, hne⟩
  · rename_i hcond
    obtain ⟨hshares, -⟩ := not_or.mp hcond
    intro activity hfirst
    obtain ⟨r, hr, hslots⟩ := hfirst.exists_dice (hpositive hshares) (ordered_histogram _ _)
    have hne := h { dice := fun _ _ => r } ⟨fun _ _ => hr, fun _ m => .refl m⟩
    have hactivity : db.activitySlots node { dice := fun _ _ => r } q 1 =
        [(slotName (getActivityShareConf q.voName db) (histogram node.activity (db.waitingIn node q)) activity, 1)] := by
      rw [activitySlots_eq hshares]
      exact hslots
    rw [readyOfQueue_answer hfixed hp, hactivity, if_neg (List.cons_ne_nil _ _), Proc.answer_tryCollect] at hne
    simp only [List.mem_singleton, forall_eq, List.flatMap_singleton] at hne
    rw [readyOfActivity_answer Nat.one_pos, Option.isSome_map] at hne
    cases hof : ofActivity node.activity (db.queueDefaults node q) (slotName (getActivityShareConf q.voName db)
        (histogram node.activity (db.waitingIn node q)) activity) with
    | none => simp [hof] at hne
    | some inActivity =>
        rw [hof, Option.isSome_some, if_pos rfl, Option.map_some, Option.getD_some, Option.getD_some, ne_eq,
          List.map_eq_nil_iff, ← ne_eq, collect_markLast_ne_nil, mem_readyRows Nat.one_pos] at hne
        exact ⟨inActivity, hof, p, hp, hne⟩

end served

/-- With a limit of one above the running transfers, one slot is free. -/
def oneFree (q : QueueId) (db : Db) : List OptimizerRow :=
  [{ sourceSe := q.sourceSe, destSe := q.destSe, active := some (db.activeCount q.sourceSe q.destSe + 1) }]

theorem freeSlots_oneFree (q : QueueId) (db : Db) :
    ({ db with optimizer := oneFree q db } : Db).freeSlots q = 1 := by
  have hactive : ({ db with optimizer := oneFree q db } : Db).activeCount q.sourceSe q.destSe =
    db.activeCount q.sourceSe q.destSe := rfl
  have hlimit : (((oneFree q db).find? fun o => o.sourceSe = q.sourceSe && o.destSe = q.destSe).bind (·.active)).getD 0 =
      db.activeCount q.sourceSe q.destSe + 1 := by simp [oneFree]
  rw [Db.freeSlots, hactive]
  simp only [hlimit]
  rw [if_pos (by omega)]
  omega

theorem freeSlots_oneFree_pos (q q' : QueueId) (db : Db) :
    0 < ({ db with optimizer := oneFree q' db } : Db).freeSlots q := by
  by_cases hpair : q'.sourceSe = q.sourceSe ∧ q'.destSe = q.destSe
  · have hone := freeSlots_oneFree q' db
    have hsame : ({ db with optimizer := oneFree q' db } : Db).freeSlots q =
        ({ db with optimizer := oneFree q' db } : Db).freeSlots q' := by rw [Db.freeSlots, Db.freeSlots, hpair.1, hpair.2]
    omega
  · have hlimit : ((oneFree q' db).find? fun o => o.sourceSe = q.sourceSe && o.destSe = q.destSe) = none := by
      simpa [oneFree] using hpair
    have hfree : ({ db with optimizer := oneFree q' db } : Db).freeSlots q = 10 := by
      rw [Db.freeSlots]
      simp [hlimit]
    omega

section limits

variable {node : Node} {tTime : Nat} {q : QueueId} {db : Db}

/-- With one free slot and no other queue, what is served is due with the highest priority. -/
theorem Db.Served.topIsDue (h : db.Served node tTime q) (hfixed : node.useFixedJobPriority = 0)
    (hpositive : getActivityShareConf q.voName db ≠ [] → SharesPositive (getActivityShareConf q.voName db)) :
    db.TopIsDue node tTime q := by
  have hfree := freeSlots_oneFree q db
  have htop : ({ db with optimizer := oneFree q db } : Db).TopIsDue node tTime q := by
    refine Db.topIsDue_of_readyOfQueue hfixed hpositive fun chance hfair => ?_
    obtain ⟨tf, htf, -⟩ := h (oneFree q db) chance [q] hfair (by simp) (by omega)
    have hone : ¬(1 : Int) ≤ 0 := by decide
    rw [getReadyTransfers, Proc.answer_tryCollect, List.flatMap_singleton, getReadyTransfersOf_answer, hfree,
      if_neg hone] at htf
    split at htf
    · exact List.ne_nil_of_mem htf
    · cases htf
  exact htop

/-- With one free slot for another queue, a query for it that is rejected takes what is served with it. -/
theorem Db.Served.not_rejects (h : db.Served node tTime q) (hfixed : node.useFixedJobPriority = 0) (q' : QueueId)
    (hpositive : getActivityShareConf q'.voName db ≠ [] → SharesPositive (getActivityShareConf q'.voName db)) :
    ¬db.Rejects node q' := by
  intro hrejects
  have hfree := freeSlots_oneFree q' db
  have hrejects' : ({ db with optimizer := oneFree q' db } : Db).Rejects node q' := hrejects
  obtain ⟨chance, hfair, hnone⟩ : ∃ chance : Chance, chance.Fair ∧ (readyOfQueue node tTime chance q' 1).answer
      Stmt.exec { db with optimizer := oneFree q' db } = none := hrejects'.exists_chance hfixed hpositive
  obtain ⟨tf, htf, -⟩ := h (oneFree q' db) chance [q, q'] hfair (by simp) (freeSlots_oneFree_pos q q' db)
  rw [getReadyTransfers, Proc.answer_tryCollect, if_neg] at htf
  · cases htf
  · intro hall
    have hsome := hall q' (by simp)
    rw [getReadyTransfersOf_answer, hfree, if_neg (by decide)] at hsome
    rw [show (1 : Int).toNat = 1 from rfl, hnone] at hsome
    cases hsome

theorem Db.TopIsDue.served (htop : db.TopIsDue node tTime q) (hrejects : ∀ q', ¬db.Rejects node q')
    (hfixed : node.useFixedJobPriority = 0)
    (hpositive : ∀ vo, getActivityShareConf vo db ≠ [] → SharesPositive (getActivityShareConf vo db)) :
    db.Served node tTime q := by
  intro optimizer chance queues hfair hq hfree
  have htop' : ({ db with optimizer } : Db).TopIsDue node tTime q := htop
  have hrejects' : ∀ q', ¬({ db with optimizer } : Db).Rejects node q' := hrejects
  have hn : 0 < (({ db with optimizer } : Db).freeSlots q).toNat := by omega
  have hready := htop'.readyOfQueue (hrejects' q) hfixed (hpositive q.voName) hfair hn
  obtain ⟨tf, htf⟩ := List.exists_mem_of_ne_nil _ hready
  have hinQueue := readyOfQueue_inQueue tf htf
  refine ⟨tf, ?_, hinQueue⟩
  rw [getReadyTransfers, Proc.answer_tryCollect, if_pos, Option.getD_some]
  · refine List.mem_flatMap.mpr ⟨q, hq, ?_⟩
    rw [getReadyTransfersOf_answer, if_neg (by omega)]
    exact htf
  · intro q' _
    rw [getReadyTransfersOf_answer]
    split
    · rfl
    · exact Db.readyOfQueue_isSome (hrejects' q') hfixed (hpositive q'.voName) hfair _

end limits

/-- A queue with a file that is due is served when a file with the highest priority is due, one for each activity that
can get the first slot, and no query for it or for another queue is rejected. -/
theorem queue_served_iff (node : Node) (tTime : Nat) (q : QueueId) (db : Db) (hfixed : node.useFixedJobPriority = 0)
    (hpositive : ∀ vo, getActivityShareConf vo db ≠ [] → SharesPositive (getActivityShareConf vo db)) :
    (db.Due node tTime q → db.Served node tTime q) ↔
      (db.Due node tTime q → db.TopIsDue node tTime q ∧ ∀ q', ¬db.Rejects node q') := by
  constructor
  · intro h hdue
    have hserved := h hdue
    exact ⟨hserved.topIsDue hfixed (hpositive q.voName), fun q' => hserved.not_rejects hfixed q' (hpositive q'.voName)⟩
  · intro h hdue
    obtain ⟨htop, hrejects⟩ := h hdue
    exact htop.served hrejects hfixed hpositive

/-- A file that is due, and one of a more urgent job that is to be retried at the time given. -/
def retryDb (retryTimestamp : Nat) : Db where
  files := .ofRows [
    { fileId := 1, jobId := "j", fileState := .submitted, fileIndex := some 0, sourceSe := "s", destSe := "d",
      voName := "v" },
    { fileId := 2, jobId := "k", fileState := .submitted, fileIndex := some 0, sourceSe := "s", destSe := "d",
      voName := "v", priority := some 5, retryTimestamp := some retryTimestamp }]
  jobs := .ofRows [{ jobId := "j", jobState := .submitted, jobType := some .regular, voName := "v" },
    { jobId := "k", jobState := .submitted, jobType := some .regular, voName := "v", priority := some 5 }]
  activityShareConfig := [{ vo := "v", activityShare := [("default", 1)], active := some "on" }]

theorem retryDb_shares (t : Nat) : getActivityShareConf "v" (retryDb t) = [("default", 1)] := by
  change getActivityShareConf "v" (retryDb 0) = _
  decide +kernel

/-- The more urgent file is due as well. -/
theorem queue_served_bothDue :
    (retryDb 50).Due { hostname := "a" } 100 ⟨"s", "d", "v", 0⟩ ∧
      (retryDb 50).Served { hostname := "a" } 100 ⟨"s", "d", "v", 0⟩ := by
  have hdue : (retryDb 50).Due { hostname := "a" } 100 ⟨"s", "d", "v", 0⟩ :=
    ⟨_, .head _, rfl, rfl, _, rfl, .regular, by simp, rfl⟩
  refine ⟨hdue, (queue_served_iff _ 100 ⟨"s", "d", "v", 0⟩ (retryDb 50) rfl ?_).mpr ?_ hdue⟩
  · intro vo hshares
    by_cases hvo : vo = "v"
    · rw [hvo, retryDb_shares]
      exact ⟨by decide, by decide⟩
    · have hnone : getActivityShareConf vo (retryDb 50) = [] := by
        simp [getActivityShareConf, retryDb, Ne.symm hvo]
      exact absurd hnone hshares
  · intro _
    refine ⟨?_, fun q' => Db.not_rejects_of_plain (by decide +kernel)⟩
    have hname : ∀ a, CanBeFirst (getActivityShareConf "v" (retryDb 50))
        (histogram .latin1 ((retryDb 50).waitingIn { hostname := "a" } ⟨"s", "d", "v", 0⟩)) a → a = "default" := by
      rintro a ⟨pre, n, post, hqueue, -, -⟩
      have hhist : histogram .latin1 ((retryDb 50).waitingIn { hostname := "a" } ⟨"s", "d", "v", 0⟩) = [("default", 2)] := by
        decide +kernel
      rw [hhist] at hqueue
      have hmem : (a, n) ∈ [("default", (2 : Int))] := by simp [hqueue]
      exact congrArg Prod.fst (List.mem_singleton.mp hmem)
    rw [Db.TopIsDue, if_neg (by decide +kernel)]
    intro a ha
    obtain rfl := hname a ha
    have hslot : slotName (getActivityShareConf "v" (retryDb 50))
        (histogram .latin1 ((retryDb 50).waitingIn { hostname := "a" } ⟨"s", "d", "v", 0⟩)) "default" =
          "default" := ite_self _
    have hlist := ActivityColumn.latin1.readsList_plain (defaultActivities (getActivityShareConf "v" (retryDb 50))
      (histogram .latin1 ((retryDb 50).waitingIn { hostname := "a" } ⟨"s", "d", "v", 0⟩))) (by decide +kernel)
    obtain ⟨inActivity, hof, hin⟩ : ∃ inActivity, ofActivity .latin1
        (defaultActivities (getActivityShareConf "v" (retryDb 50)) (histogram .latin1 ((retryDb 50).waitingIn { hostname := "a" } ⟨"s", "d", "v", 0⟩))) "default" = some inActivity ∧
          ∀ r : FileRow, r.activity = some "default" → inActivity r = true := by
      rw [ofActivity, if_pos rfl, hlist]
      exact ⟨_, rfl, fun r hr => by simp [hr]⟩
    exact ⟨inActivity, by rw [hslot]; exact hof, 5, by decide +kernel, _, .tail _ (.head _), rfl, rfl, hin _ rfl, _, rfl,
      ⟨.regular, by simp, rfl⟩, rfl⟩

/-- The more urgent file is delayed, and the one that is due is not fetched. -/
theorem queue_starved_byDelayed :
    (∀ r ∈ (retryDb 1000).files.rows, ((retryDb 1000).jobs.find? r.jobId).map (·.priority) = some r.priority) ∧
      SharesPositive (getActivityShareConf "v" (retryDb 1000)) ∧
      (retryDb 1000).Due { hostname := "a" } 100 ⟨"s", "d", "v", 0⟩ ∧
      ¬(retryDb 1000).Served { hostname := "a" } 100 ⟨"s", "d", "v", 0⟩ := by
  refine ⟨by decide +kernel, ?_, ⟨_, .head _, rfl, rfl, _, rfl, .regular, by simp, rfl⟩, fun h => ?_⟩
  · rw [retryDb_shares]
    exact ⟨by decide, by decide⟩
  · obtain ⟨tf, htf, -⟩ := h [] { dice := fun _ _ => 1 / 2 } [⟨"s", "d", "v", 0⟩]
      ⟨fun _ _ => by norm_num, fun _ m => .refl m⟩ (by simp) (by decide +kernel)
    have hempty : (((getReadyTransfers { hostname := "a" } 100 { dice := fun _ _ => 1 / 2 } [⟨"s", "d", "v", 0⟩]).answer
        Stmt.exec { retryDb 1000 with optimizer := [] }).getD []).isEmpty = true := by decide +kernel
    rw [List.isEmpty_iff.mp hempty] at htf
    cases htf

end Fts3.MySql
