import Fts3.Server.TransfersService
import Fts3.Sql.Contract
import Fts3.MySql.Lemmas.Ready
import Fts3.Sql.Group

/-!
# The limits of the storages

How many executors a scheduling round starts towards a destination and from a source.
-/

namespace Fts3.Server

open Fts3.Sql Fts3.MySql

/-! ## What a round is held to -/

section spec

variable (db : Db)

/-- The limit of a storage as a destination: its own, that of `*`, or 60. -/
def inboundLimit (se : String) : Int :=
  SlotsLeft.limitOf ((db.storageConfig se).merge (db.storageConfig "*")).inboundMaxActive

def outboundLimit (se : String) : Int :=
  SlotsLeft.limitOf ((db.storageConfig se).merge (db.storageConfig "*")).outboundMaxActive

/-- All that is active with the storage as its source or its destination, which `key` reads. -/
def activeAt (key : FileRow → String) (se : String) : Nat :=
  db.files.matched fun r => r.fileState = .active && key r = se

/-- The queues with pending transfers. -/
def pendingQueues : List QueueId :=
  db.pendingLinks.map fun link => queueOf (link.1, link.2.1) (link.2.2, db.activeInQueue link.1 link.2.1 link.2.2)

def sharesOf (pair : String × String) : List ShareConfigRow :=
  db.shareConfig.filter fun c => c.source = pair.1 && c.destination = pair.2

/-- The queue that is picked for a link, among those with pending transfers. -/
def pickedQueue (chance : RoundChance) (pair : String × String) : Option QueueId :=
  (selectQueueForPair chance pair (vosOf (chance.shuffleQueues (pendingQueues db)) pair)
    (weightsOf (sharesOf db pair))).1

/-- The VO of the transfer also has pending ones on the link, and is picked for it. -/
def Counted (chance : RoundChance) (r : FileRow) : Prop :=
  (pickedQueue db chance (r.sourceSe, r.destSe)).map (·.voName) = some r.voName

instance (chance : RoundChance) (r : FileRow) : Decidable (Counted db chance r) :=
  inferInstanceAs (Decidable ((pickedQueue db chance (r.sourceSe, r.destSe)).map (·.voName) = some r.voName))

/-- What the round counts as active with the storage as its source or its destination. -/
def countedAt (chance : RoundChance) (key : FileRow → String) (se : String) : Nat :=
  db.files.rows.countP fun r => r.fileState = .active && key r = se && Counted db chance r

end spec

/-! ## Executors and slots -/

/-- The slots `m` are what the started executors have left of `m₀`, and they have only taken what was there. -/
def SlotsTaken (key : TransferFile → String) (m₀ m : String → Option Int) (started : List TransferFile) : Prop :=
  ∀ x, (started.countP (fun tf => key tf = x) : Int) + (m x).getD 0 = (m₀ x).getD 0 ∧
    (started.countP (fun tf => key tf = x) = 0 ∨ 0 ≤ (m x).getD 0)

section slots

variable {key : TransferFile → String} {m₀ m : String → Option Int} {started : List TransferFile}

theorem SlotsTaken.le (h : SlotsTaken key m₀ m started) (x : String) :
    (started.countP (fun tf => key tf = x) : Int) ≤ max 0 ((m₀ x).getD 0) := by
  obtain ⟨hsum, hnone | hleft⟩ := h x
  · rw [hnone]
    exact Int.le_max_left 0 _
  · omega

theorem SlotsTaken.start (h : SlotsTaken key m₀ m started) {tf : TransferFile} (htf : 0 < (m (key tf)).getD 0) :
    SlotsTaken key m₀ (fun x => (m x).map fun k => if x = key tf then k - (1 : Nat) else k) (started ++ [tf]) := by
  intro x
  obtain ⟨hsum, hleft⟩ := h x
  rw [List.countP_append, List.countP_singleton]
  cases hm : m x with
  | none =>
      have hne : ¬key tf = x := by
        rintro rfl
        simp [hm] at htf
      simpa [hm, hne] using h x
  | some k =>
      by_cases hx : key tf = x
      · subst hx
        rw [hm] at hsum htf
        simp only [Option.getD_some] at hsum htf
        simp only [decide_true, if_true, hm, Option.map_some, Option.getD_some]
        omega
      · have hx' : ¬x = key tf := fun h => hx h.symm
        simpa [hm, hx, hx'] using h x

end slots

namespace ServeState

/-- The executors within the slots of a round. -/
def Within (m₀ : SlotsLeft) (st : ServeState) : Prop :=
  SlotsTaken (·.destSe) m₀.destination st.slots.destination st.started ∧
    SlotsTaken (·.sourceSe) m₀.source st.slots.source st.started

variable {m₀ : SlotsLeft} {st : ServeState}

theorem Within.serve (h : st.Within m₀) (vo : String) : (st.serve vo).Within m₀ := by
  unfold ServeState.serve
  split
  · exact h
  · split
    · exact h
    · split
      · exact h
      · split
        · exact h
        · rename_i hdest
          split
          · exact h
          · rename_i hsource
            exact ⟨h.1.start (by simpa using hdest), h.2.start (by simpa using hsource)⟩

theorem Within.serve_foldl (h : st.Within m₀) (vos : List String) : (vos.foldl ServeState.serve st).Within m₀ := by
  induction vos generalizing st with
  | nil => exact h
  | cons vo vos ih => exact ih (h.serve vo)

theorem Within.serveAll (h : st.Within m₀) (n : Nat) : (serveAll n st).Within m₀ := by
  induction n generalizing st with
  | zero => exact h
  | succ n ih =>
      simp only [ServeState.serveAll]
      split
      · exact h
      · exact ih (h.serve_foldl st.handler.vos)

end ServeState

/-! ## The slots of the storages -/

/-- What is active in the queues with the storage as their source or their destination. -/
def takenAt (key : QueueId → String) (se : String) (queues : List QueueId) : Nat :=
  ((queues.filter fun q => key q = se).map (·.activeCount)).sum

/-- After the queues: a storage that has been filled has its limits less what is active in the queues, and no
queue has one that has not. -/
def Filled (db : Db) (queues : List QueueId) (m : SlotsLeft) : Prop :=
  ∀ se, (m.destination se = none ∧ m.source se = none ∧ ∀ q ∈ queues, q.destSe ≠ se ∧ q.sourceSe ≠ se) ∨
    (m.destination se = some (inboundLimit db se - takenAt (·.destSe) se queues) ∧
      m.source se = some (outboundLimit db se - takenAt (·.sourceSe) se queues))

section fill

variable {db : Db} {queues : List QueueId} {m : SlotsLeft}

@[simp] theorem getStorageConfig_answer (se : String) : (getStorageConfig se).answer Stmt.exec db =
    (db.storageConfig se).merge (db.storageConfig "*") := rfl

theorem takenAt_eq_zero {key : QueueId → String} {se : String} (h : ∀ q ∈ queues, key q ≠ se) :
    takenAt key se queues = 0 := by
  have hnone : (queues.filter fun q => key q = se) = [] := List.filter_eq_nil_iff.mpr fun q hq => by simpa using h q hq
  rw [takenAt, hnone, List.map_nil, List.sum_nil]

theorem Filled.fill (h : Filled db queues m) {se : String} (hse : m.destination se = none) :
    Filled db queues (m.fill se ((db.storageConfig se).merge (db.storageConfig "*"))) := by
  intro x
  by_cases hx : x = se
  · subst hx
    rcases h x with ⟨-, -, hnone⟩ | ⟨hsome, -⟩
    · exact .inr ⟨by simp [SlotsLeft.fill, takenAt_eq_zero fun q hq => (hnone q hq).1, inboundLimit],
        by simp [SlotsLeft.fill, takenAt_eq_zero fun q hq => (hnone q hq).2, outboundLimit]⟩
    · rw [hse] at hsome
      cases hsome
  · simpa [SlotsLeft.fill, hx] using h x

theorem Filled.source_none (h : Filled db queues m) {se : String} (hse : m.source se = none) :
    m.destination se = none := by
  rcases h se with ⟨hdest, -⟩ | ⟨-, hsome⟩
  · exact hdest
  · rw [hse] at hsome
    cases hsome

theorem Filled.fillDestination (h : Filled db queues m) (q : QueueId) :
    Filled db queues ((fillDestination m q).answer Stmt.exec db) ∧
      (((Server.fillDestination m q).answer Stmt.exec db).destination q.destSe).isSome = true := by
  unfold Server.fillDestination
  split
  · rename_i hnone
    exact ⟨h.fill (by simpa using hnone), by simp [SlotsLeft.fill]⟩
  · rename_i hsome
    exact ⟨h, by simpa [← Option.isSome_iff_ne_none, Option.isNone_iff_eq_none] using hsome⟩

theorem Filled.fillSource (h : Filled db queues m) (q : QueueId) (hdest : (m.destination q.destSe).isSome = true) :
    Filled db queues ((fillSource m q).answer Stmt.exec db) ∧
      (((fillSource m q).answer Stmt.exec db).destination q.destSe).isSome = true ∧
      (((Server.fillSource m q).answer Stmt.exec db).source q.sourceSe).isSome = true := by
  unfold Server.fillSource
  split
  · rename_i hnone
    refine ⟨h.fill (h.source_none (by simpa using hnone)), ?_, by simp [SlotsLeft.fill]⟩
    by_cases hse : q.destSe = q.sourceSe
    · simp [SlotsLeft.fill, hse]
    · simpa [SlotsLeft.fill, hse] using hdest
  · rename_i hsome
    exact ⟨h, hdest, by simpa [← Option.isSome_iff_ne_none, Option.isNone_iff_eq_none] using hsome⟩

theorem takenAt_append (key : QueueId → String) (se : String) (q : QueueId) :
    takenAt key se (queues ++ [q]) = takenAt key se queues + if key q = se then q.activeCount else 0 := by
  unfold takenAt
  by_cases hq : key q = se <;> simp [hq]

theorem Filled.take (h : Filled db queues m) {q : QueueId} (hdest : (m.destination q.destSe).isSome = true)
    (hsource : (m.source q.sourceSe).isSome = true) :
    Filled db (queues ++ [q]) (m.take q.sourceSe q.destSe q.activeCount) := by
  intro x
  rcases h x with ⟨hto, hfrom, hnone⟩ | ⟨hto, hfrom⟩
  · have hne : q.destSe ≠ x := by
      rintro rfl
      rw [hto] at hdest
      cases hdest
    have hne' : q.sourceSe ≠ x := by
      rintro rfl
      rw [hfrom] at hsource
      cases hsource
    refine .inl ⟨by simp [SlotsLeft.take, hto], by simp [SlotsLeft.take, hfrom], fun q' hq' => ?_⟩
    rcases List.mem_append.mp hq' with hq' | hq'
    · exact hnone q' hq'
    · rw [List.mem_singleton.mp hq']
      exact ⟨hne, hne'⟩
  · rw [takenAt_append, takenAt_append]
    refine .inr ⟨?_, ?_⟩
    · by_cases hx : q.destSe = x
      · simp only [SlotsLeft.take, hto, Option.map_some, hx, if_true, Int.natCast_add]
        congr 1
        omega
      · have hx' : ¬x = q.destSe := fun h => hx h.symm
        simp [SlotsLeft.take, hto, hx, hx']
    · by_cases hx : q.sourceSe = x
      · simp only [SlotsLeft.take, hfrom, Option.map_some, hx, if_true, Int.natCast_add]
        congr 1
        omega
      · have hx' : ¬x = q.sourceSe := fun h => hx h.symm
        simp [SlotsLeft.take, hfrom, hx, hx']

theorem Filled.slotsLeft (h : Filled db queues m) (rest : List QueueId) :
    Filled db (queues ++ rest) ((slotsLeft rest m).answer Stmt.exec db) := by
  induction rest generalizing queues m with
  | nil => simpa [Server.slotsLeft] using h
  | cons q rest ih =>
      simp only [Server.slotsLeft, Proc.bind_eq, Proc.answer_bind]
      obtain ⟨h₁, hdest₁⟩ := h.fillDestination q
      obtain ⟨h₂, hdest₂, hsource₂⟩ := h₁.fillSource q hdest₁
      have hrest := ih (h₂.take hdest₂ hsource₂)
      rwa [List.append_assoc] at hrest

theorem filled_slotsLeft (db : Db) (queues : List QueueId) :
    Filled db queues ((slotsLeft queues {}).answer Stmt.exec db) := by
  have hstart : Filled db [] {} := fun _ => .inl ⟨rfl, rfl, fun _ hq => by cases hq⟩
  exact hstart.slotsLeft queues

end fill

/-! ## The queues of a round -/

section queues

variable {db : Db} {chance : RoundChance}

theorem getQueuesWithPending_answer : getQueuesWithPending.answer Stmt.exec db = pendingQueues db := by
  simp only [getQueuesWithPending, Proc.bind_eq, select_bind, Proc.answer_select, Proc.answer_collect]
  rw [pendingQueues, List.map_eq_flatMap]
  rfl

theorem selectQueues_answer (queues : List QueueId) (pairs : List (String × String)) :
    ((selectQueues chance queues pairs).answer Stmt.exec db).1 = pairs.flatMap fun pair =>
      (selectQueueForPair chance pair (vosOf queues pair) (weightsOf (sharesOf db pair))).1.toList := by
  induction pairs with
  | nil => rfl
  | cons pair pairs ih =>
      simp only [selectQueues, getShareConfig, Proc.bind_eq, select_bind, Proc.answer_select, Proc.answer_bind,
        Proc.pure_eq, Proc.answer_ret, List.flatMap_cons, ih, sharesOf]

/-- The queues that survive the shares. -/
def survivors (chance : RoundChance) (db : Db) : List QueueId :=
  ((applyVoShares chance (chance.shuffleQueues (pendingQueues db))).answer Stmt.exec db).1

theorem selectQueueForPair_mem {pair : String × String} {vos : List (String × Nat)} {weights : List (String × Rat)}
    {q : QueueId} (h : (selectQueueForPair chance pair vos weights).1 = some q) : ∃ vo ∈ vos, q = queueOf pair vo := by
  simp only [selectQueueForPair] at h
  split at h
  · cases h
  · obtain ⟨vo, hvo, rfl⟩ := Option.map_eq_some_iff.mp h
    exact ⟨vo, List.mem_of_getElem? hvo, rfl⟩

theorem mem_survivors {q : QueueId} : q ∈ survivors chance db ↔ ∃ pair, pickedQueue db chance pair = some q := by
  simp only [survivors, applyVoShares, selectQueues_answer, List.mem_flatMap, Option.mem_toList]
  constructor
  · rintro ⟨pair, -, hq⟩
    exact ⟨pair, hq⟩
  · rintro ⟨pair, hq⟩
    refine ⟨pair, ?_, hq⟩
    obtain ⟨vo, hvo, -⟩ := selectQueueForPair_mem hq
    obtain ⟨q', hq', -⟩ := List.mem_map.mp hvo
    obtain ⟨hmem, hpair⟩ := List.mem_filter.mp hq'
    rw [List.mem_insertionSort, List.mem_dedup]
    exact List.mem_map.mpr ⟨q', hmem, by simpa using hpair⟩

/-- A picked queue has the count of its own link and VO. -/
theorem picked_activeCount {pair : String × String} {q : QueueId} (h : pickedQueue db chance pair = some q) :
    q.pair = pair ∧ q.activeCount = db.activeInQueue q.sourceSe q.destSe q.voName := by
  obtain ⟨vo, hvo, rfl⟩ := selectQueueForPair_mem h
  obtain ⟨q', hq', rfl⟩ := List.mem_map.mp hvo
  obtain ⟨hmem, hpair⟩ := List.mem_filter.mp hq'
  obtain ⟨link, -, rfl⟩ := List.mem_map.mp ((chance.shuffled _).mem_iff.mp hmem)
  obtain rfl : (link.1, link.2.1) = pair := of_decide_eq_true hpair
  exact ⟨rfl, rfl⟩

theorem nodup_survivors : ((survivors chance db).map QueueId.pair).Nodup := by
  have hpicked : survivors chance db =
      (((chance.shuffleQueues (pendingQueues db)).map QueueId.pair).dedup.insertionSort pairBefore).filterMap
        (pickedQueue db chance) := by
    rw [survivors, applyVoShares, selectQueues_answer, List.filterMap_eq_flatMap_toList]
    rfl
  rw [hpicked, List.map_filterMap]
  refine ((List.perm_insertionSort _ _).nodup_iff.mpr (List.nodup_dedup _)).filterMap fun pair pair' p hp hp' => ?_
  obtain ⟨q, hq, rfl⟩ := Option.map_eq_some_iff.mp hp
  obtain ⟨q', hq', heq⟩ := Option.map_eq_some_iff.mp hp'
  rw [← (picked_activeCount hq).1, ← heq, (picked_activeCount hq').1]

/-- What the queues take at a storage is what is counted there. -/
theorem takenAt_survivors {key : FileRow → String} {queueKey : QueueId → String}
    (hkey : ∀ r q, q.sourceSe = r.sourceSe → q.destSe = r.destSe → queueKey q = key r) (se : String) :
    takenAt queueKey se (survivors chance db) = countedAt db chance key se := by
  have hcounts : takenAt queueKey se (survivors chance db) =
      (((survivors chance db).filter fun q => queueKey q = se).map fun q => db.files.rows.countP fun r =>
        r.sourceSe = q.sourceSe && r.destSe = q.destSe && r.voName = q.voName && r.fileState = .active).sum := by
    unfold takenAt
    congr 1
    refine List.map_congr_left fun q hq => ?_
    obtain ⟨pair, hpair⟩ := mem_survivors.mp (List.mem_filter.mp hq).1
    exact (picked_activeCount hpair).2
  have hone : ∀ r ∈ db.files.rows, ((survivors chance db).filter fun q => queueKey q = se).countP (fun q =>
      r.sourceSe = q.sourceSe && r.destSe = q.destSe && r.voName = q.voName && r.fileState = .active) ≤ 1 := by
    intro r _
    have hnodup : ((survivors chance db).map QueueId.pair).Nodup := nodup_survivors
    have hpair := List.nodup_iff_count_le_one.mp hnodup (r.sourceSe, r.destSe)
    rw [List.count_eq_countP, List.countP_map] at hpair
    rw [List.countP_filter]
    refine (List.countP_mono_left fun q _ h => ?_).trans hpair
    simp only [Bool.and_eq_true, decide_eq_true_eq] at h
    simp [QueueId.pair, h]
  rw [hcounts, sum_countP_eq_countP_any hone, countedAt]
  refine List.countP_congr fun r _ => ?_
  simp only [List.any_eq_true, List.mem_filter, decide_eq_true_eq, Bool.and_eq_true, Counted, Option.map_eq_some_iff]
  constructor
  · rintro ⟨q, ⟨hq, hse⟩, ⟨⟨hsource, hdest⟩, hvo⟩, hactive⟩
    obtain ⟨pair, hpair⟩ := mem_survivors.mp hq
    obtain rfl := (picked_activeCount hpair).1
    have hlink : (r.sourceSe, r.destSe) = q.pair := by rw [hsource, hdest]; rfl
    exact ⟨⟨hactive, (hkey r q hsource.symm hdest.symm).symm.trans hse⟩, q, hlink ▸ hpair, hvo.symm⟩
  · rintro ⟨⟨hactive, hse⟩, q, hq, hvo⟩
    have hpair := (picked_activeCount hq).1
    simp only [QueueId.pair, Prod.mk.injEq] at hpair
    exact ⟨q, ⟨mem_survivors.mpr ⟨_, hq⟩, (hkey r q hpair.1 hpair.2).trans hse⟩,
      ⟨⟨hpair.1.symm, hpair.2.symm⟩, hvo.symm⟩, hactive⟩

end queues

/-! ## The round -/

section round

variable {node : Node} {tTime : Nat} {chance : RoundChance} {processes : Processes} {db : Db}

theorem selectQueues_reads (queues : List QueueId) (pairs : List (String × String)) :
    (selectQueues chance queues pairs).Issues fun _ => False := by
  induction pairs with
  | nil => trivial
  | cons pair pairs ih => exact fun db => ih.bind fun _ => trivial

theorem slotsLeft_reads (queues : List QueueId) (m : SlotsLeft) : (slotsLeft queues m).Issues fun _ => False := by
  induction queues generalizing m with
  | nil => trivial
  | cons q queues ih =>
      refine Proc.Issues.bind (p := fillDestination m q) ?_ fun m => Proc.Issues.bind (p := fillSource m q) ?_ fun m => ih _
      · simp [fillDestination, getStorageConfig]
      · simp [fillSource, getStorageConfig]

theorem executeUrlcopy_reads : (executeUrlcopy node tTime chance processes).Issues fun _ => False := by
  have hfiles : ∀ queues, (getFiles node tTime chance processes queues).Issues fun _ => False := by
    refine fun queues => (slotsLeft_reads queues {}).bind fun m => ?_
    simp only [Proc.issues_ite]
    exact ⟨fun _ => trivial, fun _ => (getReadyTransfers_reads queues).bind fun _ => trivial⟩
  have hfailed : ∀ queues, (failUnschedulable node tTime chance queues).Issues fun _ => False := fun queues =>
    (getReadyTransfers_reads queues).bind fun _ => trivial
  have hqueues : getQueuesWithPending.Issues fun _ => False := by
    refine fun db => Proc.issues_collect fun link _ => ?_
    simp
  unfold executeUrlcopy
  split
  · trivial
  · refine hqueues.bind fun queues => (selectQueues_reads _ _).bind fun chosen => ?_
    refine (hfailed _).bind fun failed => ?_
    cases failed with
    | none => trivial
    | some failed =>
        simp only [Proc.issues_ite]
        exact ⟨fun _ => trivial, fun _ => (hfiles _).bind fun _ => trivial⟩

/-- The executors that a round starts. -/
def startedIn (node : Node) (tTime : Nat) (chance : RoundChance) (processes : Processes) (db : Db) : List TransferFile :=
  ((executeUrlcopy node tTime chance processes).run Stmt.exec db).1.1

end round

end Fts3.Server
