import Fts3.Common.OrderedMap
import Fts3.MsgBus.Consumer
import Fts3.MySql.Lemmas.Writes
import Fts3.Sql.Session
import Mathlib.Algebra.Order.Group.Int

/-!
# Log messages

`runConsumerLog` moves the messages about log files from the queue to a map, and `transferLogFileVector` from the map to
`t_file`. The keys of the map are narrower than the ids of the files, and its entries are erased before the transaction
that stores them is committed.
-/

namespace Fts3.Server

open Fts3.Sql Fts3.MySql Fts3.MsgBus

/-- The conversion of a `uint64_t` to an `int`. -/
def toInt (n : Nat) : Int := (n : Int).bmod (2 ^ 32)

/-- `std::map<int, MessageLog>`. -/
structure LogMap where
  entries : List (Int × MessageLog)
  ordered : Ordered entries

namespace LogMap

def empty : LogMap := ⟨[], List.Pairwise.nil⟩

def insert (messages : LogMap) (k : Int) (m : MessageLog) : LogMap :=
  ⟨mapInsert k m messages.entries, messages.ordered.mapInsert k m⟩

def erase (messages : LogMap) (k : Int) : LogMap :=
  ⟨messages.entries.filter fun e => e.1 ≠ k, messages.ordered.filter _⟩

/-- The messages in the order of the keys. -/
def values (messages : LogMap) : List MessageLog := messages.entries.map (·.2)

end LogMap

/-! ## From the queue -/

section consumer

variable {β : Type} (parse : β → Parsed MessageLog)

def consumeLog : Nat → MessageLog → List (Entry β) → LogMap → LogMap × List (Entry β)
  | 0, _, queue, messages => (messages, queue)
  | _ + 1, _, [], messages => (messages, [])
  | limit + 1, buffer, entry :: queue, messages =>
      if entry.locked then
        let (messages, rest) := consumeLog limit buffer queue messages
        (messages, entry :: rest)
      else
        let buffer := parseFromIstream parse buffer entry.contents
        let (messages, rest) := consumeLog limit buffer queue (messages.insert (toInt buffer.fileId) buffer)
        (messages, if entry.stuck then { entry with locked := true } :: rest else rest)

def runConsumerLog (limit : Nat) (queue : List (Entry β)) (messages : LogMap) : LogMap × List (Entry β) :=
  consumeLog parse limit { fileId := 0, logPath := "", hasDebugFile := false } queue messages

/-- The queue has log messages, of files with distinct ids. -/
structure LogQueue (queue : List (Entry β)) : Prop where
  readable : ∀ entry ∈ queue, Readable parse entry
  distinct : ((queue.filterMap (decode parse)).map (·.fileId)).Nodup

/-- The messages that are taken are in the map under their ids, and the others in the queue. -/
structure Delivers (limit : Nat) (queue : List (Entry β)) (result : LogMap × List (Entry β)) : Prop where
  taken : ∀ m ∈ (queue.take limit).filterMap (decode parse), (toInt m.fileId, m) ∈ result.1.entries
  left : queue.drop limit <:+ result.2

/-- No two of the messages that are taken have ids that agree in the bits that the keys have. -/
def NarrowIdsDistinct (limit : Nat) (queue : List (Entry β)) : Prop :=
  ∀ m ∈ (queue.take limit).filterMap (decode parse), ∀ m' ∈ (queue.take limit).filterMap (decode parse),
    m.fileId % 2 ^ 32 = m'.fileId % 2 ^ 32 → m.fileId = m'.fileId

variable {parse}

theorem toInt_eq_iff (a b : Nat) : toInt a = toInt b ↔ a % 2 ^ 32 = b % 2 ^ 32 := by
  unfold toInt
  generalize 2 ^ 32 = n
  constructor
  · intro h
    have hmod := congrArg (· % (n : Int)) h
    simp only [Int.bmod_emod] at hmod
    exact_mod_cast hmod
  · intro h
    rw [← Int.emod_bmod, ← Int.natCast_emod, h, Int.natCast_emod, Int.emod_bmod]

theorem consumeLog_eq (limit : Nat) (buffer : MessageLog) (queue : List (Entry β)) (messages : LogMap) :
    consumeLog parse limit buffer queue messages =
      ((consume parse limit buffer queue).1.foldl (fun ms m => ms.insert (toInt m.fileId) m) messages,
        (consume parse limit buffer queue).2) := by
  fun_induction consumeLog parse limit buffer queue messages with
  | case1 => rfl
  | case2 => rfl
  | case3 limit buffer entry queue messages hlocked messages' rest hconsume ih =>
      rw [hconsume] at ih
      obtain ⟨rfl, rfl⟩ := Prod.mk.inj ih
      simp only [consume, hlocked, if_true]
  | case4 limit buffer entry queue messages hlocked buffer' messages' rest hconsume ih =>
      rw [hconsume] at ih
      obtain ⟨rfl, rfl⟩ := Prod.mk.inj ih
      simp only [consume, if_neg hlocked, List.foldl_cons]
      rfl

theorem mem_entries_iff {messages : LogMap} {k : Int} {m : MessageLog} :
    (k, m) ∈ messages.entries ↔ messages.entries.lookup k = some m :=
  ⟨messages.ordered.lookup_of_mem, mem_of_lookup⟩

theorem entries_foldl_insert (ms : List MessageLog) (messages : LogMap) :
    (ms.foldl (fun ms m => ms.insert (toInt m.fileId) m) messages).entries =
      ms.foldl (fun es m => mapInsert (toInt m.fileId) m es) messages.entries := by
  induction ms generalizing messages with
  | nil => rfl
  | cons m ms ih => exact ih _

/-- A message is in the map if the last one with its key is this one. -/
theorem mem_foldl_insert_iff {ms : List MessageLog} {m : MessageLog} (hm : m ∈ ms) (messages : LogMap) :
    (toInt m.fileId, m) ∈ (ms.foldl (fun ms m => ms.insert (toInt m.fileId) m) messages).entries ↔
      ms.reverse.find? (fun m' => toInt m'.fileId = toInt m.fileId) = some m := by
  rw [mem_entries_iff, entries_foldl_insert, lookup_foldl_mapInsert (fun m : MessageLog => toInt m.fileId) fun m => m]
  cases hfind : ms.reverse.find? fun m' => toInt m'.fileId = toInt m.fileId with
  | none =>
      have hnone := List.find?_eq_none.mp hfind m (List.mem_reverse.mpr hm)
      simp at hnone
  | some m' => simp

theorem all_mem_foldl_insert_iff {ms : List MessageLog} (hdistinct : (ms.map (·.fileId)).Nodup) (messages : LogMap) :
    (∀ m ∈ ms, (toInt m.fileId, m) ∈ (ms.foldl (fun ms m => ms.insert (toInt m.fileId) m) messages).entries) ↔
      ∀ m ∈ ms, ∀ m' ∈ ms, m.fileId % 2 ^ 32 = m'.fileId % 2 ^ 32 → m.fileId = m'.fileId := by
  constructor
  · intro h m hm m' hm' hid
    have hkey : toInt m'.fileId = toInt m.fileId := ((toInt_eq_iff _ _).mpr hid).symm
    have hfound := (mem_foldl_insert_iff hm messages).mp (h m hm)
    have hfound' := (mem_foldl_insert_iff hm' messages).mp (h m' hm')
    rw [hkey, hfound] at hfound'
    rw [Option.some.inj hfound']
  · intro h m hm
    rw [mem_foldl_insert_iff hm]
    cases hfind : ms.reverse.find? fun m' => toInt m'.fileId = toInt m.fileId with
    | none =>
        have hnone := List.find?_eq_none.mp hfind m (List.mem_reverse.mpr hm)
        simp at hnone
    | some m' =>
        have hm' := List.mem_reverse.mp (List.mem_of_find?_eq_some hfind)
        have hkey : toInt m'.fileId = toInt m.fileId := by simpa using List.find?_some hfind
        have hid := h m' hm' m hm ((toInt_eq_iff _ _).mp hkey)
        rw [List.inj_on_of_nodup_map hdistinct hm' hm hid]

theorem drop_suffix_consume (limit : Nat) (event : MessageLog) (queue : List (Entry β)) :
    queue.drop limit <:+ (consume parse limit event queue).2 := by
  fun_induction consume parse limit event queue with
  | case1 => exact List.suffix_refl _
  | case2 => exact List.suffix_refl _
  | case3 limit event entry queue hlocked messages rest hconsume ih =>
      rw [hconsume] at ih
      exact ih.trans (List.suffix_cons _ _)
  | case4 limit event entry queue hlocked event' messages rest hconsume ih =>
      rw [hconsume] at ih
      dsimp only
      split
      · exact ih.trans (List.suffix_cons _ _)
      · exact ih

theorem delivers_iff {queue : List (Entry β)} (h : LogQueue parse queue) (limit : Nat) (messages : LogMap) :
    Delivers parse limit queue (runConsumerLog parse limit queue messages) ↔ NarrowIdsDistinct parse limit queue := by
  have hread : ∀ entry ∈ queue.take limit, Readable parse entry := fun entry hentry =>
    h.readable entry (List.mem_of_mem_take hentry)
  have hdistinct : (((queue.take limit).filterMap (decode parse)).map (·.fileId)).Nodup :=
    h.distinct.sublist (((List.take_sublist limit queue).filterMap _).map _)
  have hall := all_mem_foldl_insert_iff hdistinct messages
  have hconsume := (messages_consume_iff limit { fileId := 0, logPath := "", hasDebugFile := false } queue).mpr hread
  rw [runConsumerLog, consumeLog_eq, hconsume]
  constructor
  · intro hdelivers
    exact hall.mp hdelivers.taken
  · intro hnarrow
    exact ⟨hall.mpr hnarrow, drop_suffix_consume limit _ queue⟩

end consumer

/-! ## To the database -/

def storesLog (m : MessageLog) : Stmt :=
  .file (.transferLogFile m.fileId m.logPath (if m.hasDebugFile then 1 else 0))

/-- The session and the map of `transferLogFileVector`. A rollback concerns the first only. -/
structure LogState where
  session : Session Db
  messagesLog : LogMap

/-- One turn of the loop. -/
def LogState.store (s : LogState) (e : Int × MessageLog) : LogState where
  session := { s.session with data := ((storesLog e.2).exec s.session.data).2 }
  messagesLog := if 0 < ((storesLog e.2).exec s.session.data).1 then s.messagesLog.erase e.1 else s.messagesLog

/-- The loop over the map, up to the statement number `n` from here on, if there are so many. -/
def storeLogs : List (Int × MessageLog) → Nat → LogState → Option Nat × LogState
  | [], n, s => (some n, s)
  | _ :: _, 0, s => (none, s)
  | e :: rest, n + 1, s => storeLogs rest n (s.store e)

/-- `transferLogFileVector` with the statement number `n` throwing an exception, which is rolled back and passed on. -/
def attemptLogFileVector (n : Nat) (db : Db) (messagesLog : LogMap) : Option Unit × LogState :=
  match n with
  | 0 => (none, ⟨(⟨db, none⟩ : Session Db).control .rollback, messagesLog⟩)
  | n + 1 =>
      match storeLogs messagesLog.entries n ⟨(⟨db, none⟩ : Session Db).control .begin, messagesLog⟩ with
      | (none, s) | (some 0, s) => (none, { s with session := s.session.control .rollback })
      | (some (_ + 1), s) => (some (), { s with session := s.session.control .commit })

/-- The statement number `n` is the one that begins the transaction, one of the updates, or the one that commits. -/
def LogMap.Statement (messagesLog : LogMap) (n : Nat) : Prop := n < messagesLog.entries.length + 2

instance (messagesLog : LogMap) (n : Nat) : Decidable (messagesLog.Statement n) :=
  inferInstanceAs (Decidable (n < messagesLog.entries.length + 2))

/-- Nothing is stored and nothing is lost. -/
structure Survives (db : Db) (messagesLog : LogMap) (s : LogState) : Prop where
  files : s.session = ⟨db, none⟩
  messages : s.messagesLog.entries = messagesLog.entries

/-- None of the messages that come before the statement is about a file that there is. -/
def NothingErased (n : Nat) (db : Db) (messagesLog : LogMap) : Prop :=
  ∀ e ∈ messagesLog.entries.take (n - 1), db.files.find? e.2.fileId = none

section store

variable {s : LogState} {e : Int × MessageLog} {es : List (Int × MessageLog)}

theorem exec_storesLog_pos {m : MessageLog} {db : Db} :
    0 < ((storesLog m).exec db).1 ↔ db.files.find? m.fileId ≠ none := by
  have hpos : 0 < ((storesLog m).exec db).1 ↔ ∃ r ∈ db.files.rows, r.fileId = m.fileId := by
    refine Table.matched_pos.trans ?_
    simp [FileUpdate.selects]
  rw [hpos, Option.ne_none_iff_exists']
  simp only [Table.find?_eq_some_iff]

theorem exec_storesLog_find?_none {m : MessageLog} {db : Db} {f : Nat} :
    ((storesLog m).exec db).2.files.find? f = none ↔ db.files.find? f = none := by
  rw [storesLog, exec_file_find?, Option.map_eq_none_iff]

theorem storeLogs_eq (es : List (Int × MessageLog)) (n : Nat) (s : LogState) : storeLogs es n s =
    (if n < es.length then none else some (n - es.length), (es.take n).foldl LogState.store s) := by
  induction es generalizing n s with
  | nil => simp [storeLogs]
  | cons e es ih =>
      cases n with
      | zero => simp [storeLogs]
      | succ n => simp [storeLogs, ih]

theorem store_find?_none {f : Nat} :
    (s.store e).session.data.files.find? f = none ↔ s.session.data.files.find? f = none :=
  exec_storesLog_find?_none

theorem foldl_store_saved (es : List (Int × MessageLog)) (s : LogState) :
    (es.foldl LogState.store s).session.saved = s.session.saved := by
  induction es generalizing s with
  | nil => rfl
  | cons e es ih => exact ih (s.store e)

theorem store_entries_subset (s : LogState) (e : Int × MessageLog) :
    (s.store e).messagesLog.entries ⊆ s.messagesLog.entries := by
  intro e' he'
  simp only [LogState.store] at he'
  split at he'
  · exact (List.mem_filter.mp he').1
  · exact he'

theorem foldl_store_entries_subset (es : List (Int × MessageLog)) (s : LogState) :
    (es.foldl LogState.store s).messagesLog.entries ⊆ s.messagesLog.entries := by
  induction es generalizing s with
  | nil => exact List.Subset.refl _
  | cons e es ih => exact List.Subset.trans (ih (s.store e)) (store_entries_subset s e)

theorem store_of_no_row (h : s.session.data.files.find? e.2.fileId = none) :
    (s.store e).messagesLog = s.messagesLog := by
  have hnot : ¬0 < ((storesLog e.2).exec s.session.data).1 := fun hpos => exec_storesLog_pos.mp hpos h
  simp only [LogState.store, if_neg hnot]

theorem not_mem_store_of_row (h : s.session.data.files.find? e.2.fileId ≠ none) :
    e ∉ (s.store e).messagesLog.entries := by
  simp [LogState.store, if_pos (exec_storesLog_pos.mpr h), LogMap.erase]

/-- The messages are all there if none of the updates has found its file, and only then. -/
theorem foldl_store_messages_iff (es : List (Int × MessageLog)) (s : LogState) (hes : es ⊆ s.messagesLog.entries) :
    (es.foldl LogState.store s).messagesLog.entries = s.messagesLog.entries ↔
      ∀ e ∈ es, s.session.data.files.find? e.2.fileId = none := by
  induction es generalizing s with
  | nil => simp
  | cons e es ih =>
      rw [List.foldl_cons, List.forall_mem_cons]
      obtain ⟨he, hes⟩ := List.cons_subset.mp hes
      by_cases hrow : s.session.data.files.find? e.2.fileId = none
      · have hsame := store_of_no_row hrow
        have hrest := ih (s.store e) (by rw [hsame]; exact hes)
        rw [hsame] at hrest
        rw [hrest]
        simp only [store_find?_none, hrow, true_and]
      · refine iff_of_false (fun heq => ?_) fun h => hrow h.1
        rw [← heq] at he
        exact not_mem_store_of_row hrow (foldl_store_entries_subset es _ he)

end store

/-- What is left when the call has thrown an exception. -/
theorem attemptLogFileVector_eq {n : Nat} (db : Db) {messagesLog : LogMap} (hn : messagesLog.Statement n) :
    attemptLogFileVector n db messagesLog = (none, ⟨⟨db, none⟩,
      ((messagesLog.entries.take (n - 1)).foldl LogState.store ⟨⟨db, some db⟩, messagesLog⟩).messagesLog⟩) := by
  cases n with
  | zero => rfl
  | succ n =>
      have hsaved := foldl_store_saved (messagesLog.entries.take n) ⟨⟨db, some db⟩, messagesLog⟩
      have hrolled : ((messagesLog.entries.take n).foldl LogState.store ⟨⟨db, some db⟩, messagesLog⟩).session.control
          .rollback = ⟨db, none⟩ := by
        rw [Session.control_rollback, Session.committed, hsaved]
        rfl
      rw [attemptLogFileVector, storeLogs_eq, Session.control_begin, Nat.add_sub_cancel]
      by_cases hlt : n < messagesLog.entries.length
      · simp only [if_pos hlt, hrolled]
      · obtain rfl : n = messagesLog.entries.length := by
          unfold LogMap.Statement at hn
          omega
        simp only [if_neg hlt, Nat.sub_self, hrolled]

theorem survives_iff {n : Nat} (db : Db) {messagesLog : LogMap} (hn : messagesLog.Statement n) :
    Survives db messagesLog (attemptLogFileVector n db messagesLog).2 ↔ NothingErased n db messagesLog := by
  have hmessages := foldl_store_messages_iff (messagesLog.entries.take (n - 1)) ⟨⟨db, some db⟩, messagesLog⟩
    (List.take_subset _ _)
  rw [attemptLogFileVector_eq db hn, NothingErased, ← hmessages]
  exact ⟨fun h => h.messages, fun h => ⟨rfl, h⟩⟩

/-! ## The session and the map are those of the call -/

/-- The messages about files that there are not. -/
def kept (db : Db) (es : List (Int × MessageLog)) : List (Int × MessageLog) :=
  es.filter fun e => (db.files.find? e.2.fileId).isNone

section call

variable {s : LogState} {e : Int × MessageLog} {es : List (Int × MessageLog)}

theorem kept_store (s : LogState) (e : Int × MessageLog) (es : List (Int × MessageLog)) :
    kept (s.store e).session.data es = kept s.session.data es := by
  refine List.filter_congr fun e' _ => ?_
  rw [Bool.eq_iff_iff, Option.isNone_iff_eq_none, Option.isNone_iff_eq_none, store_find?_none]

/-- What follows the loop finds the session, and the messages that are left. -/
theorem storeLogs_attempt {α : Type} (es : List (Int × MessageLog)) (k : List MessageLog → Op α) (n : Nat) (s : LogState) :
    ((storeLogFiles (es.map (·.2))).bind k).attempt Stmt.exec n s.session =
      match storeLogs es n s with
      | (none, s') => (none, s'.session)
      | (some m, s') => (k ((kept s.session.data es).map (·.2))).attempt Stmt.exec m s'.session := by
  induction es generalizing n s k with
  | nil => rfl
  | cons e es ih =>
      have hbind : (storeLogFiles ((e :: es).map (·.2))).bind k = .update (storesLog e.2) fun affected =>
          (storeLogFiles (es.map (·.2))).bind fun left => k (if 0 < affected then left else e.2 :: left) := by
        simp only [List.map_cons, storeLogFiles, Proc.bind_eq, updateFile_bind, Proc.update_bind, Proc.bind_assoc,
          Proc.pure_eq, Proc.ret_bind]
        rfl
      rw [hbind]
      cases n with
      | zero => rfl
      | succ n =>
          have hrest := ih (fun left => k (if 0 < ((storesLog e.2).exec s.session.data).1 then left else e.2 :: left)) n
            (s.store e)
          refine hrest.trans ?_
          rw [kept_store, storeLogs]
          have hleft : (if 0 < ((storesLog e.2).exec s.session.data).1 then (kept s.session.data es).map (·.2)
              else e.2 :: (kept s.session.data es).map (·.2)) = (kept s.session.data (e :: es)).map (·.2) := by
            by_cases hrow : s.session.data.files.find? e.2.fileId = none
            · rw [if_neg fun hpos => exec_storesLog_pos.mp hpos hrow, kept, kept, List.filter_cons_of_pos (by simp [hrow])]
              rfl
            · rw [if_pos (exec_storesLog_pos.mpr hrow), kept, kept,
                List.filter_cons_of_neg (by simpa [Option.isNone_iff_eq_none] using hrow)]
          rw [hleft]

theorem store_entries (s : LogState) (e : Int × MessageLog) :
    (s.store e).messagesLog.entries = s.messagesLog.entries.filter fun e' =>
      e'.1 ≠ e.1 || (s.session.data.files.find? e.2.fileId).isNone := by
  cases hrow : s.session.data.files.find? e.2.fileId with
  | none =>
      rw [store_of_no_row hrow]
      simp
  | some r =>
      have hpos := exec_storesLog_pos.mpr (by rw [hrow]; exact Option.some_ne_none r)
      simp [LogState.store, if_pos hpos, LogMap.erase]

theorem foldl_store_entries (es : List (Int × MessageLog)) (s : LogState) :
    (es.foldl LogState.store s).messagesLog.entries = s.messagesLog.entries.filter fun e' =>
      es.all fun e => e'.1 ≠ e.1 || (s.session.data.files.find? e.2.fileId).isNone := by
  induction es generalizing s with
  | nil => simp
  | cons e es ih =>
      rw [List.foldl_cons, ih, store_entries, List.filter_filter]
      refine List.filter_congr fun e' _ => ?_
      have hrow : ∀ e₁ : Int × MessageLog, ((s.store e).session.data.files.find? e₁.2.fileId).isNone =
          (s.session.data.files.find? e₁.2.fileId).isNone := by
        intro e₁
        rw [Bool.eq_iff_iff, Option.isNone_iff_eq_none, Option.isNone_iff_eq_none, store_find?_none]
      simp only [hrow, List.all_cons, Bool.and_comm]

/-- After the loop the map has the messages about files that there are not. -/
theorem foldl_store_messages (db : Db) (saved : Option Db) (messagesLog : LogMap) :
    (messagesLog.entries.foldl LogState.store ⟨⟨db, saved⟩, messagesLog⟩).messagesLog.entries = kept db messagesLog.entries := by
  rw [foldl_store_entries, kept]
  refine List.filter_congr fun e he => ?_
  rw [Bool.eq_iff_iff, List.all_eq_true]
  constructor
  · intro h
    simpa using h e he
  · intro h e' he'
    by_cases hkey : e.1 = e'.1
    · rw [← List.inj_on_of_nodup_map messagesLog.ordered.nodup_keys he he' hkey]
      simp [h]
    · simp [hkey]

end call

/-- A call in which nothing throws stores what `transferLogFileVector` stores, and leaves its messages in the map. -/
theorem attemptLogFileVector_refines (n : Nat) (db : Db) (messagesLog : LogMap) :
    let call := (transferLogFileVector messagesLog.values).attempt Stmt.exec n ⟨db, none⟩
    let result := attemptLogFileVector n db messagesLog
    match call.1 with
    | none => result.1 = none ∧ result.2.session = call.2.control .rollback
    | some left => result.1 = some () ∧ result.2.session = call.2 ∧ result.2.messagesLog.values = left := by
  cases n with
  | zero => exact ⟨rfl, rfl⟩
  | succ n =>
      have hcall : (transferLogFileVector messagesLog.values).attempt Stmt.exec (n + 1) ⟨db, none⟩ =
          ((storeLogFiles (messagesLog.entries.map (·.2))).bind fun left => .tx .commit (.ret left)).attempt Stmt.exec n
            ⟨db, some db⟩ := rfl
      have hattempt := storeLogs_attempt messagesLog.entries (fun left => (.tx .commit (.ret left) : Op (List MessageLog))) n
        ⟨⟨db, some db⟩, messagesLog⟩
      dsimp only
      rw [hcall, hattempt, storeLogs_eq, attemptLogFileVector, Session.control_begin, storeLogs_eq]
      by_cases hlt : n < messagesLog.entries.length
      · simp only [if_pos hlt, and_self]
      · simp only [if_neg hlt]
        cases hm : n - messagesLog.entries.length with
        | zero => exact ⟨rfl, rfl⟩
        | succ m =>
            refine ⟨rfl, rfl, ?_⟩
            rw [List.take_of_length_le (Nat.not_lt.mp hlt), LogMap.values, foldl_store_messages]

/-! ## The messages survive -/

/-- All messages are delivered, and survive an exception, if and only if no two ids agree in the bits of the keys and
nothing has been erased when the exception is thrown. -/
theorem log_messages_survive_iff {β : Type} {parse : β → Parsed MessageLog} {queue : List (Entry β)}
    (hqueue : LogQueue parse queue) (limit : Nat) (messages : LogMap) (db : Db) {messagesLog : LogMap} {n : Nat}
    (hn : messagesLog.Statement n) :
    Delivers parse limit queue (runConsumerLog parse limit queue messages) ∧
        Survives db messagesLog (attemptLogFileVector n db messagesLog).2 ↔
      NarrowIdsDistinct parse limit queue ∧ NothingErased n db messagesLog :=
  and_congr (delivers_iff hqueue limit messages) (survives_iff db hn)

def logOf (f : Nat) : MessageLog where
  fileId := f
  logPath := "/var/log/fts3"
  hasDebugFile := false

/-- A queue of messages that can be read. -/
def logQueueOf (fs : List Nat) : List (Entry Nat) := fs.map fun f => { contents := f }

def parseLog (f : Nat) : Parsed MessageLog := .ok (logOf f)

/-- The files 1 and 2. -/
def logDb : Db where
  files := .ofRows [{ fileId := 1, jobId := "j", fileState := .active }, { fileId := 2, jobId := "j", fileState := .active }]

/-- The messages of the files 1 and 2 are delivered, and are still there if the first update throws. -/
theorem log_messages_survive_first_update :
    Delivers parseLog 10 (logQueueOf [1, 2]) (runConsumerLog parseLog 10 (logQueueOf [1, 2]) .empty) ∧
      Survives logDb (runConsumerLog parseLog 10 (logQueueOf [1, 2]) .empty).1
        (attemptLogFileVector 1 logDb (runConsumerLog parseLog 10 (logQueueOf [1, 2]) .empty).1).2 := by
  have hqueue : LogQueue parseLog (logQueueOf [1, 2]) := by
    refine ⟨?_, by decide⟩
    simp [logQueueOf, Readable, parseLog]
  refine (log_messages_survive_iff hqueue 10 .empty logDb (by decide)).mpr ⟨?_, ?_⟩
  · simp [NarrowIdsDistinct, logQueueOf, decode, parseLog, logOf]
  · simp [NothingErased]

/-- Of two files whose ids agree in 32 bits one message is lost, and so is the one that was stored before an update throws. -/
theorem log_messages_lost :
    LogQueue parseLog (logQueueOf [1, 2 ^ 32 + 1]) ∧
    ¬Delivers parseLog 10 (logQueueOf [1, 2 ^ 32 + 1]) (runConsumerLog parseLog 10 (logQueueOf [1, 2 ^ 32 + 1]) .empty) ∧
    ¬Survives logDb (runConsumerLog parseLog 10 (logQueueOf [1, 2]) .empty).1
      (attemptLogFileVector 2 logDb (runConsumerLog parseLog 10 (logQueueOf [1, 2]) .empty).1).2 := by
  have htaken : ((runConsumerLog parseLog 10 (logQueueOf [1, 2 ^ 32 + 1]) .empty).1.entries.map fun e => e.2.fileId) =
      [2 ^ 32 + 1] := by
    decide +kernel
  have hleft : ((attemptLogFileVector 2 logDb (runConsumerLog parseLog 10 (logQueueOf [1, 2]) .empty).1).2.messagesLog.entries.map
      fun e => e.2.fileId) = [2] := by
    decide +kernel
  have hbefore : ((runConsumerLog parseLog 10 (logQueueOf [1, 2]) .empty).1.entries.map fun e => e.2.fileId) = [1, 2] := by
    decide +kernel
  refine ⟨⟨by simp [logQueueOf, Readable, parseLog], by decide⟩, fun h => ?_, fun h => ?_⟩
  · have hmem : (1 : Nat) ∈ (runConsumerLog parseLog 10 (logQueueOf [1, 2 ^ 32 + 1]) .empty).1.entries.map fun e => e.2.fileId :=
      List.mem_map_of_mem (f := fun e => e.2.fileId) (h.taken (logOf 1) (by simp [logQueueOf, decode, parseLog]))
    rw [htaken] at hmem
    revert hmem
    decide
  · rw [h.messages, hbefore] at hleft
    cases hleft

end Fts3.Server
