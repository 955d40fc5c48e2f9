import Mathlib.Algebra.Order.BigOperators.Group.List
import Fts3.Server.TransferFileHandler

/-!
# Every order of turns

A run of calls of `TransferFileHandler::get`, for any VOs in any order: what has been returned, and what is still to be
returned.
-/

namespace Fts3.Server

open Fts3.Sql Fts3.MySql Fts3.Machine

/-! ## Calls -/

/-- What a call has returned, to which VO and from which of its links. -/
structure Served where
  vo : String
  pair : Option (String × String)
  file : TransferFile

structure Serving where
  handler : TransferFileHandler
  served : List Served := []

def TransferFileHandler.getNextPair (h : TransferFileHandler) (vo : String) : Option (String × String) :=
  (h.queues.lookup vo).bind VoQueue.getNextPair

def FileMap.files (m : FileMap) (vo : String) : List TransferFile := (m.entries.lookup vo).getD []

/-- No index has files of two VOs. -/
def FileMap.Unshared (m : FileMap) : Prop :=
  ∀ vo vo', ∀ tf ∈ m.files vo, ∀ tf' ∈ m.files vo', tf.index = tf'.index → vo = vo'

/-- The indexes that the VO is to get a file for. -/
def FileMap.indexes (m : FileMap) (vo : String) : List (String × Int) := ((m.files vo).map (·.index)).dedup

/-- The first file that the VO lists with the index. -/
def FileMap.firstFile (m : FileMap) (vo : String) (index : String × Int) : Option TransferFile :=
  (m.files vo).find? fun tf => tf.index = index

/-- The link on which the VO waits for the index. -/
def FileMap.linkOf (m : FileMap) (vo : String) (index : String × Int) : Option (String × String) :=
  (m.firstFile vo index).map (·.pair)

/-- The number of files to be returned. -/
def FileMap.total (m : FileMap) : Nat := (m.entries.map fun e => (m.indexes e.1).length).sum

namespace Serving

def start (m : FileMap) : Serving where
  handler := .getMapFromCache m

def step (st : Serving) (vo : String) : Serving :=
  match st.handler.get vo with
  | (none, handler) => { st with handler }
  | (some file, handler) => ⟨handler, st.served ++ [⟨vo, st.handler.getNextPair vo, file⟩]⟩

/-- The files that the VO has got. -/
def servedTo (st : Serving) (vo : String) : List TransferFile := (st.served.filter fun s => s.vo = vo).map (·.file)

/-- The number of them that were served from one of its links. -/
def servedFrom (st : Serving) (vo : String) (pair : String × String) : Nat :=
  st.served.countP fun s => s.vo = vo && s.pair = some pair

/-- The VO has not had all that waits for the link. -/
def WaitsOn (st : Serving) (m : FileMap) (vo : String) (pair : String × String) : Prop :=
  ∃ index ∈ m.indexes vo, index ∉ (st.servedTo vo).map (·.index) ∧ m.linkOf vo index = some pair

end Serving

/-! ## What holds at every moment -/

section start

variable (m : FileMap)

theorem FileMap.lookup_queues (vo : String) :
    (TransferFileHandler.getMapFromCache m).queues.lookup vo = (m.entries.lookup vo).map TransferFileHandler.voQueue := by
  simp only [TransferFileHandler.getMapFromCache]
  induction m.entries with
  | nil => rfl
  | cons e entries ih =>
      rw [List.map_cons, List.lookup_cons, List.lookup_cons]
      split
      · rfl
      · exact ih

theorem FileMap.pending_start (vo : String) :
    ((TransferFileHandler.getMapFromCache m).pending vo).Perm (m.indexes vo) := by
  unfold TransferFileHandler.pending FileMap.indexes FileMap.files
  rw [m.lookup_queues]
  cases m.entries.lookup vo with
  | none => exact List.Perm.nil
  | some files =>
      exact (TransferFileHandler.items_voQueue files).trans (TransferFileHandler.index_firstOfIndex_perm files)

theorem FileMap.files_of_mem {e : String × List TransferFile} (he : e ∈ m.entries) : m.files e.1 = e.2 := by
  rw [FileMap.files, (lookup_eq_some_iff_mem m.nodup).mpr he, Option.getD_some]

theorem FileMap.size_start : (TransferFileHandler.getMapFromCache m).size = m.total := by
  rw [TransferFileHandler.size_eq, FileMap.total, TransferFileHandler.getMapFromCache, List.map_map]
  congr 1
  refine List.map_congr_left fun e he => ?_
  have hperm := (TransferFileHandler.items_voQueue e.2).trans (TransferFileHandler.index_firstOfIndex_perm e.2)
  have hlength := hperm.length_eq
  rw [List.length_map] at hlength
  simp only [Function.comp_apply, VoQueue.size_eq_items, hlength, FileMap.indexes, m.files_of_mem he]

end start

/-- How often an index is still in the queues. -/
def TransferFileHandler.waiting (h : TransferFileHandler) (index : String × Int) : Nat :=
  (h.queues.map fun e => (e.2.robin.items.map (·.2)).count index).sum

namespace Serving

/-- The files are enough for the indexes in the queues, and each VO has had the others. Where no index is shared, it has
had the first files, and the first ones are still there for the others. -/
structure Inv (m : FileMap) (st : Serving) : Prop where
  wf : st.handler.WellFormed
  size : st.handler.size + st.served.length = m.total
  indexes : ∀ vo, ((st.servedTo vo).map (·.index) ++ st.handler.pending vo).Perm (m.indexes vo)
  waiting : ∀ index, st.handler.waiting index ≤ st.handler.files.countP fun tf => tf.index = index
  balanced : ∀ vo q, st.handler.queues.lookup vo = some q → q.robin.Balanced (st.servedFrom vo)
  links : ∀ vo q, st.handler.queues.lookup vo = some q → ∀ i ∈ q.robin.items, m.linkOf vo i.2 = some i.1
  servedLinks : ∀ s ∈ st.served, m.linkOf s.vo s.file.index = s.pair
  first : m.Unshared → (∀ s ∈ st.served, m.firstFile s.vo s.file.index = some s.file) ∧
    ∀ vo, ∀ index ∈ st.handler.pending vo, (st.handler.files.find? fun tf => tf.index = index) = m.firstFile vo index

theorem countP_index_firstOfIndex (files : List TransferFile) (index : String × Int) :
    ((TransferFileHandler.firstOfIndex files).map (·.index)).count index ≤ files.countP fun tf => tf.index = index := by
  by_cases hmem : index ∈ files.map (·.index)
  · have hone := List.nodup_iff_count_le_one.mp (TransferFileHandler.nodup_firstOfIndex files) index
    have hpos : 0 < files.countP fun tf => tf.index = index := by
      obtain ⟨tf, htf, hindex⟩ := List.mem_map.mp hmem
      exact List.countP_pos_iff.mpr ⟨tf, htf, by simpa using hindex⟩
    omega
  · rw [List.count_eq_zero_of_not_mem fun h => hmem (TransferFileHandler.mem_index_firstOfIndex.mp h)]
    exact Nat.zero_le _

theorem mem_entries {m : FileMap} {vo : String} {tf : TransferFile} (h : tf ∈ m.files vo) :
    (vo, m.files vo) ∈ m.entries := by
  unfold FileMap.files at h ⊢
  cases hl : m.entries.lookup vo with
  | none => simp [hl] at h
  | some files => exact (lookup_eq_some_iff_mem m.nodup).mp hl

/-- The first file with an index that is not shared is that of the list of its VO. -/
theorem find?_files {m : FileMap} (hm : m.Unshared) {vo : String} {index : String × Int}
    (h : index ∈ (m.files vo).map (·.index)) :
    (m.entries.flatMap (·.2)).find? (fun tf => tf.index = index) = m.firstFile vo index := by
  obtain ⟨tf, htf, rfl⟩ := List.mem_map.mp h
  have hothers : ∀ e ∈ m.entries, e.1 ≠ vo → e.2.find? (fun tf' => tf'.index = tf.index) = none := by
    intro e he hne
    rw [List.find?_eq_none]
    intro tf' htf' hindex
    rw [← m.files_of_mem he] at htf'
    exact hne (hm e.1 vo tf' htf' tf htf (of_decide_eq_true hindex))
  obtain ⟨before, after, hentries⟩ := List.append_of_mem (mem_entries htf)
  have hnodup := m.nodup
  rw [hentries, List.map_append, List.map_cons, List.perm_middle.nodup_iff, List.nodup_cons, ← List.map_append] at hnodup
  have hbefore : (before.flatMap (·.2)).find? (fun tf' => tf'.index = tf.index) = none := by
    rw [List.find?_eq_none]
    intro tf' htf' hindex
    obtain ⟨e, he, hmem⟩ := List.mem_flatMap.mp htf'
    have hne : e.1 ≠ vo := fun hvo => hnodup.1 (List.mem_map.mpr ⟨e, List.mem_append_left _ he, hvo⟩)
    exact List.find?_eq_none.mp (hothers e (hentries ▸ List.mem_append_left _ he) hne) tf' hmem hindex
  rw [FileMap.firstFile, hentries, List.flatMap_append, List.find?_append, hbefore, Option.none_or, List.flatMap_cons,
    List.find?_append, Option.or_of_isSome]
  exact List.find?_isSome.mpr ⟨tf, htf, by simp⟩

theorem inv_start (m : FileMap) : Inv m (start m) where
  wf := TransferFileHandler.wellFormed_getMapFromCache m
  size := m.size_start
  indexes vo := m.pending_start vo
  waiting index := by
    simp only [start, TransferFileHandler.waiting, TransferFileHandler.getMapFromCache, List.map_map, List.countP_flatMap]
    refine List.sum_le_sum fun e _ => ?_
    simp only [Function.comp_apply]
    rw [(TransferFileHandler.items_voQueue e.2).count_eq]
    exact countP_index_firstOfIndex e.2 index
  balanced vo q hq := by
    rw [start, m.lookup_queues] at hq
    obtain ⟨files, -, rfl⟩ := Option.map_eq_some_iff.mp hq
    exact RoundRobin.balanced_start rfl
  links vo q hq i hitem := by
    rw [start, m.lookup_queues] at hq
    obtain ⟨files, hfiles, rfl⟩ := Option.map_eq_some_iff.mp hq
    rw [FileMap.linkOf, FileMap.firstFile, FileMap.files, hfiles, Option.getD_some]
    exact TransferFileHandler.link_of_mem_items hitem
  servedLinks := by simp [start]
  first hm := by
    refine ⟨by simp [start], fun vo index hindex => find?_files hm ?_⟩
    exact List.mem_dedup.mp ((m.pending_start vo).subset hindex)

/-! ## One call -/

end Serving

section turn

variable {h : TransferFileHandler} {vo : String} {q q' : VoQueue} {pair : String × String} {index : String × Int}

theorem pending_of_lookup (hq : h.queues.lookup vo = some q) : h.pending vo = q.robin.items.map (·.2) := by
  rw [TransferFileHandler.pending, hq, Option.map_some, Option.getD_some]

theorem items_of_empty (h : q'.pairs = []) : q'.robin.items = [] := by
  simp [VoQueue.robin, RoundRobin.items, h]

/-- A VO has its own queue, and the turn of another one leaves it as it is. -/
theorem lookup_replaceQueue (hwf : h.WellFormed) (hq : h.queues.lookup vo = some q) (vo' : String) :
    (replaceQueue h.queues vo q').lookup vo' =
      if vo' = vo then (if q'.pairs = [] then none else some q') else h.queues.lookup vo' := by
  have hkey : vo ∈ h.queues.map (·.1) := List.mem_map.mpr ⟨(vo, q), (lookup_eq_some_iff_mem hwf.nodup).mp hq, rfl⟩
  ext q₀
  rw [lookup_eq_some_iff_mem (nodup_replaceQueue hwf.nodup), mem_replaceQueue hkey]
  by_cases hvo : vo' = vo
  · by_cases hempty : q'.pairs = []
    · simp [hvo, hempty]
    · simp [hvo, hempty, eq_comm]
  · rw [if_neg hvo, lookup_eq_some_iff_mem hwf.nodup]
    simp [hvo]

theorem pending_replaceQueue (hwf : h.WellFormed) (hq : h.queues.lookup vo = some q) (q' : VoQueue)
    (files : List TransferFile) (vo' : String) :
    TransferFileHandler.pending { h with files, queues := replaceQueue h.queues vo q' } vo' =
      if vo' = vo then q'.robin.items.map (·.2) else h.pending vo' := by
  simp only [TransferFileHandler.pending, lookup_replaceQueue hwf hq]
  by_cases hvo : vo' = vo
  · by_cases hempty : q'.pairs = []
    · simp [hvo, hempty, items_of_empty]
    · simp [hvo, hempty]
  · simp [hvo]

theorem waiting_pos (hq : h.queues.lookup vo = some q) (hwf : h.WellFormed) (hindex : index ∈ h.pending vo) :
    0 < h.waiting index := by
  have hmem := (lookup_eq_some_iff_mem hwf.nodup).mp hq
  rw [pending_of_lookup hq] at hindex
  have hle := List.single_le_sum (l := h.queues.map fun e => (e.2.robin.items.map (·.2)).count index) (by simp) _
    (List.mem_map_of_mem hmem)
  have hpos := List.count_pos_iff.mpr hindex
  unfold TransferFileHandler.waiting
  simp only at hle
  omega

theorem waiting_turn (hwf : h.WellFormed) (hq : h.queues.lookup vo = some q)
    (hturn : q.robin.turn = some ((pair, index), q'.robin)) (files : List TransferFile) (index' : String × Int) :
    TransferFileHandler.waiting { h with files, queues := replaceQueue h.queues vo q' } index' +
      (if index = index' then 1 else 0) = h.waiting index' := by
  have hmem := (lookup_eq_some_iff_mem hwf.nodup).mp hq
  have hsum := sum_replaceQueue (fun q => (q.robin.items.map (·.2)).count index') q'
    (fun hempty => by simp [items_of_empty hempty]) hwf.nodup hmem
  have hcount := ((RoundRobin.turn_perm hturn).map (·.2)).count_eq index'
  rw [List.map_cons, List.count_cons] at hcount
  simp only [beq_iff_eq] at hcount
  simp only [TransferFileHandler.waiting]
  omega

/-- The file that is found is the one that is taken out, and the others are still there. -/
theorem eraseP_of_find? {files : List TransferFile} {tf : TransferFile}
    (h : files.find? (fun tf' => tf'.index = tf.index) = some tf) (index : String × Int) :
    ((files.eraseP fun tf' => tf'.index = tf.index).countP fun tf' => tf'.index = index) +
        (if tf.index = index then 1 else 0) = files.countP (fun tf' => tf'.index = index) ∧
      (tf.index ≠ index → ((files.eraseP fun tf' => tf'.index = tf.index).find? fun tf' => tf'.index = index) =
        files.find? fun tf' => tf'.index = index) := by
  obtain ⟨-, before, after, rfl, hbefore⟩ := List.find?_eq_some_iff_append.mp h
  rw [List.eraseP_append_right _ fun b hb => by simpa using hbefore b hb, List.eraseP_cons_of_pos (by simp)]
  constructor
  · simp only [List.countP_append, List.countP_cons, decide_eq_true_eq]
    omega
  · intro hne
    simp only [List.find?_append, List.find?_cons, hne, decide_false]

end turn

namespace Serving

variable {m : FileMap} {st : Serving} {vo : String} {pair : String × String} {index : String × Int} {q q' : VoQueue}

theorem Inv.mem_files (hi : Inv m st) (h : index ∈ st.handler.pending vo) : index ∈ (m.files vo).map (·.index) :=
  List.mem_dedup.mp ((hi.indexes vo).subset (List.mem_append_right _ h))

theorem Inv.nodup_pending (hi : Inv m st) (vo : String) : (st.handler.pending vo).Nodup := by
  have hnodup := (hi.indexes vo).nodup_iff.mpr (List.nodup_dedup _)
  exact (List.nodup_append.mp hnodup).2.1

theorem Inv.vo_eq (hi : Inv m st) (hm : m.Unshared) {vo' : String} (h : index ∈ st.handler.pending vo)
    (h' : index ∈ st.handler.pending vo') : vo = vo' := by
  obtain ⟨tf, htf, rfl⟩ := List.mem_map.mp (hi.mem_files h)
  obtain ⟨tf', htf', heq⟩ := List.mem_map.mp (hi.mem_files h')
  exact hm vo vo' tf htf tf' htf' heq.symm

/-- A file with the index is there. -/
theorem Inv.found (hi : Inv m st) (hq : st.handler.queues.lookup vo = some q) (hindex : index ∈ st.handler.pending vo) :
    ∃ tf, st.handler.files.find? (fun tf => tf.index = index) = some tf ∧ tf.index = index := by
  have hpos := (waiting_pos hq hi.wf hindex).trans_le (hi.waiting index)
  obtain ⟨tf', htf', hp⟩ := List.countP_pos_iff.mp hpos
  have hsome : (st.handler.files.find? fun tf => tf.index = index).isSome := List.find?_isSome.mpr ⟨tf', htf', hp⟩
  obtain ⟨tf, htf⟩ := Option.isSome_iff_exists.mp hsome
  exact ⟨tf, htf, by simpa using List.find?_some htf⟩

/-- A call returns a file of the next index of the VO, or the VO has had all. -/
theorem Inv.step_cases (hi : Inv m st) (vo : String) :
    st.handler.queues.lookup vo = none ∧ st.handler.get vo = (none, st.handler) ∧ st.step vo = st ∨
    ∃ q pair q' tf, st.handler.queues.lookup vo = some q ∧ q.robin.turn = some ((pair, tf.index), q'.robin) ∧
      st.handler.files.find? (fun tf' => tf'.index = tf.index) = some tf ∧ (st.handler.get vo).1 = some tf ∧
      st.step vo = ⟨{ st.handler with
        files := st.handler.files.eraseP fun tf' => tf'.index = tf.index
        queues := replaceQueue st.handler.queues vo q' }, st.served ++ [⟨vo, some pair, tf⟩]⟩ := by
  rcases hi.wf.get_cases vo with ⟨hnone, hget⟩ | ⟨q, pair, index, q', hq, hturn, hpair, hget⟩
  · refine .inl ⟨hnone, hget, ?_⟩
    rw [step, hget]
  · have hindex : index ∈ st.handler.pending vo := by
      rw [pending_of_lookup hq]
      exact ((RoundRobin.turn_perm hturn).map (·.2)).subset List.mem_cons_self
    obtain ⟨tf, htf, rfl⟩ := hi.found hq hindex
    refine .inr ⟨q, pair, q', tf, hq, hturn, htf, by rw [hget, htf], ?_⟩
    rw [step, hget, htf]
    simp [TransferFileHandler.getNextPair, hq, hpair]

theorem servedTo_append (handler : TransferFileHandler) (served : List Served) (s : Served) (vo : String) :
    servedTo ⟨handler, served ++ [s]⟩ vo = servedTo ⟨handler, served⟩ vo ++ if s.vo = vo then [s.file] else [] := by
  by_cases hvo : s.vo = vo <;> simp [servedTo, hvo]

theorem servedFrom_append (handler : TransferFileHandler) (served : List Served) (vo' : String) (pair : String × String)
    (tf : TransferFile) : servedFrom ⟨handler, served ++ [⟨vo', some pair, tf⟩]⟩ vo =
      if vo' = vo then Function.update (servedFrom ⟨handler, served⟩ vo) pair (servedFrom ⟨handler, served⟩ vo pair + 1)
      else servedFrom ⟨handler, served⟩ vo := by
  funext pair'
  by_cases hvo : vo' = vo
  · rw [if_pos hvo]
    by_cases hpair : pair' = pair
    · subst hpair
      simp [servedFrom, List.countP_append, hvo]
    · simp [servedFrom, List.countP_append, hvo, Function.update_of_ne hpair, Ne.symm hpair]
  · simp [servedFrom, List.countP_append, hvo]

theorem Inv.step (hi : Inv m st) (vo : String) : Inv m (st.step vo) := by
  rcases hi.step_cases vo with ⟨-, -, hstep⟩ | ⟨q, pair, q', tf, hq, hturn, htf, hget, hstep⟩
  · rw [hstep]
    exact hi
  · have hhandler : (st.step vo).handler = (st.handler.get vo).2 := by
      rw [Serving.step]
      split <;> rename_i hcall <;> rw [hcall]
    have hpending := pending_replaceQueue hi.wf hq q' (st.handler.files.eraseP fun tf' => tf'.index = tf.index)
    have hperm : (tf.index :: q'.robin.items.map (·.2)).Perm (st.handler.pending vo) := by
      rw [pending_of_lookup hq]
      exact (RoundRobin.turn_perm hturn).map (·.2)
    have hindex : tf.index ∈ st.handler.pending vo := hperm.subset List.mem_cons_self
    obtain ⟨hwf, hsize⟩ := hi.wf.get vo
    rw [← hhandler] at hwf hsize
    rw [hstep] at hwf hsize ⊢
    constructor
    case wf => exact hwf
    case size =>
      have hsize₀ := hi.size
      rcases hsize with ⟨hnone, -⟩ | hsize
      · rw [hq] at hnone
        cases hnone
      · rw [List.length_append, List.length_singleton]
        omega
    case indexes =>
      intro vo'
      rw [servedTo_append, hpending]
      have hold := hi.indexes vo'
      by_cases hvo : vo' = vo
      · subst hvo
        rw [if_pos rfl, if_pos rfl, List.map_append, List.append_assoc]
        exact (List.Perm.append_left _ hperm).trans hold
      · rw [if_neg (Ne.symm hvo), if_neg hvo, List.append_nil]
        exact hold
    case waiting =>
      intro index'
      have hcount := hi.waiting index'
      have hwaiting := waiting_turn hi.wf hq hturn (st.handler.files.eraseP fun tf' => tf'.index = tf.index) index'
      have hfiles := (eraseP_of_find? htf index').1
      simp only
      omega
    case balanced =>
      intro vo' q₀ hq₀
      rw [lookup_replaceQueue hi.wf hq] at hq₀
      rw [servedFrom_append]
      by_cases hvo : vo' = vo
      · subst hvo
        rw [if_pos rfl] at hq₀ ⊢
        split at hq₀
        · cases hq₀
        · cases hq₀
          exact (hi.balanced vo' q hq).turn (hi.wf.robin _ ((lookup_eq_some_iff_mem hi.wf.nodup).mp hq)) hturn
      · rw [if_neg hvo] at hq₀
        rw [if_neg (Ne.symm hvo)]
        exact hi.balanced vo' q₀ hq₀
    case links =>
      intro vo' q₀ hq₀ i hitem
      rw [lookup_replaceQueue hi.wf hq] at hq₀
      by_cases hvo : vo' = vo
      · subst hvo
        rw [if_pos rfl] at hq₀
        split at hq₀
        · cases hq₀
        · cases hq₀
          exact hi.links vo' q hq i ((RoundRobin.turn_perm hturn).subset (List.mem_cons_of_mem _ hitem))
      · rw [if_neg hvo] at hq₀
        exact hi.links vo' q₀ hq₀ i hitem
    case servedLinks =>
      intro s hs
      rcases List.mem_append.mp hs with hs | hs
      · exact hi.servedLinks s hs
      · rw [List.mem_singleton.mp hs]
        exact hi.links vo q hq (pair, tf.index) ((RoundRobin.turn_perm hturn).subset List.mem_cons_self)
    case first =>
      intro hm
      obtain ⟨hserved, hfirst⟩ := hi.first hm
      constructor
      · intro s hs
        rcases List.mem_append.mp hs with hs | hs
        · exact hserved s hs
        · rw [List.mem_singleton.mp hs]
          exact (hfirst vo tf.index hindex).symm.trans htf
      · intro vo' index' hindex'
        rw [hpending] at hindex'
        have hne : tf.index ≠ index' ∧ index' ∈ st.handler.pending vo' := by
          by_cases hvo : vo' = vo
          · subst hvo
            rw [if_pos rfl] at hindex'
            refine ⟨?_, hperm.subset (List.mem_cons_of_mem _ hindex')⟩
            rintro rfl
            exact (List.nodup_cons.mp (hperm.nodup_iff.mpr (hi.nodup_pending vo'))).1 hindex'
          · rw [if_neg hvo] at hindex'
            refine ⟨?_, hindex'⟩
            rintro rfl
            exact hvo (hi.vo_eq hm hindex' hindex)
        rw [← hfirst vo' index' hne.2]
        exact (eraseP_of_find? htf index').2 hne.1

theorem inv_run (m : FileMap) (calls : List String) : Inv m (run step (start m) calls) := by
  have hmeets : Meets step (fun _ _ => True) (start m) calls := meets_of_forall fun _ _ => trivial
  exact hmeets.invariant (fun st vo _ hi => hi.step vo) (inv_start m)

/-! ## No work is lost or repeated -/

/-- What the handler is held to at any moment of a run. -/
structure HandsOut (m : FileMap) (st : Serving) : Prop where
  /-- A call returns a file until the VO has had one for each of its indexes. -/
  returns : ∀ vo, (st.handler.get vo).1.isSome = true ↔ (st.servedTo vo).length < (m.indexes vo).length
  ownIndex : ∀ vo, ∀ tf ∈ (st.handler.get vo).1, tf.index ∈ (m.files vo).map (·.index)
  ownFile : m.Unshared → ∀ vo, ∀ tf ∈ (st.handler.get vo).1, tf ∈ m.files vo
  /-- One file for each index, and the first one where no index is shared. -/
  once : ∀ vo, ∃ pending, ((st.servedTo vo).map (·.index) ++ pending).Perm (m.indexes vo)
  first : m.Unshared → ∀ vo, ∃ pending, (st.servedTo vo ++ pending).Perm ((m.indexes vo).filterMap (m.firstFile vo))
  size : st.handler.size + st.served.length = m.total
  empty : st.handler.isEmpty = true ↔ st.handler.size = 0
  /-- The iterator of a VO with a queue is in it or at its end, and what is taken next is there. -/
  present : ∀ vo q, st.handler.queues.lookup vo = some q → q.next ≤ q.pairs.length ∧
    ∃ pair index rest, q.pairs[q.robin.position]? = some (pair, index :: rest) ∧ ∃ tf ∈ st.handler.files, tf.index = index
  /-- What is served from a link is what waits for it, and two links on which the VO still waits have had their turns. -/
  servedFrom : ∀ vo pair, st.servedFrom vo pair = (st.servedTo vo).countP fun tf => m.linkOf vo tf.index = some pair
  fair : ∀ vo pair pair', st.WaitsOn m vo pair → st.WaitsOn m vo pair' →
    st.servedFrom vo pair ≤ st.servedFrom vo pair' + 1

theorem Inv.pending_ne_nil (hi : Inv m st) (hq : st.handler.queues.lookup vo = some q) : st.handler.pending vo ≠ [] := by
  have hmem := (lookup_eq_some_iff_mem hi.wf.nodup).mp hq
  obtain ⟨pair, index, q', -, hturn, -⟩ := VoQueue.getIndex_spec (hi.wf.robin _ hmem) (hi.wf.pairs _ hmem)
  rw [pending_of_lookup hq]
  exact List.ne_nil_of_mem (((RoundRobin.turn_perm hturn).map (·.2)).subset List.mem_cons_self)

theorem Inv.returns (hi : Inv m st) (vo : String) : (st.handler.get vo).1.isSome = true ↔
    (st.servedTo vo).length < (m.indexes vo).length := by
  have hlength := (hi.indexes vo).length_eq
  simp only [List.length_append, List.length_map] at hlength
  rcases hi.step_cases vo with ⟨hnone, hget, -⟩ | ⟨q, pair, q', tf, hq, -, -, hget, -⟩
  · have hpending : st.handler.pending vo = [] := by rw [TransferFileHandler.pending, hnone]; rfl
    rw [hpending, List.length_nil] at hlength
    simp only [hget, Option.isSome_none, Bool.false_eq_true, false_iff]
    omega
  · have hpos := List.length_pos_iff.mpr (hi.pending_ne_nil hq)
    simp only [hget, Option.isSome_some, true_iff]
    omega

/-- What the VO has had, and what is first among the files of the other indexes. -/
theorem Inv.servedTo_perm (hi : Inv m st) (hm : m.Unshared) (vo : String) : ∃ pending,
    (st.servedTo vo ++ pending).Perm ((m.indexes vo).filterMap (m.firstFile vo)) := by
  have hserved : st.servedTo vo = ((st.servedTo vo).map (·.index)).filterMap (m.firstFile vo) := by
    rw [List.filterMap_map]
    conv_lhs => rw [← List.filterMap_some (l := st.servedTo vo)]
    refine List.filterMap_congr fun tf htf => ?_
    obtain ⟨s, hs, rfl⟩ := List.mem_map.mp htf
    obtain ⟨hs, hvo⟩ := List.mem_filter.mp hs
    rw [← of_decide_eq_true hvo]
    exact ((hi.first hm).1 s hs).symm
  refine ⟨(st.handler.pending vo).filterMap (m.firstFile vo), ?_⟩
  rw [hserved, ← List.filterMap_append]
  exact (hi.indexes vo).filterMap _

theorem Inv.servedFrom_eq (hi : Inv m st) (vo : String) (pair : String × String) :
    st.servedFrom vo pair = (st.servedTo vo).countP fun tf => m.linkOf vo tf.index = some pair := by
  rw [servedFrom, servedTo, List.countP_map, List.countP_filter]
  refine List.countP_congr fun s hs => ?_
  have hlink := hi.servedLinks s hs
  by_cases hvo : s.vo = vo
  · subst hvo
    simp [hlink]
  · simp [hvo]

/-- A link on which the VO waits has a queue. -/
theorem WaitsOn.queue (h : st.WaitsOn m vo pair) (hi : Inv m st) :
    ∃ q, st.handler.queues.lookup vo = some q ∧ ∃ e ∈ q.pairs, e.1 = pair := by
  obtain ⟨index, hindex, hnot, hlink⟩ := h
  have hpending : index ∈ st.handler.pending vo :=
    (List.mem_append.mp ((hi.indexes vo).symm.subset hindex)).resolve_left hnot
  cases hq : st.handler.queues.lookup vo with
  | none => simp [TransferFileHandler.pending, hq] at hpending
  | some q =>
      rw [pending_of_lookup hq] at hpending
      obtain ⟨⟨pair', index'⟩, hitem, rfl⟩ := List.mem_map.mp hpending
      have hpair := hi.links vo q hq _ hitem
      rw [hlink, Option.some.injEq] at hpair
      obtain ⟨e, he, hmem⟩ := List.mem_flatMap.mp hitem
      obtain ⟨_, -, heq⟩ := List.mem_map.mp hmem
      exact ⟨q, rfl, e, he, (congrArg Prod.fst heq).trans hpair.symm⟩

theorem Inv.handsOut (hi : Inv m st) : HandsOut m st where
  returns := hi.returns
  ownIndex vo tf htf := by
    rcases hi.step_cases vo with ⟨-, hget, -⟩ | ⟨q, pair, q', tf', hq, hturn, -, hget, -⟩
    · simp [hget] at htf
    · obtain rfl : tf' = tf := by simpa [hget] using htf
      apply hi.mem_files
      rw [pending_of_lookup hq]
      exact ((RoundRobin.turn_perm hturn).map (·.2)).subset List.mem_cons_self
  ownFile hm vo tf htf := by
    rcases hi.step_cases vo with ⟨-, hget, -⟩ | ⟨q, pair, q', tf', hq, hturn, hfind, hget, -⟩
    · simp [hget] at htf
    · obtain rfl : tf' = tf := by simpa [hget] using htf
      have hindex : tf'.index ∈ st.handler.pending vo := by
        rw [pending_of_lookup hq]
        exact ((RoundRobin.turn_perm hturn).map (·.2)).subset List.mem_cons_self
      rw [(hi.first hm).2 vo tf'.index hindex] at hfind
      exact List.mem_of_find?_eq_some hfind
  once vo := ⟨st.handler.pending vo, hi.indexes vo⟩
  first := hi.servedTo_perm
  size := hi.size
  empty := hi.wf.isEmpty_iff
  present vo q hq := by
    have hmem := (lookup_eq_some_iff_mem hi.wf.nodup).mp hq
    obtain ⟨pair, index, rest, hget⟩ := RoundRobin.position_present (hi.wf.robin _ hmem) (hi.wf.pairs _ hmem)
    refine ⟨(hi.wf.robin _ hmem).next, pair, index, rest, hget, ?_⟩
    have hindex : index ∈ st.handler.pending vo := by
      rw [pending_of_lookup hq]
      refine List.mem_map.mpr ⟨(pair, index), ?_, rfl⟩
      exact List.mem_flatMap.mpr ⟨_, List.mem_of_getElem? hget, List.mem_map_of_mem List.mem_cons_self⟩
    obtain ⟨tf, htf, heq⟩ := hi.found hq hindex
    exact ⟨tf, List.mem_of_find?_eq_some htf, heq⟩
  servedFrom := hi.servedFrom_eq
  fair vo pair pair' hpair hpair' := by
    obtain ⟨q, hq, e, he, rfl⟩ := hpair.queue hi
    obtain ⟨q', hq', e', he', rfl⟩ := hpair'.queue hi
    obtain rfl : q = q' := Option.some.inj (hq.symm.trans hq')
    exact (hi.balanced vo q hq).le_succ he he'

/-- For every map of VOs to files, and every order of calls. -/
theorem handler_hands_out (m : FileMap) (calls : List String) : HandsOut m (run step (start m) calls) :=
  (inv_run m calls).handsOut

def sharedFile (fileId : Nat) (voName : String) : TransferFile where
  fileId
  jobId := "j"
  sourceSe := "a"
  destSe := "b"
  voName
  userDn := "dn"
  credId := "c"
  activity := ""
  fileIndex := 0
  jobType := .regular

/-- Two VOs with files of one index. -/
def sharedMap : FileMap where
  entries := [("atlas", [sharedFile 1 "atlas"]), ("cms", [sharedFile 2 "cms"])]
  nodup := by decide
  nonempty := by decide

/-- The first call for one of them returns the file of the other. -/
theorem handler_returns_file_of_other :
    ((start sharedMap).handler.get "cms").1.map (·.fileId) = some 1 ∧
      ¬∀ calls vo, ∀ tf ∈ ((run step (start sharedMap) calls).handler.get vo).1, tf ∈ sharedMap.files vo := by
  have hget : ((start sharedMap).handler.get "cms").1.map (·.fileId) = some 1 := by decide +kernel
  refine ⟨hget, fun h => ?_⟩
  obtain ⟨tf, htf, hid⟩ := Option.map_eq_some_iff.mp hget
  have hmem := h [] "cms" tf htf
  have hfiles : sharedMap.files "cms" = [sharedFile 2 "cms"] := by simp [FileMap.files, sharedMap, List.lookup_cons]
  rw [hfiles, List.mem_singleton] at hmem
  rw [hmem] at hid
  cases hid

end Serving

end Fts3.Server
