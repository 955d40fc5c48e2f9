import Fts3.Machine.RoundRobin
import Fts3.Machine.Run
import Fts3.Server.TransfersService

/-!
# The transfers of a round, in turn

`TransferFileHandler.cpp`: each VO takes turns among its links, and what it gets is the first file of an index that it
has not had. The files are kept by their indexes, for all VOs.
-/

namespace Fts3.Server

open Fts3.Sql Fts3.MySql Fts3.Machine

/-! ## The first file of each index -/

namespace TransferFileHandler

theorem firstOfIndex_append (files : List TransferFile) (tf : TransferFile) : firstOfIndex (files ++ [tf]) =
    if ((firstOfIndex files).map (·.index)).contains tf.index then firstOfIndex files else firstOfIndex files ++ [tf] := by
  rw [firstOfIndex, List.foldl_append]
  rfl

theorem mem_index_firstOfIndex {files : List TransferFile} {index : String × Int} :
    index ∈ (firstOfIndex files).map (·.index) ↔ index ∈ files.map (·.index) := by
  induction files using List.reverseRecOn generalizing index with
  | nil => rfl
  | append_singleton files tf ih =>
      rw [firstOfIndex_append]
      split
      · rename_i hin
        rw [List.contains_iff_mem, ih] at hin
        rw [ih, List.map_append, List.mem_append]
        constructor
        · exact .inl
        · rintro (h | h)
          · exact h
          · rw [List.map_singleton, List.mem_singleton] at h
            rwa [h]
      · rw [List.map_append, List.map_append, List.mem_append, List.mem_append, ih]

theorem nodup_firstOfIndex (files : List TransferFile) : ((firstOfIndex files).map (·.index)).Nodup := by
  induction files using List.reverseRecOn with
  | nil => exact List.nodup_nil
  | append_singleton files tf ih =>
      rw [firstOfIndex_append]
      split
      · exact ih
      · rename_i hin
        rw [List.contains_iff_mem] at hin
        rw [List.map_append, List.map_singleton, List.nodup_append]
        exact ⟨ih, List.nodup_singleton _, fun a ha b hb => by
          rw [List.mem_singleton.mp hb]
          rintro rfl
          exact hin ha⟩

theorem index_firstOfIndex_perm (files : List TransferFile) :
    ((firstOfIndex files).map (·.index)).Perm (files.map (·.index)).dedup := by
  refine (List.perm_ext_iff_of_nodup (nodup_firstOfIndex files) (List.nodup_dedup _)).mpr fun index => ?_
  rw [mem_index_firstOfIndex, List.mem_dedup]

/-- They are the files that a search for their indexes finds, in this order. -/
theorem firstOfIndex_eq (files : List TransferFile) : firstOfIndex files =
    ((firstOfIndex files).map (·.index)).filterMap fun index => files.find? fun tf => tf.index = index := by
  induction files using List.reverseRecOn with
  | nil => rfl
  | append_singleton files tf ih =>
      have hold : ((firstOfIndex files).map (·.index)).filterMap
          (fun index => (files ++ [tf]).find? fun tf => tf.index = index) = firstOfIndex files := by
        conv_rhs => rw [ih]
        refine List.filterMap_congr fun index hindex => ?_
        rw [mem_index_firstOfIndex] at hindex
        obtain ⟨tf', htf', rfl⟩ := List.mem_map.mp hindex
        rw [List.find?_append, Option.or_of_isSome]
        exact List.find?_isSome.mpr ⟨tf', htf', by simp⟩
      rw [firstOfIndex_append]
      split
      · exact hold.symm
      · rename_i hin
        rw [List.contains_iff_mem, mem_index_firstOfIndex] at hin
        have hnone : files.find? (fun tf' => tf'.index = tf.index) = none := by
          rw [List.find?_eq_none]
          intro tf' htf' hindex
          exact hin (List.mem_map.mpr ⟨tf', htf', of_decide_eq_true hindex⟩)
        rw [List.map_append, List.filterMap_append, hold, List.map_singleton]
        simp [hnone]

theorem find?_of_mem_firstOfIndex {files : List TransferFile} {tf : TransferFile} (h : tf ∈ firstOfIndex files) :
    files.find? (fun tf' => tf'.index = tf.index) = some tf := by
  rw [firstOfIndex_eq] at h
  obtain ⟨index, -, hfind⟩ := List.mem_filterMap.mp h
  obtain rfl : tf.index = index := by simpa using List.find?_some hfind
  exact hfind

end TransferFileHandler

/-! ## The queue of a VO -/

/-- The rows of each group, one group after the other, are all rows. -/
theorem flatMap_filter_perm {α κ : Type} [DecidableEq κ] (f : α → κ) {keys : List κ} (hkeys : keys.Nodup) (l : List α)
    (h : ∀ a ∈ l, f a ∈ keys) : (keys.flatMap fun k => l.filter fun a => f a = k).Perm l := by
  induction keys generalizing l with
  | nil =>
      rw [List.eq_nil_iff_forall_not_mem.mpr fun a ha => List.not_mem_nil (h a ha)]
      exact List.Perm.nil
  | cons k keys ih =>
      rw [List.nodup_cons] at hkeys
      have hothers : (keys.flatMap fun k' => l.filter fun a => f a = k') =
          keys.flatMap fun k' => (l.filter fun a => !decide (f a = k)).filter fun a => f a = k' := by
        refine List.flatMap_congr fun k' hk' => ?_
        rw [List.filter_filter]
        refine List.filter_congr fun a _ => ?_
        by_cases hfa : f a = k'
        · have hne : k' ≠ k := fun h => hkeys.1 (h ▸ hk')
          simp [hfa, hne]
        · simp [hfa]
      rw [List.flatMap_cons, hothers]
      refine (List.Perm.append_left _ (ih hkeys.2 _ fun a ha => ?_)).trans (List.filter_append_perm _ l)
      obtain ⟨hmem, hne⟩ := List.mem_filter.mp ha
      exact (List.mem_cons.mp (h a hmem)).resolve_left (by simpa using hne)

namespace VoQueue

def robin (q : VoQueue) : RoundRobin (String × String) (String × Int) := ⟨q.pairs, q.next⟩

/-- The link whose turn it is. -/
def getNextPair (q : VoQueue) : Option (String × String) := q.pairs[q.robin.position]?.map (·.1)

def size (q : VoQueue) : Nat := (q.pairs.map fun pair => pair.2.length).sum

theorem getIndex_eq (q : VoQueue) : q.getIndex = q.robin.turn.map fun t => (t.1.2, ⟨t.2.queues, t.2.next⟩) := by
  have hget : q.robin.queues[q.robin.position]? = q.pairs[if q.next < q.pairs.length then q.next else 0]? := rfl
  unfold getIndex RoundRobin.turn
  rw [hget]
  dsimp only
  cases q.pairs[if q.next < q.pairs.length then q.next else 0]? with
  | none => rfl
  | some e =>
      obtain ⟨pair, indexes⟩ := e
      cases indexes with
      | nil => rfl
      | cons index rest =>
          cases rest with
          | nil => rfl
          | cons next rest => rfl

theorem size_eq_items (q : VoQueue) : q.size = q.robin.items.length := by
  simp [size, robin, RoundRobin.items, List.length_flatMap]

/-- The turn of a VO. -/
theorem getIndex_spec {q : VoQueue} (hq : q.robin.WellFormed) (hne : q.pairs ≠ []) :
    ∃ pair index q', q.getIndex = some (index, q') ∧ q.robin.turn = some ((pair, index), q'.robin) ∧
      q.getNextPair = some pair := by
  obtain ⟨pair, index, r, hturn⟩ := RoundRobin.turn_isSome hq hne
  refine ⟨pair, index, ⟨r.queues, r.next⟩, ?_, hturn, ?_⟩
  · rw [getIndex_eq, hturn, Option.map_some]
  · obtain ⟨before, rest, after, hqueues, hlength, -⟩ := RoundRobin.turn_cases hturn
    rw [getNextPair, ← hlength]
    have hpairs : q.pairs = before ++ (pair, index :: rest) :: after := hqueues
    simp [hpairs]

end VoQueue

namespace TransferFileHandler

theorem wellFormed_voQueue (files : List TransferFile) : (voQueue files).robin.WellFormed where
  nodup := by
    have hkeys : (voQueue files).robin.queues.map (·.1) =
        ((firstOfIndex files).map (·.pair)).dedup.insertionSort pairBefore := by
      simp only [VoQueue.robin, voQueue, List.map_map]
      exact List.map_id _
    rw [hkeys]
    exact (List.perm_insertionSort _ _).nodup_iff.mpr (List.nodup_dedup _)
  nonempty := by
    intro e he
    obtain ⟨pair, hpair, rfl⟩ := List.mem_map.mp he
    rw [List.mem_insertionSort, List.mem_dedup] at hpair
    obtain ⟨tf, htf, rfl⟩ := List.mem_map.mp hpair
    exact List.ne_nil_of_mem (List.mem_map_of_mem (List.mem_filter.mpr ⟨htf, by simp⟩))
  next := Nat.zero_le _

/-- The queue of a VO holds each of its indexes once. -/
theorem items_voQueue (files : List TransferFile) :
    ((voQueue files).robin.items.map (·.2)).Perm ((firstOfIndex files).map (·.index)) := by
  have hitems : (voQueue files).robin.items.map (·.2) =
      ((((firstOfIndex files).map (·.pair)).dedup.insertionSort pairBefore).flatMap fun pair =>
        (firstOfIndex files).filter fun tf => tf.pair = pair).map (·.index) := by
    simp only [VoQueue.robin, voQueue, RoundRobin.items, List.flatMap_map, List.map_flatMap, List.map_map,
      Function.comp_def]
  rw [hitems]
  refine (flatMap_filter_perm TransferFile.pair ?_ _ fun tf htf => ?_).map _
  · exact (List.perm_insertionSort _ _).nodup_iff.mpr (List.nodup_dedup _)
  · rw [List.mem_insertionSort, List.mem_dedup]
    exact List.mem_map_of_mem htf

/-- An index stands in the queue of the link of its first file. -/
theorem link_of_mem_items {files : List TransferFile} {pair : String × String} {index : String × Int}
    (h : (pair, index) ∈ (voQueue files).robin.items) :
    (files.find? fun tf => tf.index = index).map (·.pair) = some pair := by
  obtain ⟨e, he, hitem⟩ := List.mem_flatMap.mp h
  obtain ⟨pair', -, rfl⟩ := List.mem_map.mp he
  obtain ⟨index', hindex', heq⟩ := List.mem_map.mp hitem
  obtain ⟨rfl, rfl⟩ := Prod.mk.inj heq
  obtain ⟨tf, htf, rfl⟩ := List.mem_map.mp hindex'
  obtain ⟨hfirst, hpair⟩ := List.mem_filter.mp htf
  rw [find?_of_mem_firstOfIndex hfirst, Option.map_some, of_decide_eq_true hpair]

theorem voQueue_pairs_ne_nil {files : List TransferFile} (h : files ≠ []) : (voQueue files).pairs ≠ [] := by
  obtain ⟨tf, htf⟩ := List.exists_mem_of_ne_nil _ h
  have hindex := mem_index_firstOfIndex.mpr (List.mem_map_of_mem (f := (·.index)) htf)
  obtain ⟨tf', htf', -⟩ := List.mem_map.mp hindex
  have hpair : tf'.pair ∈ ((firstOfIndex files).map (·.pair)).dedup.insertionSort pairBefore := by
    rw [List.mem_insertionSort, List.mem_dedup]
    exact List.mem_map_of_mem htf'
  exact List.ne_nil_of_mem (List.mem_map_of_mem hpair)

end TransferFileHandler

/-! ## The queues of all VOs -/

/-- The entry of a key, where the keys are distinct. -/
theorem lookup_eq_some_iff_mem {α β : Type} [BEq α] [LawfulBEq α] {entries : List (α × β)}
    (h : (entries.map (·.1)).Nodup) {a : α} {b : β} : entries.lookup a = some b ↔ (a, b) ∈ entries := by
  induction entries with
  | nil => simp
  | cons e entries ih =>
      obtain ⟨a', b'⟩ := e
      rw [List.map_cons, List.nodup_cons] at h
      by_cases ha : a = a'
      · subst ha
        have hother : (a, b) ∉ entries := fun hmem => h.1 (List.mem_map.mpr ⟨(a, b), hmem, rfl⟩)
        simp [hother, eq_comm]
      · have hne : (a == a') = false := by simpa using ha
        rw [List.lookup_cons, hne, List.mem_cons]
        simp [ih h.2, ha]

/-- The queues after the turn of a VO. -/
def replaceQueue (queues : List (String × VoQueue)) (vo : String) (q : VoQueue) : List (String × VoQueue) :=
  if q.pairs.isEmpty then queues.filter fun e => e.1 ≠ vo else queues.map fun e => if e.1 = vo then (vo, q) else e

section queues

variable {queues : List (String × VoQueue)} {vo : String} {q q' : VoQueue}

theorem mem_replaceQueue (h : vo ∈ queues.map (·.1)) {e : String × VoQueue} : e ∈ replaceQueue queues vo q' ↔
    e = (vo, q') ∧ q'.pairs ≠ [] ∨ e ∈ queues ∧ e.1 ≠ vo := by
  unfold replaceQueue
  by_cases hempty : q'.pairs = []
  · simp [hempty]
  · simp only [List.isEmpty_iff, hempty, if_false, List.mem_map, ne_eq, not_false_eq_true, and_true]
    constructor
    · rintro ⟨e₀, he₀, rfl⟩
      split
      · exact .inl rfl
      · rename_i hne
        exact .inr ⟨he₀, hne⟩
    · rintro (rfl | ⟨hmem, hne⟩)
      · obtain ⟨e₀, he₀, hvo⟩ := List.mem_map.mp h
        exact ⟨e₀, he₀, if_pos hvo⟩
      · exact ⟨e, hmem, if_neg hne⟩

theorem nodup_replaceQueue (h : (queues.map (·.1)).Nodup) : ((replaceQueue queues vo q').map (·.1)).Nodup := by
  unfold replaceQueue
  split
  · exact h.sublist (List.filter_sublist.map _)
  · have hkeys : (queues.map fun e => if e.1 = vo then (vo, q') else e).map (·.1) = queues.map (·.1) := by
      rw [List.map_map]
      refine List.map_congr_left fun e _ => ?_
      simp only [Function.comp_apply]
      split
      · rename_i hk
        exact hk.symm
      · rfl
    rwa [hkeys]

theorem replaceQueue_of_absent (h : vo ∉ queues.map (·.1)) : replaceQueue queues vo q' = queues := by
  have hne : ∀ e ∈ queues, e.1 ≠ vo := fun e he hvo => h (hvo ▸ List.mem_map_of_mem he)
  unfold replaceQueue
  split
  · exact List.filter_eq_self.mpr fun e he => by simp [hne e he]
  · rw [List.map_congr_left (g := id), List.map_id]
    exact fun e he => if_neg (hne e he)

/-- A sum over the queues changes by what the queue of the VO adds to it. -/
theorem sum_replaceQueue (f : VoQueue → Nat) (q' : VoQueue) (hf : q'.pairs = [] → f q' = 0)
    (hnodup : (queues.map (·.1)).Nodup)
    (hq : (vo, q) ∈ queues) :
    ((replaceQueue queues vo q').map fun e => f e.2).sum + f q = (queues.map fun e => f e.2).sum + f q' := by
  induction queues with
  | nil => cases hq
  | cons e queues ih =>
      rw [List.map_cons, List.nodup_cons] at hnodup
      have hcons : ((replaceQueue (e :: queues) vo q').map fun e => f e.2).sum =
          (if e.1 = vo then f q' else f e.2) + ((replaceQueue queues vo q').map fun e => f e.2).sum := by
        unfold replaceQueue
        by_cases hk : e.1 = vo
        · by_cases hempty : q'.pairs = []
          · simp [hk, hempty, hf hempty]
          · simp [hk, hempty]
        · by_cases hempty : q'.pairs = []
          · simp [hk, hempty]
          · simp [hk, hempty]
      rw [hcons, List.map_cons, List.sum_cons]
      by_cases hk : e.1 = vo
      · subst hk
        have heq : q = e.2 := by
          rcases List.mem_cons.mp hq with heq | hmem
          · rw [← heq]
          · exact (hnodup.1 (List.mem_map.mpr ⟨(e.1, q), hmem, rfl⟩)).elim
        rw [if_pos rfl, replaceQueue_of_absent hnodup.1, heq]
        omega
      · have hmem : (vo, q) ∈ queues := by
          rcases List.mem_cons.mp hq with rfl | hmem
          · exact (hk rfl).elim
          · exact hmem
        have hrest := ih hnodup.2 hmem
        rw [if_neg hk]
        omega

end queues

namespace TransferFileHandler

/-- Every VO with a queue is visited, and no queue is empty. -/
structure WellFormed (h : TransferFileHandler) : Prop where
  nodup : (h.queues.map (·.1)).Nodup
  vos : ∀ e ∈ h.queues, e.1 ∈ h.vos
  pairs : ∀ e ∈ h.queues, e.2.pairs ≠ []
  robin : ∀ e ∈ h.queues, e.2.robin.WellFormed

/-- The indexes that the VO has not had. -/
def pending (h : TransferFileHandler) (vo : String) : List (String × Int) :=
  ((h.queues.lookup vo).map fun q => q.robin.items.map (·.2)).getD []

variable {h : TransferFileHandler} {vo : String}

theorem size_eq : h.size = (h.queues.map fun e => e.2.size).sum := rfl

theorem get_of_absent (hq : h.queues.lookup vo = none) : h.get vo = (none, h) := by
  simp [get, hq]

/-- All that a turn of a VO can do. -/
theorem WellFormed.get_cases (hwf : h.WellFormed) (vo : String) : h.queues.lookup vo = none ∧ h.get vo = (none, h) ∨
    ∃ q pair index q', h.queues.lookup vo = some q ∧ q.robin.turn = some ((pair, index), q'.robin) ∧
      q.getNextPair = some pair ∧ h.get vo = (h.files.find? fun tf => tf.index = index,
        { h with files := h.files.eraseP fun tf => tf.index = index, queues := replaceQueue h.queues vo q' }) := by
  cases hq : h.queues.lookup vo with
  | none => exact .inl ⟨rfl, get_of_absent hq⟩
  | some q =>
      have hmem := (lookup_eq_some_iff_mem hwf.nodup).mp hq
      obtain ⟨pair, index, q', hget, hturn, hpair⟩ := VoQueue.getIndex_spec (hwf.robin _ hmem) (hwf.pairs _ hmem)
      refine .inr ⟨q, pair, index, q', rfl, hturn, hpair, ?_⟩
      simp only [get, hq, hget]
      rfl

/-- The turn of a VO takes one of its indexes, if it has any. -/
theorem WellFormed.get (hwf : h.WellFormed) (vo : String) : (h.get vo).2.WellFormed ∧
    (h.queues.lookup vo = none ∧ (h.get vo).2 = h ∨ (h.get vo).2.size + 1 = h.size) := by
  rcases hwf.get_cases vo with ⟨hnone, hget⟩ | ⟨q, pair, index, q', hq, hturn, -, hget⟩
  · rw [hget]
    exact ⟨hwf, .inl ⟨hnone, rfl⟩⟩
  · have hmem := (lookup_eq_some_iff_mem hwf.nodup).mp hq
    have hkey : vo ∈ h.queues.map (·.1) := List.mem_map.mpr ⟨(vo, q), hmem, rfl⟩
    have hnew : ∀ e ∈ replaceQueue h.queues vo q', e = (vo, q') ∧ q'.pairs ≠ [] ∨ e ∈ h.queues :=
      fun e he => ((mem_replaceQueue hkey).mp he).imp id And.left
    rw [hget]
    refine ⟨⟨nodup_replaceQueue hwf.nodup, fun e he => ?_, fun e he => ?_, fun e he => ?_⟩, .inr ?_⟩
    · rcases hnew e he with ⟨rfl, -⟩ | hold
      · exact hwf.vos (vo, q) hmem
      · exact hwf.vos e hold
    · rcases hnew e he with ⟨rfl, hpairs⟩ | hold
      · exact hpairs
      · exact hwf.pairs e hold
    · rcases hnew e he with ⟨rfl, -⟩ | hold
      · exact (hwf.robin (vo, q) hmem).turn hturn
      · exact hwf.robin e hold
    · have hsum := sum_replaceQueue VoQueue.size q' (fun hempty => by simp [VoQueue.size, hempty]) hwf.nodup hmem
      have hsize := (RoundRobin.turn_perm hturn).length_eq
      rw [List.length_cons, ← VoQueue.size_eq_items, ← VoQueue.size_eq_items] at hsize
      simp only [size_eq]
      omega

theorem WellFormed.lookup_some (hwf : h.WellFormed) (hne : h.isEmpty = false) :
    ∃ vo ∈ h.vos, (h.queues.lookup vo).isSome = true := by
  unfold isEmpty at hne
  cases hq : h.queues with
  | nil => simp [hq] at hne
  | cons e queues => exact ⟨e.1, hwf.vos e (by simp [hq]), by simp⟩

theorem WellFormed.isEmpty_iff (hwf : h.WellFormed) : h.isEmpty = true ↔ h.size = 0 := by
  constructor
  · intro hempty
    rw [isEmpty, List.isEmpty_iff] at hempty
    simp [size_eq, hempty]
  · intro hsize
    cases hne : h.isEmpty with
    | true => rfl
    | false =>
        obtain ⟨vo, -, hsome⟩ := hwf.lookup_some hne
        rcases (hwf.get vo).2 with ⟨hnone, -⟩ | hlt
        · rw [hnone] at hsome
          cases hsome
        · omega

theorem wellFormed_getMapFromCache (files : FileMap) : (getMapFromCache files).WellFormed where
  nodup := by
    have hkeys : (getMapFromCache files).queues.map (·.1) = files.entries.map (·.1) := by
      simp only [getMapFromCache, List.map_map]
      rfl
    rw [hkeys]
    exact files.nodup
  vos := by
    intro e he
    obtain ⟨e₀, he₀, rfl⟩ := List.mem_map.mp he
    exact List.mem_map_of_mem he₀
  pairs := by
    intro e he
    obtain ⟨e₀, he₀, rfl⟩ := List.mem_map.mp he
    exact voQueue_pairs_ne_nil (files.nonempty e₀ he₀)
  robin := by
    intro e he
    obtain ⟨e₀, he₀, rfl⟩ := List.mem_map.mp he
    exact wellFormed_voQueue e₀.2

end TransferFileHandler

end Fts3.Server
