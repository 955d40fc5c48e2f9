import Fts3.Server.StorageLimits
import Fts3.Server.TransferTurns

/-!
# The loop of a scheduling round

`TransfersService::getFiles` asks the handler for the VOs in turn until all files have been served, or no process may be
started any more. Its calls are one of the orders of turns of the handler.
-/

namespace Fts3.Server

open Fts3.Sql Fts3.MySql Fts3.Machine

/-- "Just to be sure": no id, no DN or no credential. -/
def Incomplete (tf : TransferFile) : Prop := tf.fileId = 0 ∨ tf.userDn = "" ∨ tf.credId = ""

instance (tf : TransferFile) : Decidable (Incomplete tf) :=
  inferInstanceAs (Decidable (tf.fileId = 0 ∨ tf.userDn = "" ∨ tf.credId = ""))

namespace SlotsLeft

/-- No slot is left for one of the storages of the transfer. -/
def Full (m : SlotsLeft) (tf : TransferFile) : Prop :=
  (m.destination tf.destSe).getD 0 ≤ 0 ∨ (m.source tf.sourceSe).getD 0 ≤ 0

instance (m : SlotsLeft) (tf : TransferFile) : Decidable (m.Full tf) :=
  inferInstanceAs (Decidable ((m.destination tf.destSe).getD 0 ≤ 0 ∨ (m.source tf.sourceSe).getD 0 ≤ 0))

theorem getD_take_le {p : Prop} [Decidable p] (slot : Option Int) (n : Nat) :
    (slot.map fun k : Int => if p then k - n else k).getD 0 ≤ slot.getD 0 := by
  cases slot with
  | none => exact Int.le_refl 0
  | some k =>
      simp only [Option.map_some, Option.getD_some]
      split <;> omega

theorem Full.take {m : SlotsLeft} {tf : TransferFile} (h : m.Full tf) (sourceSe destSe : String) (n : Nat) :
    (m.take sourceSe destSe n).Full tf := by
  rcases h with h | h
  · exact .inl ((getD_take_le _ n).trans h)
  · exact .inr ((getD_take_le _ n).trans h)

end SlotsLeft

/-! ## One turn -/

namespace ServeState

variable {st : ServeState} {vo : String}

theorem serve_of_ended (h : st.availableUrlCopySlots ≤ 0) (vo : String) : st.serve vo = st := by
  rw [serve, if_pos h]

theorem serve_of_none (hslots : ¬st.availableUrlCopySlots ≤ 0) (h : (st.handler.get vo).1 = none) :
    st.serve vo = { st with handler := (st.handler.get vo).2 } := by
  rw [serve, if_neg hslots]
  cases hget : st.handler.get vo with
  | mk answer handler =>
      rw [hget] at h
      cases h
      rfl

/-- A transfer is skipped, or started where there are slots. -/
theorem serve_of_file (hslots : ¬st.availableUrlCopySlots ≤ 0) {tf : TransferFile} (h : (st.handler.get vo).1 = some tf) :
    (Incomplete tf ∨ st.slots.Full tf) ∧ st.serve vo = { st with handler := (st.handler.get vo).2 } ∨
      ¬Incomplete tf ∧ ¬st.slots.Full tf ∧ st.serve vo =
        { handler := (st.handler.get vo).2
          availableUrlCopySlots := st.availableUrlCopySlots - 1
          slots := st.slots.take tf.sourceSe tf.destSe 1
          started := st.started ++ [tf] } := by
  unfold SlotsLeft.Full Incomplete
  rw [serve, if_neg hslots]
  cases hget : st.handler.get vo with
  | mk answer handler =>
      rw [hget] at h
      cases h
      simp only
      split
      · rename_i hincomplete
        exact .inl ⟨.inl hincomplete, rfl⟩
      · rename_i hcomplete
        split
        · rename_i hdest
          exact .inl ⟨.inr (.inl hdest), rfl⟩
        · rename_i hdest
          split
          · rename_i hsource
            exact .inl ⟨.inr (.inr hsource), rfl⟩
          · rename_i hsource
            exact .inr ⟨hcomplete, not_or.mpr ⟨hdest, hsource⟩, rfl⟩

/-! ## The loop ends -/

theorem serve_handler (st : ServeState) (vo : String) :
    st.availableUrlCopySlots ≤ 0 ∧ st.serve vo = st ∨ (st.serve vo).handler = (st.handler.get vo).2 := by
  by_cases hslots : st.availableUrlCopySlots ≤ 0
  · exact .inl ⟨hslots, serve_of_ended hslots vo⟩
  · right
    cases hget : (st.handler.get vo).1 with
    | none => rw [serve_of_none hslots hget]
    | some tf =>
        rcases serve_of_file hslots hget with ⟨-, heq⟩ | ⟨-, -, heq⟩
        · rw [heq]
        · rw [heq]

theorem slots_ended (h : st.availableUrlCopySlots ≤ 0) (vos : List String) : vos.foldl serve st = st := by
  induction vos with
  | nil => rfl
  | cons vo vos ih => rwa [List.foldl_cons, serve_of_ended h]

/-- A pass over the VOs ends the slots, or takes an index of a VO that has one. -/
theorem serve_foldl (hwf : st.handler.WellFormed) (vos : List String) :
    (vos.foldl serve st).handler.WellFormed ∧ (vos.foldl serve st).handler.size ≤ st.handler.size ∧
      ((∃ vo ∈ vos, (st.handler.queues.lookup vo).isSome = true) → (vos.foldl serve st).availableUrlCopySlots ≤ 0 ∨
        (vos.foldl serve st).handler.size < st.handler.size) := by
  induction vos generalizing st with
  | nil => exact ⟨hwf, Nat.le_refl _, fun ⟨_, hmem, _⟩ => by cases hmem⟩
  | cons vo vos ih =>
      rw [List.foldl_cons]
      rcases serve_handler st vo with ⟨hslots, hsame⟩ | hhandler
      · rw [hsame, slots_ended hslots]
        exact ⟨hwf, Nat.le_refl _, fun _ => .inl hslots⟩
      · obtain ⟨hwf₁, hget⟩ := hwf.get vo
        rw [← hhandler] at hwf₁ hget
        obtain ⟨hwf', hsize, hless⟩ := ih hwf₁
        rcases hget with ⟨hnone, hsame⟩ | hlt
        · rw [hsame] at hsize hless
          refine ⟨hwf', hsize, fun ⟨vo', hmem, hsome⟩ => hless ⟨vo', ?_, hsome⟩⟩
          rcases List.mem_cons.mp hmem with rfl | hmem
          · rw [hnone] at hsome
            cases hsome
          · exact hmem
        · exact ⟨hwf', by omega, fun _ => .inr (by omega)⟩

theorem serveAll_of_ended (h : st.handler.isEmpty = true ∨ st.availableUrlCopySlots ≤ 0) (n : Nat) : serveAll n st = st := by
  cases n with
  | zero => rfl
  | succ n => rw [serveAll, if_pos h]

/-- With as many passes as there are file indexes, the loop ends as the source's does: all files have been served,
or no slots are left. -/
theorem serveAll_ends (hwf : st.handler.WellFormed) {n : Nat} (hn : st.handler.size ≤ n) :
    (serveAll n st).handler.isEmpty = true ∨ (serveAll n st).availableUrlCopySlots ≤ 0 := by
  induction n generalizing st with
  | zero => exact .inl (hwf.isEmpty_iff.mpr (Nat.le_zero.mp hn))
  | succ n ih =>
      rw [serveAll]
      split
      · rename_i hend
        exact hend
      · rename_i hgo
        rw [not_or, Bool.not_eq_true] at hgo
        obtain ⟨hwf', hle, hless⟩ := serve_foldl hwf st.handler.vos
        rcases hless (hwf.lookup_some hgo.1) with hslots | hlt
        · rw [serveAll_of_ended (.inr hslots)]
          exact .inr hslots
        · exact ih hwf' (by omega)

theorem serveAll_add (n k : Nat) (st : ServeState) : serveAll (n + k) st = serveAll k (serveAll n st) := by
  induction n generalizing st with
  | zero => rw [Nat.zero_add, serveAll]
  | succ n ih =>
      rw [Nat.succ_add, serveAll, serveAll]
      split
      · rename_i hend
        rw [serveAll_of_ended hend]
      · exact ih _

/-- More passes change nothing. -/
theorem serveAll_stable (hwf : st.handler.WellFormed) {n : Nat} (hn : st.handler.size ≤ n) :
    serveAll n st = serveAll st.handler.size st := by
  obtain ⟨k, rfl⟩ := Nat.exists_eq_add_of_le hn
  rw [serveAll_add, serveAll_of_ended (serveAll_ends hwf (Nat.le_refl _))]

/-! ## What it starts and what it skips -/

/-- The loop has made the calls of `sv`, and has started or skipped what they returned. -/
structure Follows (m : FileMap) (available : Int) (slots : SlotsLeft) (st : ServeState) (sv : Serving) : Prop where
  inv : Serving.Inv m sv
  handler : st.handler = sv.handler
  started : st.started.Sublist (sv.served.map (·.file))
  processes : st.availableUrlCopySlots + st.started.length = available ∧
    (st.started.length = 0 ∨ 0 ≤ st.availableUrlCopySlots)
  within : st.Within slots
  skipped : ∀ s ∈ sv.served, s.file ∈ st.started ∨ Incomplete s.file ∨ st.slots.Full s.file

variable {m : FileMap} {available : Int} {slots : SlotsLeft} {sv : Serving}

def start (m : FileMap) (available : Int) (slots : SlotsLeft) : ServeState where
  handler := .getMapFromCache m
  availableUrlCopySlots := available
  slots

theorem follows_start (m : FileMap) (available : Int) (slots : SlotsLeft) :
    Follows m available slots (start m available slots) (Serving.start m) where
  inv := Serving.inv_start m
  handler := rfl
  started := List.Sublist.refl _
  processes := ⟨Int.add_zero _, .inl rfl⟩
  within := ⟨fun _ => ⟨Int.zero_add _, .inl rfl⟩, fun _ => ⟨Int.zero_add _, .inl rfl⟩⟩
  skipped := by simp [Serving.start]

theorem Follows.serve (h : Follows m available slots st sv) (vo : String) :
    ∃ sv', Follows m available slots (st.serve vo) sv' := by
  have hwithin := h.within.serve vo
  by_cases hslots : st.availableUrlCopySlots ≤ 0
  · rw [serve_of_ended hslots]
    exact ⟨sv, h⟩
  · have hhandler := h.handler
    rcases h.inv.step_cases vo with ⟨-, hget, -⟩ | ⟨q, pair, q', tf, -, -, -, hget, hstep⟩
    · rw [serve_of_none hslots (by rw [hhandler, hget]), hhandler, hget]
      exact ⟨sv, { h with handler := rfl }⟩
    · have hinv := h.inv.step vo
      have hnext : (st.handler.get vo).2 = (sv.step vo).handler := by
        rw [hhandler, Serving.step]
        split <;> rename_i hcall <;> rw [hcall]
      have hserved : (sv.step vo).served = sv.served ++ [⟨vo, some pair, tf⟩] := by rw [hstep]
      refine ⟨sv.step vo, ?_⟩
      rcases serve_of_file hslots (by rw [hhandler, hget]) with ⟨hskip, heq⟩ | ⟨-, -, heq⟩
      · rw [heq] at hwithin ⊢
        refine ⟨hinv, hnext, ?_, h.processes, hwithin, fun s hs => ?_⟩
        · rw [hserved, List.map_append]
          exact h.started.trans (List.sublist_append_left _ _)
        · rw [hserved] at hs
          rcases List.mem_append.mp hs with hs | hs
          · exact h.skipped s hs
          · rw [List.mem_singleton.mp hs]
            exact .inr hskip
      · rw [heq] at hwithin ⊢
        refine ⟨hinv, hnext, ?_, ?_, hwithin, fun s hs => ?_⟩
        · rw [hserved, List.map_append]
          exact h.started.append (List.Sublist.refl _)
        · obtain ⟨hsum, -⟩ := h.processes
          simp only [List.length_append, List.length_singleton]
          omega
        · rw [hserved] at hs
          rcases List.mem_append.mp hs with hs | hs
          · rcases h.skipped s hs with hstarted | hincomplete | hfull
            · exact .inl (List.mem_append_left _ hstarted)
            · exact .inr (.inl hincomplete)
            · exact .inr (.inr (hfull.take _ _ 1))
          · rw [List.mem_singleton.mp hs]
            exact .inl (List.mem_append_right _ List.mem_cons_self)

theorem Follows.serve_foldl (h : Follows m available slots st sv) (vos : List String) :
    ∃ sv', Follows m available slots (vos.foldl ServeState.serve st) sv' := by
  induction vos generalizing st sv with
  | nil => exact ⟨sv, h⟩
  | cons vo vos ih =>
      obtain ⟨sv₁, h₁⟩ := h.serve vo
      exact ih h₁

theorem Follows.serveAll (h : Follows m available slots st sv) (n : Nat) :
    ∃ sv', Follows m available slots (serveAll n st) sv' := by
  induction n generalizing st sv with
  | zero => exact ⟨sv, h⟩
  | succ n ih =>
      rw [ServeState.serveAll]
      split
      · exact ⟨sv, h⟩
      · obtain ⟨sv₁, h₁⟩ := h.serve_foldl st.handler.vos
        exact ih h₁

theorem Follows.length_le (h : Follows m available slots st sv) : (st.started.length : Int) ≤ max 0 available := by
  obtain ⟨hsum, hnone | hleft⟩ := h.processes
  · omega
  · omega

/-- No two of the files that the VOs have had are of one index. -/
theorem nodup_served (hi : Serving.Inv m sv) (hm : m.Unshared) : (sv.served.map (·.file.index)).Nodup := by
  have hindex : ∀ s ∈ sv.served, s.file.index ∈ (m.files s.vo).map (·.index) := by
    intro s hs
    have hfirst := (hi.first hm).1 s hs
    exact List.mem_map_of_mem (List.mem_of_find?_eq_some hfirst)
  have hsame : ∀ s ∈ sv.served, ∀ s' ∈ sv.served, s.file.index = s'.file.index → s.vo = s'.vo := by
    intro s hs s' hs' heq
    obtain ⟨tf, htf, htf_index⟩ := List.mem_map.mp (hindex s hs)
    obtain ⟨tf', htf', htf'_index⟩ := List.mem_map.mp (hindex s' hs')
    exact hm s.vo s'.vo tf htf tf' htf' (by rw [htf_index, heq, htf'_index])
  rw [List.nodup_iff_count_le_one]
  intro index
  by_cases hmem : index ∈ sv.served.map (·.file.index)
  · obtain ⟨s, hs, rfl⟩ := List.mem_map.mp hmem
    have hnodup := (List.nodup_append.mp ((hi.indexes s.vo).nodup_iff.mpr (List.nodup_dedup _))).1
    have hcount : (sv.served.map (·.file.index)).count s.file.index =
        ((sv.servedTo s.vo).map (·.index)).count s.file.index := by
      simp only [Serving.servedTo, List.map_map, List.count_eq_countP, List.countP_map, List.countP_filter]
      refine List.countP_congr fun s' hs' => ?_
      simp only [Function.comp_apply, beq_iff_eq, Bool.and_eq_true, decide_eq_true_eq]
      exact ⟨fun heq => ⟨heq, hsame s' hs' s hs heq⟩, And.left⟩
    rw [hcount]
    exact List.nodup_iff_count_le_one.mp hnodup _
  · rw [List.count_eq_zero_of_not_mem hmem]
    exact Nat.zero_le _

/-- Once the handler is empty, the first file of every index has been returned. -/
theorem Follows.all_served (h : Follows m available slots st sv) (hm : m.Unshared) (hempty : st.handler.isEmpty = true)
    {vo : String} {tf : TransferFile} (htf : tf ∈ m.files vo) : ∃ s ∈ sv.served,
      ((m.files vo).find? fun tf' => tf'.index = tf.index) = some s.file := by
  have hpending : sv.handler.pending vo = [] := by
    rw [h.handler, TransferFileHandler.isEmpty, List.isEmpty_iff] at hempty
    rw [TransferFileHandler.pending, hempty]
    rfl
  have hperm := h.inv.indexes vo
  rw [hpending, List.append_nil] at hperm
  have hindex : tf.index ∈ (sv.servedTo vo).map (·.index) :=
    hperm.symm.subset (List.mem_dedup.mpr (List.mem_map_of_mem htf))
  obtain ⟨tf', htf', heq⟩ := List.mem_map.mp hindex
  obtain ⟨s, hfilter, rfl⟩ := List.mem_map.mp htf'
  obtain ⟨hs, hvo⟩ := List.mem_filter.mp hfilter
  obtain rfl : s.vo = vo := of_decide_eq_true hvo
  refine ⟨s, hs, ?_⟩
  rw [← heq]
  exact (h.inv.first hm).1 s hs

end ServeState

/-- The loop of `getFiles` ends with all files served or without slots. -/
theorem getFiles_serves (files : List TransferFile) (available : Int) (slots : SlotsLeft) :
    let tfh := TransferFileHandler.init files
    let st := ServeState.serveAll tfh.size { handler := tfh, availableUrlCopySlots := available, slots }
    st.handler.isEmpty = true ∨ st.availableUrlCopySlots ≤ 0 :=
  ServeState.serveAll_ends (TransferFileHandler.wellFormed_getMapFromCache _) (Nat.le_refl _)

/-- The loop of `getFiles`, where no index (in particular, no job id) is shared between VOs. It ends within as many passes
as there are indexes, and starts no more than it may. When it ends with processes left, the file of every index has been
started, or it is incomplete, or no slot is left for it. -/
theorem scheduling_loop_ends (m : FileMap) (hm : m.Unshared) (available : Int) (slots : SlotsLeft) {n : Nat}
    (hn : (TransferFileHandler.getMapFromCache m).size ≤ n) :
    let st := ServeState.serveAll n (.start m available slots)
    (st.handler.isEmpty = true ∨ st.availableUrlCopySlots ≤ 0) ∧
    st = ServeState.serveAll (TransferFileHandler.getMapFromCache m).size (.start m available slots) ∧
    (st.started.length : Int) ≤ max 0 available ∧
    (∀ se, (st.started.countP (fun tf => tf.destSe = se) : Int) ≤ max 0 ((slots.destination se).getD 0) ∧
      (st.started.countP (fun tf => tf.sourceSe = se) : Int) ≤ max 0 ((slots.source se).getD 0)) ∧
    (st.started.map (·.index)).Nodup ∧
    (0 < st.availableUrlCopySlots → ∀ vo, ∀ tf ∈ m.files vo, ∃ first,
      ((m.files vo).find? fun tf' => tf'.index = tf.index) = some first ∧
        (first ∈ st.started ∨ Incomplete first ∨ st.slots.Full first)) := by
  intro st
  have hwf : (ServeState.start m available slots).handler.WellFormed :=
    TransferFileHandler.wellFormed_getMapFromCache m
  obtain ⟨sv, h⟩ := (ServeState.follows_start m available slots).serveAll n
  have hend := ServeState.serveAll_ends hwf hn
  refine ⟨hend, ServeState.serveAll_stable hwf hn, h.length_le, fun se => ⟨h.within.1.le se, h.within.2.le se⟩, ?_, ?_⟩
  · have hnodup := ServeState.nodup_served h.inv hm
    have hsub := h.started.map (·.index)
    rw [List.map_map] at hsub
    exact hnodup.sublist hsub
  · intro hleft vo tf htf
    obtain ⟨s, hs, hfirst⟩ := h.all_served hm (hend.resolve_right (not_le.mpr hleft)) htf
    exact ⟨s.file, hfirst, h.skipped s hs⟩

/-- A transfer that can be started, and one without an id. -/
def twoFiles : FileMap where
  entries := [("atlas", [Serving.sharedFile 1 "atlas", { Serving.sharedFile 0 "atlas" with fileIndex := 1 }])]
  nodup := by decide
  nonempty := by decide

theorem scheduling_loop_of_twoFiles :
    let st := ServeState.serveAll 2 (.start twoFiles 5 { source := fun _ => some 3, destination := fun _ => some 3 })
    st.started.map (·.fileId) = [1] ∧ st.availableUrlCopySlots = 4 ∧
    (st.handler.isEmpty = true ∨ st.availableUrlCopySlots ≤ 0) ∧ (st.started.length : Int) ≤ max 0 5 := by
  have hm : twoFiles.Unshared := by
    have hvo : ∀ vo, ∀ tf ∈ twoFiles.files vo, vo = "atlas" := by
      intro vo tf htf
      have hentry := Serving.mem_entries htf
      simp only [twoFiles, List.mem_singleton, Prod.mk.injEq] at hentry
      exact hentry.1
    intro vo vo' tf htf tf' htf' _
    rw [hvo vo tf htf, hvo vo' tf' htf']
  have h := scheduling_loop_ends twoFiles hm 5 { source := fun _ => some 3, destination := fun _ => some 3 }
    (n := 2) (by decide +kernel)
  exact ⟨by decide +kernel, by decide +kernel, h.1, h.2.2.1⟩

end Fts3.Server
