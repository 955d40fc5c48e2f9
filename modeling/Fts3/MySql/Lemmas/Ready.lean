import Fts3.MySql.Lemmas.Issued
import Fts3.MySql.Scheduling

/-!
# What the scheduler fetches

A property of the rows that the last query finds is one of all transfers that `getReadyTransfers` returns.
-/

namespace Fts3.MySql

open Fts3.Sql

/-- What is said of a transfer whatever its marks and the activity that it is counted for. -/
def Unmarked (R : TransferFile → Prop) : Prop :=
  ∀ tf lastReplica lastHop activity, R tf → R { tf with lastReplica, lastHop, activity }

section ready

variable {G : Type} {K : Rule Db Sel Stmt G} {R : TransferFile → Prop} {node : Node} {tTime : Nat} {chance : Chance}
  {q : QueueId} {g : G}

theorem markLast_follows (hR : Unmarked R) {tf : TransferFile} (htf : R tf) :
    (markLast tf).Follows K (fun tfs _ => ∀ tf ∈ tfs, R tf) g := by
  unfold markLast
  split
  · intro db _ tf' htf'
    rw [List.mem_singleton.mp htf']
    exact hR tf _ tf.lastHop tf.activity htf
  · intro db _ tf' htf'
    rw [List.mem_singleton.mp htf']
    exact hR tf tf.lastReplica _ tf.activity htf
  · intro tf' htf'
    rw [List.mem_singleton.mp htf']
    exact htf

theorem nil_follows {tfs : Option (List TransferFile)} (h : tfs.getD [] = []) :
    (pure tfs : Op (Option (List TransferFile))).Follows K (fun tfs _ => ∀ tf ∈ tfs.getD [], R tf) g := by
  intro tf htf
  rw [h] at htf
  cases htf

theorem getMaxPriority_reads : (getMaxPriority node q).Issues fun _ => False := by
  unfold getMaxPriority
  split <;> simp

theorem getFilesNumPerActivity_reads (n : Nat) : (getFilesNumPerActivity node chance q n).Issues fun _ => False := by
  simp [getFilesNumPerActivity, getActivitiesInQueue]

/-- Of each queue the rows are fetched that the query for one priority finds. -/
def ReadsReady (K : Rule Db Sel Stmt G) (R : TransferFile → Prop) (node : Node) (tTime : Nat) (q : QueueId) : Prop :=
  ∀ db, K.inv db → ∀ p types inActivity n, ∀ tf ∈ readyRows node tTime q p types inActivity n db, R tf

theorem readyOfActivity_follows (hR : Unmarked R) (hread : ReadsReady K R node tTime q) (p : Int) (defaults : List String)
    (slots : String × Nat) (g : G) :
    (readyOfActivity node tTime q p defaults slots).Follows K (fun tfs _ => ∀ tf ∈ tfs.getD [], R tf) g := by
  unfold readyOfActivity
  refine Proc.follows_ite (fun _ => nil_follows rfl) fun _ => ?_
  cases ofActivity node.activity defaults slots.1 with
  | none => exact nil_follows rfl
  | some inActivity =>
      intro db hdb
      refine (Proc.follows_collect fun tf htf g => markLast_follows hR (hread db hdb _ _ _ _ tf htf)).bind
        fun tfs g htfs => ?_
      intro tf htf
      obtain ⟨tf', htf', rfl⟩ := List.mem_map.mp htf
      exact hR tf' tf'.lastReplica tf'.lastHop _ (htfs tf' htf')

theorem readyOfQueue_follows (hR : Unmarked R) (hread : ReadsReady K R node tTime q) (n : Nat) (g : G) :
    (readyOfQueue node tTime chance q n).Follows K (fun tfs _ => ∀ tf ∈ tfs.getD [], R tf) g := by
  refine (getMaxPriority_reads.follows fun _ h => h.elim).bind fun maxPriority g _ => ?_
  cases maxPriority with
  | none => exact nil_follows rfl
  | some p =>
      refine ((getFilesNumPerActivity_reads n).follows fun _ h => h.elim).bind fun slots g _ => ?_
      refine Proc.follows_ite (fun _ => ?_) fun _ => ?_
      · intro db hdb
        exact (Proc.follows_collect fun tf htf g => markLast_follows hR (hread db hdb _ _ _ _ tf htf)).bind fun _ _ h => h
      · exact Proc.follows_tryCollect fun slots' _ g => readyOfActivity_follows hR hread p slots.2 slots' g

theorem getReadyTransfers_follows (hR : Unmarked R) {queues : List QueueId}
    (hread : ∀ q ∈ queues, ReadsReady K R node tTime q) (g : G) :
    (getReadyTransfers node tTime chance queues).Follows K (fun tfs _ => ∀ tf ∈ tfs.getD [], R tf) g := by
  refine Proc.follows_tryCollect fun q hq g => ?_
  intro db hdb db₁ hdb₁
  exact Proc.follows_ite (fun _ => nil_follows rfl) fun _ => readyOfQueue_follows hR (hread q hq) _ _

end ready

section reads

variable {node : Node} {tTime : Nat} {chance : Chance} {q : QueueId}

theorem collect_markLast_reads (tfs : List TransferFile) : (Proc.collect markLast tfs).Issues fun _ => False := by
  refine Proc.issues_collect fun tf _ => ?_
  unfold markLast
  split <;> simp

theorem readyOfQueue_reads (n : Nat) : (readyOfQueue node tTime chance q n).Issues fun _ => False := by
  refine getMaxPriority_reads.bind fun p => ?_
  cases p with
  | none => trivial
  | some p =>
      refine (getFilesNumPerActivity_reads n).bind fun slots => ?_
      rw [Proc.issues_ite]
      constructor
      · exact fun _ db => (collect_markLast_reads _).bind fun _ => trivial
      · refine fun _ => Proc.issues_tryCollect fun a _ => ?_
        unfold readyOfActivity
        rw [Proc.issues_ite]
        refine ⟨fun _ => trivial, fun _ => ?_⟩
        cases ofActivity node.activity slots.2 a.1 with
        | none => trivial
        | some inActivity => exact fun db => (collect_markLast_reads _).bind fun _ => trivial

/-- The scheduler only reads. -/
theorem getReadyTransfers_reads (queues : List QueueId) :
    (getReadyTransfers node tTime chance queues).Issues fun _ => False := by
  refine Proc.issues_tryCollect fun q _ => ?_
  simp only [getReadyTransfersOf, getActiveCount, Proc.bind_eq, select_bind, Proc.issues_select, Proc.issues_ite]
  exact fun _ _ => ⟨fun _ => trivial, fun _ => readyOfQueue_reads _⟩

end reads

end Fts3.MySql
