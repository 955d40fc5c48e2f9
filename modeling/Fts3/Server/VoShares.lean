import Mathlib.Algebra.Order.Field.Rat
import Mathlib.Algebra.Order.GroupWithZero.Basic
import Mathlib.Algebra.Order.Ring.Cast
import Fts3.Server.StorageLimits
import Fts3.Server.TransferFileHandler

/-!
# Shares of the VOs

`VoShares.cpp`: of the VOs with transfers on a link one is picked by its weight. A VO without a weight of its own has its
part of that of `public`. The queues of those that are never picked are failed.
-/

namespace Fts3.Server

open Fts3.Sql Fts3.MySql

/-! ## Weights -/

/-- Without any configuration this is the only weight. -/
def publicWeight (weights : List (String × Rat)) : Rat :=
  if weights.isEmpty then 1 else (weights.lookup "public").getD 0

/-- The weight of a VO among those of its link. -/
def effectiveWeight (weights : List (String × Rat)) (vos : List (String × Nat)) (vo : String) : Rat :=
  match weights.lookup vo with
  | some weight => weight
  | none => publicWeight weights / (vos.countP fun vo' => (weights.lookup vo'.1).isNone : Nat)

section weights

variable {weights : List (String × Rat)}

theorem finalWeights_eq (vos : List (String × Nat)) (weights : List (String × Rat)) :
    finalWeights vos weights = vos.map fun vo => effectiveWeight weights vos vo.1 := by
  unfold finalWeights effectiveWeight publicWeight
  refine List.map_congr_left fun vo hvo => ?_
  cases hw : weights.lookup vo.1 with
  | some weight => rfl
  | none =>
      have hcount : 0 < vos.countP fun vo' => (weights.lookup vo'.1).isNone :=
        List.countP_pos_iff.mpr ⟨vo, hvo, by rw [hw]; rfl⟩
      rw [if_pos hcount, Option.getD_none]

theorem effectiveWeight_nonneg (h : ∀ vo weight, weights.lookup vo = some weight → 0 ≤ weight) (vos : List (String × Nat))
    (vo : String) : 0 ≤ effectiveWeight weights vos vo := by
  unfold effectiveWeight
  cases hw : weights.lookup vo with
  | some weight => exact h vo weight hw
  | none =>
      apply div_nonneg
      · unfold publicWeight
        split
        · decide
        · cases hpublic : weights.lookup "public" with
          | none => exact le_refl _
          | some weight => exact h "public" weight hpublic
      · exact Nat.cast_nonneg _

/-- The weight of a VO is that of its last share. -/
theorem lookup_weightsOf (shares : List ShareConfigRow) (vo : String) : (weightsOf shares).lookup vo =
    (shares.reverse.find? fun share => share.vo = vo).map fun share => (share.active : Rat) := by
  rw [weightsOf, lookup_foldl_mapInsert, List.lookup_nil, Option.or_none]

theorem weightsOf_isEmpty (shares : List ShareConfigRow) : (weightsOf shares).isEmpty = shares.isEmpty := by
  induction shares using List.reverseRecOn with
  | nil => rfl
  | append_singleton shares share _ =>
      have hlookup : (weightsOf (shares ++ [share])).lookup share.vo ≠ none := by
        simp [lookup_weightsOf]
      cases hweights : weightsOf (shares ++ [share]) with
      | nil => simp [hweights] at hlookup
      | cons e weights => simp

end weights

/-! ## One link -/

/-- `discrete_distribution` picks a position with a positive weight, where there is one. -/
def RoundChance.PicksPositive (chance : RoundChance) : Prop :=
  ∀ pair ws, (∀ w ∈ ws, 0 ≤ w) → (∃ w ∈ ws, 0 < w) → ∃ w, ws[chance.chosen pair ws]? = some w ∧ 0 < w

section link

variable {chance : RoundChance} {pair : String × String} {vos : List (String × Nat)} {weights : List (String × Rat)}

theorem selectQueueForPair_unschedulable : (selectQueueForPair chance pair vos weights).2 =
    (vos.filter fun vo => effectiveWeight weights vos vo.1 ≤ 0).map (queueOf pair) := by
  have hzip : ((vos.zip (finalWeights vos weights)).filter fun e => e.2 ≤ 0).map (fun e => queueOf pair e.1) =
      (vos.filter fun vo => effectiveWeight weights vos vo.1 ≤ 0).map (queueOf pair) := by
    rw [finalWeights_eq, ← List.map_prod_left_eq_zip, List.filter_map, List.map_map]
    rfl
  unfold selectQueueForPair
  simp only
  split
  · exact hzip
  · exact hzip

/-- Nothing is picked where all weights are zero. -/
theorem selectQueueForPair_chosen : (selectQueueForPair chance pair vos weights).1 =
    if ∀ vo ∈ vos, effectiveWeight weights vos vo.1 ≤ 0 then none
    else vos[chance.chosen pair (finalWeights vos weights)]?.map (queueOf pair) := by
  have hall : (selectQueueForPair chance pair vos weights).2.length = vos.length ↔
      ∀ vo ∈ vos, effectiveWeight weights vos vo.1 ≤ 0 := by
    rw [selectQueueForPair_unschedulable, List.length_map, List.length_filter_eq_length_iff]
    simp
  rw [← if_congr hall rfl rfl]
  unfold selectQueueForPair
  simp only [apply_ite Prod.fst, apply_ite Prod.snd, ite_self]

variable (hchance : chance.PicksPositive) (hnonneg : ∀ vo, 0 ≤ effectiveWeight weights vos vo)

include hchance hnonneg in
/-- What is picked otherwise has a positive weight. -/
theorem selectQueueForPair_spec :
    (selectQueueForPair chance pair vos weights).1 = none ∧ (∀ vo ∈ vos, effectiveWeight weights vos vo.1 = 0) ∨
      ∃ vo ∈ vos, (selectQueueForPair chance pair vos weights).1 = some (queueOf pair vo) ∧
        0 < effectiveWeight weights vos vo.1 := by
  rw [selectQueueForPair_chosen]
  split
  · rename_i hzero
    exact .inl ⟨rfl, fun vo hvo => le_antisymm (hzero vo hvo) (hnonneg vo.1)⟩
  · rename_i hpositive
    simp only [not_forall, not_le, exists_prop] at hpositive
    obtain ⟨vo, hvo, hweight⟩ := hpositive
    rw [finalWeights_eq]
    have hweights : ∀ w ∈ vos.map (fun vo => effectiveWeight weights vos vo.1), 0 ≤ w := by
      intro w hw
      obtain ⟨vo', -, rfl⟩ := List.mem_map.mp hw
      exact hnonneg vo'.1
    obtain ⟨w, hget, hw⟩ := hchance pair _ hweights ⟨_, List.mem_map_of_mem hvo, hweight⟩
    rw [List.getElem?_map] at hget
    obtain ⟨vo', hvo', rfl⟩ := Option.map_eq_some_iff.mp hget
    exact .inr ⟨vo', List.mem_of_getElem? hvo', by rw [hvo']; rfl, hw⟩

end link

/-! ## All links -/

section links

variable (db : Db) (chance : RoundChance) (queues : List QueueId)

/-- The weight that is configured for the VO on the link. -/
def ownWeight (pair : String × String) (vo : String) : Option Rat :=
  (db.shareConfig.reverse.find? fun c => c.source = pair.1 ∧ c.destination = pair.2 ∧ c.vo = vo).map
    fun c => (c.active : Rat)

/-- The weight of all VOs of the link without one of their own: 1 without any configuration of the link. -/
def restWeight (pair : String × String) : Rat :=
  if ∀ c ∈ db.shareConfig, ¬(c.source = pair.1 ∧ c.destination = pair.2) then 1 else (ownWeight db pair "public").getD 0

/-- The weight of a queue: that of its VO, or its part of what is left for the VOs of the link without one. -/
def queueWeight (q : QueueId) : Rat :=
  match ownWeight db q.pair q.voName with
  | some weight => weight
  | none => restWeight db q.pair /
      (queues.countP fun q' => q'.pair = q.pair ∧ ownWeight db q.pair q'.voName = none : Nat)

theorem lookup_weightsOf_sharesOf (pair : String × String) (vo : String) :
    (weightsOf (sharesOf db pair)).lookup vo = ownWeight db pair vo := by
  rw [lookup_weightsOf, sharesOf, ← List.filter_reverse, List.find?_filter, ownWeight]
  congr 2
  funext c
  simp [Bool.and_assoc]

theorem publicWeight_sharesOf (pair : String × String) :
    publicWeight (weightsOf (sharesOf db pair)) = restWeight db pair := by
  unfold publicWeight restWeight
  rw [lookup_weightsOf_sharesOf, weightsOf_isEmpty]
  refine if_congr ?_ rfl rfl
  simp [sharesOf, List.filter_eq_nil_iff]

/-- The two passes compute the weight of each queue. -/
theorem effectiveWeight_queueOf (pair : String × String) (vo : String × Nat) :
    effectiveWeight (weightsOf (sharesOf db pair)) (vosOf queues pair) vo.1 = queueWeight db queues (queueOf pair vo) := by
  have hcount : ((vosOf queues pair).countP fun vo' => ((weightsOf (sharesOf db pair)).lookup vo'.1).isNone) =
      queues.countP fun q => q.pair = pair ∧ ownWeight db pair q.voName = none := by
    rw [vosOf, List.countP_map, List.countP_filter]
    refine List.countP_congr fun q _ => ?_
    simp only [Function.comp_apply, lookup_weightsOf_sharesOf, Bool.and_eq_true, Option.isNone_iff_eq_none,
      decide_eq_true_eq]
    exact and_comm
  unfold effectiveWeight queueWeight
  rw [lookup_weightsOf_sharesOf, publicWeight_sharesOf, hcount]
  rfl

theorem weight_nonneg (h : ∀ c ∈ db.shareConfig, 0 ≤ c.active) (pair : String × String) (vos : List (String × Nat))
    (vo : String) : 0 ≤ effectiveWeight (weightsOf (sharesOf db pair)) vos vo := by
  apply effectiveWeight_nonneg
  intro vo' weight hlookup
  rw [lookup_weightsOf_sharesOf] at hlookup
  obtain ⟨share, hshare, rfl⟩ := Option.map_eq_some_iff.mp hlookup
  exact Int.cast_nonneg (h share (List.mem_reverse.mp (List.mem_of_find?_eq_some hshare)))

theorem selectQueues_unschedulable (pairs : List (String × String)) :
    ((selectQueues chance queues pairs).answer Stmt.exec db).2 = pairs.flatMap fun pair =>
      (selectQueueForPair chance pair (vosOf queues pair) (weightsOf (sharesOf db pair))).2 := by
  induction pairs with
  | nil => rfl
  | cons pair pairs ih =>
      simp only [selectQueues, getShareConfig, Proc.bind_eq, select_bind, Proc.answer_select, Proc.answer_bind,
        Proc.pure_eq, Proc.answer_ret, List.flatMap_cons, ih, sharesOf]

theorem vosOf_map_queueOf (pair : String × String) :
    (vosOf queues pair).map (queueOf pair) = queues.filter fun q => q.pair = pair := by
  rw [vosOf, List.map_map]
  conv_rhs => rw [← List.map_id (queues.filter fun q => q.pair = pair)]
  refine List.map_congr_left fun q hq => ?_
  obtain rfl : q.pair = pair := of_decide_eq_true (List.mem_filter.mp hq).2
  rfl

def linksOf : List (String × String) := (queues.map QueueId.pair).dedup.insertionSort pairBefore

theorem nodup_linksOf : (linksOf queues).Nodup :=
  (List.perm_insertionSort _ _).nodup_iff.mpr (List.nodup_dedup _)

theorem mem_linksOf {pair : String × String} : pair ∈ linksOf queues ↔ pair ∈ queues.map QueueId.pair := by
  rw [linksOf, List.mem_insertionSort, List.mem_dedup]

/-- The queues of a link that are never picked. -/
theorem unschedulable_of_link (h : ∀ c ∈ db.shareConfig, 0 ≤ c.active) (pair : String × String) :
    (selectQueueForPair chance pair (vosOf queues pair) (weightsOf (sharesOf db pair))).2 =
      (queues.filter fun q => queueWeight db queues q = 0).filter fun q => q.pair = pair := by
  have hzero : ∀ vo : String × Nat, effectiveWeight (weightsOf (sharesOf db pair)) (vosOf queues pair) vo.1 ≤ 0 ↔
      queueWeight db queues (queueOf pair vo) = 0 := by
    intro vo
    rw [← effectiveWeight_queueOf]
    exact ⟨fun hle => le_antisymm hle (weight_nonneg db h pair _ vo.1), le_of_eq⟩
  have hweight : (vosOf queues pair).filter (fun vo =>
      effectiveWeight (weightsOf (sharesOf db pair)) (vosOf queues pair) vo.1 ≤ 0) = (vosOf queues pair).filter
        ((fun q => decide (queueWeight db queues q = 0)) ∘ queueOf pair) :=
    List.filter_congr fun vo _ => decide_eq_decide.mpr (hzero vo)
  rw [selectQueueForPair_unschedulable, hweight, ← List.filter_map, vosOf_map_queueOf, List.filter_filter,
    List.filter_filter]
  exact List.filter_congr fun q _ => Bool.and_comm _ _

variable {chance}

/-- What is picked for a link is one of its queues, and there is one that may be picked. -/
theorem picked_of_link (hchance : chance.PicksPositive) (h : ∀ c ∈ db.shareConfig, 0 ≤ c.active)
    (pair : String × String) :
    (selectQueueForPair chance pair (vosOf queues pair) (weightsOf (sharesOf db pair))).1 = none ∧
        (∀ q ∈ queues, q.pair = pair → queueWeight db queues q = 0) ∨
      ∃ q ∈ queues, (selectQueueForPair chance pair (vosOf queues pair) (weightsOf (sharesOf db pair))).1 = some q ∧
        q.pair = pair ∧ 0 < queueWeight db queues q := by
  rcases selectQueueForPair_spec hchance (weight_nonneg db h pair (vosOf queues pair)) with
    ⟨hnone, hzero⟩ | ⟨vo, hvo, hsome, hpos⟩
  · refine .inl ⟨hnone, ?_⟩
    rintro q hq rfl
    have hvo := hzero (q.voName, q.activeCount) (List.mem_map_of_mem (List.mem_filter.mpr ⟨hq, by simp⟩))
    rwa [effectiveWeight_queueOf] at hvo
  · have hmem : queueOf pair vo ∈ (vosOf queues pair).map (queueOf pair) := List.mem_map_of_mem hvo
    rw [vosOf_map_queueOf] at hmem
    rw [effectiveWeight_queueOf] at hpos
    exact .inr ⟨queueOf pair vo, (List.mem_filter.mp hmem).1, hsome, rfl, hpos⟩

end links

/-- Of the queues of each link at most one is picked, with a positive weight, and there is one unless all have none. The
queues without a weight are those that are failed. -/
theorem applyVoShares_picks (db : Db) (chance : RoundChance) (hchance : chance.PicksPositive) (queues : List QueueId)
    (hnonneg : ∀ c ∈ db.shareConfig, 0 ≤ c.active) :
    let answer := (applyVoShares chance queues).answer Stmt.exec db
    (answer.1.map QueueId.pair).Nodup ∧ (∀ q ∈ answer.1, q ∈ queues ∧ 0 < queueWeight db queues q) ∧
    (∀ pair, (∀ q ∈ answer.1, q.pair ≠ pair) ↔ ∀ q ∈ queues, q.pair = pair → queueWeight db queues q = 0) ∧
    answer.2.Perm (queues.filter fun q => queueWeight db queues q = 0) := by
  intro answer
  have hpicked : answer.1 = (linksOf queues).filterMap fun pair =>
      (selectQueueForPair chance pair (vosOf queues pair) (weightsOf (sharesOf db pair))).1 := by
    rw [List.filterMap_eq_flatMap_toList]
    exact selectQueues_answer queues (linksOf queues)
  have hfailed : answer.2 = (linksOf queues).flatMap fun pair =>
      (queues.filter fun q => queueWeight db queues q = 0).filter fun q => q.pair = pair := by
    simp only [← unschedulable_of_link db chance queues hnonneg]
    exact selectQueues_unschedulable db chance queues (linksOf queues)
  have hlink := picked_of_link db queues hchance hnonneg
  have hsound : ∀ pair q, (selectQueueForPair chance pair (vosOf queues pair) (weightsOf (sharesOf db pair))).1 = some q →
      q ∈ queues ∧ q.pair = pair ∧ 0 < queueWeight db queues q := by
    intro pair q hq
    rcases hlink pair with ⟨hnone, -⟩ | ⟨q', hq', hsome, hpair, hpos⟩
    · rw [hnone] at hq
      cases hq
    · rw [hsome] at hq
      cases hq
      exact ⟨hq', hpair, hpos⟩
  refine ⟨?_, ?_, ?_, ?_⟩
  · rw [hpicked, List.map_filterMap]
    refine (nodup_linksOf queues).filterMap fun pair pair' p hp hp' => ?_
    obtain ⟨q, hq, rfl⟩ := Option.map_eq_some_iff.mp hp
    obtain ⟨q', hq', heq⟩ := Option.map_eq_some_iff.mp hp'
    rw [← (hsound pair q hq).2.1, ← heq, (hsound pair' q' hq').2.1]
  · intro q hq
    rw [hpicked] at hq
    obtain ⟨pair, -, hq⟩ := List.mem_filterMap.mp hq
    exact ⟨(hsound pair q hq).1, (hsound pair q hq).2.2⟩
  · intro pair
    constructor
    · intro hnone
      rcases hlink pair with ⟨-, hzero⟩ | ⟨q, hq, hsome, hpair, -⟩
      · exact hzero
      · refine (hnone q ?_ hpair).elim
        rw [hpicked]
        exact List.mem_filterMap.mpr ⟨pair, (mem_linksOf queues).mpr (hpair ▸ List.mem_map_of_mem hq), hsome⟩
    · rintro hzero q hq rfl
      rw [hpicked] at hq
      obtain ⟨pair, -, hq⟩ := List.mem_filterMap.mp hq
      obtain ⟨hmem, hpair, hpos⟩ := hsound pair q hq
      exact hpos.ne' (hzero q hmem rfl)
  · rw [hfailed]
    refine flatMap_filter_perm QueueId.pair (nodup_linksOf queues) _ fun q hq => ?_
    exact (mem_linksOf queues).mpr (List.mem_map_of_mem (List.mem_filter.mp hq).1)

/-- Picks the first positive weight. -/
def firstPositive : RoundChance where
  chosen _ ws := ws.findIdx fun w => 0 < w

theorem firstPositive_picks : firstPositive.PicksPositive := by
  rintro pair ws - ⟨w, hw, hpos⟩
  have hlt : ws.findIdx (fun w => 0 < w) < ws.length := List.findIdx_lt_length.mpr ⟨w, hw, by simpa using hpos⟩
  exact ⟨_, List.getElem?_eq_getElem hlt, by simpa using List.findIdx_getElem (w := hlt)⟩

/-- On one link `atlas` has a share, and nothing is left for the others. -/
def atlasOnly : Db where
  shareConfig := [⟨"a", "b", "atlas", 1⟩, ⟨"a", "b", "public", 0⟩]

def atlasAndCms : List QueueId := [⟨"a", "b", "cms", 3⟩, ⟨"a", "b", "atlas", 0⟩]

theorem applyVoShares_picks_atlas :
    let answer := (applyVoShares firstPositive atlasAndCms).answer Stmt.exec atlasOnly
    answer.1.map (·.voName) = ["atlas"] ∧ answer.2.map (·.voName) = ["cms"] ∧ (answer.1.map QueueId.pair).Nodup :=
  ⟨by decide +kernel, by decide +kernel,
    (applyVoShares_picks atlasOnly firstPositive firstPositive_picks atlasAndCms (by decide)).1⟩

end Fts3.Server
