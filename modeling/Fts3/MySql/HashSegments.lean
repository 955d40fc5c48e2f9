import Fts3.MySql.HeartBeat

/-!
# Hash segments

The living nodes divide the hash space `[0, 65535]` among themselves. Of `count` nodes, a value of the hash space
belongs to the node whose place is the value divided by the size of a segment, or to the last one.
-/

namespace Fts3.MySql

/-- `thread_random() % UINT16_MAX`, of what `random_r` has stored. -/
def getHashedId (value : Int) : Nat :=
  (value.tmod 65535 % 4294967296).toNat

/-- The segment of `updateHeartBeatInternal` in its `unsigned` arithmetic: `*start` and `*end`. -/
def unsignedSegment (index count : UInt32) : UInt32 × UInt32 :=
  let segsize := 65535 / count
  let segmod := 65535 % count
  let start := segsize * index
  let last := segsize * (index + 1) - 1
  -- Last one take over what is left
  (start, if index = count - 1 then last + (segmod + 1) else last)

namespace HashSegment

/-- `hashed_id BETWEEN :hStart AND :hEnd`. -/
def Holds (s : HashSegment) (v : Nat) : Prop := s.start ≤ v ∧ v ≤ s.last

instance (s : HashSegment) (v : Nat) : Decidable (s.Holds v) :=
  inferInstanceAs (Decidable (s.start ≤ v ∧ v ≤ s.last))

section place

variable {count index : Nat} (hcount : 1 ≤ count) (hmax : count ≤ 65535)

include hcount hmax

theorem segsize_pos : 1 ≤ 65535 / count := Nat.div_pos hmax hcount

/-- What a segment holds. -/
theorem holds_iff (hindex : index < count) (v : Nat) :
    (of index count).Holds v ↔ v ≤ 65535 ∧ index = min (v / (65535 / count)) (count - 1) := by
  have hq := segsize_pos hcount hmax
  have hdiv : 65535 / count * count + 65535 % count = 65535 := Nat.div_add_mod' 65535 count
  simp only [Holds, of]
  generalize 65535 / count = q at hq hdiv ⊢
  have hle : q * (index + 1) ≤ q * count := Nat.mul_le_mul_left q hindex
  have hstart : q * index ≤ v ↔ index ≤ v / q := by rw [Nat.le_div_iff_mul_le hq, Nat.mul_comm]
  have hend : v < q * (index + 1) ↔ v / q < index + 1 := by rw [Nat.div_lt_iff_lt_mul hq, Nat.mul_comm]
  have hpos : 0 < q * (index + 1) := Nat.mul_pos hq (Nat.succ_pos index)
  by_cases hlast : index = count - 1
  · have hall : q * (index + 1) = q * count := by rw [hlast, Nat.sub_add_cancel hcount]
    rw [if_pos hlast, hstart]
    omega
  · rw [if_neg hlast, hstart]
    omega

theorem holds_unique {v : Nat} (hv : v ≤ 65535) : ∃! index, index < count ∧ (of index count).Holds v := by
  have hplace : min (v / (65535 / count)) (count - 1) < count := by omega
  refine ⟨min (v / (65535 / count)) (count - 1), ⟨hplace, ?_⟩, fun index h => ?_⟩
  · exact (holds_iff hcount hmax hplace v).mpr ⟨hv, rfl⟩
  · exact ((holds_iff hcount hmax h.1 v).mp h.2).2

theorem start_le_last : (of index count).start ≤ (of index count).last := by
  have hq := segsize_pos hcount hmax
  simp only [of]
  have hstep : 65535 / count * (index + 1) = 65535 / count * index + 65535 / count := Nat.mul_succ _ _
  omega

theorem start_eq_zero : (of index count).start = 0 ↔ index = 0 := by
  have hq := segsize_pos hcount hmax
  simp only [of, Nat.mul_eq_zero]
  omega

end place

end HashSegment

theorem getHashedId_lt {value : Int} (h : 0 ≤ value) : getHashedId value < 65535 := by
  rw [getHashedId, Int.tmod_eq_emod_of_nonneg h]
  omega

section unsigned

variable {index count : UInt32}

theorem unsigned_mul {n : UInt32} (hn : n.toNat ≤ count.toNat) :
    (65535 / count * n).toNat = 65535 / count.toNat * n.toNat := by
  have hle : 65535 / count.toNat * n.toNat ≤ 65535 :=
    (Nat.mul_le_mul_left _ hn).trans (Nat.div_mul_le_self 65535 count.toNat)
  rw [UInt32.toNat_mul, UInt32.toNat_div]
  exact Nat.mod_eq_of_lt (Nat.lt_of_le_of_lt hle (by decide))

variable (hcount : count.toNat ≤ 65535) (hindex : index < count)

include hcount hindex

theorem unsigned_place : index.toNat < count.toNat ∧ (index + 1).toNat = index.toNat + 1 := by
  have hlt : index.toNat < count.toNat := UInt32.lt_iff_toNat_lt.mp hindex
  refine ⟨hlt, ?_⟩
  rw [UInt32.toNat_add, UInt32.toNat_one]
  omega

/-- For a place among at most 65535 nodes the `unsigned` arithmetic does not wrap. -/
theorem unsignedSegment_eq :
    1 ≤ count ∧ 1 ≤ 65535 / count * (index + 1) ∧
      (unsignedSegment index count).1.toNat = (HashSegment.of index.toNat count.toNat).start ∧
      (unsignedSegment index count).2.toNat = (HashSegment.of index.toNat count.toNat).last := by
  obtain ⟨hlt, hsucc⟩ := unsigned_place hcount hindex
  have hq := HashSegment.segsize_pos (by omega) hcount
  have hstart := unsigned_mul hlt.le
  have hend := unsigned_mul (n := index + 1) (hsucc.trans_le hlt)
  rw [hsucc] at hend
  have hpos : 1 ≤ 65535 / count.toNat * (index.toNat + 1) := Nat.mul_pos hq (Nat.succ_pos _)
  have hone : 1 ≤ count := by
    rw [UInt32.le_iff_toNat_le, UInt32.toNat_one]
    omega
  have hone' : 1 ≤ 65535 / count * (index + 1) := by
    rw [UInt32.le_iff_toNat_le, UInt32.toNat_one, hend]
    exact hpos
  have hlast : (65535 / count * (index + 1) - 1).toNat = 65535 / count.toNat * (index.toNat + 1) - 1 := by
    rw [UInt32.toNat_sub_of_le _ _ hone', hend, UInt32.toNat_one]
  refine ⟨hone, hone', hstart, ?_⟩
  have hcond : index = count - 1 ↔ index.toNat = count.toNat - 1 := by
    rw [← UInt32.toNat_inj, UInt32.toNat_sub_of_le _ _ hone, UInt32.toNat_one]
  simp only [unsignedSegment, HashSegment.of, hcond]
  split
  · rename_i hplace
    have hdiv : 65535 / count.toNat * count.toNat + 65535 % count.toNat = 65535 := Nat.div_add_mod' 65535 count.toNat
    have hall : 65535 / count.toNat * (index.toNat + 1) = 65535 / count.toNat * count.toNat := by
      rw [hplace, Nat.sub_add_cancel (by omega)]
    rw [UInt32.toNat_add, hlast, UInt32.toNat_add, UInt32.toNat_mod, UInt32.toNat_one]
    have hlit : (65535 : UInt32).toNat = 65535 := rfl
    rw [hlit, hall]
    omega
  · exact hlast

end unsigned

/-- For every number of nodes the segments are not empty, hold every value of the hash space exactly once and nothing
else, and only the first of them starts at 0; they are what the code computes, and hold every hashed id. -/
theorem hash_segments_partition (count : Nat) (hcount : 1 ≤ count) (hmax : count ≤ 65535) :
    (∀ index < count, (HashSegment.of index count).start ≤ (HashSegment.of index count).last) ∧
    (∀ i < count, ∀ j < count, i ≠ j → ∀ v, ¬((HashSegment.of i count).Holds v ∧ (HashSegment.of j count).Holds v)) ∧
    (∀ v, v ≤ 65535 ↔ ∃ index < count, (HashSegment.of index count).Holds v) ∧
    (∃! index, index < count ∧ (HashSegment.of index count).start = 0) ∧
    (∀ value : Int, 0 ≤ value → ∃! index, index < count ∧ (HashSegment.of index count).Holds (getHashedId value)) ∧
    ∀ index c : UInt32, c.toNat = count → index < c → 1 ≤ c ∧ 1 ≤ 65535 / c * (index + 1) ∧
      (unsignedSegment index c).1.toNat = (HashSegment.of index.toNat count).start ∧
      (unsignedSegment index c).2.toNat = (HashSegment.of index.toNat count).last := by
  refine ⟨fun index _ => HashSegment.start_le_last hcount hmax, fun i hi j hj hne v h => ?_, fun v => ⟨fun hv => ?_, ?_⟩,
    ⟨0, ⟨hcount, (HashSegment.start_eq_zero hcount hmax).mpr rfl⟩, ?_⟩, fun value hvalue => ?_, ?_⟩
  · rw [HashSegment.holds_iff hcount hmax hi, HashSegment.holds_iff hcount hmax hj] at h
    exact hne (h.1.2.trans h.2.2.symm)
  · obtain ⟨index, h, -⟩ := HashSegment.holds_unique hcount hmax hv
    exact ⟨index, h⟩
  · rintro ⟨index, hindex, hv⟩
    exact ((HashSegment.holds_iff hcount hmax hindex v).mp hv).1
  · rintro index ⟨-, hzero⟩
    exact (HashSegment.start_eq_zero hcount hmax).mp hzero
  · exact HashSegment.holds_unique hcount hmax (getHashedId_lt hvalue).le
  · rintro index c rfl hindex
    exact unsignedSegment_eq hmax hindex

theorem hash_segments_partition_three :
    (List.range 3).map (fun index => ((HashSegment.of index 3).start, (HashSegment.of index 3).last)) =
      [(0, 21844), (21845, 43689), (43690, 65535)] ∧
    ∃! index, index < 3 ∧ (HashSegment.of index 3).start = 0 :=
  ⟨by decide, (hash_segments_partition 3 (by decide) (by decide)).2.2.2.1⟩

end Fts3.MySql
