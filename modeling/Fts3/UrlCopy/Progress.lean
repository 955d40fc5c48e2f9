import Fts3.UrlCopy.LegacyReporter

/-!
# What has been transferred

The samples of gfal2 and the pings come in any order, and then the transfer has finished. The pings share one counter with
the final status.
-/

namespace Fts3.UrlCopy

open Fts3.Machine

inductive ProgressEvent
  | performance (h : PerformanceSample)
  /-- `sendPing`, with the socket throwing an exception or not -/
  | ping (thrown : Bool)

structure Progress where
  transfer : RunningTransfer
  /-- what has been sent -/
  pings : List Ping := []

namespace Progress

def step (s : Progress) : ProgressEvent → Progress
  | .performance h => { s with transfer := performanceCallback h s.transfer }
  | .ping thrown =>
      { transfer := (s.transfer.sendPing thrown).2, pings := s.pings ++ (s.transfer.sendPing thrown).1.toList }

/-- The transfer when the copy starts. -/
def start (t : Transfer) (fileSize : UInt64) : Progress where
  transfer := { transfer := t, fileSize }

/-- The bytes of the pings that have been sent. -/
def sent (s : Progress) : Nat := (s.pings.map fun p => p.transferredSinceLastPing.toNat).sum

end Progress

def samples (es : List ProgressEvent) : List UInt64 :=
  es.filterMap fun e =>
    match e with
    | .performance h => some h.bytesTransferred
    | .ping _ => none

/-- The samples do not decrease, and are at most the size of the file. -/
def Regular (fileSize : UInt64) (es : List ProgressEvent) : Prop :=
  (samples es).Pairwise (· ≤ ·) ∧ ∀ b ∈ samples es, b ≤ fileSize

/-- The call gets to the message. -/
def RunningTransfer.Pings (t : RunningTransfer) : Prop :=
  ¬t.transferredBytes < t.previousPingTransferredBytes ∧ t.nonsensical = false

instance (t : RunningTransfer) : Decidable t.Pings := inferInstanceAs (Decidable (_ ∧ _))

/-- The difference in the message of a ping is the one of the numbers. -/
def ExactPing (s : Progress) : ProgressEvent → Prop
  | .ping _ => s.transfer.Pings → s.transfer.ping.transferredSinceLastPing.toNat +
      s.transfer.previousPingTransferredBytes.toNat = s.transfer.transferredBytes.toNat
  | .performance _ => True

/-- The difference in the final status is zero, or the one of the numbers. -/
def RunningTransfer.ExactStatus (t : RunningTransfer) : Prop :=
  t.transferredSinceLastPing = 0 ∨
    t.transferredSinceLastPing.toNat + t.previousPingTransferredBytes.toNat = t.fileSize.toNat

/-- No subtraction goes below zero, the counter never decreases, and the bytes of the pings and of the final status are
those of the file if the samples are regular. -/
structure AccountsFor (opts : UrlCopyOpts) (t : Transfer) (fileSize : UInt64) (es : List ProgressEvent) : Prop where
  pings : Meets Progress.step ExactPing (Progress.start t fileSize) es
  status : (run Progress.step (Progress.start t fileSize) es).transfer.ExactStatus
  monotone : ∀ es₁ es₂, es = es₁ ++ es₂ →
    (run Progress.step (Progress.start t fileSize) es₁).transfer.previousPingTransferredBytes ≤
      (run Progress.step (Progress.start t fileSize) es).transfer.previousPingTransferredBytes
  conserves : Regular fileSize es →
    (run Progress.step (Progress.start t fileSize) es).sent +
      ((run Progress.step (Progress.start t fileSize) es).transfer.sendTransferCompleted opts).transferredSinceLastPing.toNat =
        fileSize.toNat

/-- A ping that the socket does not take would have had nothing new. -/
def LosesNothing (s : Progress) : ProgressEvent → Prop
  | .ping true => s.transfer.Pings → s.transfer.transferredBytes = s.transfer.previousPingTransferredBytes
  | _ => True

section step

variable {s : Progress} {e : ProgressEvent} {es : List ProgressEvent} {fileSize : UInt64} {t : Transfer}

theorem sendPing_of_pings {r : RunningTransfer} (h : r.Pings) (thrown : Bool) : r.sendPing thrown =
    (if thrown then none else some r.ping, { r with previousPingTransferredBytes := r.transferredBytes }) := by
  rw [RunningTransfer.sendPing, if_neg h.1, h.2]
  rfl

theorem sendPing_of_not_pings {r : RunningTransfer} (h : ¬r.Pings) (thrown : Bool) : r.sendPing thrown = (none, r) := by
  unfold RunningTransfer.sendPing
  split
  · rfl
  · rename_i hless
    split
    · rfl
    · rename_i hsense
      exact absurd ⟨hless, by simpa using hsense⟩ h

theorem previous_le_of_pings {r : RunningTransfer} (h : r.Pings) :
    r.previousPingTransferredBytes ≤ r.transferredBytes :=
  UInt64.not_lt.mp h.1

theorem ping_exact {r : RunningTransfer} (h : r.Pings) : r.ping.transferredSinceLastPing.toNat +
    r.previousPingTransferredBytes.toNat = r.transferredBytes.toNat := by
  have hle := previous_le_of_pings h
  have hnat := UInt64.le_iff_toNat_le.mp hle
  rw [RunningTransfer.ping, UInt64.toNat_sub_of_le _ _ hle]
  omega

theorem meets_exactPing (s : Progress) (es : List ProgressEvent) : Meets Progress.step ExactPing s es := by
  induction es generalizing s with
  | nil => trivial
  | cons e es ih =>
      refine ⟨?_, ih _⟩
      cases e with
      | performance h => trivial
      | ping thrown => exact ping_exact

theorem exactStatus (r : RunningTransfer) : r.ExactStatus := by
  unfold RunningTransfer.ExactStatus RunningTransfer.transferredSinceLastPing
  split
  · exact .inl rfl
  · split
    · exact .inl rfl
    · rename_i hless
      have hle := UInt64.not_lt.mp hless
      have hnat := UInt64.le_iff_toNat_le.mp hle
      right
      rw [UInt64.toNat_sub_of_le _ _ hle]
      omega

theorem previous_le_step (s : Progress) (e : ProgressEvent) :
    s.transfer.previousPingTransferredBytes ≤ (s.step e).transfer.previousPingTransferredBytes := by
  cases e with
  | performance h => exact UInt64.le_refl _
  | ping thrown =>
      by_cases h : s.transfer.Pings
      · simp only [Progress.step, sendPing_of_pings h]
        exact previous_le_of_pings h
      · simp only [Progress.step, sendPing_of_not_pings h]
        exact UInt64.le_refl _

theorem previous_le_run (s : Progress) (es : List ProgressEvent) :
    s.transfer.previousPingTransferredBytes ≤ (run Progress.step s es).transfer.previousPingTransferredBytes := by
  induction es generalizing s with
  | nil => exact UInt64.le_refl _
  | cons e es ih => exact UInt64.le_trans (previous_le_step s e) (ih _)

/-! ## Where the bytes go -/

/-- The bytes of the message of a ping that the socket does not take. -/
def lostBy (s : Progress) : ProgressEvent → Nat
  | .ping true => if s.transfer.Pings then s.transfer.ping.transferredSinceLastPing.toNat else 0
  | _ => 0

def lost (s : Progress) : List ProgressEvent → Nat
  | [] => 0
  | e :: es => lostBy s e + lost (s.step e) es

theorem sent_step (s : Progress) (e : ProgressEvent) :
    (s.step e).sent + lostBy s e + s.transfer.previousPingTransferredBytes.toNat =
      s.sent + (s.step e).transfer.previousPingTransferredBytes.toNat := by
  cases e with
  | performance h => rfl
  | ping thrown =>
      by_cases h : s.transfer.Pings
      · have hexact := ping_exact h
        cases thrown with
        | false =>
            simp only [Progress.step, sendPing_of_pings h, Progress.sent, lostBy, Bool.false_eq_true, if_false,
              Option.toList_some, List.map_append, List.map_cons, List.map_nil, List.sum_append, List.sum_cons,
              List.sum_nil]
            omega
        | true =>
            simp only [Progress.step, sendPing_of_pings h, Progress.sent, lostBy, if_true, if_pos h, Option.toList_none,
              List.append_nil]
            omega
      · cases thrown <;>
          simp only [Progress.step, sendPing_of_not_pings h, Progress.sent, lostBy, if_neg h, Option.toList_none,
            List.append_nil, Nat.add_zero]

/-- What the counter has gained is in the pings that were sent, or lost. -/
theorem sent_run (s : Progress) (es : List ProgressEvent) :
    (run Progress.step s es).sent + lost s es + s.transfer.previousPingTransferredBytes.toNat =
      s.sent + (run Progress.step s es).transfer.previousPingTransferredBytes.toNat := by
  induction es generalizing s with
  | nil => rfl
  | cons e es ih =>
      have hstep := sent_step s e
      have hrest := ih (s.step e)
      rw [run_cons, lost]
      omega

theorem lostBy_eq_zero_iff (s : Progress) (e : ProgressEvent) : lostBy s e = 0 ↔ LosesNothing s e := by
  cases e with
  | performance h => exact iff_of_true rfl trivial
  | ping thrown =>
      cases thrown with
      | false => exact iff_of_true rfl trivial
      | true =>
          by_cases h : s.transfer.Pings
          · have hexact := ping_exact h
            simp only [lostBy, LosesNothing, h, if_true, true_implies, ← UInt64.toNat_inj]
            omega
          · simp [lostBy, h, LosesNothing]

theorem lost_eq_zero_iff (s : Progress) (es : List ProgressEvent) :
    lost s es = 0 ↔ Meets Progress.step LosesNothing s es := by
  induction es generalizing s with
  | nil => exact iff_of_true rfl trivial
  | cons e es ih => rw [lost, Nat.add_eq_zero_iff, lostBy_eq_zero_iff, ih, Meets]

/-! ## Regular samples -/

/-- The counter is at most what has been transferred, and that is at most what comes. -/
structure Progress.Within (fileSize : UInt64) (s : Progress) (es : List ProgressEvent) : Prop where
  size : s.transfer.fileSize = fileSize
  error : s.transfer.error = none
  previous : s.transfer.previousPingTransferredBytes ≤ s.transfer.transferredBytes
  transferred : s.transfer.transferredBytes ≤ fileSize
  samples : ∀ b ∈ samples es, s.transfer.transferredBytes ≤ b
  regular : Regular fileSize es

theorem regular_cons (h : Regular fileSize (e :: es)) : Regular fileSize es := by
  cases e with
  | performance h' => exact ⟨(List.pairwise_cons.mp h.1).2, fun b hb => h.2 b (List.mem_cons_of_mem _ hb)⟩
  | ping thrown => exact h

theorem Progress.Within.step (h : s.Within fileSize (e :: es)) : (s.step e).Within fileSize es := by
  have hregular := regular_cons h.regular
  cases e with
  | performance sample =>
      have hle : s.transfer.transferredBytes ≤ sample.bytesTransferred := h.samples _ List.mem_cons_self
      have hmax : sample.bytesTransferred ≤ fileSize := h.regular.2 _ List.mem_cons_self
      exact ⟨h.size, h.error, UInt64.le_trans h.previous hle, hmax, (List.pairwise_cons.mp h.regular.1).1, hregular⟩
  | ping thrown =>
      by_cases hpings : s.transfer.Pings
      · simp only [Progress.step, sendPing_of_pings hpings]
        exact ⟨h.size, h.error, UInt64.le_refl _, h.transferred, h.samples, hregular⟩
      · simp only [Progress.step, sendPing_of_not_pings hpings]
        exact ⟨h.size, h.error, h.previous, h.transferred, h.samples, hregular⟩

theorem Progress.Within.run (h : s.Within fileSize es) : (run Progress.step s es).Within fileSize [] := by
  induction es generalizing s with
  | nil => exact h
  | cons e es ih => exact ih h.step

theorem within_start (t : Transfer) (h : Regular fileSize es) : (Progress.start t fileSize).Within fileSize es :=
  ⟨rfl, rfl, UInt64.le_refl _, UInt64.zero_le, fun _ _ => UInt64.zero_le, h⟩

/-- The final status has the rest of the file. -/
theorem Progress.Within.status (h : s.Within fileSize []) (opts : UrlCopyOpts) :
    (s.transfer.sendTransferCompleted opts).transferredSinceLastPing.toNat +
      s.transfer.previousPingTransferredBytes.toNat = fileSize.toNat := by
  have hle := UInt64.le_trans h.previous h.transferred
  have hnat := UInt64.le_iff_toNat_le.mp hle
  simp only [RunningTransfer.sendTransferCompleted, h.error, RunningTransfer.transferredSinceLastPing,
    if_neg (UInt64.not_lt.mpr h.previous), h.size, if_neg (UInt64.not_lt.mpr hle), UInt64.toNat_sub_of_le _ _ hle]
  omega

end step

/-- All that the accounting promises holds if and only if, with regular samples, no ping that the socket does not take has
anything new. -/
theorem accountsFor_iff (opts : UrlCopyOpts) (t : Transfer) (fileSize : UInt64) (es : List ProgressEvent) :
    AccountsFor opts t fileSize es ↔
      (Regular fileSize es → Meets Progress.step LosesNothing (Progress.start t fileSize) es) := by
  have hconserves : Regular fileSize es →
      ((run Progress.step (Progress.start t fileSize) es).sent +
        ((run Progress.step (Progress.start t fileSize) es).transfer.sendTransferCompleted opts).transferredSinceLastPing.toNat =
          fileSize.toNat ↔ Meets Progress.step LosesNothing (Progress.start t fileSize) es) := by
    intro hregular
    have hstatus := (within_start t hregular).run.status opts
    have hsent := sent_run (Progress.start t fileSize) es
    have hzero : (Progress.start t fileSize).transfer.previousPingTransferredBytes.toNat = 0 := rfl
    have hnone : (Progress.start t fileSize).sent = 0 := rfl
    rw [← lost_eq_zero_iff]
    omega
  constructor
  · intro h hregular
    exact (hconserves hregular).mp (h.conserves hregular)
  · intro h
    refine ⟨meets_exactPing _ es, exactStatus _, ?_, fun hregular => (hconserves hregular).mpr (h hregular)⟩
    rintro es₁ es₂ rfl
    rw [run_append]
    exact previous_le_run _ es₂

def sampleOf (bytes : UInt64) : ProgressEvent := .performance ⟨1048576, 1048576, bytes⟩

/-- The ping after the first half of the file is not sent, and these bytes are in no other message. -/
theorem not_accountsFor_thrown :
    ¬AccountsFor {} {} 100 [sampleOf 50, .ping true, sampleOf 100] ∧
    Regular 100 [sampleOf 50, .ping true, sampleOf 100] ∧
    (run Progress.step (Progress.start {} 100) [sampleOf 50, .ping true, sampleOf 100]).sent +
      ((run Progress.step (Progress.start {} 100) [sampleOf 50, .ping true, sampleOf 100]).transfer.sendTransferCompleted
        {}).transferredSinceLastPing.toNat = 50 := by
  have hregular : Regular 100 [sampleOf 50, .ping true, sampleOf 100] := by
    constructor
    · simp [samples, sampleOf]
    · simp [samples, sampleOf]
  have htotal : (run Progress.step (Progress.start {} 100) [sampleOf 50, .ping true, sampleOf 100]).sent +
      ((run Progress.step (Progress.start {} 100) [sampleOf 50, .ping true, sampleOf 100]).transfer.sendTransferCompleted
        {}).transferredSinceLastPing.toNat = 50 := by
    decide +kernel
  refine ⟨fun h => ?_, hregular, htotal⟩
  have hconserves := h.conserves hregular
  rw [htotal] at hconserves
  cases hconserves

end Fts3.UrlCopy
