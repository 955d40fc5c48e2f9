import Fts3.Server.MessageProcessing

/-!
# Shutdown

A batch is worked on in two passes, each of which may see the interruption request before any of its messages.
-/

namespace Fts3.Server

open Fts3.Sql Fts3.MySql

namespace MessageService

variable (change : StatusMessage → Option (Op Unit)) (messages : List StatusMessage)

/-! ## One pass -/

/-- The messages that a pass works on. -/
def changed (change : StatusMessage → Option (Op Unit)) (rest : List StatusMessage) : List StatusMessage :=
  rest.filter fun msg => (change msg).isSome

theorem changed_cons (msg : StatusMessage) (rest : List StatusMessage) :
    changed change (msg :: rest) = changed change [msg] ++ changed change rest :=
  List.filter_append [msg] rest

theorem handleMessages_zero (msg : StatusMessage) (rest : List StatusMessage) {s : MessageService}
    (h : s.request = some 0) : handleMessages change messages (msg :: rest) s = s.dumpMessages messages := by
  simp [handleMessages, poll, h]

/-- A poll that does not see the request. -/
theorem handleMessages_cons (msg : StatusMessage) (rest : List StatusMessage) {s : MessageService}
    (h : s.request ≠ some 0) : ∃ s', handleMessages change messages (msg :: rest) s = handleMessages change messages rest s' ∧
      s'.processed = s.processed ++ changed change [msg] ∧ s'.written = s.written ∧
      s'.request = s.request.map (· - 1) := by
  have hpoll : ∃ s', s.poll = (false, s') ∧ s'.processed = s.processed ∧ s'.written = s.written ∧
      s'.request = s.request.map (· - 1) := by
    unfold poll
    cases hk : s.request with
    | none => exact ⟨s, rfl, rfl, rfl, hk⟩
    | some k =>
        cases k with
        | zero => exact absurd hk h
        | succ k => exact ⟨_, rfl, rfl, rfl, rfl⟩
  obtain ⟨s', hs', hprocessed, hwritten, hrequest⟩ := hpoll
  rw [handleMessages, hs']
  cases hchange : change msg with
  | none => exact ⟨s', rfl, by simp [changed, hchange, hprocessed], hwritten, hrequest⟩
  | some op => exact ⟨s'.perform msg op, rfl, by simp [changed, hchange, perform, hprocessed], hwritten, hrequest⟩

/-- The pass never sees the request. -/
theorem handleMessages_through (rest : List StatusMessage) (s : MessageService)
    (h : ∀ k, s.request = some k → rest.length ≤ k) :
    (handleMessages change messages rest s).processed = s.processed ++ changed change rest ∧
      (handleMessages change messages rest s).written = s.written ∧
      (handleMessages change messages rest s).request = s.request.map (· - rest.length) := by
  induction rest generalizing s with
  | nil => simp [handleMessages, changed]
  | cons msg rest ih =>
      have hpoll : s.request ≠ some 0 := fun h₀ => absurd (h 0 h₀) (by simp)
      obtain ⟨s', hs', hprocessed, hwritten, hrequest⟩ := handleMessages_cons change messages msg rest hpoll
      have hrest : ∀ k, s'.request = some k → rest.length ≤ k := by
        intro k hk
        rw [hrequest, Option.map_eq_some_iff] at hk
        obtain ⟨k', hk', rfl⟩ := hk
        have hle := h k' hk'
        simp only [List.length_cons] at hle
        omega
      obtain ⟨h₁, h₂, h₃⟩ := ih s' hrest
      rw [hs', h₁, h₂, h₃, hprocessed, hwritten, hrequest]
      refine ⟨by rw [changed_cons change msg rest, List.append_assoc], rfl, ?_⟩
      cases s.request with
      | none => rfl
      | some k =>
          simp only [Option.map_some, Option.some.injEq, List.length_cons]
          omega

/-- The pass sees the request before message number `k`. -/
theorem handleMessages_interrupted (rest : List StatusMessage) (s : MessageService) {k : Nat} (hk : s.request = some k)
    (hlt : k < rest.length) :
    (handleMessages change messages rest s).processed = s.processed ++ changed change (rest.take k) ∧
      (handleMessages change messages rest s).written = s.written ++ messages ∧
      (handleMessages change messages rest s).request = some 0 := by
  induction rest generalizing s k with
  | nil => exact absurd hlt (Nat.not_lt_zero k)
  | cons msg rest ih =>
      cases k with
      | zero =>
          rw [handleMessages_zero change messages msg rest hk]
          exact ⟨by simp [dumpMessages, changed], rfl, hk⟩
      | succ k =>
          obtain ⟨s', hs', hprocessed, hwritten, hrequest⟩ := handleMessages_cons change messages msg rest (s := s) (by simp [hk])
          obtain ⟨h₁, h₂, h₃⟩ := ih s' (k := k) (by simp [hrequest, hk]) (Nat.lt_of_succ_lt_succ hlt)
          rw [hs', h₁, h₂, h₃, hprocessed, hwritten]
          exact ⟨by rw [List.take_succ_cons, changed_cons change msg (rest.take k), List.append_assoc], rfl, rfl⟩

end MessageService

/-! ## Both passes -/

/-- Each message of the batch is processed or written back, and only once. -/
def Conserved (messages : List StatusMessage) (s : MessageService) : Prop :=
  (s.processed ++ s.written).Perm messages

section batch

open MessageService

variable {node : Node} {messages : List StatusMessage} {db : Db}

theorem changed_other (node : Node) (messages : List StatusMessage) :
    changed (otherChange node) messages = messages.filter fun msg => !msg.isUpdate := by
  refine List.filter_congr fun msg _ => ?_
  cases msg <;> rfl

theorem changed_update (messages : List StatusMessage) :
    changed updateChange messages = messages.filter fun msg => msg.isUpdate := by
  refine List.filter_congr fun msg _ => ?_
  cases msg <;> rfl

theorem handleBatch_eq (hne : messages ≠ []) (s : MessageService) : handleBatch node messages s =
    handleMessages updateChange messages messages (handleMessages (otherChange node) messages messages s) :=
  if_neg (by simpa using hne)

/-- Without the request the first pass works on the states and the second one on the updates. -/
theorem handleBatch_through {request : Option Nat} (hne : messages ≠ [])
    (h : ∀ k, request = some k → 2 * messages.length ≤ k) : Conserved messages (handleBatch node messages { db, request }) := by
  obtain ⟨hprocessed₁, hwritten₁, hrequest₁⟩ := handleMessages_through (otherChange node) messages messages { db, request }
    fun k hk => Nat.le_trans (by omega) (h k hk)
  have hsecond : ∀ k, (handleMessages (otherChange node) messages messages { db, request }).request = some k →
      messages.length ≤ k := by
    intro k hk
    rw [hrequest₁, Option.map_eq_some_iff] at hk
    obtain ⟨k', hk', rfl⟩ := hk
    have hle := h k' hk'
    omega
  obtain ⟨hprocessed₂, hwritten₂, -⟩ := handleMessages_through updateChange messages messages _ hsecond
  rw [handleBatch_eq hne, Conserved, hprocessed₂, hwritten₂, hprocessed₁, hwritten₁, changed_other, changed_update]
  simp only [List.nil_append, List.append_nil]
  exact List.perm_append_comm.trans (List.filter_append_perm _ messages)

/-- The second pass sees the request: it dumps what the first one has worked on. -/
theorem handleBatch_second {k : Nat} (hge : messages.length ≤ k) (hlt : k < 2 * messages.length) :
    Conserved messages (handleBatch node messages { db, request := some k }) ↔
      k = messages.length ∧ ∀ msg ∈ messages, msg.isUpdate = true := by
  have hne : messages ≠ [] := by
    rintro rfl
    simp at hlt
  obtain ⟨hprocessed₁, hwritten₁, hrequest₁⟩ := handleMessages_through (otherChange node) messages messages
    { db, request := some k } fun k' hk' => by
      cases hk'
      exact hge
  rw [Option.map_some] at hrequest₁
  obtain ⟨hprocessed₂, hwritten₂, -⟩ := handleMessages_interrupted updateChange messages messages _ hrequest₁ (by omega)
  rw [handleBatch_eq hne, Conserved, hprocessed₂, hwritten₂, hprocessed₁, hwritten₁, changed_other, changed_update]
  simp only [List.nil_append]
  constructor
  · intro h
    have hlength := h.length_eq
    simp only [List.length_append] at hlength
    have hupdate : ∀ msg ∈ messages, msg.isUpdate = true := by
      have hnone : messages.filter (fun msg => !msg.isUpdate) = [] := List.length_eq_zero_iff.mp (by omega)
      simpa [List.filter_eq_nil_iff] using hnone
    refine ⟨?_, hupdate⟩
    have hall : (messages.take (k - messages.length)).filter (fun msg => msg.isUpdate) = messages.take (k - messages.length) :=
      List.filter_eq_self.mpr fun msg hmsg => hupdate msg (List.mem_of_mem_take hmsg)
    rw [hall, List.length_take] at hlength
    omega
  · rintro ⟨rfl, hupdate⟩
    have hnone : messages.filter (fun msg => !msg.isUpdate) = [] := by
      simpa [List.filter_eq_nil_iff] using hupdate
    simp [hnone]

/-- The first pass sees it: the batch is dumped twice. -/
theorem handleBatch_first {k : Nat} (hlt : k < messages.length) :
    ¬Conserved messages (handleBatch node messages { db, request := some k }) := by
  have hne : messages ≠ [] := by
    rintro rfl
    simp at hlt
  obtain ⟨-, hwritten₁, hrequest₁⟩ := handleMessages_interrupted (otherChange node) messages messages
    { db, request := some k } rfl hlt
  obtain ⟨-, hwritten₂, -⟩ := handleMessages_interrupted updateChange messages messages _ hrequest₁ (by omega)
  rw [handleBatch_eq hne, Conserved, hwritten₂, hwritten₁]
  intro h
  have hlength := h.length_eq
  simp only [List.length_append, List.length_nil] at hlength
  omega

end batch

/-- The messages of a batch are conserved exactly when no pass sees the interruption request, or when it is seen first
between the two passes over a batch of updates. -/
theorem shutdown_conserves (node : Node) (messages : List StatusMessage) (db : Db) (request : Option Nat) :
    Conserved messages (MessageService.handleBatch node messages { db, request }) ↔
      messages = [] ∨ (∀ k, request = some k → 2 * messages.length ≤ k) ∨
        (request = some messages.length ∧ ∀ msg ∈ messages, msg.isUpdate = true) := by
  by_cases hne : messages = []
  · subst hne
    exact iff_of_true (List.Perm.refl _) (.inl rfl)
  simp only [hne, false_or]
  cases request with
  | none => exact iff_of_true (handleBatch_through hne (by simp)) (.inl (by simp))
  | some k =>
      simp only [Option.some.injEq, forall_eq']
      by_cases hfirst : k < messages.length
      · refine iff_of_false (handleBatch_first hfirst) ?_
        rintro (h | ⟨rfl, -⟩)
        · omega
        · omega
      · by_cases hsecond : k < 2 * messages.length
        · rw [handleBatch_second (by omega) hsecond]
          exact ⟨fun h => .inr h, fun h => h.resolve_left (by omega)⟩
        · exact iff_of_true (handleBatch_through hne (by simp; omega)) (.inl (by omega))

/-- One message, and the request before it is looked at. -/
theorem shutdown_writes_twice :
    ¬Conserved [.other { jobId := "j", fileId := 1, transferStatus := .finished }]
      (MessageService.handleBatch { hostname := "a" } [.other { jobId := "j", fileId := 1, transferStatus := .finished }]
        { db := {}, request := some 0 }) := by
  intro h
  exact absurd h.length_eq (by decide)

end Fts3.Server
