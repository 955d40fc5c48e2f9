/-!
# Operations that are tried again

An operation runs, fails, waits to be started again and runs again, until a failure is final. What decides about the
next try is in the store, and nobody but the one who handles the failures writes it.
-/

namespace Fts3.Sql

variable {σ ε : Type}

/-- How the failures of an operation are handled. `ε` is the type of the reports of a failure. -/
structure RetryPath (σ ε : Type) where
  report : ε → σ → σ
  recoverable : ε → Prop
  running : σ → Prop
  waiting : σ → Prop
  failed : σ → Prop
  /-- Between a failure and the next one: what decides about a retry is left alone. -/
  untouched : σ → σ → Prop

namespace RetryPath

/-- The operation runs in `s`, after it has failed and been started again `n` times. -/
inductive Run (p : RetryPath σ ε) (s₀ : σ) : Nat → σ → Prop where
  | start : p.running s₀ → Run p s₀ 0 s₀
  | again {n : Nat} {s s' : σ} {e : ε} : Run p s₀ n s → p.recoverable e → p.waiting (p.report e s) →
      p.untouched (p.report e s) s' → p.running s' → Run p s₀ (n + 1) s'

/-- An operation that keeps failing is started again exactly `limit` times, and the next failure is final. -/
def Retries (p : RetryPath σ ε) (s₀ : σ) (limit : Nat) : Prop :=
  ∀ n s, p.Run s₀ n s → ∀ e, p.recoverable e →
    (n < limit → p.waiting (p.report e s)) ∧ (limit ≤ n → p.failed (p.report e s))

/-- The counter rule: `c s n` says that the store has counted `n` retries. -/
theorem retries_of_counter {p : RetryPath σ ε} {s₀ : σ} {limit : Nat} {c : σ → Nat → Prop} (hstart : c s₀ 0)
    (hdone : ∀ s, p.failed s → ¬p.waiting s)
    (huntouched : ∀ s s' n, p.untouched s s' → c s n → c s' n)
    (hagain : ∀ s e n, p.running s → p.recoverable e → c s n → n < limit → p.waiting (p.report e s) ∧ c (p.report e s) (n + 1))
    (hlast : ∀ s e n, p.running s → p.recoverable e → c s n → limit ≤ n → p.failed (p.report e s)) :
    p.Retries s₀ limit := by
  have hrun : ∀ n s, p.Run s₀ n s → p.running s ∧ c s n := by
    intro n s h
    induction h with
    | start hs => exact ⟨hs, hstart⟩
    | again hrun he hwaiting hsame hs ih =>
        refine ⟨hs, huntouched _ _ _ hsame ?_⟩
        refine (hagain _ _ _ ih.1 he ih.2 ?_).2
        apply Nat.lt_of_not_le
        intro hle
        exact hdone _ (hlast _ _ _ ih.1 he ih.2 hle) hwaiting
  intro n s h e he
  obtain ⟨hs, hc⟩ := hrun n s h
  exact ⟨fun hlt => (hagain s e n hs he hc hlt).1, fun hle => hlast s e n hs he hc hle⟩

end RetryPath

end Fts3.Sql
