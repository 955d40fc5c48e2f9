import Fts3.Sql.Proc

/-!
# Sessions and exceptions

A client talks to the store through a session, which may have a transaction open. To begin another one commits it; without
one every write is committed at once. Any statement may throw: the client stops there, and what becomes of the open
transaction is up to the one who catches the exception.
-/

namespace Fts3.Sql

/-- What the session sees, and what it goes back to if its open transaction is rolled back. -/
@[ext] structure Session (σ : Type) where
  data : σ
  saved : Option σ := none

namespace Session

variable {σ : Type}

def control : Tx → Session σ → Session σ
  | .begin, s => { s with saved := some s.data }
  | .commit, s => { s with saved := none }
  | .rollback, s => { data := s.saved.getD s.data }

/-- What is left when the open transaction is undone. -/
def committed (s : Session σ) : σ := s.saved.getD s.data

@[simp] theorem control_begin (s : Session σ) : s.control .begin = ⟨s.data, some s.data⟩ := rfl

@[simp] theorem control_commit (s : Session σ) : s.control .commit = ⟨s.data, none⟩ := rfl

@[simp] theorem control_rollback (s : Session σ) : s.control .rollback = ⟨s.committed, none⟩ := rfl

end Session

namespace Proc

variable {σ Q U α β : Type} (exec : U → σ → Nat × σ)

/-- Run a client on a session to its end. -/
def perform : Proc σ Q U α → Session σ → α × Session σ
  | .ret a, s => (a, s)
  | .select _ k, s => (k s.data).perform s
  | .update u k, s => (k (exec u s.data).1).perform { s with data := (exec u s.data).2 }
  | .tx t k, s => k.perform (s.control t)

/-- The same with the statement number `n` throwing an exception. -/
def attempt : Proc σ Q U α → Nat → Session σ → Option α × Session σ
  | .ret a, _, s => (some a, s)
  | .select _ k, n, s =>
      match n with
      | 0 => (none, s)
      | n + 1 => (k s.data).attempt n s
  | .update u k, n, s =>
      match n with
      | 0 => (none, s)
      | n + 1 => (k (exec u s.data).1).attempt n { s with data := (exec u s.data).2 }
  | .tx t k, n, s =>
      match n with
      | 0 => (none, s)
      | n + 1 => k.attempt n (s.control t)

/-- The number of statements of a run. -/
def count : Proc σ Q U α → Session σ → Nat
  | .ret _, _ => 0
  | .select _ k, s => (k s.data).count s + 1
  | .update u k, s => (k (exec u s.data).1).count { s with data := (exec u s.data).2 } + 1
  | .tx t k, s => k.count (s.control t) + 1

variable {exec}

theorem perform_bind (p : Proc σ Q U α) (f : α → Proc σ Q U β) (s : Session σ) :
    (p.bind f).perform exec s = (f (p.perform exec s).1).perform exec (p.perform exec s).2 := by
  induction p generalizing s with
  | ret a => rfl
  | select q k ih => exact ih _ s
  | update u k ih => exact ih _ _
  | tx t k ih => exact ih _

theorem count_bind (p : Proc σ Q U α) (f : α → Proc σ Q U β) (s : Session σ) :
    (p.bind f).count exec s = p.count exec s + (f (p.perform exec s).1).count exec (p.perform exec s).2 := by
  induction p generalizing s with
  | ret a => simp [count, perform]
  | select q k ih =>
      simp only [bind, count, perform, ih]
      omega
  | update u k ih =>
      simp only [bind, count, perform, ih]
      omega
  | tx t k ih =>
      simp only [bind, count, perform, ih]
      omega

theorem attempt_zero {p : Proc σ Q U α} {s : Session σ} (h : 0 < p.count exec s) : p.attempt exec 0 s = (none, s) := by
  cases p with
  | ret a => exact absurd h (Nat.lt_irrefl 0)
  | select q k => rfl
  | update u k => rfl
  | tx t k => rfl

/-- The exception is thrown in the first part. -/
theorem attempt_bind_lt (p : Proc σ Q U α) (f : α → Proc σ Q U β) {n : Nat} {s : Session σ} (h : n < p.count exec s) :
    (p.bind f).attempt exec n s = (none, (p.attempt exec n s).2) := by
  induction p generalizing n s with
  | ret a => exact absurd h (Nat.not_lt_zero n)
  | select q k ih =>
      cases n with
      | zero => rfl
      | succ n => exact ih _ (Nat.lt_of_succ_lt_succ h)
  | update u k ih =>
      cases n with
      | zero => rfl
      | succ n => exact ih _ (Nat.lt_of_succ_lt_succ h)
  | tx t k ih =>
      cases n with
      | zero => rfl
      | succ n => exact ih (Nat.lt_of_succ_lt_succ h)

/-- The exception is thrown after the first part. -/
theorem attempt_bind_add (p : Proc σ Q U α) (f : α → Proc σ Q U β) (n : Nat) (s : Session σ) :
    (p.bind f).attempt exec (p.count exec s + n) s =
      (f (p.perform exec s).1).attempt exec n (p.perform exec s).2 := by
  induction p generalizing s with
  | ret a => simp [count, perform, bind]
  | select q k ih =>
      rw [count, Nat.add_right_comm]
      exact ih _ s
  | update u k ih =>
      rw [count, Nat.add_right_comm]
      exact ih _ _
  | tx t k ih =>
      rw [count, Nat.add_right_comm]
      exact ih _

/-! ## Without transaction statements -/

/-- No transaction begins or ends on the way of the client from `s`. -/
def Quiet (exec : U → σ → Nat × σ) : Proc σ Q U α → σ → Prop
  | .ret _, _ => True
  | .select _ k, s => (k s).Quiet exec s
  | .update u k, s => (k (exec u s).1).Quiet exec (exec u s).2
  | .tx _ _, _ => False

@[simp] theorem quiet_ret (a : α) (s : σ) : (Proc.ret a : Proc σ Q U α).Quiet exec s ↔ True := Iff.rfl

@[simp] theorem quiet_select (q : Q) (k : σ → Proc σ Q U α) (s : σ) :
    (Proc.select q k).Quiet exec s ↔ (k s).Quiet exec s := Iff.rfl

@[simp] theorem quiet_update (u : U) (k : Nat → Proc σ Q U α) (s : σ) :
    (Proc.update u k).Quiet exec s ↔ (k (exec u s).1).Quiet exec (exec u s).2 := Iff.rfl

theorem Quiet.bind {p : Proc σ Q U α} {f : α → Proc σ Q U β} {s : σ} (hp : p.Quiet exec s)
    (hf : (f (p.run exec s).1).Quiet exec (p.run exec s).2) : (p.bind f).Quiet exec s := by
  induction p generalizing s with
  | ret a => exact hf
  | select q k ih => exact ih _ hp hf
  | update u k ih => exact ih _ hp hf
  | tx t k ih => exact hp.elim

theorem quiet_forM {γ : Type} {I : σ → Prop} {xs : List γ} {f : γ → Proc σ Q U PUnit}
    (hf : ∀ x ∈ xs, ∀ s, I s → (f x).Quiet exec s ∧ I ((f x).run exec s).2) {s : σ} (hs : I s) :
    (xs.forM f).Quiet exec s := by
  induction xs generalizing s with
  | nil => trivial
  | cons x xs ih =>
      obtain ⟨hquiet, hnext⟩ := hf x (by simp) s hs
      exact hquiet.bind (ih (fun y hy => hf y (by simp [hy])) hnext)

theorem Quiet.attempt {p : Proc σ Q U α} {s : Session σ} (hp : p.Quiet exec s.data) (n : Nat) :
    (p.attempt exec n s).2.saved = s.saved := by
  induction p generalizing n s with
  | ret a => rfl
  | select q k ih =>
      cases n with
      | zero => rfl
      | succ n => exact ih _ hp n
  | update u k ih =>
      cases n with
      | zero => rfl
      | succ n => exact ih (exec u s.data).1 (s := { s with data := (exec u s.data).2 }) hp n
  | tx t k ih => exact hp.elim

theorem Quiet.perform {p : Proc σ Q U α} {s : Session σ} (hp : p.Quiet exec s.data) :
    (p.perform exec s).2.saved = s.saved := by
  induction p generalizing s with
  | ret a => rfl
  | select q k ih => exact ih _ hp
  | update u k ih => exact ih (exec u s.data).1 (s := { s with data := (exec u s.data).2 }) hp
  | tx t k ih => exact hp.elim

/-- Every transaction statement of the client satisfies `P`. -/
def Controls (P : Tx → Prop) : Proc σ Q U α → Prop
  | .ret _ => True
  | .select _ k => ∀ s, (k s).Controls P
  | .update _ k => ∀ n, (k n).Controls P
  | .tx t k => P t ∧ k.Controls P

section controls

variable {P : Tx → Prop}

@[simp] theorem controls_ret (a : α) : (Proc.ret a : Proc σ Q U α).Controls P ↔ True := Iff.rfl

@[simp] theorem controls_select (q : Q) (k : σ → Proc σ Q U α) :
    (Proc.select q k).Controls P ↔ ∀ s, (k s).Controls P := Iff.rfl

@[simp] theorem controls_update (u : U) (k : Nat → Proc σ Q U α) :
    (Proc.update u k).Controls P ↔ ∀ n, (k n).Controls P := Iff.rfl

@[simp] theorem controls_tx (t : Tx) (k : Proc σ Q U α) : (Proc.tx t k).Controls P ↔ P t ∧ k.Controls P := Iff.rfl

@[simp] theorem controls_ite {c : Prop} [Decidable c] (p q : Proc σ Q U α) :
    (if c then p else q).Controls P ↔ (c → p.Controls P) ∧ (¬c → q.Controls P) := by
  by_cases h : c <;> simp [h]

theorem Controls.bind {p : Proc σ Q U α} {f : α → Proc σ Q U β} (hp : p.Controls P)
    (hf : ∀ a, (f a).Controls P) : (p.bind f).Controls P := by
  induction p with
  | ret a => exact hf a
  | select q k ih => exact fun s => ih s (hp s)
  | update u k ih => exact fun n => ih n (hp n)
  | tx t k ih => exact ⟨hp.1, ih hp.2⟩

theorem controls_forM {γ : Type} (xs : List γ) {f : γ → Proc σ Q U PUnit} (hf : ∀ x, (f x).Controls P) :
    (xs.forM f).Controls P := by
  induction xs with
  | nil => trivial
  | cons x xs ih => exact (hf x).bind fun _ => ih

theorem Controls.mono {P' : Tx → Prop} {p : Proc σ Q U α} (hp : p.Controls P) (h : ∀ t, P t → P' t) : p.Controls P' := by
  induction p with
  | ret a => trivial
  | select q k ih => exact fun s => ih s (hp s)
  | update u k ih => exact fun n => ih n (hp n)
  | tx t k ih => exact ⟨h t hp.1, ih hp.2⟩

theorem Controls.quiet {p : Proc σ Q U α} (hp : p.Controls fun _ => False) (s : σ) : p.Quiet exec s := by
  induction p generalizing s with
  | ret a => trivial
  | select q k ih => exact ih _ (hp _) s
  | update u k ih => exact ih _ (hp _) _
  | tx t k ih => exact hp.1

end controls

variable (exec) in
/-- Without a rollback a session does what the client does alone. -/
theorem Controls.perform {p : Proc σ Q U α} (hp : p.Controls (· ≠ .rollback)) (s : Session σ) :
    (p.perform exec s).1 = (p.run exec s.data).1 ∧ (p.perform exec s).2.data = (p.run exec s.data).2 := by
  induction p generalizing s with
  | ret a => exact ⟨rfl, rfl⟩
  | select q k ih => exact ih _ (hp _) s
  | update u k ih => exact ih _ (hp _) _
  | tx t k ih =>
      have hdata : (s.control t).data = s.data := by
        cases t with
        | begin => rfl
        | commit => rfl
        | rollback => exact absurd rfl hp.1
      have h := ih hp.2 (s.control t)
      rw [hdata] at h
      exact h

/-- A client that only reads leaves the session as it is. -/
theorem Controls.perform_reads {p : Proc σ Q U α} (hp : p.Controls fun _ => False) (hissues : p.Issues fun _ => False)
    (s : Session σ) : p.perform exec s = ((p.run exec s.data).1, s) := by
  obtain ⟨hresult, hdata⟩ := (hp.mono fun _ h => h.elim).perform exec s
  refine Prod.ext hresult (Session.ext ?_ (hp.quiet s.data).perform)
  rw [hdata, hissues.run_eq_answer]

/-! ## A batch in one transaction -/

section batch

variable {γ : Type} (xs : List γ) (f : γ → Proc σ Q U PUnit)

/-- The steps of a batch, between `BEGIN` and `COMMIT`. -/
def batch : Proc σ Q U Unit :=
  .tx .begin ((xs.forM f).bind fun _ => .tx .commit (.ret ()))

variable {xs f}

/-- When no step begins a transaction of its own, an exception leaves nothing behind once it has been rolled back. -/
theorem attempt_batch (g : Unit → Proc σ Q U β) {s : σ} (hquiet : (xs.forM f).Quiet exec s) {n : Nat}
    (hn : n < (batch xs f).count exec ⟨s, none⟩) :
    (((batch xs f).bind g).attempt exec n ⟨s, none⟩).2.committed = s := by
  rw [attempt_bind_lt _ _ hn]
  cases n with
  | zero => rfl
  | succ n =>
      change (((xs.forM f).bind fun _ => Proc.tx .commit (.ret ())).attempt exec n ⟨s, some s⟩).2.committed = s
      have hcount : n < (xs.forM f).count exec ⟨s, some s⟩ + 1 := by
        have h := Nat.lt_of_succ_lt_succ hn
        rw [Session.control_begin, count_bind] at h
        exact h
      by_cases hlt : n < (xs.forM f).count exec ⟨s, some s⟩
      · rw [attempt_bind_lt _ _ hlt, Session.committed, Quiet.attempt hquiet]
        rfl
      · obtain rfl : n = (xs.forM f).count exec ⟨s, some s⟩ + 0 := by omega
        rw [attempt_bind_add]
        change ((xs.forM f).perform exec ⟨s, some s⟩).2.committed = s
        rw [Session.committed, Quiet.perform hquiet]
        rfl

/-- Within its transaction the batch can be undone, until it is committed. -/
theorem attempt_batch_saved {s : σ} (hquiet : (xs.forM f).Quiet exec s) (n : Nat) :
    ((batch xs f).attempt exec n ⟨s, none⟩).2.saved = none ↔ n = 0 ∨ (batch xs f).count exec ⟨s, none⟩ ≤ n := by
  have hcount : (batch xs f).count exec ⟨s, none⟩ = (xs.forM f).count exec ⟨s, some s⟩ + 2 := by
    simp only [batch, count, count_bind, Session.control_begin]
  cases n with
  | zero => simp [batch, attempt]
  | succ n =>
      rw [hcount]
      change (((xs.forM f).bind fun _ => Proc.tx .commit (.ret ())).attempt exec n ⟨s, some s⟩).2.saved = none ↔ _
      by_cases hlt : n < (xs.forM f).count exec ⟨s, some s⟩
      · rw [attempt_bind_lt _ _ hlt, Quiet.attempt hquiet]
        simp only [reduceCtorEq, false_iff, false_or]
        omega
      · obtain ⟨m, rfl⟩ : ∃ m, n = (xs.forM f).count exec ⟨s, some s⟩ + m := ⟨n - (xs.forM f).count exec ⟨s, some s⟩, by omega⟩
        rw [attempt_bind_add]
        cases m with
        | zero =>
            rw [attempt, Quiet.perform hquiet]
            simp only [reduceCtorEq, false_iff, false_or]
            omega
        | succ m =>
            simp only [attempt, Session.control_commit, true_iff]
            omega

theorem forM_append (xs ys : List γ) (f : γ → Proc σ Q U PUnit) :
    (xs ++ ys).forM f = (xs.forM f).bind fun _ => ys.forM f := by
  induction xs with
  | nil => rfl
  | cons x xs ih =>
      change (f x).bind (fun _ => (xs ++ ys).forM f) = ((f x).bind fun _ => xs.forM f).bind fun _ => ys.forM f
      rw [bind_assoc]
      simp only [ih]

/-- A step that commits a transaction of its own leaves what has been done so far behind, also when the next statement
throws. -/
theorem attempt_batch_committed (g : Unit → Proc σ Q U β) {pre post : List γ} {x : γ} {reset : Proc σ Q U α}
    {h : α → Proc σ Q U PUnit} (hx : f x = reset.bind h) (hpre : (pre.forM f).Controls (· ≠ .rollback)) {s s' : σ}
    (hreset : ∀ saved, (reset.perform exec ⟨((pre.forM f).run exec s).2, saved⟩).2 = ⟨s', none⟩) :
    ∃ n < (batch (pre ++ x :: post) f).count exec ⟨s, none⟩,
      (((batch (pre ++ x :: post) f).bind g).attempt exec n ⟨s, none⟩).2 = ⟨s', none⟩ := by
  have hbatch : batch (pre ++ x :: post) f = (Proc.tx .begin ((pre.forM f).bind fun _ => reset)).bind fun a =>
      (h a).bind fun _ => (post.forM f).bind fun _ => .tx .commit (.ret ()) := by
    rw [batch, forM_append, show (x :: post).forM f = (f x).bind fun _ => post.forM f from rfl, hx]
    simp only [bind, bind_assoc]
  have hperform : ((Proc.tx .begin ((pre.forM f).bind fun _ => reset)).perform exec ⟨s, none⟩).2 = ⟨s', none⟩ := by
    have hdata := (hpre.perform exec ⟨s, some s⟩).2
    change (((pre.forM f).bind fun _ => reset).perform exec ⟨s, some s⟩).2 = _
    rw [perform_bind]
    generalize ((pre.forM f).perform exec ⟨s, some s⟩).2 = t at hdata ⊢
    rw [show t = ⟨((pre.forM f).run exec s).2, t.saved⟩ by rw [← hdata]]
    exact hreset t.saved
  refine ⟨(Proc.tx .begin ((pre.forM f).bind fun _ => reset)).count exec ⟨s, none⟩ + 0, ?_, ?_⟩
  · rw [hbatch, count_bind, count_bind, count_bind]
    simp only [count]
    omega
  · rw [hbatch, bind_assoc, attempt_bind_add, hperform, attempt_bind_lt, attempt_zero]
    · rw [count_bind, count_bind]
      simp only [count]
      omega
    · rw [count_bind, count_bind]
      simp only [count]
      omega

end batch

end Proc

end Fts3.Sql
