import Fts3.Sql.Memory
import Fts3.Sql.Session

/-!
# Exceptions and their handlers

Any statement may throw instead of being executed. The exception passes the handlers on its way out: one may roll the
session back and pass it on, one may go on with something else.
-/

namespace Fts3.Sql

/-- Which of the statements to come throw. -/
abbrev Faults := Nat → Bool

namespace Faults

def tail (w : Faults) : Faults := fun n => w (n + 1)

/-- The statement number `n` is the first one that throws. -/
def First (w : Faults) (n : Nat) : Prop := w n = true ∧ ∀ m < n, w m = false

variable {w : Faults} {n : Nat}

theorem First.tail (h : w.First (n + 1)) : w.tail.First n :=
  ⟨h.1, fun m hm => h.2 (m + 1) (by omega)⟩

theorem First.eq {m : Nat} (hn : w.First n) (hm : w.First m) : n = m := by
  rcases Nat.lt_trichotomy n m with h | h | h
  · exact absurd hn.1 (by simp [hm.2 n h])
  · exact h
  · exact absurd hm.1 (by simp [hn.2 m h])

theorem exists_first (h : w n = true) : ∃ m ≤ n, w.First m := by
  induction n using Nat.strongRecOn with
  | _ n ih =>
      by_cases hlt : ∃ m < n, w m = true
      · obtain ⟨m, hm, hw⟩ := hlt
        obtain ⟨k, hk, hfirst⟩ := ih m hm hw
        exact ⟨k, by omega, hfirst⟩
      · refine ⟨n, Nat.le_refl n, h, fun m hm => ?_⟩
        cases hw : w m with
        | false => rfl
        | true => exact absurd ⟨m, hm, hw⟩ hlt

/-- The first one that throws is not in the given range. -/
theorem first_iff (a b : Nat) : (∀ n, w.First n → ¬(a ≤ n ∧ n < b)) ↔
    (∃ m < a, w m = true) ∨ ∀ n, a ≤ n → n < b → w n = false := by
  constructor
  · intro h
    by_cases hfirst : ∃ n, w.First n
    · obtain ⟨n, hn⟩ := hfirst
      by_cases ha : n < a
      · exact .inl ⟨n, ha, hn.1⟩
      · refine .inr fun m _ hb => hn.2 m ?_
        have hnot := h n hn
        omega
    · refine .inr fun n _ _ => ?_
      cases hn : w n with
      | false => rfl
      | true =>
          obtain ⟨m, -, hm⟩ := exists_first hn
          exact absurd ⟨m, hm⟩ hfirst
  · rintro (⟨m, hm, hw⟩ | h) n hn ⟨ha, hb⟩
    · exact absurd hw (by simp [hn.2 m (by omega)])
    · exact absurd hn.1 (by simp [h n ha hb])

end Faults

/-- A client with handlers, on a session. It ends with a value, or with an exception that was thrown in the given
session. -/
def Action (σ α : Type) : Type := Faults → Session σ → Except (Session σ) α × Faults × Session σ

namespace Action

variable {σ Q U α β : Type}

def bind (x : Action σ α) (f : α → Action σ β) : Action σ β := fun w s =>
  match x w s with
  | (.ok a, w, s) => f a w s
  | (.error t, w, s) => (.error t, w, s)

instance : Monad (Action σ) where
  pure a := fun w s => (.ok a, w, s)
  bind := bind

/-- `try { x } catch (...) { rollback; throw; }`. -/
def rollingBack (x : Action σ α) : Action σ α := fun w s =>
  match x w s with
  | (.ok a, w, s) => (.ok a, w, s)
  | (.error t, w, s) => (.error t, w, s.control .rollback)

/-- `try { x } catch (...) { y }`. -/
def orElse (x y : Action σ α) : Action σ α := fun w s =>
  match x w s with
  | (.ok a, w, s) => (.ok a, w, s)
  | (.error _, w, s) => y w s

/-- From a session without a transaction the client ends in one without, and if it throws, what the transaction in which
the exception was thrown has done is undone. -/
def Clean (x : Action σ α) (w : Faults) (s : σ) : Prop :=
  (x w ⟨s, none⟩).2.2.saved = none ∧
    ∀ t, (x w ⟨s, none⟩).1 = .error t → (x w ⟨s, none⟩).2.2.data = t.committed

/-- Clean whatever throws. -/
def Safe (x : Action σ α) : Prop := ∀ w s, x.Clean w s

/-- The client ends with a value outside of any transaction, or with an exception after which nothing more has been
committed. -/
def Tidy (x : Action σ α) : Prop := ∀ w s,
  (∃ a w' d, x w ⟨s, none⟩ = (.ok a, w', ⟨d, none⟩)) ∨
    ∃ t w' s', x w ⟨s, none⟩ = (.error t, w', s') ∧ s'.committed = t.committed

@[simp] theorem bind_eq (x : Action σ α) (f : α → Action σ β) : x >>= f = x.bind f := rfl

theorem safe_pure (a : α) : (pure a : Action σ α).Safe := by
  intro w s
  exact ⟨rfl, fun t ht => by cases ht⟩

section cases

variable {x : Action σ α} {w : Faults} {s : σ}

/-- A clean client ends with a value outside of any transaction, or with an exception. -/
theorem Clean.cases (h : x.Clean w s) :
    (∃ a w' d, x w ⟨s, none⟩ = (.ok a, w', ⟨d, none⟩)) ∨ ∃ t w', x w ⟨s, none⟩ = (.error t, w', ⟨t.committed, none⟩) := by
  obtain ⟨hclosed, hundone⟩ := h
  generalize hx : x w ⟨s, none⟩ = r at hclosed hundone
  obtain ⟨v, w', ⟨d, saved⟩⟩ := r
  obtain rfl : saved = none := hclosed
  cases v with
  | ok a => exact .inl ⟨a, w', d, rfl⟩
  | error t =>
      obtain rfl : d = t.committed := hundone t rfl
      exact .inr ⟨t, w', rfl⟩

theorem clean_of_ok {a : α} {w' : Faults} {d : σ} (h : x w ⟨s, none⟩ = (.ok a, w', ⟨d, none⟩)) : x.Clean w s := by
  refine ⟨by rw [h], fun t ht => ?_⟩
  rw [h] at ht
  cases ht

theorem clean_of_error {t : Session σ} {w' : Faults} (h : x w ⟨s, none⟩ = (.error t, w', ⟨t.committed, none⟩)) :
    x.Clean w s := by
  refine ⟨by rw [h], fun t' ht => ?_⟩
  rw [h] at ht ⊢
  cases ht
  rfl

/-- What follows a clean client has to be clean where it ends. -/
theorem Clean.bind {f : α → Action σ β} (hx : x.Clean w s) (hf : ∀ a, (f a).Safe) : (x >>= f).Clean w s := by
  rcases hx.cases with ⟨a, w', d, h⟩ | ⟨t, w', h⟩
  · have heq : (x >>= f) w ⟨s, none⟩ = f a w' ⟨d, none⟩ := by
      rw [bind_eq, Action.bind, h]
    have hclean := hf a w' d
    rw [Clean, heq]
    exact hclean
  · have heq : (x >>= f) w ⟨s, none⟩ = (.error t, w', ⟨t.committed, none⟩) := by
      rw [bind_eq, Action.bind, h]
    exact clean_of_error heq

end cases

theorem Safe.bind {x : Action σ α} {f : α → Action σ β} (hx : x.Safe) (hf : ∀ a, (f a).Safe) : (x >>= f).Safe :=
  fun w s => (hx w s).bind hf

theorem Safe.orElse {x y : Action σ α} (hx : x.Safe) (hy : y.Safe) : (x.orElse y).Safe := by
  intro w s
  rcases (hx w s).cases with ⟨a, w', d, h⟩ | ⟨t, w', h⟩
  · have heq : x.orElse y w ⟨s, none⟩ = (.ok a, w', ⟨d, none⟩) := by
      rw [Action.orElse, h]
    exact clean_of_ok heq
  · have heq : x.orElse y w ⟨s, none⟩ = y w' ⟨t.committed, none⟩ := by
      rw [Action.orElse, h]
    have hclean := hy w' t.committed
    rw [Clean, heq]
    exact hclean

theorem tidy_pure (a : α) : (pure a : Action σ α).Tidy := fun w s => .inl ⟨a, w, s, rfl⟩

theorem Safe.tidy {x : Action σ α} (hx : x.Safe) : x.Tidy := by
  intro w s
  rcases (hx w s).cases with h | ⟨t, w', h⟩
  · exact .inl h
  · exact .inr ⟨t, w', _, h, rfl⟩

theorem Tidy.bind {x : Action σ α} {f : α → Action σ β} (hx : x.Tidy) (hf : ∀ a, (f a).Tidy) : (x >>= f).Tidy := by
  intro w s
  rcases hx w s with ⟨a, w', d, h⟩ | ⟨t, w', s', h, hs'⟩
  · have heq : (x >>= f) w ⟨s, none⟩ = f a w' ⟨d, none⟩ := by
      rw [bind_eq, Action.bind, h]
    rw [heq]
    exact hf a w' d
  · refine .inr ⟨t, w', s', ?_, hs'⟩
    rw [bind_eq, Action.bind, h]

/-- What follows it does not matter to whether the first part is clean. -/
theorem Tidy.clean_bind {x : Action σ α} {f : α → Action σ β} (hx : x.Tidy) (hf : ∀ a, (f a).Safe) {w : Faults} {s : σ} :
    (x >>= f).Clean w s ↔ x.Clean w s := by
  refine ⟨fun h => ?_, fun h => h.bind hf⟩
  rcases hx w s with ⟨a, w', d, hok⟩ | ⟨t, w', s', herr, -⟩
  · exact clean_of_ok hok
  · have heq : (x >>= f) w ⟨s, none⟩ = (.error t, w', s') := by
      rw [bind_eq, Action.bind, herr]
    rw [Clean, heq] at h
    rw [Clean, herr]
    refine ⟨h.1, fun t' ht' => h.2 t' ?_⟩
    cases ht'
    rfl

theorem tidy_ite {c : Prop} [Decidable c] {x y : Action σ α} (hx : x.Tidy) (hy : y.Tidy) : (if c then x else y).Tidy := by
  split
  · exact hx
  · exact hy

theorem Tidy.rollingBack {x : Action σ α} (hx : x.Tidy) : x.rollingBack.Safe := by
  intro w s
  rcases hx w s with ⟨a, w', d, h⟩ | ⟨t, w', s', h, hs'⟩
  · have heq : x.rollingBack w ⟨s, none⟩ = (.ok a, w', ⟨d, none⟩) := by
      rw [Action.rollingBack, h]
    exact clean_of_ok heq
  · have heq : x.rollingBack w ⟨s, none⟩ = (.error t, w', ⟨t.committed, none⟩) := by
      rw [Action.rollingBack, h, ← hs']
      rfl
    exact clean_of_error heq

end Action

namespace Proc

variable {σ Q U α β : Type} (exec : U → σ → Nat × σ)

/-- A client without handlers. -/
def action : Proc σ Q U α → Action σ α
  | .ret a => fun w s => (.ok a, w, s)
  | .select _ k => fun w s => if w 0 then (.error s, w.tail, s) else (k s.data).action w.tail s
  | .update u k => fun w s =>
      if w 0 then (.error s, w.tail, s)
      else (k (exec u s.data).1).action w.tail { s with data := (exec u s.data).2 }
  | .tx t k => fun w s => if w 0 then (.error s, w.tail, s) else k.action w.tail (s.control t)

variable {exec}

theorem action_select (q : Q) (k : σ → Proc σ Q U α) (w : Faults) (s : Session σ) : (Proc.select q k).action exec w s =
    if w 0 then (.error s, w.tail, s) else (k s.data).action exec w.tail s := rfl

theorem action_update (u : U) (k : Nat → Proc σ Q U α) (w : Faults) (s : Session σ) : (Proc.update u k).action exec w s =
    if w 0 then (.error s, w.tail, s)
    else (k (exec u s.data).1).action exec w.tail { s with data := (exec u s.data).2 } := rfl

theorem action_tx (t : Tx) (k : Proc σ Q U α) (w : Faults) (s : Session σ) : (Proc.tx t k).action exec w s =
    if w 0 then (.error s, w.tail, s) else k.action exec w.tail (s.control t) := rfl

/-! ## Transactions that are open at the end -/

/-- Whatever its statements answer, the client that starts with a transaction open or not (`b`) ends with `Φ`. -/
def Ends (Φ : α → Bool → Prop) : Proc σ Q U α → Bool → Prop
  | .ret a, b => Φ a b
  | .select _ k, b => ∀ s, (k s).Ends Φ b
  | .update _ k, b => ∀ n, (k n).Ends Φ b
  | .tx t k, _ => k.Ends Φ (decide (t = .begin))

/-- No transaction is open at the end. -/
def Closes (p : Proc σ Q U α) (b : Bool) : Prop := p.Ends (fun _ b' => b' = false) b

section ends

variable {Φ : α → Bool → Prop} {b : Bool}

@[simp] theorem closes_ret (a : α) : (Proc.ret a : Proc σ Q U α).Closes b ↔ b = false := Iff.rfl

@[simp] theorem closes_select (q : Q) (k : σ → Proc σ Q U α) :
    (Proc.select q k).Closes b ↔ ∀ s, (k s).Closes b := Iff.rfl

@[simp] theorem closes_update (u : U) (k : Nat → Proc σ Q U α) :
    (Proc.update u k).Closes b ↔ ∀ n, (k n).Closes b := Iff.rfl

@[simp] theorem closes_begin (k : Proc σ Q U α) : (Proc.tx .begin k).Closes b ↔ k.Closes true := Iff.rfl

@[simp] theorem closes_commit (k : Proc σ Q U α) : (Proc.tx .commit k).Closes b ↔ k.Closes false := Iff.rfl

@[simp] theorem closes_rollback (k : Proc σ Q U α) : (Proc.tx .rollback k).Closes b ↔ k.Closes false := Iff.rfl

@[simp] theorem closes_ite {c : Prop} [Decidable c] (p q : Proc σ Q U α) :
    (if c then p else q).Closes b ↔ (c → p.Closes b) ∧ (¬c → q.Closes b) := by
  by_cases h : c <;> simp [h]

theorem Ends.bind {p : Proc σ Q U α} {f : α → Proc σ Q U β} {Ψ : β → Bool → Prop} (hp : p.Ends Φ b)
    (hf : ∀ a b, Φ a b → (f a).Ends Ψ b) : (p.bind f).Ends Ψ b := by
  induction p generalizing b with
  | ret a => exact hf a b hp
  | select q k ih => exact fun s => ih s (hp s)
  | update u k ih => exact fun n => ih n (hp n)
  | tx t k ih => exact ih hp

theorem ends_true (p : Proc σ Q U α) (b : Bool) : p.Ends (fun _ _ => True) b := by
  induction p generalizing b with
  | ret a => trivial
  | select q k ih => exact fun s => ih s b
  | update u k ih => exact fun n => ih n b
  | tx t k ih => exact ih _

theorem Closes.bind {p : Proc σ Q U α} {f : α → Proc σ Q U β} (hp : p.Closes b) (hf : ∀ a, (f a).Closes false) :
    (p.bind f).Closes b :=
  Ends.bind hp fun a b' hb' => by
    subst hb'
    exact hf a

/-- However the first part ends. -/
theorem closes_bind (p : Proc σ Q U α) {f : α → Proc σ Q U β} (hf : ∀ a b, (f a).Closes b) : (p.bind f).Closes b :=
  (ends_true p b).bind fun a b' _ => hf a b'

theorem closes_forM {γ : Type} (xs : List γ) {f : γ → Proc σ Q U PUnit} (hf : ∀ x, (f x).Closes false) :
    (xs.forM f).Closes false := by
  induction xs with
  | nil => rfl
  | cons x xs ih => exact (hf x).bind fun _ => ih

/-- Without transaction statements it stays as it is. -/
theorem Controls.ends {p : Proc σ Q U α} (hp : p.Controls fun _ => False) (b : Bool) : p.Ends (fun _ b' => b' = b) b := by
  induction p with
  | ret a => rfl
  | select q k ih => exact fun s => ih s (hp s)
  | update u k ih => exact fun n => ih n (hp n)
  | tx t k ih => exact hp.1.elim

theorem controls_collect {γ : Type} {P : Tx → Prop} {f : γ → Proc σ Q U (List β)} (hf : ∀ x, (f x).Controls P)
    (xs : List γ) : (collect f xs).Controls P := by
  induction xs with
  | nil => trivial
  | cons x xs ih => exact (hf x).bind fun ys => ih.bind fun zs => trivial

end ends

/-! ## The session at the end -/

theorem isSome_control (t : Tx) (s : Session σ) : (s.control t).saved.isSome = decide (t = .begin) := by
  cases t <;> rfl

/-- An exception ends the client in the session in which it was thrown. -/
theorem action_error {p : Proc σ Q U α} {w : Faults} {s t : Session σ} (h : (p.action exec w s).1 = .error t) :
    (p.action exec w s).2.2 = t := by
  induction p generalizing w s with
  | ret a => cases h
  | select q k ih =>
      rw [action_select] at h ⊢
      split at h
      · rename_i hw
        rw [if_pos hw]
        cases h
        rfl
      · rename_i hw
        rw [if_neg hw]
        exact ih _ h
  | update u k ih =>
      rw [action_update] at h ⊢
      split at h
      · rename_i hw
        rw [if_pos hw]
        cases h
        rfl
      · rename_i hw
        rw [if_neg hw]
        exact ih _ h
  | tx c k ih =>
      rw [action_tx] at h ⊢
      split at h
      · rename_i hw
        rw [if_pos hw]
        cases h
        rfl
      · rename_i hw
        rw [if_neg hw]
        exact ih h

theorem Ends.action {Φ : α → Bool → Prop} {p : Proc σ Q U α} {w : Faults} {s : Session σ} (hp : p.Ends Φ s.saved.isSome)
    {a : α} (h : (p.action exec w s).1 = .ok a) : Φ a (p.action exec w s).2.2.saved.isSome := by
  induction p generalizing w s with
  | ret a' =>
      cases h
      exact hp
  | select q k ih =>
      rw [action_select] at h ⊢
      split at h
      · cases h
      · rename_i hw
        rw [if_neg hw]
        exact ih _ (hp _) h
  | update u k ih =>
      rw [action_update] at h ⊢
      split at h
      · cases h
      · rename_i hw
        rw [if_neg hw]
        exact ih (exec u s.data).1 (s := { s with data := (exec u s.data).2 }) (hp _) h
  | tx c k ih =>
      rw [action_tx] at h ⊢
      split at h
      · cases h
      · rename_i hw
        rw [if_neg hw]
        refine ih ?_ h
        rw [isSome_control]
        exact hp

/-- A client that closes its transactions leaves only the one open in which an exception is thrown. -/
theorem Closes.tidy {p : Proc σ Q U α} (hp : p.Closes false) : (p.action exec).Tidy := by
  intro w s
  generalize hr : p.action exec w ⟨s, none⟩ = r
  obtain ⟨v, w', s'⟩ := r
  cases v with
  | ok a =>
      have hclosed : (p.action exec w ⟨s, none⟩).2.2.saved.isSome = false :=
        Ends.action (s := ⟨s, none⟩) hp (a := a) (by rw [hr])
      have hs' : s' = ⟨s'.data, none⟩ := Session.ext rfl (by simpa [hr] using hclosed)
      exact .inl ⟨a, w', s'.data, by rw [← hs']⟩
  | error t =>
      have hend := action_error (p := p) (w := w) (s := ⟨s, none⟩) (t := t) (by rw [hr])
      rw [hr] at hend
      exact .inr ⟨t, w', s', rfl, by rw [show s' = t from hend]⟩

/-- A client that only reads needs no handler. -/
theorem Controls.safe {p : Proc σ Q U α} (hp : p.Controls fun _ => False) : (p.action exec).Safe := by
  intro w s
  have hsaved : ∀ (w : Faults) (s : Session σ), (p.action exec w s).2.2.saved = s.saved := by
    clear w s
    induction p with
    | ret a => exact fun w s => rfl
    | select q k ih =>
        intro w s
        rw [action_select]
        split
        · rfl
        · exact ih _ (hp _) _ _
    | update u k ih =>
        intro w s
        rw [action_update]
        split
        · rfl
        · exact ih _ (hp _) _ _
    | tx t k ih => exact hp.1.elim
  refine ⟨hsaved w ⟨s, none⟩, fun t ht => ?_⟩
  obtain rfl := action_error ht
  rw [Session.committed, hsaved w ⟨s, none⟩]
  rfl

/-! ## Without a handler -/

/-- The run up to the first statement that throws. -/
theorem action_first {p : Proc σ Q U α} {w : Faults} {n : Nat} (hw : w.First n) (s : Session σ) :
    (p.action exec w s).2.2 = (p.attempt exec n s).2 := by
  induction p generalizing w n s with
  | ret a => rfl
  | select q k ih =>
      cases n with
      | zero => rw [action_select, if_pos hw.1, attempt]
      | succ n =>
          rw [action_select, if_neg (by simp [hw.2 0]), attempt]
          exact ih _ hw.tail s
  | update u k ih =>
      cases n with
      | zero => rw [action_update, if_pos hw.1, attempt]
      | succ n =>
          rw [action_update, if_neg (by simp [hw.2 0]), attempt]
          exact ih _ hw.tail _
  | tx t k ih =>
      cases n with
      | zero => rw [action_tx, if_pos hw.1, attempt]
      | succ n =>
          rw [action_tx, if_neg (by simp [hw.2 0]), attempt]
          exact ih hw.tail _

theorem action_none {p : Proc σ Q U α} {w : Faults} (hw : ∀ n, w n = false) (s : Session σ) :
    (p.action exec w s).2.2 = (p.perform exec s).2 := by
  induction p generalizing w s with
  | ret a => rfl
  | select q k ih =>
      rw [action_select, if_neg (by simp [hw 0]), perform]
      exact ih _ (fun n => hw (n + 1)) s
  | update u k ih =>
      rw [action_update, if_neg (by simp [hw 0]), perform]
      exact ih _ (fun n => hw (n + 1)) _
  | tx t k ih =>
      rw [action_tx, if_neg (by simp [hw 0]), perform]
      exact ih (fun n => hw (n + 1)) _

theorem clean_iff_saved {p : Proc σ Q U α} {w : Faults} {s : σ} :
    (p.action exec).Clean w s ↔ (p.action exec w ⟨s, none⟩).2.2.saved = none := by
  refine ⟨fun h => h.1, fun h => ⟨h, fun t ht => ?_⟩⟩
  obtain rfl := action_error ht
  rw [Session.committed, h]
  rfl

/-- The session is left as the first statement that throws finds it. -/
theorem clean_iff {p : Proc σ Q U α} {s : σ} (hend : (p.perform exec ⟨s, none⟩).2.saved = none) (w : Faults) :
    (p.action exec).Clean w s ↔ ∀ n, w.First n → (p.attempt exec n ⟨s, none⟩).2.saved = none := by
  rw [clean_iff_saved]
  by_cases hw : ∃ n, w n = true
  · obtain ⟨n, hn⟩ := hw
    obtain ⟨m, -, hm⟩ := Faults.exists_first hn
    rw [action_first hm]
    constructor
    · intro h k hk
      rwa [hk.eq hm]
    · exact fun h => h m hm
  · have hnone : ∀ n, w n = false := by
      intro n
      cases hn : w n with
      | false => rfl
      | true => exact absurd ⟨n, hn⟩ hw
    rw [action_none hnone, hend]
    simp only [true_iff]
    intro n hn
    exact absurd hn.1 (by simp [hnone n])

end Proc

end Fts3.Sql
