import Mathlib.Logic.Basic

/-!
# Programs that talk to a store

A client of a database is a finite tree of statements: a `SELECT` reads the store, an `UPDATE`
changes it and returns the number of rows it matched, and `BEGIN`, `COMMIT`, `ROLLBACK` mark the
transactions. The statements of one client are executed one by one, so the same tree is run alone
(`Proc.run`) and interleaved with others (`Pool`).
-/

namespace Fts3.Sql

inductive Tx where
  | begin
  | commit
  | rollback
  deriving DecidableEq, Repr

/-- A client of the store `σ`. `Q` names its queries and `U` is the type of its write statements. -/
inductive Proc (σ Q U α : Type) : Type where
  | ret (a : α)
  | select (q : Q) (k : σ → Proc σ Q U α)
  | update (u : U) (k : Nat → Proc σ Q U α)
  | tx (t : Tx) (k : Proc σ Q U α)

namespace Proc

variable {σ Q U α β : Type}

def returned : Proc σ Q U α → Bool
  | .ret _ => true
  | _ => false

def bind : Proc σ Q U α → (α → Proc σ Q U β) → Proc σ Q U β
  | .ret a, f => f a
  | .select q k, f => .select q fun s => (k s).bind f
  | .update u k, f => .update u fun n => (k n).bind f
  | .tx t k, f => .tx t (k.bind f)

instance : Monad (Proc σ Q U) where
  pure := .ret
  bind := .bind

def query (q : Q) (f : σ → β) : Proc σ Q U β :=
  .select q fun s => .ret (f s)

/-- Execute one write statement; the result is the number of matched rows. -/
def execute (u : U) : Proc σ Q U Nat :=
  .update u .ret

def control (t : Tx) : Proc σ Q U Unit :=
  .tx t (.ret ())

@[simp] theorem pure_eq (a : α) : (pure a : Proc σ Q U α) = .ret a := rfl

@[simp] theorem bind_eq (p : Proc σ Q U α) (f : α → Proc σ Q U β) : p >>= f = p.bind f := rfl

@[simp] theorem ret_bind (a : α) (f : α → Proc σ Q U β) : (Proc.ret a).bind f = f a := rfl

@[simp] theorem select_bind (q : Q) (k : σ → Proc σ Q U α) (f : α → Proc σ Q U β) :
    (Proc.select q k).bind f = .select q fun s => (k s).bind f := rfl

@[simp] theorem update_bind (u : U) (k : Nat → Proc σ Q U α) (f : α → Proc σ Q U β) :
    (Proc.update u k).bind f = .update u fun n => (k n).bind f := rfl

@[simp] theorem tx_bind (t : Tx) (k : Proc σ Q U α) (f : α → Proc σ Q U β) :
    (Proc.tx t k).bind f = .tx t (k.bind f) := rfl

@[simp] theorem bind_ret (p : Proc σ Q U α) : p.bind .ret = p := by
  induction p with
  | ret a => rfl
  | select q k ih => simp only [bind, ih]
  | update u k ih => simp only [bind, ih]
  | tx t k ih => simp only [bind, ih]

theorem bind_assoc {γ : Type} (p : Proc σ Q U α) (f : α → Proc σ Q U β) (g : β → Proc σ Q U γ) :
    (p.bind f).bind g = p.bind fun a => (f a).bind g := by
  induction p with
  | ret a => rfl
  | select q k ih => simp only [bind, ih]
  | update u k ih => simp only [bind, ih]
  | tx t k ih => simp only [bind, ih]

theorem ite_bind {c : Prop} [Decidable c] (p q : Proc σ Q U α) (f : α → Proc σ Q U β) :
    (if c then p else q).bind f = if c then p.bind f else q.bind f := by
  split <;> rfl

/-! ## Running alone -/

/-- Run a client to its end with nobody else on the store. -/
def run (exec : U → σ → Nat × σ) : Proc σ Q U α → σ → α × σ
  | .ret a, s => (a, s)
  | .select _ k, s => (k s).run exec s
  | .update u k, s => (k (exec u s).1).run exec (exec u s).2
  | .tx _ k, s => k.run exec s

section run

variable {exec : U → σ → Nat × σ}

@[simp] theorem run_ret (a : α) (s : σ) : (Proc.ret a : Proc σ Q U α).run exec s = (a, s) := rfl

@[simp] theorem run_select (q : Q) (k : σ → Proc σ Q U α) (s : σ) :
    (Proc.select q k).run exec s = (k s).run exec s := rfl

@[simp] theorem run_update (u : U) (k : Nat → Proc σ Q U α) (s : σ) :
    (Proc.update u k).run exec s = (k (exec u s).1).run exec (exec u s).2 := rfl

@[simp] theorem run_tx (t : Tx) (k : Proc σ Q U α) (s : σ) :
    (Proc.tx t k).run exec s = k.run exec s := rfl

theorem run_bind (p : Proc σ Q U α) (f : α → Proc σ Q U β) (s : σ) :
    (p.bind f).run exec s = (f (p.run exec s).1).run exec (p.run exec s).2 := by
  induction p generalizing s with
  | ret a => rfl
  | select q k ih => exact ih s s
  | update u k ih => exact ih _ _
  | tx t k ih => exact ih s

theorem run_forM_cons {γ : Type} (x : γ) (xs : List γ) (f : γ → Proc σ Q U PUnit) (s : σ) :
    ((x :: xs).forM f).run exec s = (xs.forM f).run exec ((f x).run exec s).2 :=
  run_bind (f x) (fun _ => xs.forM f) s

section view

variable {γ κ ω : Type} {key : γ → κ} {k : κ} (view : σ → ω) {f : γ → Proc σ Q U PUnit}

theorem run_forM_of_ne (xs : List γ) (hne : ∀ x ∈ xs, key x ≠ k)
    (hframe : ∀ x s, key x ≠ k → view ((f x).run exec s).2 = view s) (s : σ) :
    view ((xs.forM f).run exec s).2 = view s := by
  induction xs generalizing s with
  | nil => rfl
  | cons x xs ih =>
      rw [run_forM_cons, ih (fun y hy => hne y (by simp [hy])), hframe x s (hne x (by simp))]

/-- A loop over distinct keys does to `k` what its one step for `k` does. -/
theorem run_forM_of_mem {xs : List γ} (hnodup : (xs.map key).Nodup) {x : γ} (hx : x ∈ xs) (hkey : key x = k)
    (hframe : ∀ x s, key x ≠ k → view ((f x).run exec s).2 = view s) (s : σ) :
    ∃ s', view s' = view s ∧ view ((xs.forM f).run exec s).2 = view ((f x).run exec s').2 := by
  induction xs generalizing s with
  | nil => simp at hx
  | cons y xs ih =>
      rw [List.map_cons, List.nodup_cons] at hnodup
      rw [run_forM_cons]
      rcases List.mem_cons.mp hx with rfl | hmem
      · refine ⟨s, rfl, run_forM_of_ne view xs (fun y hy h => hnodup.1 ?_) hframe _⟩
        rw [hkey, ← h]
        exact List.mem_map_of_mem hy
      · obtain ⟨s', hs', hrun⟩ := ih hnodup.2 hmem ((f y).run exec s).2
        refine ⟨s', hs'.trans (hframe y s fun h => hnodup.1 ?_), hrun⟩
        rw [h, ← hkey]
        exact List.mem_map_of_mem hmem

end view

end run

/-! ## Running among others -/

section amid

variable (exec : U → σ → Nat × σ)

/-- Run a client while others are at work: its `n`-th statement finds the store `seen n`. -/
def amid : Proc σ Q U α → (Nat → σ) → α
  | .ret a, _ => a
  | .select _ k, seen => (k (seen 0)).amid fun n => seen (n + 1)
  | .update u k, seen => (k (exec u (seen 0)).1).amid fun n => seen (n + 1)
  | .tx _ k, seen => k.amid fun n => seen (n + 1)

/-- The write statements of such a run, each with the store that it finds. -/
def issuedAmid : Proc σ Q U α → (Nat → σ) → List (U × σ)
  | .ret _, _ => []
  | .select _ k, seen => (k (seen 0)).issuedAmid fun n => seen (n + 1)
  | .update u k, seen => (u, seen 0) :: (k (exec u (seen 0)).1).issuedAmid fun n => seen (n + 1)
  | .tx _ k, seen => k.issuedAmid fun n => seen (n + 1)

/-- The number of statements of such a run. -/
def lengthAmid : Proc σ Q U α → (Nat → σ) → Nat
  | .ret _, _ => 0
  | .select _ k, seen => (k (seen 0)).lengthAmid (fun n => seen (n + 1)) + 1
  | .update u k, seen => (k (exec u (seen 0)).1).lengthAmid (fun n => seen (n + 1)) + 1
  | .tx _ k, seen => k.lengthAmid (fun n => seen (n + 1)) + 1

variable {exec}

theorem amid_bind (p : Proc σ Q U α) (f : α → Proc σ Q U β) (seen : Nat → σ) :
    (p.bind f).amid exec seen = (f (p.amid exec seen)).amid exec fun n => seen (n + p.lengthAmid exec seen) := by
  induction p generalizing seen with
  | ret a => rfl
  | select q k ih => exact ih (seen 0) fun n => seen (n + 1)
  | update u k ih => exact ih _ fun n => seen (n + 1)
  | tx t k ih => exact ih fun n => seen (n + 1)

theorem issuedAmid_bind (p : Proc σ Q U α) (f : α → Proc σ Q U β) (seen : Nat → σ) :
    (p.bind f).issuedAmid exec seen = p.issuedAmid exec seen ++
      (f (p.amid exec seen)).issuedAmid exec fun n => seen (n + p.lengthAmid exec seen) := by
  induction p generalizing seen with
  | ret a => rfl
  | select q k ih => exact ih (seen 0) fun n => seen (n + 1)
  | update u k ih => exact congrArg _ (ih _ fun n => seen (n + 1))
  | tx t k ih => exact ih fun n => seen (n + 1)

/-- What a client returns while the store stays as it is. -/
def answer (exec : U → σ → Nat × σ) (p : Proc σ Q U α) (s : σ) : α := p.amid exec fun _ => s

@[simp] theorem answer_ret (a : α) (s : σ) : (Proc.ret a : Proc σ Q U α).answer exec s = a := rfl

@[simp] theorem answer_select (q : Q) (k : σ → Proc σ Q U α) (s : σ) :
    (Proc.select q k).answer exec s = (k s).answer exec s := rfl

@[simp] theorem answer_bind (p : Proc σ Q U α) (f : α → Proc σ Q U β) (s : σ) :
    (p.bind f).answer exec s = (f (p.answer exec s)).answer exec s :=
  amid_bind p f fun _ => s

end amid

/-! ## The statements a client can issue -/

/-- Every `UPDATE` that the client can issue, whatever its queries answer, satisfies `P`. -/
def Issues (P : U → Prop) : Proc σ Q U α → Prop
  | .ret _ => True
  | .select _ k => ∀ s, (k s).Issues P
  | .update u k => P u ∧ ∀ n, (k n).Issues P
  | .tx _ k => k.Issues P

section issues

variable {P : U → Prop}

@[simp] theorem issues_ret (a : α) : (Proc.ret a : Proc σ Q U α).Issues P ↔ True := Iff.rfl

@[simp] theorem issues_select (q : Q) (k : σ → Proc σ Q U α) :
    (Proc.select q k).Issues P ↔ ∀ s, (k s).Issues P := Iff.rfl

@[simp] theorem issues_update (u : U) (k : Nat → Proc σ Q U α) :
    (Proc.update u k).Issues P ↔ P u ∧ ∀ n, (k n).Issues P := Iff.rfl

@[simp] theorem issues_tx (t : Tx) (k : Proc σ Q U α) : (Proc.tx t k).Issues P ↔ k.Issues P := Iff.rfl

@[simp] theorem issues_ite {c : Prop} [Decidable c] (p q : Proc σ Q U α) :
    (if c then p else q).Issues P ↔ (c → p.Issues P) ∧ (¬c → q.Issues P) := by
  by_cases h : c <;> simp [h]

theorem Issues.bind {p : Proc σ Q U α} {f : α → Proc σ Q U β} (hp : p.Issues P)
    (hf : ∀ a, (f a).Issues P) : (p.bind f).Issues P := by
  induction p with
  | ret a => exact hf a
  | select q k ih => exact fun s => ih s (hp s)
  | update u k ih => exact ⟨hp.1, fun n => ih n (hp.2 n)⟩
  | tx t k ih => exact ih hp

theorem Issues.mono {P' : U → Prop} {p : Proc σ Q U α} (hp : p.Issues P) (h : ∀ u, P u → P' u) :
    p.Issues P' := by
  induction p with
  | ret a => trivial
  | select q k ih => exact fun s => ih s (hp s)
  | update u k ih => exact ⟨h u hp.1, fun n => ih n (hp.2 n)⟩
  | tx t k ih => exact ih hp

theorem issues_forM {γ : Type} (xs : List γ) (f : γ → Proc σ Q U PUnit)
    (hf : ∀ x ∈ xs, (f x).Issues P) : (xs.forM f).Issues P := by
  induction xs with
  | nil => trivial
  | cons x xs ih =>
      exact (hf x (by simp)).bind fun _ => ih fun y hy => hf y (by simp [hy])

theorem Issues.issuedAmid {exec : U → σ → Nat × σ} {p : Proc σ Q U α} (hp : p.Issues P) (seen : Nat → σ) :
    ∀ e ∈ p.issuedAmid exec seen, P e.1 := by
  induction p generalizing seen with
  | ret a => simp [Proc.issuedAmid]
  | select q k ih => exact ih _ (hp _) _
  | update u k ih =>
      simp only [Proc.issuedAmid, List.forall_mem_cons]
      exact ⟨hp.1, ih _ (hp.2 _) _⟩
  | tx t k ih => exact ih hp _

/-- A client that only reads leaves the store as it is. -/
theorem Issues.run_eq_answer {exec : U → σ → Nat × σ} {p : Proc σ Q U α} (hp : p.Issues fun _ => False) (s : σ) :
    p.run exec s = (p.answer exec s, s) := by
  induction p with
  | ret a => rfl
  | select q k ih => exact ih s (hp s)
  | update u k ih => exact hp.1.elim
  | tx t k ih => exact ih hp

theorem Issues.run {exec : U → σ → Nat × σ} {p : Proc σ Q U α} (hp : p.Issues P) {I : σ → Prop}
    (hI : ∀ u s, P u → I s → I (exec u s).2) {s : σ} (hs : I s) : I (p.run exec s).2 := by
  induction p generalizing s with
  | ret a => exact hs
  | select q k ih => exact ih s (hp s) hs
  | update u k ih => exact ih _ (hp.2 _) (hI u s hp.1 hs)
  | tx t k ih => exact ih hp hs

end issues

/-- Along every path the client either issues an `UPDATE` with `C`, given the number of rows it
matched, or returns a value with `Φ`. -/
def Unless (C : U → Nat → Prop) (Φ : α → Prop) : Proc σ Q U α → Prop
  | .ret a => Φ a
  | .select _ k => ∀ s, (k s).Unless C Φ
  | .update u k => ∀ n, C u n ∨ (k n).Unless C Φ
  | .tx _ k => k.Unless C Φ

section path

variable {C : U → Nat → Prop} {Φ : α → Prop}

@[simp] theorem unless_ret (a : α) : (Proc.ret a : Proc σ Q U α).Unless C Φ ↔ Φ a := Iff.rfl

@[simp] theorem unless_select (q : Q) (k : σ → Proc σ Q U α) :
    (Proc.select q k).Unless C Φ ↔ ∀ s, (k s).Unless C Φ := Iff.rfl

@[simp] theorem unless_update (u : U) (k : Nat → Proc σ Q U α) :
    (Proc.update u k).Unless C Φ ↔ ∀ n, C u n ∨ (k n).Unless C Φ := Iff.rfl

@[simp] theorem unless_tx (t : Tx) (k : Proc σ Q U α) :
    (Proc.tx t k).Unless C Φ ↔ k.Unless C Φ := Iff.rfl

@[simp] theorem unless_ite {c : Prop} [Decidable c] (p q : Proc σ Q U α) :
    (if c then p else q).Unless C Φ ↔ (c → p.Unless C Φ) ∧ (¬c → q.Unless C Φ) := by
  by_cases h : c <;> simp [h]

theorem Unless.bind {Ψ : β → Prop} {p : Proc σ Q U α} {f : α → Proc σ Q U β} (hp : p.Unless C Φ)
    (hf : ∀ a, Φ a → (f a).Unless C Ψ) : (p.bind f).Unless C Ψ := by
  induction p with
  | ret a => exact hf a hp
  | select q k ih => exact fun s => ih s (hp s)
  | update u k ih => exact fun n => (hp n).imp_right (ih n)
  | tx t k ih => exact ih hp

end path

end Proc

end Fts3.Sql
